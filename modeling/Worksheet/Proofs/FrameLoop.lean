import Mathlib.Data.Finset.Basic
import Mathlib.Logic.Relation
import Worksheet.Proofs.RequestOrder
import Worksheet.Session.Run

/-!
The loop over suspended cells with all that it keeps. Besides its memory a session has a stack of
the cells under evaluation and the same cells as a set, and the loop has a list of their generators;
each is changed at a place of its own. A pass sends the last generator a reply and deals with what
comes back.
-/
namespace Worksheet.Session

open Formula Formula.Steps Relation

variable [CallStack]

/-! ### Books -/

/-- What a session keeps: its memory, the cells under evaluation, the last one entered in front, and
the same cells as a set. -/
structure Books where
  memo : Memo
  stack : List Coord
  inProgress : Finset Coord

namespace Books

/-- The books of a session that evaluates nothing. -/
def idle (memo : Memo) : Books := ⟨memo, [], ∅⟩

def hit (b : Books) : Books := { b with memo := b.memo.hit }

def enter (b : Books) (c : Coord) : Books := ⟨b.memo.miss, c :: b.stack, insert c b.inProgress⟩

/-- Finish a cell and take the last one off the stack, which must have one. -/
def leave (b : Books) (c : Coord) (v : Value) : Option Books :=
  match b.stack with
  | [] => none
  | _ :: stack => some ⟨b.memo.keep c v.single, stack, b.inProgress.erase c⟩

/-- Give cells up, as many of the stack as there are of them. -/
def release (b : Books) (cells : List Coord) : Books :=
  ⟨b.memo, b.stack.drop cells.length, cells.foldl Finset.erase b.inProgress⟩

end Books

/-! ### The loop -/

/-- A generator of a cell: it has not started, or it waits for a reply. -/
inductive Generator where
  | fresh
  | waiting (next : Value → Steps)

structure Level where
  cell : Coord
  generator : Generator

/-- What comes back when a generator is sent a reply; to start one any reply will do. -/
def Level.send (s : Sheet) (level : Level) (reply : Value) : Opened :=
  match level.generator with
  | .fresh => openCell s level.cell
  | .waiting next => ⟨next reply, []⟩

/-- The loop between two passes, the last level in front. -/
structure Loop where
  books : Books
  levels : List Level
  reply : Value
  events : List Log.Event

/-- What a resolution leaves. -/
structure Ended where
  books : Books
  result : Except Fault Value
  events : List Log.Event

inductive Pass where
  | next (l : Loop)
  | over (e : Ended)
  /-- Something was looked for on the stack and is not there. -/
  | lost

namespace Loop

/-- A cell has been entered, and nothing waits for it. -/
def begin (b : Books) (c : Coord) : Loop := ⟨b.enter c, [⟨c, .fresh⟩], .null, []⟩

/-- One pass: without a level the loop is over, and a fault ends it once its levels are released. -/
def pass (s : Sheet) (l : Loop) : Pass :=
  match l.levels with
  | [] => .over ⟨l.books, .ok l.reply, l.events⟩
  | level :: below =>
    let sent := level.send s l.reply
    let events := l.events ++ sent.events
    match sent.steps with
    | .done v =>
      match l.books.leave level.cell v with
      | none => .lost
      | some books => .next ⟨books, below, v.single, events⟩
    | .fault f => .over ⟨l.books.release (l.levels.map (·.cell)), .error f, events⟩
    | .ask c next =>
      let levels := ⟨level.cell, .waiting next⟩ :: below
      match l.books.memo.find? c with
      | some v => .next ⟨l.books.hit, levels, v, events⟩
      | none =>
        if c ∈ l.books.inProgress then
          if c ∈ l.books.stack then
            .next ⟨l.books, levels, .error .cycle,
              events ++ [Machine.cycleWarning l.books.stack c]⟩
          else .lost
        else .next ⟨l.books.enter c, ⟨c, .fresh⟩ :: levels, .null, events⟩

/-- Pass after pass. -/
def Leads (s : Sheet) : Loop → Loop → Prop := ReflTransGen fun l l' => l.pass s = .next l'

/-- The cell for which the next pass is asked. -/
def request? (s : Sheet) (l : Loop) : Option Coord :=
  l.levels.head?.bind fun level => (level.send s l.reply).steps.question?

end Loop

/-! ### Resolutions -/

/-- The loops on the way to the value of a cell that must be evaluated. -/
def Books.Runs (s : Sheet) (b : Books) (c : Coord) (l : Loop) : Prop :=
  b.memo.find? c = none ∧ c ∉ b.inProgress ∧ (Loop.begin b c).Leads s l

/-- A cell is resolved: from memory, as one that is under evaluation, or by the loop. -/
inductive Books.Resolves (s : Sheet) (b : Books) (c : Coord) : Ended → Prop
  | known {v : Value} (hknown : b.memo.find? c = some v) : Resolves s b c ⟨b.hit, .ok v, []⟩
  | repeated (hunknown : b.memo.find? c = none) (hactive : c ∈ b.inProgress) (hc : c ∈ b.stack) :
      Resolves s b c ⟨b, .ok (.error .cycle), [Machine.cycleWarning b.stack c]⟩
  | looped {l : Loop} {e : Ended} (hl : b.Runs s c l) (hover : l.pass s = .over e) :
      Resolves s b c e

/-- The books of a session that has resolved some cells, on sheets edited in between or not. -/
inductive Books.Served : Books → Prop
  | fresh : Served (.idle {})
  | resolved {s : Sheet} {b : Books} {c : Coord} {e : Ended} (hb : b.Served)
      (he : b.Resolves s c e) : Served e.books

/-- A loop asks for a cell that is under evaluation and not remembered. -/
def Loop.AsksAgain (s : Sheet) (l : Loop) (c : Coord) : Prop :=
  l.request? s = some c ∧ l.books.memo.find? c = none ∧ c ∈ l.books.inProgress

end Worksheet.Session
