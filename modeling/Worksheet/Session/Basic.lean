import Worksheet.Display.Basic
import Worksheet.Session.Run

/-!
A session evaluates the cells of one sheet and remembers them. It belongs to the revision of the
sheet at which it began; once the sheet is edited it is stale, and a fresh session takes its place.
-/
namespace Worksheet

open Display (Settings)

structure Session where
  /-- The number by which a host knows the sheet. -/
  sheet : Nat
  revision : Nat
  settings : Settings
  memo : Memo := {}

/-- A session after a call, what the call returned and what it reported. -/
structure Called (α : Type) where
  session : Session
  result : Except Fault α
  events : List Log.Event := []

namespace Session

variable [Formula.CallStack]

/-- A fresh session on a sheet as it is now. -/
def begin (sheet : Nat) (s : Sheet) (settings : Settings) : Session :=
  ⟨sheet, s.revision, settings, {}⟩

/-- Whether the sheet was edited since the session began. -/
def isStale (ses : Session) (s : Sheet) : Bool := s.revision != ses.revision

/-- Whether a session is current for a sheet. -/
def owns (ses : Session) (sheet : Nat) (s : Sheet) : Bool := ses.sheet == sheet && !ses.isStale s

/-- The value of a cell. -/
def value (ses : Session) (s : Sheet) (c : Coord) : Called Value :=
  let o := resolve s ses.memo c
  ⟨{ ses with memo := o.memo }, o.result, o.events⟩

/-- The text that a cell shows in its own format. -/
def displayValue (ses : Session) (s : Sheet) (c : Coord) : Called String :=
  let called := ses.value s c
  match called.result with
  | .error f => ⟨called.session, .error f, called.events⟩
  | .ok v =>
    ⟨called.session, Display.display ses.settings (.ofFields (s.cellFormat c)) v,
      called.events ++ s.readEvents c⟩

/-- Show one cell after the other, up to the first fault. -/
def displayAll (s : Sheet) : List Coord → Session → Called (List String)
  | [], ses => ⟨ses, .ok [], []⟩
  | c :: rest, ses =>
    let shown := ses.displayValue s c
    match shown.result with
    | .error f => ⟨shown.session, .error f, shown.events⟩
    | .ok text =>
      let others := displayAll s rest shown.session
      ⟨others.session, others.result.map (text :: ·), shown.events ++ others.events⟩

/-- The positions of the grid row by row, as far as its column count goes. -/
def gridRow (s : Sheet) (row : Nat) : List Coord :=
  (List.range s.columnCount.toNat).map fun (col : Nat) => ⟨row, col⟩

def displayRows (s : Sheet) : List Nat → Session → Called (List (List String))
  | [], ses => ⟨ses, .ok [], []⟩
  | r :: rest, ses =>
    let shown := displayAll s (gridRow s r) ses
    match shown.result with
    | .error f => ⟨shown.session, .error f, shown.events⟩
    | .ok row =>
      let others := displayRows s rest shown.session
      ⟨others.session, others.result.map (row :: ·), shown.events ++ others.events⟩

/-- The addresses of the cells with an error and their codes. -/
def errors (ses : Session) : List (String × ErrorCode) :=
  ses.memo.errors.map fun (c, code) => (Sheet.addressText c, code)

def renderEvent (ses : Session) (s : Sheet) : Log.Event where
  level := .info
  type := .renderCompleted
  message := "Rendered sheet"
  context := [("rows", .int s.rowCount), ("cols", .int s.columnCount),
    ("errors", .int ses.errors.length), ("hits", .int ses.memo.hits),
    ("misses", .int ses.memo.misses)]

/-- Show the whole grid. -/
def evaluateAll (ses : Session) (s : Sheet) : Called (List (List String)) :=
  let shown := displayRows s (List.range s.rowCount) ses
  match shown.result with
  | .error f => ⟨shown.session, .error f, shown.events⟩
  | .ok grid => ⟨shown.session, .ok grid, shown.events ++ [shown.session.renderEvent s]⟩

end Session
end Worksheet
