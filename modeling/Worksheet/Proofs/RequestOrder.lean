import Worksheet.Proofs.Occurrences

/-!
Conversations with a formula. Whatever values it is answered with, a formula asks for the cells to
which its references refer, in the order in which they are written and row by row in a range. An
answer with an error ends the conversation with that error, and only a conversation without any
error comes to the last cell. So every cell that is asked for is one of a listed reference.
-/
namespace Worksheet.Formula

/-- The questions that were answered, the first one first, and where a dialogue stands then. -/
structure Conversation where
  log : List (Coord × Value)
  state : Steps

namespace Steps

/-- The cell for which a dialogue waits. -/
def question? : Steps → Option Coord
  | .ask c _ => some c
  | _ => none

/-- Answer a dialogue with one value after the other, as long as it asks. -/
def converse : Steps → List Value → Conversation
  | .ask c next, v :: replies =>
    let later := (next v).converse replies
    ⟨(c, v) :: later.log, later.state⟩
  | steps, _ => ⟨[], steps⟩

end Steps

namespace Conversation

/-- The cells that were asked for, whether or not the last question was answered. -/
def requests (talk : Conversation) : List Coord :=
  talk.log.map Prod.fst ++ talk.state.question?.toList

end Conversation

open Steps

variable {steps : Steps} {cs : List Coord} {replies : List Value}

@[simp] theorem converse_done (v : Value) (replies : List Value) :
    (done v).converse replies = ⟨[], .done v⟩ := rfl

@[simp] theorem converse_fault (f : Fault) (replies : List Value) :
    (fault f).converse replies = ⟨[], .fault f⟩ := rfl

@[simp] theorem converse_ask_nil (c : Coord) (next : Value → Steps) :
    (ask c next).converse [] = ⟨[], .ask c next⟩ := rfl

theorem requests_ask_cons (c : Coord) (next : Value → Steps) (v : Value) (replies : List Value) :
    ((ask c next).converse (v :: replies)).requests =
      c :: ((next v).converse replies).requests := rfl

theorem Steps.Follows.isPrefix_requests (h : steps.Follows cs) (replies : List Value) :
    (steps.converse replies).requests <+: cs := by
  induction steps generalizing cs replies with
  | done v => exact List.nil_prefix
  | fault f => exact List.nil_prefix
  | ask c next ih =>
    obtain ⟨rest, rfl, hnext⟩ := h
    cases replies with
    | nil => exact List.prefix_append [c] rest
    | cons v replies =>
      rw [requests_ask_cons]
      exact (List.prefix_cons_inj c).mpr (ih v (hnext v) replies)

theorem Steps.Follows.requests_eq (h : steps.Follows cs) {v : Value}
    (hend : (steps.converse replies).state = .done v) (hv : v.isError = false) :
    (steps.converse replies).requests = cs := by
  induction steps generalizing cs replies with
  | done w =>
    cases hend
    exact (h hv).symm
  | fault f => cases hend
  | ask c next ih =>
    obtain ⟨rest, rfl, hnext⟩ := h
    cases replies with
    | nil => cases hend
    | cons w replies =>
      rw [requests_ask_cons, ih w (hnext w) hend]

theorem Steps.StopsAtErrors.ends (h : steps.StopsAtErrors) {front behind : List (Coord × Value)}
    {c : Coord} {code : ErrorCode}
    (hlog : (steps.converse replies).log = front ++ (c, .error code) :: behind) :
    behind = [] ∧ (steps.converse replies).state = .done (.error code) := by
  induction steps generalizing front replies with
  | done w => simp at hlog
  | fault f => simp at hlog
  | ask d next ih =>
    cases replies with
    | nil => simp at hlog
    | cons w replies =>
      change (d, w) :: ((next w).converse replies).log = _ at hlog
      change behind = [] ∧ ((next w).converse replies).state = _
      cases front with
      | nil =>
        obtain ⟨hfirst, hlater⟩ := List.cons.inj hlog
        cases hfirst
        rw [h.1] at hlater ⊢
        exact ⟨hlater.symm, rfl⟩
      | cons entry front => exact ih w (h.2 w) (List.cons.inj hlog).2

/-- What a formula asks for and what `references` lists of it. Its questions are the first of its
cells, in order; an error that it is answered with is the end; and it has asked for all its cells
when it ends without an error. The list has every reference once, in upper case, and each cell asked
for is a cell of one of them. -/
theorem requests_of_references [CallStack] (node : Node) (replies : List Value) :
    let talk := node.steps.converse replies
    let listed := (node.occurrences.map Reference.text).eraseDups
    talk.requests <+: node.coords ∧
    (∀ front c code behind, talk.log = front ++ (c, .error code) :: behind →
      behind = [] ∧ talk.state = .done (.error code)) ∧
    (∀ v, talk.state = .done v → v.isError = false → talk.requests = node.coords) ∧
    references node =
      (if CallStack.listing < node.depth then .error .nestedTooDeep else .ok listed) ∧
    ∀ c ∈ talk.requests, ∃ name ∈ listed, c ∈ (Reference.ofText name).coords := by
  intro talk listed
  have hfollows : node.steps.Follows node.coords := evaluate_follows _ node
  have hbegin : talk.requests <+: node.coords := hfollows.isPrefix_requests replies
  refine ⟨hbegin, fun front c code behind hlog => ?_, fun v hend hv => ?_, references_eq node,
    fun c hc => ?_⟩
  · exact (evaluate_stopsAtErrors _ node).ends hlog
  · exact hfollows.requests_eq hend hv
  · obtain ⟨ref, href, hmem⟩ := List.mem_flatMap.mp (hbegin.subset hc)
    exact ⟨ref.text, List.mem_eraseDups.mpr (List.mem_map_of_mem href), mem_coords_ofText hmem⟩

/-- The sum of three cells, two of them in a range that starts with its last corner. -/
def tally : Node := .call "SUM" [.range "B1" "a1", .cell "C1"]

attribute [local instance] CallStack.usual

theorem requests_of_references_tally :
    references tally = .ok ["B1:A1", "C1"] ∧
    (tally.steps.converse [.int 1, .int 2, .int 3]).requests = [⟨0, 0⟩, ⟨0, 1⟩, ⟨0, 2⟩] ∧
    (tally.steps.converse [.int 1, .error .division, .int 3]).state =
      .done (.error .division) := by
  have hcoords : tally.coords = [⟨0, 0⟩, ⟨0, 1⟩, ⟨0, 2⟩] := by rfl
  have hsum : (tally.steps.converse [.int 1, .int 2, .int 3]).state = .done (.int 6) := by rfl
  have herror : (tally.steps.converse [.int 1, .error .division, .int 3]).log =
      [(⟨0, 0⟩, .int 1)] ++ (⟨0, 1⟩, .error .division) :: [] := by rfl
  refine ⟨(requests_of_references tally []).2.2.2.1.trans (by rfl), ?_, ?_⟩
  · rw [← hcoords]
    exact (requests_of_references tally [.int 1, .int 2, .int 3]).2.2.1 (.int 6) hsum rfl
  · exact ((requests_of_references tally [.int 1, .error .division, .int 3]).2.1
      _ _ _ _ herror).2

end Worksheet.Formula
