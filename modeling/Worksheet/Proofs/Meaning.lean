import Mathlib.Logic.Relation
import Worksheet.Proofs.Dialogue

/-!
The meaning of a cell, which no stack and no memory enters. A dialogue ends when every cell that it
asks for has a dialogue that ends; a cell whose dialogue does not end means a cycle error. The
meaning of a cell is the result of its dialogue when all questions are answered by meanings, and a
cell that depends on itself never settles.
-/
namespace Worksheet.Session

open Formula Formula.Steps Relation

theorem not_transGen_self_of_acc {α : Type} {r : α → α → Prop} {a : α} (h : Acc r a) :
    ¬ TransGen r a a := by
  have hacc : Acc (TransGen r) a := h.transGen
  induction hacc with
  | intro b _ ih => exact fun hb => ih b hb (h.inv_of_transGen hb) hb

variable [CallStack]

/-- A dialogue that ends, every answer being the value of a cell whose own dialogue ends. -/
inductive Ends (s : Sheet) : Steps → Except Fault Value → Prop
  | done (v : Value) : Ends s (.done v) (.ok v)
  | fault (f : Fault) : Ends s (.fault f) (.error f)
  | answered {c : Coord} {next : Value → Steps} {v : Value} {r : Except Fault Value}
      (hc : Ends s (openCell s c).steps (.ok v)) (hnext : Ends s (next v.single) r) :
      Ends s (.ask c next) r
  | stopped {c : Coord} {next : Value → Steps} {f : Fault}
      (hc : Ends s (openCell s c).steps (.error f)) : Ends s (.ask c next) (.error f)

def Settles (s : Sheet) (c : Coord) : Prop := ∃ r, Ends s (openCell s c).steps r

open Classical in
/-- The value of a cell that settles, and a cycle error for one that does not. -/
noncomputable def meaning (s : Sheet) (c : Coord) : Except Fault Value :=
  if h : Settles s c then h.choose.map Value.single else .ok (.error .cycle)

/-- A cell depends on the cells that its dialogue asks for. -/
def DependsOn (s : Sheet) (c d : Coord) : Prop := (openCell s c).steps.Asks (meaning s) d

variable {s : Sheet}

theorem Ends.unique {steps : Steps} {r r' : Except Fault Value} (h : Ends s steps r)
    (h' : Ends s steps r') : r = r' := by
  induction h generalizing r' with
  | done v =>
    cases h'
    rfl
  | fault f =>
    cases h'
    rfl
  | answered hc hnext ihc ihnext =>
    cases h' with
    | answered hc' hnext' =>
      cases ihc hc'
      exact ihnext hnext'
    | stopped hc' => cases ihc hc'
  | stopped hc ihc =>
    cases h' with
    | answered hc' hnext' => cases ihc hc'
    | stopped hc' =>
      cases ihc hc'
      rfl

theorem Ends.meaning_eq {c : Coord} {r : Except Fault Value}
    (h : Ends s (openCell s c).steps r) : meaning s c = r.map Value.single := by
  have hs : Settles s c := ⟨r, h⟩
  rw [meaning, dif_pos hs, hs.choose_spec.unique h]

theorem meaning_of_not_settles {c : Coord} (h : ¬ Settles s c) :
    meaning s c = .ok (.error .cycle) := dif_neg h

/-- A dialogue that ends has the result to which the meanings of its cells lead. -/
theorem Ends.conclude_eq {steps : Steps} {r : Except Fault Value} (h : Ends s steps r) :
    steps.conclude (meaning s) = r := by
  induction h with
  | done v => rfl
  | fault f => rfl
  | @answered c next v r hc hnext ihc ihnext =>
    rw [conclude_ask_of_ok next (v := v.single) hc.meaning_eq, ihnext]
  | @stopped c next f hc ihc => exact conclude_ask_of_error next hc.meaning_eq

/-- A dialogue that does not end leads to a cycle error: some cell that it asks for does not settle,
and the answer of that cell is the last one. -/
theorem conclude_of_endless {steps : Steps} (hs : steps.StopsAtErrors)
    (h : ∀ r, ¬ Ends s steps r) : steps.conclude (meaning s) = .ok (.error .cycle) := by
  induction steps with
  | done v => exact absurd (.done v) (h _)
  | fault f => exact absurd (.fault f) (h _)
  | ask c next ih =>
    by_cases hc : Settles s c
    · obtain ⟨r, hr⟩ := hc
      cases r with
      | error f => exact absurd (.stopped hr) (h _)
      | ok v =>
        rw [conclude_ask_of_ok next (v := v.single) hr.meaning_eq]
        exact ih _ (hs.2 _) fun r hnext => h r (.answered hr hnext)
    · rw [conclude_ask_of_ok next (meaning_of_not_settles hc), hs.1]
      rfl

/-- The meaning of a cell is the result of its dialogue when all answers are meanings. -/
theorem meaning_eq_conclude (s : Sheet) (c : Coord) :
    meaning s c = ((openCell s c).steps.conclude (meaning s)).map Value.single := by
  by_cases hc : Settles s c
  · obtain ⟨r, hr⟩ := hc
    rw [hr.meaning_eq, hr.conclude_eq]
  · rw [meaning_of_not_settles hc, conclude_of_endless (openCell_stopsAtErrors s c)
      fun r hr => hc ⟨r, hr⟩]
    rfl

/-- From a cell that an ending dialogue asks for, all ways along dependencies come to an end. -/
theorem Ends.acc_of_asks {steps : Steps} {r : Except Fault Value} (h : Ends s steps r) :
    ∀ d, steps.Asks (meaning s) d → Acc (fun d c => DependsOn s c d) d := by
  induction h with
  | done v => exact fun d hd => absurd hd not_asks_done
  | fault f => exact fun d hd => absurd hd not_asks_fault
  | @answered c next v r hc hnext ihc ihnext =>
    intro d hd
    cases hd with
    | first => exact ⟨_, ihc⟩
    | later hv hd =>
      have hsingle : meaning s c = .ok v.single := hc.meaning_eq
      rw [hsingle] at hv
      cases hv
      exact ihnext d hd
  | @stopped c next f hc ihc =>
    intro d hd
    cases hd with
    | first => exact ⟨_, ihc⟩
    | later hv hd =>
      have hfault : meaning s c = .error f := hc.meaning_eq
      rw [hfault] at hv
      cases hv

theorem acc_of_settles {c : Coord} (h : Settles s c) : Acc (fun d c => DependsOn s c d) c := by
  obtain ⟨r, hr⟩ := h
  exact ⟨_, hr.acc_of_asks⟩

/-- A cell that depends on itself means a cycle error. -/
theorem meaning_of_dependsOn_self {c : Coord} (h : TransGen (DependsOn s) c c) :
    meaning s c = .ok (.error .cycle) := by
  refine meaning_of_not_settles fun hc => ?_
  exact not_transGen_self_of_acc (acc_of_settles hc) (transGen_swap.mpr h)

end Worksheet.Session
