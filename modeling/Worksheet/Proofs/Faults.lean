import Worksheet.Proofs.ReferenceGraph

/-!
Faults of evaluation. A dialogue is stopped by a fault of its own when it comes to one under the
answers that it is given; otherwise its result is a fault only when it asked for a cell that was
answered with that fault. So a cell means a fault just when some cell, reached from it along
dependencies, has a dialogue that is stopped. Everything else that a sheet of scalars means is a
scalar or an error.
-/
namespace Worksheet.Formula.Steps

/-- A dialogue that comes to a fault of its own when each cell has a fixed answer. -/
inductive Stops (answer : Coord → Except Fault Value) : Steps → Fault → Prop
  | here (f : Fault) : Stops answer (.fault f) f
  | later {c : Coord} {next : Value → Steps} {v : Value} {f : Fault} (hc : answer c = .ok v)
      (h : Stops answer (next v) f) : Stops answer (.ask c next) f

variable {answer : Coord → Except Fault Value} {steps : Steps} {k : Value → Steps} {f : Fault}

theorem not_stops_done {v : Value} : ¬ (done v).Stops answer f := nofun

/-- A fault that is the result is one of the dialogue itself or one of a cell that it asks for. -/
theorem conclude_eq_error_iff : steps.conclude answer = .error f ↔
    steps.Stops answer f ∨ ∃ d, steps.Asks answer d ∧ answer d = .error f := by
  constructor
  · intro h
    induction steps with
    | done v => cases h
    | fault g =>
      cases h
      exact .inl (.here f)
    | ask c next ih =>
      cases hc : answer c with
      | error g =>
        rw [conclude_ask_of_error next hc] at h
        exact .inr ⟨c, .first c next, hc.trans h⟩
      | ok v =>
        rw [conclude_ask_of_ok next hc] at h
        rcases ih v h with hstops | ⟨d, hd, hanswer⟩
        · exact .inl (.later hc hstops)
        · exact .inr ⟨d, .later hc hd, hanswer⟩
  · rintro (hstops | ⟨d, hd, hanswer⟩)
    · induction hstops with
      | here f => rfl
      | later hc _ ih => rw [conclude_ask_of_ok _ hc, ih]
    · induction hd with
      | first c next => exact conclude_ask_of_error next hanswer
      | later hc _ ih => rw [conclude_ask_of_ok _ hc, ih hanswer]

theorem stops_bindGood (h : (steps.bindGood k).Stops answer f) :
    steps.Stops answer f ∨ ∃ v, steps.conclude answer = .ok v ∧ (k v).Stops answer f := by
  unfold bindGood at h
  induction steps with
  | done v =>
    change (if v.isError then done v else k v).Stops answer f at h
    split at h
    · exact absurd h not_stops_done
    · exact .inr ⟨v, rfl, h⟩
  | fault g =>
    cases h
    exact .inl (.here f)
  | ask c next ih =>
    cases h with
    | later hc h =>
      rcases ih _ h with hstops | ⟨w, hw, hk⟩
      · exact .inl (.later hc hstops)
      · exact .inr ⟨w, (conclude_ask_of_ok next hc).trans hw, hk⟩

theorem stops_within {room wanted : Nat} (h : (steps.within room wanted).Stops answer f) :
    room < wanted ∧ f = .nestedTooDeep ∨ steps.Stops answer f := by
  unfold within at h
  split at h
  · rename_i hfew
    cases h
    exact .inl ⟨hfew, rfl⟩
  · exact .inr h

theorem stops_ofExcept {r : Except Fault Value} (h : (ofExcept r).Stops answer f) :
    r = .error f := by
  cases r with
  | ok v => exact absurd h not_stops_done
  | error g =>
    cases h
    rfl

end Worksheet.Formula.Steps

namespace Worksheet.Formula

open Steps

variable {answer : Coord → Except Fault Value} {f : Fault}

theorem not_stops_gather (r : Range) (count i : Nat) (seen : List Value) :
    ¬ (gather r count i seen).Stops answer f := by
  induction count generalizing i seen with
  | zero => exact not_stops_done
  | succ count ih =>
    intro h
    cases h with
    | later hc h =>
      dsimp only at h
      split at h
      · exact not_stops_done h
      · exact ih _ _ h

/-- What stops a call is one of its arguments or what is done with their values. -/
theorem stops_evaluateArgs {evaluate : Node → Steps} {k : List Value → Steps} {args : List Node}
    {seen : List Value} (h : (evaluateArgs evaluate k args seen).Stops answer f) :
    (∃ arg ∈ args, (evaluate arg).Stops answer f) ∨
      ∃ vs, List.Forall₂ (fun arg v => (evaluate arg).conclude answer = .ok v) args vs ∧
        (k (seen.reverse ++ vs)).Stops answer f := by
  induction args generalizing seen with
  | nil =>
    rw [evaluateArgs] at h
    exact .inr ⟨[], .nil, by rwa [List.append_nil]⟩
  | cons n rest ih =>
    rcases stops_bindGood h with hstops | ⟨v, hv, hrest⟩
    · exact .inl ⟨n, List.mem_cons_self, hstops⟩
    · rcases ih hrest with ⟨arg, harg, hstops⟩ | ⟨vs, hvs, hk⟩
      · exact .inl ⟨arg, List.mem_cons_of_mem n harg, hstops⟩
      · rw [List.reverse_cons, List.append_assoc] at hk
        exact .inr ⟨v :: vs, .cons hv hvs, hk⟩

end Worksheet.Formula

namespace Worksheet.Session

open Formula Formula.Steps Relation

variable [CallStack]

variable {s : Sheet} {c d : Coord} {f : Fault}

theorem meaning_eq_error_iff_conclude :
    meaning s c = .error f ↔ (openCell s c).steps.conclude (meaning s) = .error f := by
  rw [meaning_eq_conclude]
  exact map_eq_error

/-- A cell means a fault just when a cell in its reach has a dialogue that is stopped by it. -/
theorem meaning_eq_error_iff : meaning s c = .error f ↔
    ∃ d, ReflTransGen (DependsOn s) c d ∧ (openCell s d).steps.Stops (meaning s) f := by
  constructor
  · intro h
    have hsettles : Settles s c := by
      by_contra hendless
      rw [meaning_of_not_settles hendless] at h
      cases h
    -- Down the dependencies, which come to an end below a cell that settles.
    have hacc : Acc (fun d c => DependsOn s c d) c := acc_of_settles hsettles
    clear hsettles
    induction hacc with
    | intro c _ ih =>
      rcases conclude_eq_error_iff.mp (meaning_eq_error_iff_conclude.mp h) with
        hstops | ⟨d, hd, hfault⟩
      · exact ⟨c, .refl, hstops⟩
      · obtain ⟨e, hde, hstops⟩ := ih d hd hfault
        exact ⟨e, .head hd hde, hstops⟩
  · rintro ⟨d, hcd, hstops⟩
    induction hcd using ReflTransGen.head_induction_on with
    | refl => exact meaning_eq_error_iff_conclude.mpr (conclude_eq_error_iff.mpr (.inl hstops))
    | head hasks _ ih =>
      exact meaning_eq_error_iff_conclude.mpr (conclude_eq_error_iff.mpr (.inr ⟨_, hasks, ih⟩))

/-- What every dialogue of a sheet keeps is a property of every meaning. -/
theorem Ends.of_keeps {P : Value → Prop} (hcells : ∀ c, (openCell s c).steps.Keeps P)
    (hsingle : ∀ v, P v → P v.single) {steps : Steps} {r : Except Fault Value}
    (h : Ends s steps r) (hsteps : steps.Keeps P) : ∀ v, r = .ok v → P v := by
  induction h with
  | done v =>
    rintro w ⟨⟩
    exact hsteps
  | fault f => exact nofun
  | answered hc _ ihc ihnext => exact ihnext (hsteps _ (hsingle _ (ihc (hcells _) _ rfl)))
  | stopped _ _ => exact nofun

def IsRecord : Value → Prop
  | .record _ => True
  | _ => False

theorem openCell_keeps_not_isRecord (hs : Ordinary s) (c : Coord) :
    (openCell s c).steps.Keeps fun v => ¬ IsRecord v := by
  refine openCell_keeps (fun v hv => ?_) (fun vs => id) id (fun d => ?_) c
  · cases hv with
    | number n => cases n <;> exact id
    | error _ => exact id
  · have hscalar := hs d
    generalize s.rawCell d = v at hscalar
    cases v with
    | record fields => exact hscalar.elim
    | _ => exact id

/-- A sheet of scalars means scalars and errors. -/
theorem isScalar_or_isError_of_meaning (hs : Ordinary s) {v : Value} (h : meaning s c = .ok v) :
    IsScalar v ∨ v.isError = true := by
  by_cases hsettles : Settles s c
  · obtain ⟨r, hr⟩ := hsettles
    rw [hr.meaning_eq] at h
    obtain ⟨w, rfl, rfl⟩ := map_eq_ok.mp h
    have hsingle : ∀ v : Value, ¬ IsRecord v → ¬ IsRecord v.single := by
      intro v hv
      cases v with
      | list items => exact id
      | _ => exact hv
    have hcells := openCell_keeps_not_isRecord hs
    have hw := hr.of_keeps hcells hsingle (hcells c) w rfl
    cases w with
    | error code => exact .inr rfl
    | list items => exact .inr rfl
    | record fields => exact absurd trivial hw
    | _ => exact .inl trivial
  · rw [meaning_of_not_settles hsettles] at h
    cases h
    exact .inr rfl

end Worksheet.Session
