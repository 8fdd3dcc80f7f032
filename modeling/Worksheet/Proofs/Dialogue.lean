import Worksheet.Session.Cell

/-!
Dialogues under a fixed way of answering. `conclude` is the result to which the answers lead, `Asks`
the cells that are asked for on the way, and `StopsAtErrors` says that an error ends a dialogue at
once with that error. Every formula stops at errors: its operations look at a value only when it is
none.
-/
namespace Worksheet.Formula.Steps

/-- The result of a dialogue when each cell has a fixed answer. -/
def conclude (answer : Coord → Except Fault Value) (steps : Steps) : Except Fault Value :=
  steps.run answer .error

/-- The cells that a dialogue asks for when each cell has a fixed answer. -/
inductive Asks (answer : Coord → Except Fault Value) : Steps → Coord → Prop
  | first (c : Coord) (next : Value → Steps) : Asks answer (.ask c next) c
  | later {c : Coord} {next : Value → Steps} {v : Value} {d : Coord} (hc : answer c = .ok v)
      (hd : Asks answer (next v) d) : Asks answer (.ask c next) d

/-- An error ends a dialogue at once and is its result. -/
def StopsAtErrors : Steps → Prop
  | .done _ => True
  | .fault _ => True
  | .ask _ next => (∀ code, next (.error code) = .done (.error code)) ∧
      ∀ v, (next v).StopsAtErrors

section Answers
variable {answer : Coord → Except Fault Value}

theorem conclude_ask_of_ok {c : Coord} {v : Value} (next : Value → Steps) (h : answer c = .ok v) :
    (ask c next).conclude answer = (next v).conclude answer := by
  simp only [conclude, run, h]
  rfl

theorem conclude_ask_of_error {c : Coord} {f : Fault} (next : Value → Steps)
    (h : answer c = .error f) : (ask c next).conclude answer = .error f := by
  simp only [conclude, run, h]
  rfl

theorem not_asks_done {v : Value} {d : Coord} : ¬ (done v).Asks answer d := nofun

theorem not_asks_fault {f : Fault} {d : Coord} : ¬ (fault f).Asks answer d := nofun

end Answers

theorem stopsAtErrors_bind {steps : Steps} {k : Value → Steps} (hs : steps.StopsAtErrors)
    (herror : ∀ code, k (.error code) = .done (.error code)) (hk : ∀ v, (k v).StopsAtErrors) :
    (steps.bind k).StopsAtErrors := by
  induction steps with
  | done v => exact hk v
  | fault f => trivial
  | ask c next ih =>
    refine ⟨fun code => ?_, fun v => ih v (hs.2 v)⟩
    change (next (.error code)).bind k = _
    rw [hs.1 code]
    exact herror code

theorem stopsAtErrors_bindGood {steps : Steps} {k : Value → Steps} (hs : steps.StopsAtErrors)
    (hk : ∀ v, (k v).StopsAtErrors) : (steps.bindGood k).StopsAtErrors := by
  refine stopsAtErrors_bind hs (fun code => rfl) fun v => ?_
  split
  · trivial
  · exact hk v

theorem stopsAtErrors_ofExcept (r : Except Fault Value) : (ofExcept r).StopsAtErrors := by
  cases r with
  | ok v => trivial
  | error f => trivial

/-- What holds of a dialogue holds of it too where there may be too few frames for it. -/
theorem within_of {P : Steps → Prop} {steps : Steps} (hs : P steps)
    (hfault : P (.fault .nestedTooDeep)) (room wanted : Nat) : P (steps.within room wanted) := by
  unfold within
  split
  · exact hfault
  · exact hs

theorem stopsAtErrors_within {steps : Steps} (hs : steps.StopsAtErrors) (room wanted : Nat) :
    (steps.within room wanted).StopsAtErrors := within_of hs trivial room wanted

end Worksheet.Formula.Steps

namespace Worksheet.Formula

open Steps

theorem gather_stopsAtErrors (r : Range) (count i : Nat) (seen : List Value) :
    (gather r count i seen).StopsAtErrors := by
  induction count generalizing i seen with
  | zero => trivial
  | succ count ih =>
    refine ⟨fun code => rfl, fun v => ?_⟩
    dsimp only
    split
    · trivial
    · exact ih (i + 1) (v :: seen)

theorem cellSteps_stopsAtErrors (ref : String) : (cellSteps ref).StopsAtErrors := by
  unfold cellSteps
  split
  · trivial
  · trivial
  · exact ⟨fun code => rfl, fun v => trivial⟩

theorem rangeSteps_stopsAtErrors (start stop : String) :
    (rangeSteps start stop).StopsAtErrors := by
  unfold rangeSteps
  split
  · trivial
  · trivial
  · exact gather_stopsAtErrors _ _ _ _

theorem evaluateArgs_stopsAtErrors {evaluate : Node → Steps} {k : List Value → Steps}
    (hevaluate : ∀ n, (evaluate n).StopsAtErrors) (hk : ∀ vs, (k vs).StopsAtErrors)
    (args : List Node) (seen : List Value) : (evaluateArgs evaluate k args seen).StopsAtErrors := by
  induction args generalizing seen with
  | nil => exact hk seen.reverse
  | cons n rest ih => exact stopsAtErrors_bindGood (hevaluate n) fun v => ih (v :: seen)

theorem evaluate_stopsAtErrors [CallStack] (room : Nat) (node : Node) :
    (evaluate room node).StopsAtErrors := by
  induction room using Nat.strongRecOn generalizing node with
  | ind room ih =>
  cases room with
  | zero => trivial
  | succ room =>
    have hinner (k : Nat) (n : Node) : (evaluate (room - k) n).StopsAtErrors :=
      ih (room - k) (by omega) n
    cases node with
    | constant v => trivial
    | cell ref => exact stopsAtErrors_within (cellSteps_stopsAtErrors ref) _ _
    | range start stop => exact stopsAtErrors_within (rangeSteps_stopsAtErrors start stop) _ _
    | negate operand =>
      refine stopsAtErrors_bindGood (hinner 0 operand) fun v => ?_
      have hdone : (Steps.done (negated v)).StopsAtErrors := trivial
      exact stopsAtErrors_within hdone _ _
    | binary op left right =>
      rw [evaluate_binary]
      refine stopsAtErrors_bindGood (hinner 1 left) fun a => ?_
      split
      · trivial
      · refine stopsAtErrors_bindGood (hinner 1 right) fun b => ?_
        split
        · trivial
        · exact stopsAtErrors_within (stopsAtErrors_ofExcept _) _ _
    | call name args =>
      rw [evaluate_call]
      refine stopsAtErrors_within ?_ _ _
      exact evaluateArgs_stopsAtErrors (hinner 1)
        (fun vs => stopsAtErrors_within (stopsAtErrors_ofExcept _) _ _) args []
    | foreign => trivial

end Worksheet.Formula

namespace Worksheet.Session

open Formula

variable [CallStack]

theorem openFormula_stopsAtErrors (c : Coord) (formula : String) :
    (openFormula c formula).steps.StopsAtErrors := by
  unfold openFormula
  split
  · trivial
  · split
    · exact evaluate_stopsAtErrors _ _
    · trivial
    · trivial
    · trivial

theorem openCell_stopsAtErrors (s : Sheet) (c : Coord) : (openCell s c).steps.StopsAtErrors := by
  unfold openCell
  split
  · exact openFormula_stopsAtErrors c _
  · trivial

end Worksheet.Session
