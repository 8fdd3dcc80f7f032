import Worksheet.Address
import Worksheet.Formula.CallStack

/-!
Evaluation of a formula as a dialogue: it asks for one cell after the other and goes on with the
answers, so that whoever answers decides how cells are looked up. Errors are values: the first one
met, from left to right and row by row, is the result, and nothing is asked after it. The evaluation
of a node takes a frame of the call stack, and another one where it is an operation with more than
one part.
-/
namespace Worksheet.Formula

/-- A formula on its way: finished, stopped by a fault, or waiting for a cell. -/
inductive Steps where
  | done (v : Value)
  | fault (f : Fault)
  | ask (c : Coord) (next : Value → Steps)

namespace Steps

/-- Go on with the value of a finished dialogue. -/
def bind : Steps → (Value → Steps) → Steps
  | .done v, k => k v
  | .fault f, _ => .fault f
  | .ask c next, k => .ask c fun v => (next v).bind k

/-- Go on unless the value is an error, which is then the result. -/
def bindGood (s : Steps) (k : Value → Steps) : Steps :=
  s.bind fun v => if v.isError then .done v else k v

def ofExcept : Except Fault Value → Steps
  | .ok v => .done v
  | .error f => .fault f

/-- Hold the dialogue with lookups of any kind. -/
def run {m : Type → Type} [Monad m] (lookup : Coord → m Value) (fail : Fault → m Value) :
    Steps → m Value
  | .done v => pure v
  | .fault f => fail f
  | .ask c next => lookup c >>= fun v => (next v).run lookup fail

end Steps

/-- Ask for the cells of a range from place `i` on, `count` of them. -/
def gather (r : Range) : (count i : Nat) → List Value → Steps
  | 0, _, seen => .done (.list seen.reverse)
  | count + 1, i, seen =>
    .ask (r.nth i) fun v => if v.isError then .done v else gather r count (i + 1) (v :: seen)

def cellSteps (ref : String) : Steps :=
  match Coord.read ref with
  | .error f => .fault f
  | .ok none => .done (.error .reference)
  | .ok (some c) => .ask c .done

def rangeSteps (start stop : String) : Steps :=
  match Range.read start stop with
  | .error f => .fault f
  | .ok none => .done (.error .reference)
  | .ok (some r) => gather r r.size 0 []

/-- The opposite of a value in arithmetic. -/
def negated (v : Value) : Value :=
  match v.toNumber with
  | .error code => .error code
  | .ok n => n.neg.toValue

/-- An operation on two numbers; division by nought and unknown operators give an error. -/
def operate (op : Operator) (a b : Number) : Except Fault Value :=
  match op with
  | .add => (a.add b).map Number.toValue
  | .sub => (a.sub b).map Number.toValue
  | .mul => (a.mul b).map Number.toValue
  | .div => if b.isNought then .ok (.error .division) else (a.div b).map Number.toValue
  | .unknown => .ok (.error .value)

/-- An operation on two values that are no errors. -/
def combined (op : Operator) (a b : Value) : Except Fault Value :=
  match a.toNumber, b.toNumber with
  | .ok m, .ok n => operate op m n
  | .error code, _ => .ok (.error code)
  | _, .error code => .ok (.error code)

def isList : Value → Bool
  | .list _ => true
  | _ => false

/-- The values of arguments with the cells of ranges among them. -/
def flatten (args : List Value) : List Value :=
  args.flatMap fun
    | .list items => items
    | v => [v]

theorem flatten_append (vs ws : List Value) : flatten (vs ++ ws) = flatten vs ++ flatten ws :=
  List.flatMap_append

/-- Values that are no lists stand for themselves. -/
theorem flatten_of_singles {vs : List Value} (h : ∀ v ∈ vs, isList v = false) :
    flatten vs = vs := by
  induction vs with
  | nil => rfl
  | cons v rest ih =>
    have hrest := ih fun w hw => h w (List.mem_cons_of_mem v hw)
    have hv := h v List.mem_cons_self
    cases v with
    | list items => cases hv
    | _ => exact congrArg (List.cons _) hrest

inductive Aggregate where
  | sum
  | average
  | least
  | greatest
  | count
  deriving DecidableEq, Repr

namespace Aggregate

/-- The function of a name, whatever its case. -/
def ofName? (name : String) : Option Aggregate :=
  let name := Text.upperText name
  if name == "SUM" then some .sum
  else if name == "AVERAGE" then some .average
  else if name == "MIN" then some .least
  else if name == "MAX" then some .greatest
  else if name == "COUNT" then some .count
  else none

def apply : Aggregate → List Number → Except Fault Number
  | .sum, ns => Number.sum ns
  | .average, ns => Number.average ns
  | .least, ns => .ok (Number.least ns)
  | .greatest, ns => .ok (Number.greatest ns)
  | .count, ns => .ok (.int ns.length)

end Aggregate

/-- The numbers among values, in order. -/
def numbersAmong : List Value → Except Fault (List Number)
  | [] => .ok []
  | v :: rest => do
    let counts ← v.isNumeric
    let ns ← numbersAmong rest
    return if counts then
      match v.toNumber with
      | .ok n => n :: ns
      | .error _ => ns
    else ns

/-- A function applied to the values of its arguments; an unknown one gives an error. -/
def applyNamed (name : String) (args : List Value) : Except Fault Value :=
  match Aggregate.ofName? name with
  | none => .ok (.error .value)
  | some f => do
    let ns ← numbersAmong (flatten args)
    let n ← f.apply ns
    return n.toValue

/-- Evaluate arguments from left to right and go on with their values. -/
def evaluateArgs (evaluate : Node → Steps) (k : List Value → Steps) :
    List Node → List Value → Steps
  | [], seen => k seen.reverse
  | n :: rest, seen => (evaluate n).bindGood fun v => evaluateArgs evaluate k rest (v :: seen)

/-- Go on if there are as many frames left as are wanted. -/
def Steps.within (room wanted : Nat) (s : Steps) : Steps :=
  if room < wanted then .fault .nestedTooDeep else s

theorem Steps.within_of_le {room wanted : Nat} (h : wanted ≤ room) (s : Steps) :
    s.within room wanted = s := if_neg (Nat.not_lt_of_le h)

variable [CallStack]

/-- Evaluate a tree with `room` frames left. -/
def evaluate : (room : Nat) → Node → Steps
  | 0, _ => .fault .nestedTooDeep
  | room + 1, node => match node with
    | .constant v => .done v
    | .cell ref => (cellSteps ref).within room (CallStack.work node [])
    | .range start stop => (rangeSteps start stop).within room (CallStack.work node [])
    | .negate operand => (evaluate room operand).bindGood fun v =>
      (Steps.done (negated v)).within room (CallStack.work node [v])
    | .binary op left right => match room with
      | 0 => .fault .nestedTooDeep
      | room + 1 => (evaluate room left).bindGood fun a =>
        if isList a then .done (.error .value)
        else (evaluate room right).bindGood fun b =>
          if isList b then .done (.error .value)
          else (Steps.ofExcept (combined op a b)).within room (CallStack.work node [a, b])
    | .call name args => match room with
      | 0 => .fault .nestedTooDeep
      | room + 1 => evaluateArgs (evaluate room) (fun vs =>
        (Steps.ofExcept (applyNamed name vs)).within room (CallStack.work node vs)) args []
    | .foreign => .done (.error .value)

theorem evaluate_binary (room : Nat) (op : Operator) (left right : Node) :
    evaluate (room + 1) (.binary op left right) =
      (evaluate (room - 1) left).bindGood fun a =>
        if isList a then .done (.error .value)
        else (evaluate (room - 1) right).bindGood fun b =>
          if isList b then .done (.error .value)
          else (Steps.ofExcept (combined op a b)).within (room - 1)
            (CallStack.work (.binary op left right) [a, b]) := by
  cases room with
  | zero => rfl
  | succ room => rfl

theorem evaluate_call (room : Nat) (name : String) (args : List Node) :
    evaluate (room + 1) (.call name args) =
      (evaluateArgs (evaluate (room - 1)) (fun vs =>
        (Steps.ofExcept (applyNamed name vs)).within (room - 1)
          (CallStack.work (.call name args) vs)) args []).within room 1 := by
  cases room with
  | zero => rfl
  | succ room => exact (if_neg (Nat.not_lt_of_le (Nat.le_add_left 1 room))).symm

/-- The dialogue of a formula. -/
def Node.steps (node : Node) : Steps := evaluate CallStack.evaluating node

/-- Frames that are left behind a function are enough for a cell. -/
theorem evaluate_cell {room : Nat} (h : CallStack.evaluating ≤ room + 2) (ref : String) :
    evaluate room (.cell ref) = cellSteps ref := by
  have hwork := CallStack.work_le (.cell ref) []
  obtain ⟨k, rfl⟩ : ∃ k, room = k + 1 := ⟨room - 1, by omega⟩
  exact Steps.within_of_le (by omega) _

theorem evaluate_range {room : Nat} (h : CallStack.evaluating ≤ room + 2) (start stop : String) :
    evaluate room (.range start stop) = rangeSteps start stop := by
  have hwork := CallStack.work_le (.range start stop) []
  obtain ⟨k, rfl⟩ : ∃ k, room = k + 1 := ⟨room - 1, by omega⟩
  exact Steps.within_of_le (by omega) _

theorem Node.steps_range (start stop : String) :
    (Node.range start stop).steps = rangeSteps start stop :=
  evaluate_range (Nat.le_add_right _ 2) start stop

/-- The dialogue of a call evaluates the arguments with the frames left behind it. -/
theorem Node.steps_call (name : String) (args : List Node) :
    (Node.call name args).steps = evaluateArgs (evaluate (CallStack.evaluating - 2))
      (fun vs => Steps.ofExcept (applyNamed name vs)) args [] := by
  have hwork (vs : List Value) := CallStack.work_le (.call name args) vs
  have hroom := hwork []
  have hsome : CallStack.evaluating = CallStack.evaluating - 1 + 1 := by omega
  rw [Node.steps, hsome, evaluate_call, Steps.within_of_le (by omega)]
  congr 1
  funext vs
  have hvs := hwork vs
  exact Steps.within_of_le (by omega) _

end Worksheet.Formula
