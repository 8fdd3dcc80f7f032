import Worksheet.Formula.Node
import Worksheet.Formula.Token

/-!
The call stack on which formulas are read, evaluated and searched for references. Each of these goes
down as the formula is nested and takes frames on its way; when there are no more it gives up. How
many are left for it is up to the machine and to its callers, and different for the three. What is
called on the way down and comes back at once takes some frames for a while.
-/
namespace Worksheet.Formula

class CallStack where
  /-- Frames for the rules of the grammar. -/
  reading : Nat
  /-- Frames for the evaluation of a tree. -/
  evaluating : Nat
  /-- Frames for listing the references of a tree. -/
  listing : Nat
  /-- Frames that a factor takes to look at the token in front of it, if there is one. -/
  look : Option Token → Nat
  /-- Frames that a tree takes for what is done with the values of its parts. -/
  work : Node → List Value → Nat
  /-- There is room for a function of plain arguments, whatever is done there. -/
  work_le : ∀ node vs, work node vs + 3 ≤ evaluating

namespace CallStack

/-- Frames for the look at a token: a factor only has to see what a number or a minus sign is, but
tries whether a mark stands there or behind it for all others. -/
def looking : Option Token → Nat
  | none => 1
  | some t => if t.kind == .number || t.spells .operator "-" then 1 else 2

/-- Frames for reading the names of cells, and for turning values into numbers. -/
def working : Node → Nat
  | .range .. => 4
  | .call .. => 3
  | .cell _ | .negate _ | .binary .. => 2
  | .constant _ | .foreign => 0

theorem working_le (node : Node) : working node ≤ 4 := by
  cases node <;> simp [working]

/-- A thousand frames, some of them taken by the callers. -/
abbrev usual : CallStack where
  reading := 980
  evaluating := 980
  listing := 980
  look := looking
  work node _ := working node
  work_le node _ := Nat.le_trans (Nat.add_le_add_right (working_le node) 3) (by decide)

end CallStack
end Worksheet.Formula
