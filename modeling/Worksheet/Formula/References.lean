import Worksheet.Address
import Worksheet.Formula.CallStack

/-!
The cells and ranges that a formula names, each listed once, in upper case and in the order in which
they are written. A tree is visited from left to right, and each node takes a frame of the call stack
while its parts are visited.
-/
namespace Worksheet.Formula

/-- A cell or a range as it stands in a formula. -/
inductive Reference where
  | cell (ref : String)
  | range (start stop : String)
  deriving DecidableEq, Repr

/-- The text of a reference in upper case. -/
def Reference.text : Reference → String
  | .cell ref => Text.upperText ref
  | .range start stop => Text.upperText start ++ ":" ++ Text.upperText stop

/-- A list with one more text, unless it is there already. -/
def noted (seen : List String) (name : String) : List String :=
  if seen.contains name then seen else seen ++ [name]

/-- Add the references of a tree to those that were seen, with `room` frames left. -/
def visit : (room : Nat) → (seen : List String) → Node → Except Fault (List String)
  | 0, _, _ => .error .nestedTooDeep
  | room + 1, seen, node => match node with
    | .cell ref => .ok (noted seen (Reference.cell ref).text)
    | .range start stop => .ok (noted seen (Reference.range start stop).text)
    | .negate operand => visit room seen operand
    | .binary _ left right => do
      let seen ← visit room seen left
      visit room seen right
    | .call _ args => args.foldlM (visit room) seen
    | .constant _ | .foreign => .ok seen

def references [CallStack] (node : Node) : Except Fault (List String) :=
  visit CallStack.listing [] node

end Worksheet.Formula
