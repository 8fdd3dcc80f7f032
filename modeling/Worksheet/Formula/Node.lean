import Worksheet.Number.Arithmetic

/-!
Formulas as trees. A constant keeps whatever value a host gives it, and a foreign node stands for
anything that is no formula. `Node.render` writes a tree with its operators in front and brackets
around every operation.
-/
namespace Worksheet.Formula

inductive Operator where
  | add
  | sub
  | mul
  | div
  /-- An operator without a meaning, from a host. -/
  | unknown
  deriving DecidableEq, Repr

def Operator.sign : Operator → String
  | .add => "+"
  | .sub => "-"
  | .mul => "*"
  | .div => "/"
  | .unknown => "?"

inductive Node where
  | constant (v : Value)
  | cell (ref : String)
  | range (start stop : String)
  | negate (operand : Node)
  | binary (op : Operator) (left right : Node)
  | call (name : String) (args : List Node)
  | foreign
  deriving Inhabited

namespace Node

mutual
/-- Operations in brackets, the operator or the name of the function first. -/
def render : Node → Except Fault String
  | .constant v => v.literal
  | .cell ref => .ok ref
  | .range start stop => .ok (start ++ ":" ++ stop)
  | .negate operand => (render operand).map fun x => "(neg " ++ x ++ ")"
  | .binary op left right => do
    let x ← render left
    let y ← render right
    return "(" ++ op.sign ++ " " ++ x ++ " " ++ y ++ ")"
  | .call name args => (renderAll args).map fun parts =>
      "(" ++ " ".intercalate ("call" :: name :: parts) ++ ")"
  | .foreign => .ok "?"

def renderAll : List Node → Except Fault (List String)
  | [] => .ok []
  | n :: rest => do
    let part ← render n
    let parts ← renderAll rest
    return part :: parts
end

end Node

end Worksheet.Formula
