import Worksheet.Text.Blank
import Worksheet.Value

/-!
Numbers of a formula: integers of any size and doubles. Integers stay exact under addition,
subtraction and multiplication; a quotient is always a double, and an integer that meets a double
becomes the nearest one, which may be out of range. Comparisons are exact.
-/
namespace Worksheet

inductive Number where
  | int (n : Int)
  | float (x : Float)

namespace Number

def toValue : Number → Value
  | .int n => .int n
  | .float x => .float x

def toFloat : Number → Except Fault Float
  | .int n => match nearest? n with
    | some x => .ok x
    | none => .error .beyondDouble
  | .float x => .ok x

def isNought : Number → Bool
  | .int n => n == 0
  | .float x => x == 0

def neg : Number → Number
  | .int n => .int (-n)
  | .float x => .float (-x)

/-- Exact on two integers, in doubles otherwise. -/
def combine (exact : Int → Int → Int) (rounded : Float → Float → Float) (a b : Number) :
    Except Fault Number :=
  match a, b with
  | .int m, .int n => .ok (.int (exact m n))
  | _, _ => do
    let x ← a.toFloat
    let y ← b.toFloat
    return .float (rounded x y)

def add : Number → Number → Except Fault Number := combine (· + ·) (· + ·)

def sub : Number → Number → Except Fault Number := combine (· - ·) (· - ·)

def mul : Number → Number → Except Fault Number := combine (· * ·) (· * ·)

/-- The double nearest to the quotient of two integers. -/
def quotient (m n : Int) : Except Fault Float :=
  let x := nearestQuotient m.natAbs n.natAbs
  if x.isInf then .error .quotientBeyondDouble
  else .ok (if (m < 0) != (n < 0) then -x else x)

/-- Division by a number other than nought. -/
def div (a b : Number) : Except Fault Number :=
  match a, b with
  | .int m, .int n => (quotient m n).map .float
  | _, _ => do
    let x ← a.toFloat
    let y ← b.toFloat
    return .float (x / y)

/-- Compared over the denominator of the double. -/
def intLessBinary (n : Int) (b : Binary) : Bool := n * b.denominator < b.signedNumerator

def binaryLessInt (b : Binary) (n : Int) : Bool := b.signedNumerator < n * b.denominator

def less : Number → Number → Bool
  | .int m, .int n => m < n
  | .float x, .float y => x < y
  | .int n, .float y => match decode? y with
    | some b => intLessBinary n b
    | none => y > 0
  | .float x, .int n => match decode? x with
    | some b => binaryLessInt b n
    | none => x < 0

/-- Left to right, from the integer nought. -/
def sum : List Number → Except Fault Number := List.foldlM add (.int 0)

/-- The mean; of no numbers, nought. -/
def average : List Number → Except Fault Number
  | [] => .ok (.int 0)
  | ns => do
    let total ← sum ns
    total.div (.int ns.length)

/-- The first of the least numbers; of no numbers, nought. -/
def least : List Number → Number
  | [] => .int 0
  | n :: rest => rest.foldl (fun best m => if m.less best then m else best) n

/-- The first of the greatest numbers; of no numbers, nought. -/
def greatest : List Number → Number
  | [] => .int 0
  | n :: rest => rest.foldl (fun best m => if best.less m then m else best) n

end Number

namespace Value

/-- The number of a value in arithmetic. Text that is not one finite numeral, and every other value
that is not a number, counts as nought; errors and lists have none. -/
def toNumber : Value → Except ErrorCode Number
  | .error code => .error code
  | .list _ => .error .value
  | .int n => .ok (.int n)
  | .float x => .ok (.float x)
  | .text s => match Number.readFinite (Text.trim s.toList) with
    | some x => .ok (.float x)
    | none => .ok (.int 0)
  | _ => .ok (.int 0)

/-- Whether an aggregate counts a value: a finite number, or the text of one. An integer is tried as
a double, so it may be out of range. -/
def isNumeric : Value → Except Fault Bool
  | .int n => (Number.toFloat (.int n)).map fun _ => true
  | .float x => .ok x.isFinite
  | .text s => .ok (Number.readFinite (Text.trim s.toList)).isSome
  | _ => .ok false

end Value
end Worksheet
