import Worksheet.Number.Arithmetic
import Worksheet.Text.Upper

/-!
Any value converted to a double or to an integer. Text may have white space around it, digits of any
script and single underscores between digits; a double may also be spelled as infinity or not a
number. Values without a number in them are refused.
-/
namespace Worksheet.Number

open Text

/-- The digits of every script written in ASCII. -/
def plainDigit (c : Char) : Char :=
  match decimalDigit? c with
  | some d => digitChar d
  | none => c

/-- A text without its underscores, each of which must have a digit on both sides. -/
def joinDigits : (afterDigit : Bool) → List Char → Option (List Char)
  | _, [] => some []
  | afterDigit, c :: rest =>
    if c == '_' then
      match rest with
      | d :: _ => if afterDigit && isAsciiDigit d then joinDigits false rest else none
      | [] => none
    else (joinDigits (isAsciiDigit c) rest).map (c :: ·)

def plainText (s : String) : Option (List Char) :=
  joinDigits false ((trimSpace s.toList).map plainDigit)

def spelledInfinity : List String := ["inf", "infinity"]

def spelledNotANumber : List String := ["nan"]

/-- A double in words, after its sign. -/
def readWord (cs : List Char) : Option Float :=
  let word := asciiLowerText (String.ofList cs)
  if spelledInfinity.contains word then some (1 / 0)
  else if spelledNotANumber.contains word then some (0 / 0)
  else none

/-- The double of a text; beyond the range it is infinite. -/
def doubleOfText (s : String) : Option Float := do
  let cs ← plainText s
  match readNumeral cs with
  | some d => some d.toFloat
  | none =>
    let (negative, word) := readSign cs
    (readWord word).map fun x => if negative then -x else x

/-- The most characters of a refused text that a message shows. -/
def shownLimit : Nat := 200

/-- The fault of a text that is no integer: it is shown in quotes, and cut when that is long. -/
def noInteger (s : String) : Fault :=
  .notInteger (String.ofList ((quoted s).toList.take shownLimit))

/-- The integer of a text. Whether its digits are too many is seen before what follows them. -/
def integerOfText (s : String) : Except Fault Int := do
  let (negative, body) := readSign ((trimSpace s.toList).map plainDigit)
  let run := body.takeWhile fun c => isAsciiDigit c || c == '_'
  let digits := (joinDigits false run).getD []
  if digits.isEmpty then throw (noInteger s)
  let n ← integerOfDigits (digits.map digitValue)
  if run.length < body.length then throw (noInteger s)
  return if negative then -(n : Int) else n

/-- The whole part of a double. -/
def integerOfFloat (x : Float) : Except Fault Int :=
  match decode? x with
  | some b => .ok (wholePart b)
  | none => .error (if x.isNaN then .notANumberInteger else .infiniteInteger)

end Worksheet.Number

namespace Worksheet

namespace Value

def toDouble : Value → Except Fault Float
  | .bool b => .ok (if b then 1 else 0)
  | .int n => Number.toFloat (.int n)
  | .float x => .ok x
  | .text s => match Number.doubleOfText s with
    | some x => .ok x
    | none => .error (.notDecimal (Text.quoted s))
  | v => .error (.notConvertible "float() argument must be a string or a real number" v.kind)

def toInteger : Value → Except Fault Int
  | .bool b => .ok (if b then 1 else 0)
  | .int n => .ok n
  | .float x => Number.integerOfFloat x
  | .text s => Number.integerOfText s
  | v => .error (.notConvertible
      "int() argument must be a string, a bytes-like object or a real number" v.kind)

end Value
end Worksheet
