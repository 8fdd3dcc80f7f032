import Worksheet.Number.Shortest

/-!
Decimal text read as a number. A numeral has a mantissa, whose point may stand at either end but
not alone, and an optional exponent; `readNumeral` accepts exactly the texts that are one signed
numeral in ASCII. The double of a numeral is the nearest one.
-/
namespace Worksheet.Number

open Text

/-- An unsigned mantissa without its sign and exponent: the digits around the point. -/
structure Mantissa where
  whole : List Char
  fraction : List Char
  deriving DecidableEq, Repr

def Mantissa.coefficient (m : Mantissa) : Nat := digitsValue (m.whole ++ m.fraction)

/-- A mantissa at the front of a text, and what follows it. -/
def readMantissa (cs : List Char) : Option (Mantissa × List Char) :=
  let whole := cs.takeWhile isAsciiDigit
  match cs.dropWhile isAsciiDigit with
  | '.' :: rest =>
    let fraction := rest.takeWhile isAsciiDigit
    if whole.isEmpty && fraction.isEmpty then none
    else some (⟨whole, fraction⟩, rest.dropWhile isAsciiDigit)
  | rest => if whole.isEmpty then none else some (⟨whole, []⟩, rest)

/-- A sign at the front of a text, and what follows it. -/
def readSign : List Char → Bool × List Char
  | '+' :: rest => (false, rest)
  | '-' :: rest => (true, rest)
  | rest => (false, rest)

/-- The exponent that is the whole of a text; the empty text is the exponent nought. -/
def readExponent : List Char → Option Int
  | [] => some 0
  | c :: rest =>
    if c == 'e' || c == 'E' then
      let (negative, digits) := readSign rest
      if digits.isEmpty || !digits.all isAsciiDigit then none
      else some (if negative then -(digitsValue digits : Int) else digitsValue digits)
    else none

/-- The decimal that a text writes, when it is one numeral from end to end. -/
def readNumeral (cs : List Char) : Option Decimal :=
  let (negative, body) := readSign cs
  match readMantissa body with
  | none => none
  | some (m, rest) =>
    (readExponent rest).map fun e => ⟨negative, m.coefficient, e - m.fraction.length⟩

/-- The double nearest to a decimal; infinite beyond the range. -/
def Decimal.toFloat (d : Decimal) : Float :=
  let x :=
    if d.exponent < 0 then Float.ofScientific d.coefficient true d.exponent.natAbs
    else Float.ofScientific d.coefficient false d.exponent.natAbs
  if d.negative then -x else x

/-- The finite double that a text writes. -/
def readFinite (cs : List Char) : Option Float :=
  match readNumeral cs with
  | none => none
  | some d => if d.toFloat.isFinite then some d.toFloat else none

end Worksheet.Number
