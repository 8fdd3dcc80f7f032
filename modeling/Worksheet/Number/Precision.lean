import Worksheet.Number.Arithmetic

/-!
Decimals of at most 28 digits, as amounts are shown with. A longer decimal is rounded to 28 digits,
a half to the even neighbour; one that needs more digits at a fixed number of places is refused.
-/
namespace Worksheet.Number

open Text

/-- The most digits of a decimal. -/
def precision : Nat := 28

def digitCount (n : Nat) : Nat := (natDigits n).length

/-- Drop digits at the end, rounding what is left. -/
def Decimal.dropDigits (d : Decimal) (k : Nat) : Decimal :=
  { d with coefficient := roundHalfEven d.coefficient (Nat.pow 10 k), exponent := d.exponent + k }

/-- Rounded to the precision; rounding up may give one digit more, which is then a nought. -/
def Decimal.limited (d : Decimal) : Decimal :=
  let d := d.dropDigits (digitCount d.coefficient - precision)
  d.dropDigits (digitCount d.coefficient - precision)

/-- The whole part of the magnitude. -/
def Decimal.whole (d : Decimal) : Nat :=
  if 0 ≤ d.exponent then d.coefficient * Nat.pow 10 d.exponent.toNat
  else d.coefficient / Nat.pow 10 (-d.exponent).toNat

/-- The decimal that a number is written as; only finite doubles have one. -/
def toDecimal : Number → Option Decimal
  | .int n => some ⟨n < 0, n.natAbs, 0⟩
  | .float x => (decode? x).map Binary.shortest

/-- How many places behind the point a decimal has, without noughts at its end. -/
def Decimal.places (d : Decimal) : Nat :=
  let (digits, point) := d.significant
  if d.coefficient == 0 then 0 else ((digits.length : Int) - point).toNat

/-- The coefficient of a decimal with a fixed number of places. -/
def Decimal.quantize (d : Decimal) (places : Nat) : Except Fault Nat :=
  let shift := d.exponent + places
  let n :=
    if 0 ≤ shift then d.coefficient * Nat.pow 10 shift.toNat
    else roundHalfEven d.coefficient (Nat.pow 10 (-shift).toNat)
  if d.coefficient == 0 then .ok 0
  else if digitCount n > precision then .error .decimalPrecision
  else .ok n

/-- Integers as they are, doubles rounded to decimal places. -/
def round (places : Nat) : Number → Number
  | .int n => .int n
  | .float x => .float (roundPlaces places x)

end Worksheet.Number
