/-!
The exact value of a finite double: a sign, a mantissa and a power of two. Rounding a quotient to
the nearest double, and a double to a whole number or to decimal places, is done on it in exact
arithmetic.
-/
namespace Worksheet.Number

/-- The number `± mantissa · 2 ^ exponent`. -/
structure Binary where
  negative : Bool
  mantissa : Nat
  exponent : Int
  deriving DecidableEq, Repr

/-- A double holds its fraction in 52 bits, below 11 bits of exponent and the sign. -/
def decode? (x : Float) : Option Binary :=
  let bits : Nat := x.toBits.toNat
  let negative := bits / Nat.pow 2 63 == 1
  let biased : Nat := bits / Nat.pow 2 52 % Nat.pow 2 11
  let fraction : Nat := bits % Nat.pow 2 52
  if biased == 2047 then none
  else if biased == 0 then some ⟨negative, fraction, -1074⟩
  else some ⟨negative, fraction + Nat.pow 2 52, (biased : Int) - 1075⟩

/-- The numerator of the magnitude over `Binary.denominator`. -/
def Binary.numerator (b : Binary) : Nat := b.mantissa * Nat.pow 2 b.exponent.toNat

def Binary.denominator (b : Binary) : Nat := Nat.pow 2 (-b.exponent).toNat

/-- The signed numerator. -/
def Binary.signedNumerator (b : Binary) : Int :=
  if b.negative then -(b.numerator : Int) else b.numerator

/-- The quotient rounded to a whole number, a half to the even neighbour. -/
def roundHalfEven (num den : Nat) : Nat :=
  let q := num / den
  let twice := 2 * (num % den)
  if twice < den then q
  else if twice > den then q + 1
  else q + q % 2

/-- The whole part of a finite double, toward nought. -/
def wholePart (b : Binary) : Int :=
  let n := b.numerator / b.denominator
  if b.negative then -(n : Int) else n

def isWhole (b : Binary) : Bool := b.numerator % b.denominator == 0

/-- The double nearest to a quotient of natural numbers, a tie to the even mantissa; infinite when
it is out of range. -/
def nearestQuotient (num den : Nat) : Float :=
  if hn : 0 < num then
    if hd : 0 < den then
      .ofModel (.pack (.div .binary64 (.finite .positive num 0 hn) (.finite .positive den 0 hd)))
    else 0
  else 0

/-- The double nearest to `n / 10 ^ places`. -/
def nearestDecimal (n places : Nat) : Float := Float.ofScientific n true places

/-- A double rounded to decimal places, a half to the even neighbour; the sign stays, on nought
too. -/
def roundPlaces (places : Nat) (x : Float) : Float :=
  match decode? x with
  | none => x
  | some b =>
    let y := nearestDecimal (roundHalfEven (b.numerator * Nat.pow 10 places) b.denominator) places
    if b.negative then -y else y

/-- The double nearest to a whole number, when there is a finite one. -/
def nearest? (n : Int) : Option Float :=
  let x := Float.ofModel (.ofInt n)
  if x.isFinite then some x else none

end Worksheet.Number
