import Worksheet.Number.Binary
import Worksheet.Text.Digit

/-!
The shortest decimal that reads back as a given double. For one, two, ... seventeen digits the two
neighbours of the value on that decimal grid are tried against the reals that round to the double;
the first grid with a hit wins, and of two hits the nearer one.
-/
namespace Worksheet.Number

open Text

/-- The number `coefficient · 10 ^ exponent`. -/
structure Decimal where
  negative : Bool
  coefficient : Nat
  exponent : Int
  deriving DecidableEq, Repr

/-- The reals that round to a double, over one denominator: the value itself and the two midpoints,
which belong to it when the mantissa is even. -/
structure Rounding where
  low : Nat
  value : Nat
  high : Nat
  den : Nat
  closed : Bool

/-- The gap below a power of two is half the gap above it, except at the smallest exponent. -/
def Binary.rounding (b : Binary) : Rounding :=
  let unit := Nat.pow 2 b.exponent.toNat
  let value := 4 * b.mantissa * unit
  let below := if b.mantissa == Nat.pow 2 52 && b.exponent != -1074 then unit else 2 * unit
  ⟨value - below, value, value + 2 * unit, 4 * b.denominator, b.mantissa % 2 == 0⟩

def Rounding.holds (r : Rounding) (num den : Nat) : Bool :=
  if r.closed then r.low * den ≤ num * r.den && num * r.den ≤ r.high * den
  else r.low * den < num * r.den && num * r.den < r.high * den

/-- The `k` with `10 ^ (k - 1) ≤ num / den < 10 ^ k`. -/
def decimalPoint (num den : Nat) : Int :=
  if den ≤ num then (natDigits (num / den)).length
  else
    let zeros := (natDigits (den / num)).length
    if num * Nat.pow 10 (zeros - 1) == den then 2 - (zeros : Int) else 1 - (zeros : Int)

/-- The better neighbour of the value among the multiples of `10 ^ exponent`, if one rounds to the
double. -/
def Rounding.onGrid? (r : Rounding) (exponent : Int) : Option Nat :=
  let up := Nat.pow 10 exponent.toNat
  let down := Nat.pow 10 (-exponent).toNat
  let floor := r.value * down / (r.den * up)
  let fits (n : Nat) := r.holds (n * up) down
  if fits floor then
    if fits (floor + 1) then
      let rest := r.value * down - floor * (r.den * up)
      let twice := 2 * rest
      if twice < r.den * up || (twice == r.den * up && floor % 2 == 0) then some floor
      else some (floor + 1)
    else some floor
  else if fits (floor + 1) then some (floor + 1)
  else none

/-- The coarsest grid with a hit, from `digits` digits on. -/
def Rounding.search (r : Rounding) (point : Int) : (tries digits : Nat) → Nat × Int
  | 0, digits =>
    let exponent := point - digits
    (r.value * Nat.pow 10 (-exponent).toNat / (r.den * Nat.pow 10 exponent.toNat), exponent)
  | tries + 1, digits =>
    match r.onGrid? (point - digits) with
    | some n => (n, point - digits)
    | none => r.search point tries (digits + 1)

/-- The shortest decimal of a finite double. -/
def Binary.shortest (b : Binary) : Decimal :=
  if b.mantissa == 0 then ⟨b.negative, 0, 0⟩
  else
    let r := b.rounding
    let (n, e) := r.search (decimalPoint r.value r.den) 17 1
    ⟨b.negative, n, e⟩

/-- The digits of a decimal without noughts at their end, and the place of the point counted from
the first digit. -/
def Decimal.significant (d : Decimal) : List Char × Int :=
  let digits := natDigits d.coefficient
  let kept := (digits.reverse.dropWhile (· == '0')).reverse
  if kept.isEmpty then (['0'], 1) else (kept, digits.length + d.exponent)

/-- How a double is written: positional from `leastPoint` to `mostPoint`, with a digit after the
point, and otherwise with a signed exponent of at least two digits. -/
structure FloatLayout where
  leastPoint : Int
  mostPoint : Int
  infinite : String
  notANumber : String

/-- Positional for the exponents -4 to 15. -/
def layout : FloatLayout := ⟨-3, 16, "inf", "nan"⟩

def zeros (n : Nat) : List Char := List.replicate n '0'

def positional (digits : List Char) (point : Int) : List Char :=
  if point ≤ 0 then '0' :: '.' :: zeros (-point).toNat ++ digits
  else
    let places := point.toNat
    if digits.length ≤ places then digits ++ zeros (places - digits.length) ++ ['.', '0']
    else digits.take places ++ '.' :: digits.drop places

def exponentText (exponent : Int) : List Char :=
  let digits := natDigits exponent.natAbs
  (if exponent < 0 then '-' else '+') :: (if digits.length < 2 then '0' :: digits else digits)

def scientific (digits : List Char) (point : Int) : List Char :=
  let fraction := digits.drop 1
  digits.take 1 ++ (if fraction.isEmpty then [] else '.' :: fraction) ++
    'e' :: exponentText (point - 1)

def FloatLayout.render (l : FloatLayout) (x : Float) : String :=
  match decode? x with
  | none => if x.isNaN then l.notANumber else if x < 0 then "-" ++ l.infinite else l.infinite
  | some b =>
    let (digits, point) := b.shortest.significant
    let body :=
      if l.leastPoint ≤ point && point ≤ l.mostPoint then positional digits point
      else scientific digits point
    String.ofList (if b.negative then '-' :: body else body)

/-- The text of a double. -/
def floatText (x : Float) : String := layout.render x

end Worksheet.Number
