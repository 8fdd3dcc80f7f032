import Worksheet.Display.Locale
import Worksheet.Number.Precision

/-!
Numbers, percentages and amounts of money written as a locale writes them. Numbers are taken
to a fixed number of places, a half to the even neighbour, and lose the noughts at their end down to
the least number of places. The sign of a number that rounds to nought stays.
-/
namespace Worksheet.Display

open Text Number

/-- Digits in groups from the right; `tries` bounds the number of groups. -/
def groupsFrom (size : Nat) (mark : List Char) : (tries : Nat) → List Char → List Char
  | 0, digits => digits
  | tries + 1, digits =>
    if digits.length ≤ size then digits
    else
      groupsFrom size mark tries (digits.take (digits.length - size)) ++ mark ++
        digits.drop (digits.length - size)

/-- Whole digits with the marks between their groups. -/
def grouped (l : Locale) (digits : List Char) : List Char :=
  if digits.length ≤ l.grouping.first then digits
  else
    let cut := digits.length - l.grouping.first
    groupsFrom l.grouping.rest l.groupMark.toList cut (digits.take cut) ++ l.groupMark.toList ++
      digits.drop cut

/-- Exactly so many digits, with noughts in front. -/
def padded (width n : Nat) : List Char :=
  let digits := natDigits n
  List.replicate (width - digits.length) '0' ++ digits

/-- Digits without the noughts at their end, as long as more than `least` are left. -/
def dropNoughts (least : Nat) (digits : List Char) : List Char :=
  digits.take least ++ ((digits.drop least).reverse.dropWhile (· == '0')).reverse

/-- The digits of `n / 10 ^ places`, with at least `least` places. -/
def figure (l : Locale) (least places n : Nat) : String :=
  let unit := Nat.pow 10 places
  let fraction := dropNoughts least (if places = 0 then [] else padded places (n % unit))
  String.ofList (grouped l (natDigits (n / unit))) ++
    if fraction.isEmpty then "" else l.decimalMark ++ String.ofList fraction

/-- How many places a number is written with: the least of them always, the most never exceeded. -/
structure Places where
  least : Nat
  most : Nat

/-- A decimal in a frame. -/
def framed (l : Locale) (p : Pattern) (places : Places) (d : Decimal) : Except Fault String := do
  let n ← d.quantize places.most
  let frame := if d.negative then p.negative else p.positive
  return frame.before ++ figure l places.least places.most n ++ frame.after

/-- The decimal of a finite number, with at most 28 digits. -/
def amount (n : Number) : Decimal := ((toDecimal n).getD ⟨false, 0, 0⟩).limited

/-- A number with the places that are usual. -/
def number (l : Locale) (n : Number) : Except Fault String :=
  framed l (.around "" "") ⟨0, l.places⟩ (amount n)

/-- A hundred times a number, with all its places. -/
def percent (l : Locale) (n : Number) : Except Fault String :=
  let d := (toDecimal n).getD ⟨false, 0, 0⟩
  let d := Decimal.limited { d with exponent := d.exponent + 2 }
  framed l l.percent ⟨0, d.places⟩ d

/-- Single quotes in pairs are left out; a pair with nothing in it stands for one. -/
def unquoteFrom : (tries : Nat) → List Char → List Char
  | 0, cs => cs
  | tries + 1, cs =>
    match cs with
    | [] => []
    | c :: rest =>
      if c == '\'' then
        let inner := rest.takeWhile (· != '\'')
        match rest.dropWhile (· != '\'') with
        | [] => c :: rest
        | _ :: behind => (if inner.isEmpty then ['\''] else inner) ++ unquoteFrom tries behind
      else c :: unquoteFrom tries rest

/-- The currency in the place of its mark. -/
def withCurrency (symbol s : String) : String :=
  let cs := s.toList.flatMap fun c => if c == currencyMark then symbol.toList else [c]
  String.ofList (unquoteFrom cs.length cs)

/-- An amount of money with the places of its currency. -/
def money (l : Locale) (places : Nat) (code : String) (n : Number) : Except Fault String := do
  let s ← framed l l.money ⟨places, places⟩ (amount n)
  return withCurrency (l.symbol code) s

end Worksheet.Display
