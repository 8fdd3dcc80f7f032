import Worksheet.Date.Calendar
import Worksheet.Number.Arithmetic

/-!
The day of a moment given in milliseconds since 1970. The moment is a double of seconds, which is
taken to the nearest microsecond before its day is looked up.
-/
namespace Worksheet.Date

open Number

/-- The whole number nearest to a finite double, a half to the even neighbour. -/
def nearestInteger (b : Binary) : Int :=
  let n := roundHalfEven b.numerator b.denominator
  if b.negative then -(n : Int) else n

/-- The seconds of a moment, rounded down after rounding to microseconds. -/
def wholeSeconds (seconds : Float) : Option Int := do
  let b ← decode? seconds
  let whole := wholePart b
  let rest := (seconds - Float.ofInt whole) * 1000000
  let micros := nearestInteger (← decode? rest)
  return if micros ≥ 1000000 then whole + 1 else if micros < 0 then whole - 1 else whole

/-- The day of a moment, if the calendar has it. -/
def ofMilliseconds? (n : Number) : Option Date := do
  let seconds ← (n.div (.int 1000)).toOption
  let seconds ← match seconds with
    | .float x => some x
    | .int _ => none
  ofDayNumber? ((← wholeSeconds seconds) / 86400)

end Worksheet.Date
