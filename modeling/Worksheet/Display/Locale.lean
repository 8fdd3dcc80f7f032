import Worksheet.Date.Calendar
import Worksheet.Value

/-!
How a region writes numbers, percentages, amounts of money and short dates, and the library that
formats take this from. Which locales and currencies there are, and in which texts there is a day,
is for the library to say.
-/
namespace Worksheet.Display

/-- Digits in a group, counted from the point: in the first group and in all others. -/
structure Grouping where
  first : Nat
  rest : Nat

/-- What stands around the digits of a number. -/
structure Frame where
  before : String
  after : String

/-- The mark for the currency in a frame. -/
def currencyMark : Char := '¤'

/-- The frames of numbers without and with a minus. -/
structure Pattern where
  positive : Frame
  negative : Frame

/-- Usually the minus stands before everything else. -/
def Pattern.around (before after : String) : Pattern := ⟨⟨before, after⟩, ⟨"-" ++ before, after⟩⟩

structure Locale where
  decimalMark : String
  groupMark : String
  grouping : Grouping := ⟨3, 3⟩
  /-- The most places of a number. -/
  places : Nat := 3
  percent : Pattern
  money : Pattern
  /-- What stands for a currency, by its code. -/
  symbol : String → String
  shortDate : Date → String

/-- Why no day is read in a text. The first two are taken for there being none. -/
inductive DayFault where
  | value
  | overflow
  | other (f : Fault)
  deriving DecidableEq

/-- What formats leave to others. -/
structure Library where
  /-- The locale of what a host sets, if it is known. -/
  locale : Value → Except Fault Locale
  /-- The places of an amount in a currency, by its code. -/
  places : String → Nat
  /-- The day that a text speaks of, with a day that completes it. -/
  day : Date → String → Except DayFault Date

/-- No text is given up while a day is read in it, other than for having none. -/
def Library.ReadsDays (l : Library) : Prop := ∀ today text f, l.day today text ≠ .error (.other f)

end Worksheet.Display
