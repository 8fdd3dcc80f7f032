import Worksheet.Date.Calendar
import Worksheet.Fault

/-!
Points in time as documents write them: a day, or a day with a time of day and perhaps a distance
from universal time. They are kept as text, written in full.
-/
namespace Worksheet.Yaml

open Text

/-- A distance from universal time in minutes. -/
structure Offset where
  minutes : Int

/-- A time of day, with microseconds. -/
structure Clock where
  hour : Nat
  minute : Nat
  second : Nat
  micro : Nat
  offset : Option Offset

structure Timestamp where
  year : Nat
  month : Nat
  day : Nat
  clock : Option Clock

namespace Timestamp

/-- The number of a run of digits of given length, and what follows it. -/
def digits? (least most : Nat) (cs : List Char) : Option (Nat × List Char) :=
  let run := cs.takeWhile isAsciiDigit
  if least ≤ run.length ∧ run.length ≤ most then some (digitsValue run, cs.drop run.length)
  else none

def mark? (c : Char) : List Char → Option (List Char)
  | d :: rest => if d == c then some rest else none
  | [] => none

def isBlank (c : Char) : Bool := c == ' ' || c == '\t'

/-- The microseconds of a fraction: the digits behind the sixth do not count. -/
def micros (cs : List Char) : Nat := digitsValue ((cs ++ List.replicate 6 '0').take 6)

/-- The distance from universal time that is the whole of a text; no text is no distance. -/
def offset? (cs : List Char) : Option (Option Offset) :=
  match cs.dropWhile isBlank with
  | [] => if cs.isEmpty then some none else none
  | ['Z'] => some (some ⟨0⟩)
  | sign :: rest => do
    if sign != '+' && sign != '-' then none
    else
      let (hours, rest) ← digits? 1 2 rest
      let minutes ← match rest with
        | [] => some 0
        | _ => match digits? 2 2 (← mark? ':' rest) with
          | some (minutes, []) => some minutes
          | _ => none
      let total : Int := hours * 60 + minutes
      return some ⟨if sign == '-' then -total else total⟩

/-- The time of day that is the whole of a text. -/
def clock? (cs : List Char) : Option Clock := do
  let (hour, rest) ← digits? 1 2 cs
  let (minute, rest) ← digits? 2 2 (← mark? ':' rest)
  let (second, rest) ← digits? 2 2 (← mark? ':' rest)
  let (fraction, rest) := match rest with
    | '.' :: rest => (rest.takeWhile isAsciiDigit, rest.dropWhile isAsciiDigit)
    | rest => ([], rest)
  return ⟨hour, minute, second, micros fraction, ← offset? rest⟩

/-- The text between a day and a time of day: one letter, or blanks. -/
def afterDay? : List Char → Option (List Char)
  | c :: rest =>
    if c == 'T' || c == 't' then some rest
    else if isBlank c then some (rest.dropWhile isBlank)
    else none
  | [] => none

/-- The timestamp that a text writes. Without a time of day, month and day have two digits. -/
def read? (cs : List Char) : Option Timestamp := do
  let (year, rest) ← digits? 4 4 cs
  let (month, rest) ← digits? 1 2 (← mark? '-' rest)
  let (day, rest) ← digits? 1 2 (← mark? '-' rest)
  if rest.isEmpty then
    if cs.length = 10 then return ⟨year, month, day, none⟩ else none
  else return ⟨year, month, day, some (← clock? (← afterDay? rest))⟩

def padded (width n : Nat) : String :=
  let digits := natDigits n
  String.ofList (List.replicate (width - digits.length) '0' ++ digits)

/-- Why a day or a time of day is none, if it is none. -/
def fault? (t : Timestamp) : Option CalendarFault :=
  if t.year < 1 then some (.year t.year)
  else if t.month < 1 || 12 < t.month then some .month
  else if (Date.make? t.year t.month t.day).isNone then some .day
  else match t.clock with
    | none => none
    | some c =>
      if 23 < c.hour then some .hour
      else if 59 < c.minute then some .minute
      else if 59 < c.second then some .second
      else none

/-- A distance from universal time is less than a day. -/
def offsetFault? (t : Timestamp) : Option CalendarFault :=
  match t.clock.bind Clock.offset with
  | some ⟨minutes⟩ => if minutes.natAbs < 1440 then none else some (.offset minutes)
  | none => none

def offsetText (o : Offset) : String :=
  let minutes := o.minutes.natAbs
  (if o.minutes < 0 then "-" else "+") ++ padded 2 (minutes / 60) ++ ":" ++ padded 2 (minutes % 60)

def clockText (c : Clock) : String :=
  padded 2 c.hour ++ ":" ++ padded 2 c.minute ++ ":" ++ padded 2 c.second ++
    (if c.micro = 0 then "" else "." ++ padded 6 c.micro) ++
    match c.offset with
    | some o => offsetText o
    | none => ""

/-- A timestamp in full. -/
def text (t : Timestamp) : Except Fault String :=
  match t.offsetFault?, t.fault? with
  | some f, _ => .error (.notCalendar f)
  | none, some f => .error (.notCalendar f)
  | none, none =>
    .ok (padded 4 t.year ++ "-" ++ padded 2 t.month ++ "-" ++ padded 2 t.day ++
      match t.clock with
      | some c => " " ++ clockText c
      | none => "")

end Timestamp
end Worksheet.Yaml
