import Worksheet.Date.Calendar
import Worksheet.Date.Words
import Worksheet.Number.Precision

/-!
The day that a text speaks of. Numbers are months before days and days before years, unless they are
too large for that or a name says otherwise; a number of more than two digits is a year. What the
text leaves out is taken from a given day, and a time of day or a time zone is only checked. A text
with anything else in it names no day. Times of day are reckoned in decimals of limited length, so
that a time with too long a number is not merely no time but a fault.
-/
namespace Worksheet.Date

open Text Words

/-- Why reading stops: the text names no day, or a decimal in it is too long to reckon with. -/
inductive Stop where
  | noDay
  | tooLong
  deriving DecidableEq

abbrev Attempt (α : Type) := Except Stop α

/-- What must be there for a text to name a day. -/
def need {α : Type} : Option α → Attempt α
  | some x => .ok x
  | none => .error .noDay

/-- A word that is a number: `digits / 10 ^ scale`. -/
structure Amount where
  digits : Nat
  scale : Nat

namespace Amount

def whole (a : Amount) : Nat := a.digits / Nat.pow 10 a.scale

/-- What is behind the point, with at most as many digits as decimals have. -/
def fraction (a : Amount) : Number.Decimal :=
  Number.Decimal.limited ⟨false, a.digits % Nat.pow 10 a.scale, -a.scale⟩

/-- Sixty times the fraction, rounded down; none when there is no fraction. The whole part must be a
decimal too. -/
def sixtieths (a : Amount) : Attempt (Option Nat) :=
  if Number.precision < Number.digitCount a.whole then .error .tooLong
  else if a.fraction.coefficient = 0 then .ok none
  else
    let sixty := { a.fraction with coefficient := 60 * a.fraction.coefficient }
    .ok (some sixty.limited.whole)

def exceeds (a : Amount) (n : Nat) : Bool := a.digits > n * Nat.pow 10 a.scale

def isBelow (a : Amount) (n : Nat) : Bool := a.digits < n * Nat.pow 10 a.scale

end Amount

/-- The number of a word of digits alone. -/
def digitsOf? (cs : List Char) : Option Nat :=
  if cs.isEmpty then none
  else (cs.mapM decimalDigit?).map fun digits => digits.foldl (fun n d => n * 10 + d) 0

def wholeNumber? (word : String) : Option Nat := digitsOf? word.toList

/-- The number of a word of digits with at most one point among them. -/
def amount? (word : String) : Option Amount :=
  let cs := word.toList
  let whole := cs.takeWhile isDigit
  match cs.dropWhile isDigit with
  | [] => (digitsOf? whole).map fun n => ⟨n, 0⟩
  | '.' :: fraction => (digitsOf? (whole ++ fraction)).map fun n => ⟨n, fraction.length⟩
  | _ => none

/-- The number of a stretch of a word. -/
def stretch? (cs : List Char) (start length : Nat) : Option Nat :=
  digitsOf? ((cs.drop start).take length)

/-- Seconds and microseconds. -/
def seconds? (cs : List Char) : Option (Nat × Nat) :=
  match cs.dropWhile (· != '.') with
  | [] => (digitsOf? cs).map fun n => (n, 0)
  | _ :: fraction => do
    let whole ← digitsOf? (cs.takeWhile (· != '.'))
    let micros ← digitsOf? ((fraction ++ List.replicate 6 '0').take 6)
    return (whole, micros)

/-- What a number of a date is known to be. -/
inductive Role where
  | year
  | month
  deriving DecidableEq

/-- The numbers of a date in the order of the text, and the places of those that are known. -/
structure Members where
  numbers : List Nat := []
  century : Bool := false
  yearAt : Option Nat := none
  monthAt : Option Nat := none

namespace Members

def count (m : Members) : Nat := m.numbers.length

/-- Add a number; no role is given twice. -/
def push (m : Members) (n : Nat) (role : Option Role) (century : Bool) : Option Members :=
  let added := { m with numbers := m.numbers ++ [n], century := m.century || century }
  match role with
  | none => some added
  | some .year => if m.yearAt.isSome then none else some { added with yearAt := some m.count }
  | some .month => if m.monthAt.isSome then none else some { added with monthAt := some m.count }

/-- Add a word of digits; more than two of them are a year. -/
def pushWord (m : Members) (word : List Char) : Option Members := do
  let n ← digitsOf? word
  if word.length > 2 then m.push n (some .year) true else m.push n none false

/-- Add a number that stands alone; more than a hundred is a year. -/
def pushAmount (m : Members) (a : Amount) : Option Members :=
  if a.exceeds 100 then m.push a.whole (some .year) true else m.push a.whole none false

def pushMonth (m : Members) (n : Nat) : Option Members := m.push n (some .month) false

def pushMonthOrWord (m : Members) (word : String) : Option Members :=
  match number? months word with
  | some n => m.pushMonth n
  | none => m.pushWord word.toList

/-- The number at a known place. -/
def at? (m : Members) (place : Option Nat) : Option Nat := place.bind fun i => m.numbers[i]?

/-- Whether a number may be the day, by what is known of the month and the year. -/
def allowsDay (m : Members) (a : Amount) : Bool :=
  let longest := match m.at? m.monthAt with
    | none => 31
    | some month => monthLength ((m.at? m.yearAt).getD 2000) month
  !a.isBelow 1 && !a.exceeds longest

end Members

/-- A date some of whose parts are known. -/
structure Partial where
  year : Option Nat := none
  month : Option Nat := none
  day : Option Nat := none

/-- The parts when the places of all numbers are known. -/
def Members.byPlace (m : Members) : Option Partial :=
  match m.numbers, m.yearAt, m.monthAt with
  | [_], some _, none => some { year := m.at? m.yearAt }
  | [_], none, some _ => some { month := m.at? m.monthAt }
  | [_, _], some _, some _ => some { year := m.at? m.yearAt, month := m.at? m.monthAt }
  | [_, _, _], some i, some j =>
    some ⟨m.numbers[i]?, m.numbers[j]?, m.numbers[3 - i - j]?⟩
  | _, _, _ => none

/-- The parts of two numbers without a name among them. -/
def twoNumbers (a b : Nat) : Partial :=
  if a > 31 then { year := some a, month := some b }
  else if b > 31 then { month := some a, year := some b }
  else { month := some a, day := some b }

/-- The parts of three numbers, by the place of the name of a month or by their sizes. -/
def threeNumbers (monthAt yearAt : Option Nat) (a b c : Nat) : Partial :=
  match monthAt with
  | some 0 => if b > 31 then ⟨some b, some a, some c⟩ else ⟨some c, some a, some b⟩
  | some 1 => if a > 31 then ⟨some a, some b, some c⟩ else ⟨some c, some b, some a⟩
  | some 2 => if b > 31 then ⟨some b, some c, some a⟩ else ⟨some a, some c, some b⟩
  | _ =>
    if a > 31 || yearAt == some 0 then ⟨some a, some b, some c⟩
    else if a > 12 then ⟨some c, some b, some a⟩
    else ⟨some c, some a, some b⟩

/-- One number, which is a year only if it cannot be a day. -/
def oneNumber (month : Option Nat) (n : Nat) : Partial :=
  if n > 31 then { year := some n, month } else { month, day := some n }

/-- Which number is which; more than three are no date. -/
def Members.resolve (m : Members) : Option Partial :=
  match m.byPlace with
  | some parts => some parts
  | none => match m.numbers, m.monthAt with
    | [], _ => some {}
    | [n], none => some (oneNumber none n)
    | [n], some _ => some { month := some n }
    | [a, b], some 0 => some (oneNumber (some a) b)
    | [a, b], some _ => some (oneNumber (some b) a)
    | [a, b], none => some (twoNumbers a b)
    | [a, b, c], place => some (threeNumbers place m.yearAt a b c)
    | _, _ => none

/-- All that a text has said so far. -/
structure Findings where
  members : Members := {}
  weekday : Option Nat := none
  hour : Option Nat := none
  minute : Option Nat := none
  second : Option Nat := none
  micro : Option Nat := none
  zone : Option String := none
  offset : Option Int := none

namespace Findings

def withMembers (f : Findings) (members : Option Members) : Attempt Findings :=
  (need members).map fun members => { f with members }

def withMinutes (f : Findings) (a : Amount) : Attempt Findings :=
  a.sixtieths.map fun second => { f with minute := some a.whole, second }

def withSeconds (f : Findings) (s : Option (Nat × Nat)) : Attempt Findings :=
  (need s).map fun (second, micro) => { f with second := some second, micro := some micro }

/-- An hour in a half of the day. -/
def withHalf (f : Findings) (hour half : Nat) : Findings :=
  { f with hour := some (if hour < 12 && half == 1 then hour + 12
      else if hour == 12 && half == 0 then 0 else hour) }

/-- A number with a unit of time. -/
def withUnit (f : Findings) (word : String) (a : Amount) : Nat → Attempt Findings
  | 0 => a.sixtieths.map fun
    | some minute => { f with hour := some a.whole, minute := some minute }
    | none => { f with hour := some a.whole }
  | 1 => f.withMinutes a
  | 2 => f.withSeconds (seconds? word.toList)
  | _ => .ok f

/-- Whether a word may name the time zone. -/
def allowsZone (f : Findings) (word : String) : Bool :=
  f.hour.isSome && f.zone.isNone && f.offset.isNone && word.length ≤ 5 &&
    (word.toList.all isAsciiUpper || word == "z")

end Findings

/-- Findings and the place of the next word. -/
abbrev Progress := Attempt (Findings × Nat)

/-- The unit that belongs to the number at place `i`, and the place of the last word used: the next
word, the one behind a blank, or the unit after the one before. -/
def unitAt? (words : Array String) (i : Nat) : Option (Nat × Nat) :=
  let unit? (j : Nat) : Option Nat := words[j]?.bind (number? units)
  match unit? (i + 1) with
  | some unit => some (unit, i + 1)
  | none =>
    let behindBlank := if words[i + 1]? == some " " then unit? (i + 2) else none
    match behindBlank with
    | some unit => some (unit, i + 2)
    | none =>
      let before := if i > 0 then unit? (i - 1) else none
      match before with
      | some unit => some (unit + 1, i)
      | none =>
        if i > 1 && i + 1 == words.size && words[i - 1]? == some " " then
          (unit? (i - 2)).map fun unit => (unit + 1, i)
        else none

/-- A time of day whose hour is at place `i`. -/
def clockAt (words : Array String) (i : Nat) (a : Amount) (f : Findings) : Progress := do
  let minutes ← need (words[i + 2]?.bind amount?)
  let f ← { f with hour := some a.whole }.withMinutes minutes
  if words[i + 3]? == some ":" && i + 4 < words.size then
    let f ← f.withSeconds (words[i + 4]?.bind fun word => seconds? word.toList)
    return (f, i + 5)
  else return (f, i + 3)

/-- The numbers of a date with marks between them, the first at place `i`. -/
def markedAt (words : Array String) (i : Nat) (word mark : String) (f : Findings) : Progress := do
  let members ← need (f.members.pushWord word.toList)
  match words[i + 2]? with
  | none => return ({ f with members }, i + 2)
  | some second =>
    if isFiller second then return ({ f with members }, i + 2)
    else
      let members ← need (
        if second.toList.all isDigit then members.pushWord second.toList
        else (number? months second).bind members.pushMonth)
      if words[i + 3]? == some mark then
        let members ← need (words[i + 4]?.bind members.pushMonthOrWord)
        return ({ f with members }, i + 5)
      else return ({ f with members }, i + 3)

/-- A number of digits run together: a time behind a complete date, or a date or time of fixed
length. -/
def compact? (words : Array String) (i : Nat) (word : String) (f : Findings) :
    Option (Attempt Findings) :=
  let cs := word.toList
  let length := cs.length
  let pointAt := (cs.takeWhile (· != '.')).length
  let next := words[i + 1]?
  if f.members.count == 3 && (length == 2 || length == 4) && f.hour.isNone &&
      next != some ":" && (next.bind (number? units)).isNone then
    some do
      let f := { f with hour := some (← need (stretch? cs 0 2)) }
      if length == 4 then return { f with minute := some (← need (stretch? cs 2 2)) } else return f
  else if length == 6 || (length > 6 && pointAt == 6) then
    some do
      if f.members.count == 0 && pointAt == length then
        f.withMembers do
          let m ← f.members.pushWord (cs.take 2)
          let m ← m.pushWord ((cs.drop 2).take 2)
          m.pushWord (cs.drop 4)
      else
        let hour ← need (stretch? cs 0 2)
        let minute ← need (stretch? cs 2 2)
        { f with hour := some hour, minute := some minute }.withSeconds (seconds? (cs.drop 4))
  else if length == 8 || length == 12 || length == 14 then
    some do
      let f ← f.withMembers do
        let m ← f.members.pushWord (cs.take 4)
        let m ← m.pushWord ((cs.drop 4).take 2)
        m.pushWord ((cs.drop 6).take 2)
      if length == 8 then return f
      else
        let hour ← need (stretch? cs 8 2)
        let minute ← need (stretch? cs 10 2)
        let f := { f with hour := some hour, minute := some minute }
        if length == 12 then return f
        else return { f with second := some (← need (stretch? cs 12 2)) }
  else none

/-- A number that stands alone or before a half of the day. -/
def plainAt (words : Array String) (i : Nat) (a : Amount) (f : Findings) : Progress :=
  let half? (j : Nat) : Option Nat := words[j]?.bind (number? halves)
  let alone := match words[i + 1]? with
    | none => true
    | some next => isFiller next
  if alone then
    match half? (i + 2) with
    | some half => .ok (f.withHalf a.whole half, i + 3)
    | none => (f.withMembers (f.members.pushAmount a)).map fun f => (f, i + 2)
  else match half? (i + 1) with
    | some half =>
      if a.isBelow 24 then .ok (f.withHalf a.whole half, i + 2)
      else if f.members.allowsDay a then
        (f.withMembers (f.members.pushAmount a)).map fun f => (f, i + 1)
      else .error .noDay
    | none =>
      if f.members.allowsDay a then
        (f.withMembers (f.members.pushAmount a)).map fun f => (f, i + 1)
      else .error .noDay

/-- A number at place `i`. -/
def numberAt (words : Array String) (i : Nat) (word : String) (a : Amount) (f : Findings) :
    Progress :=
  match compact? words i word f with
  | some f => f.map fun f => (f, i + 1)
  | none => match unitAt? words i with
    | some (unit, last) => (f.withUnit word a unit).map fun f => (f, last + 1)
    | none =>
      let next := (words[i + 1]?).getD ""
      if next == ":" && i + 2 < words.size then clockAt words i a f
      else if next == "-" || next == "/" || next == "." then markedAt words i word next f
      else plainAt words i a f

/-- The year behind the name of a month and `of`. -/
def yearOf (today : Date) (n : Nat) : Nat :=
  if n < 100 then
    let year := n + today.year / 100 * 100
    if year ≥ today.year + 50 then year - 100
    else if year + 50 < today.year then year + 100
    else year
  else n

/-- The name of a month at place `i`, with the numbers that hang on it. -/
def monthAt (today : Date) (words : Array String) (i : Nat) (month : Nat) (f : Findings) :
    Progress := do
  let members ← need (f.members.pushMonth month)
  match words[i + 1]? with
  | none => return ({ f with members }, i + 1)
  | some next =>
    if next == "-" || next == "/" then
      let members ← need (words[i + 2]?.bind fun word => members.pushWord word.toList)
      if words[i + 3]? == some next then
        let members ← need (words[i + 4]?.bind fun word => members.pushWord word.toList)
        return ({ f with members }, i + 5)
      else return ({ f with members }, i + 3)
    else if i + 4 < words.size && next == " " && words[i + 3]? == some " " &&
        (words[i + 2]?.map asciiLowerText) == some "of" then
      let word ← need words[i + 4]?
      if word.toList.all isDigit then
        let year := yearOf today (← need (wholeNumber? word))
        let members ← need (members.push year (some .year) (year ≥ 100))
        return ({ f with members }, i + 5)
      else return ({ f with members }, i + 5)
    else return ({ f with members }, i + 1)

/-- The name of a time zone at place `i`; a sign behind it is turned round. -/
def zoneAt (words : Array String) (i : Nat) (word : String) (f : Findings) :
    Findings × Array String :=
  let f := { f with zone := some word, offset := if word == "z" then some 0 else none }
  let turned := match words[i + 1]? with
    | some "+" => some "-"
    | some "-" => some "+"
    | _ => none
  match turned with
  | some sign =>
    ({ f with offset := none, zone := if isUniversal word then none else some word },
      words.setIfInBounds (i + 1) sign)
  | none => (f, words)

/-- The distance from universal time behind a sign at place `i`. -/
def offsetAt (words : Array String) (i : Nat) (negative : Bool) (f : Findings) : Progress := do
  let word ← need words[i + 1]?
  let (hours, minutes, i) ← need do
    if word.length == 4 then return (← stretch? word.toList 0 2, ← stretch? word.toList 2 2, i)
    else if words[i + 2]? == some ":" then
      return (← wholeNumber? word, ← words[i + 3]?.bind wholeNumber?, i + 2)
    else if word.length ≤ 2 then return (← wholeNumber? word, 0, i)
    else none
  let distance : Int := hours * 3600 + minutes * 60
  let named := match words[i + 4]? with
    | some name => i + 5 < words.size && (words[i + 2]?.map isFiller) == some true &&
        words[i + 3]? == some "(" && words[i + 5]? == some ")" && 3 ≤ name.length &&
        { f with offset := none }.allowsZone name
    | none => false
  let f := { f with offset := some (if negative then -distance else distance) }
  if named then return ({ f with zone := words[i + 4]? }, i + 6) else return (f, i + 2)

/-- The word at place `i`, whatever it is. -/
def wordAt (today : Date) (words : Array String) (i : Nat) (word : String) (f : Findings) :
    Attempt (Findings × Nat × Array String) :=
  let keep : Progress → Attempt (Findings × Nat × Array String) :=
    Except.map fun (f, i) => (f, i, words)
  if isOddNumber word then .error .noDay
  else match amount? word with
    | some a => keep (numberAt words i word a f)
    | none => match number? weekdays word with
      | some weekday => .ok ({ f with weekday := some weekday }, i + 1, words)
      | none => match number? months word with
        | some month => keep (monthAt today words i month f)
        | none => match number? halves word with
          | some half => match f.hour with
            | some hour =>
              if hour ≤ 12 then .ok (f.withHalf hour half, i + 1, words) else .error .noDay
            | none => .error .noDay
          | none =>
            if f.allowsZone word then
              let (f, words) := zoneAt words i word f
              .ok (f, i + 1, words)
            else if f.hour.isSome && (word == "+" || word == "-") then
              keep (offsetAt words i (word == "-") f)
            else if isFiller word then .ok (f, i + 1, words)
            else .error .noDay

/-- All words from place `i` on; `tries` bounds their number. -/
def findings (today : Date) : (tries : Nat) → Array String → Nat → Findings → Attempt Findings
  | 0, _, _, f => .ok f
  | tries + 1, words, i, f =>
    match words[i]? with
    | none => .ok f
    | some word =>
      match wordAt today words i word f with
      | .error stop => .error stop
      | .ok (f, i, words) => findings today tries words i f

/-- Whether a text has said anything at all. -/
def Findings.isEmpty (f : Findings) (parts : Partial) : Bool :=
  parts.year.isNone && parts.month.isNone && parts.day.isNone && f.weekday.isNone &&
    f.hour.isNone && f.minute.isNone && f.second.isNone

/-- The limits of a time of day. -/
def Findings.isTime (f : Findings) : Bool :=
  f.hour.getD 0 ≤ 23 && f.minute.getD 0 ≤ 59 && f.second.getD 0 ≤ 59

/-- The day of some parts, the others taken from a given day. -/
def complete (today : Date) (parts : Partial) : Option Date :=
  let year := parts.year.getD today.year
  let month := parts.month.getD today.month
  let day := parts.day.getD (min today.day (monthLength year month))
  make? year month day

/-- The most days of a distance from universal time. -/
def longestOffset : Int := 999999999

/-- Whether the distance from universal time is within its limits. One that goes with the name of
universal time itself is nought. -/
def Findings.isZone (f : Findings) : Bool :=
  match f.offset with
  | none => true
  | some seconds =>
    (f.zone.map isUniversal).getD false ||
      (-longestOffset ≤ seconds.fdiv 86400 && seconds.fdiv 86400 ≤ longestOffset)

/-- The day that findings speak of. -/
def Findings.day? (today : Date) (f : Findings) : Option Date := do
  let parts ← f.members.resolve
  if f.isEmpty parts || !f.isTime || !f.isZone then none
  else
    let year := parts.year.map fun n => if f.members.century then n else yearOf today n
    let date ← complete today { parts with year }
    match f.weekday, parts.day with
    | some weekday, none => date.onOrAfter? weekday
    | _, _ => some date

/-- The day that a text names, if it names one. -/
def read (today : Date) (s : String) : Except Fault (Option Date) :=
  let words := (Words.split s).toArray
  match findings today words.size words 0 {} with
  | .ok f => .ok (f.day? today)
  | .error .noDay => .ok none
  | .error .tooLong => .error .decimalQuotient

end Worksheet.Date
