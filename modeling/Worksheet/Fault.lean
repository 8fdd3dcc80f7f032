import Worksheet.Text.Quoted
import Worksheet.Text.Digit
import Worksheet.Yaml.Complaint

/-!
What stops an operation. Evaluation errors such as a division by nought are values of a cell and not
faults; a fault leaves no result. Each constructor is one cause, and `Fault.message` words it.
-/
namespace Worksheet

/-- Where a formula stops being one. Values of tokens stand as messages show them. -/
inductive GrammarFault where
  | unexpectedEnd
  | trailingTokens
  | expected (mark : String)
  | unknownName (shown : String)
  | unexpectedToken (shown : String)
  | rangeEnd
  deriving DecidableEq, Repr

def GrammarFault.message : GrammarFault → String
  | .unexpectedEnd => "unexpected end of formula"
  | .trailingTokens => "unexpected trailing tokens"
  | .expected mark => "expected " ++ Text.quoted mark
  | .unknownName shown => "unknown name " ++ shown
  | .unexpectedToken shown => "unexpected token " ++ shown
  | .rangeEnd => "range end must be a cell reference"

/-- What is wrong with a field of a format or of an event. -/
inductive FieldFault where
  | flagType
  | flagText
  | choice
  | textType
  | recordType
  | mapType
  | level
  | absent
  | integerText
  | integerSize
  | integerType
  | integerFraction
  | integerFinite
  deriving DecidableEq, Repr

def FieldFault.name : FieldFault → String
  | .flagType => "bool_type"
  | .flagText => "bool_parsing"
  | .choice => "literal_error"
  | .textType => "string_type"
  | .recordType => "model_type"
  | .mapType => "dict_type"
  | .level => "enum"
  | .absent => "missing"
  | .integerText => "int_parsing"
  | .integerSize => "int_parsing_size"
  | .integerType => "int_type"
  | .integerFraction => "int_from_float"
  | .integerFinite => "finite_number"

/-- A field by name, the empty name for the whole record, and its fault. -/
structure FieldProblem where
  field : String
  fault : FieldFault
  deriving DecidableEq, Repr

/-- Each field with its fault. -/
def problemsText (problems : List FieldProblem) : String :=
  ";".intercalate (problems.map fun p => p.field ++ ":" ++ p.fault.name)

/-- Which part of a day or of a time of day there is not. -/
inductive CalendarFault where
  | year (year : Nat)
  | month
  | day
  | hour
  | minute
  | second
  /-- The distance from universal time is a day or more. -/
  | offset (minutes : Int)
  deriving DecidableEq, Repr

/-- A span of time in whole days and the seconds over them. -/
def spanText (minutes : Int) : String :=
  let seconds := minutes % 1440 * 60
  "datetime.timedelta(days=" ++ toString (minutes / 1440) ++
    (if seconds = 0 then "" else ", seconds=" ++ toString seconds) ++ ")"

def CalendarFault.message : CalendarFault → String
  | .year n => "year " ++ toString n ++ " is out of range"
  | .month => "month must be in 1..12"
  | .day => "day is out of range for month"
  | .hour => "hour must be in 0..23"
  | .minute => "minute must be in 0..59"
  | .second => "second must be in 0..59"
  | .offset minutes =>
    "offset must be a timedelta strictly between -timedelta(hours=24) and timedelta(hours=24), " ++
      "not " ++ spanText minutes ++ "."

inductive Fault where
  | negativeColumn (index : Int)
  | negativePosition (row col : Int)
  | negativePaste (row col : Int)
  | lastRow
  | lastColumn
  | invalidFields (problems : List FieldProblem)
  | notDecimal (shown : String)
  | notInteger (shown : String) (base : Nat := 10)
  /-- An integer text is too long; reading knows how long it is. -/
  | tooManyDigits (count : Option Nat)
  | beyondDouble
  | quotientBeyondDouble
  | infiniteInteger
  | notANumberInteger
  /-- A rounded decimal needs more digits than decimals have. -/
  | decimalPrecision
  /-- The whole part of a decimal needs more digits than decimals have. -/
  | decimalQuotient
  | unknownLocale (id : String)
  | localeLetters (part : String)
  | localeShape (id : String)
  | localeType (shown : String)
  | nestedTooDeep
  | grammar (cause : GrammarFault) (position : Nat)
  /-- A value of the named kind has no such operation. -/
  | noOperation (kind operation : String)
  /-- A value of the named kind holds no others. -/
  | noItems (kind : String)
  | notConvertible (target kind : String)
  | notMapping (path : String)
  /-- A text is no document; the text of the complaint says why. -/
  | notDocument (stage : Yaml.Stage) (text : String)
  | notCalendar (cause : CalendarFault)
  deriving DecidableEq, Repr

/-- The most digits of an integer that is read or written as text. -/
def digitLimit : Nat := 4300

/-- The text of a grammar fault: its message and, if known, the number of the token. -/
def grammarText (message : String) (position : Option Int) : String :=
  "Formula parse error: " ++ message ++
    match position with
    | none => ""
    | some p => " (at token " ++ toString p ++ ")"

def tooManyDigitsText (count : Option Nat) : String :=
  "Exceeds the limit (4300 digits) for integer string conversion" ++
    (match count with
      | none => ""
      | some n => ": value has " ++ toString n ++ " digits") ++
    "; use sys.set_int_max_str_digits() to increase the limit"

def pairText (row col : Int) : String := "(" ++ toString row ++ ", " ++ toString col ++ ")"

def Fault.message : Fault → String
  | .negativeColumn index => "Column index must be >= 0, got " ++ toString index
  | .negativePosition row col => "Cell position must be non-negative, got " ++ pairText row col
  | .negativePaste row col => "Paste position must be non-negative, got " ++ pairText row col
  | .lastRow => "At least one row must remain."
  | .lastColumn => "At least one column must remain."
  | .invalidFields problems => problemsText problems
  | .notDecimal shown => "could not convert string to float: " ++ shown
  | .notInteger shown base =>
    "invalid literal for int() with base " ++ toString base ++ ": " ++ shown
  | .tooManyDigits count => tooManyDigitsText count
  | .beyondDouble => "int too large to convert to float"
  | .quotientBeyondDouble => "integer division result too large for a float"
  | .infiniteInteger => "cannot convert float infinity to integer"
  | .notANumberInteger => "cannot convert float NaN to integer"
  | .decimalPrecision => "[<class 'decimal.InvalidOperation'>]"
  | .decimalQuotient => "[<class 'decimal.DivisionImpossible'>]"
  | .unknownLocale id => "unknown locale " ++ Text.quoted id
  | .localeLetters part => "expected only letters, got " ++ Text.quoted part
  | .localeShape id => Text.quoted id ++ " is not a valid locale identifier"
  | .localeType shown => "Unexpected value for identifier: " ++ shown
  | .nestedTooDeep => "Formula nested too deeply"
  | .grammar cause position => grammarText cause.message (some position)
  | .noOperation kind operation =>
    Text.quoted kind ++ " object has no attribute " ++ Text.quoted operation
  | .noItems kind => Text.quoted kind ++ " object is not iterable"
  | .notConvertible target kind => target ++ ", not " ++ Text.quoted kind
  | .notMapping path => path ++ " must contain a mapping"
  | .notDocument _ text => text
  | .notCalendar cause => cause.message

/-- The faults of a text, or of a number as a text, that does not read as what it should be. -/
def Fault.isTextual : Fault → Bool
  | .grammar .. | .notDecimal .. | .notInteger .. | .tooManyDigits .. | .notANumberInteger => true
  | _ => false

/-- An integer as text, unless it is too long. -/
def integerText (n : Int) : Except Fault String :=
  let digits := Text.natDigits n.natAbs
  if digits.length > digitLimit then .error (.tooManyDigits none)
  else .ok (String.ofList (if n < 0 then '-' :: digits else digits))

/-- The number that a run of decimal digits of any script writes, unless it is too long. -/
def integerOfDigits (digits : List Nat) : Except Fault Nat :=
  if digits.length > digitLimit then .error (.tooManyDigits (some digits.length))
  else .ok (digits.foldl (fun n d => n * 10 + d) 0)

theorem integerOfDigits_eq_error {digits : List Nat} {f : Fault}
    (h : integerOfDigits digits = .error f) :
    digitLimit < digits.length ∧ f = .tooManyDigits (some digits.length) := by
  unfold integerOfDigits at h
  split at h
  · rename_i hlength
    cases h
    exact ⟨hlength, rfl⟩
  · cases h

end Worksheet
