import Worksheet.Number.Conversion
import Worksheet.Text.Lower
import Worksheet.Text.Split
import Worksheet.Value
import Worksheet.Yaml.Timestamp

/-!
What scalars stand for in YAML 1.1. A plain scalar that is spelled as nothing, a truth value, an
integer, a double or a point in time is one, and any other is text. Integers may be binary, octal,
hexadecimal or in base sixty, doubles may be in base sixty too, and digits may have underscores
between them.
-/
namespace Worksheet.Yaml

open Text

inductive ScalarKind where
  | null
  | bool
  | int
  | float
  | timestamp
  | merge
  | default
  | text
  deriving DecidableEq

/-- What the tags of the schema begin with. -/
def tagStem : String := "tag:yaml.org,2002:"

namespace ScalarKind

def tag : ScalarKind → String
  | .null => tagStem ++ "null"
  | .bool => tagStem ++ "bool"
  | .int => tagStem ++ "int"
  | .float => tagStem ++ "float"
  | .timestamp => tagStem ++ "timestamp"
  | .merge => tagStem ++ "merge"
  | .default => tagStem ++ "value"
  | .text => tagStem ++ "str"

def nullWords : List String := ["", "~", "null", "Null", "NULL"]

def trueWords : List String :=
  ["yes", "Yes", "YES", "true", "True", "TRUE", "on", "On", "ON"]

def falseWords : List String :=
  ["no", "No", "NO", "false", "False", "FALSE", "off", "Off", "OFF"]

def infinityWords : List String := [".inf", ".Inf", ".INF"]

def notANumberWords : List String := [".nan", ".NaN", ".NAN"]

def isDigitPart (c : Char) : Bool := isAsciiDigit c || c == '_'

def isHexPart (c : Char) : Bool := (hexValue? c).isSome || c == '_'

/-- A digit in base sixty: one or two decimal digits below sixty. -/
def isSixtieth : List Char → Bool
  | [a] => isAsciiDigit a
  | [a, b] => isAsciiDigit a && a ≤ '5' && isAsciiDigit b
  | _ => false

/-- Digits in base sixty, each behind a colon; there must be one. -/
def areSixtieths (cs : List Char) : Bool :=
  match splitAt ':' cs with
  | [] :: part :: parts => (part :: parts).all isSixtieth
  | _ => false

def isInteger (cs : List Char) : Bool :=
  match (Number.readSign cs).2 with
  | [] => false
  | '0' :: 'b' :: rest => !rest.isEmpty && rest.all fun c => c == '0' || c == '1' || c == '_'
  | '0' :: 'x' :: rest => !rest.isEmpty && rest.all isHexPart
  | '0' :: rest => rest.all fun c => isDigitPart c && c != '8' && c != '9'
  | c :: rest =>
    let behind := rest.dropWhile isDigitPart
    isAsciiDigit c && (behind.isEmpty || areSixtieths behind)

/-- An exponent with its sign, or nothing. -/
def isExponent : List Char → Bool
  | [] => true
  | c :: sign :: rest =>
    (c == 'e' || c == 'E') && (sign == '+' || sign == '-') && !rest.isEmpty &&
      rest.all isAsciiDigit
  | _ => false

/-- A double has a point. Without a digit before the point it has no sign, and a digit behind. -/
def isDouble (cs : List Char) : Bool :=
  let body := (Number.readSign cs).2
  let whole := body.takeWhile isDigitPart
  match whole, body.drop whole.length with
  | [], '.' :: rest =>
    let behind := rest.dropWhile isDigitPart
    infinityWords.contains (String.ofList body) || notANumberWords.contains (String.ofList cs) ||
      (body.length == cs.length && rest.head?.any isAsciiDigit && isExponent behind)
  | first :: _, '.' :: rest => isAsciiDigit first && isExponent (rest.dropWhile isDigitPart)
  | first :: _, ':' :: rest =>
    isAsciiDigit first && areSixtieths (':' :: rest.takeWhile (· != '.')) &&
      match rest.dropWhile (· != '.') with
      | _ :: fraction => fraction.all isDigitPart
      | [] => false
  | _, _ => false

/-- The kind of a plain scalar. -/
def ofPlain (cs : List Char) : ScalarKind :=
  let word := String.ofList cs
  if nullWords.contains word then .null
  else if trueWords.contains word || falseWords.contains word then .bool
  else if isDouble cs then .float
  else if isInteger cs then .int
  else if word == "<<" then .merge
  else if word == "=" then .default
  else if (Timestamp.read? cs).isSome then .timestamp
  else .text

/-- The kind that a tag demands. -/
def ofTag? (tag : String) : Option ScalarKind :=
  [.null, .bool, .int, .float, .timestamp, .text].find? fun k : ScalarKind => k.tag == tag

/-! ### Values -/

def withoutUnderscores (cs : List Char) : List Char := cs.filter (· != '_')

/-- The number of digits in base two, eight or sixteen. -/
def inBase (base : Nat) (cs : List Char) : Except Fault Int :=
  match cs.mapM fun c => (hexValue? c).filter (· < base) with
  | some (d :: digits) => .ok ((d :: digits).foldl (fun n d => n * base + d) 0 : Nat)
  | _ => .error (.notInteger (quoted (String.ofList cs)) base)

/-- The number of decimal parts in base sixty. -/
def inSixty (parts : List (List Char)) : Except Fault Int := do
  let parts ← parts.mapM fun part => Number.integerOfText (String.ofList part)
  return parts.foldl (fun n d => n * 60 + d) 0

def magnitude (cs : List Char) : Except Fault Int :=
  match cs with
  | ['0'] => .ok 0
  | '0' :: 'b' :: rest => inBase 2 rest
  | '0' :: 'x' :: rest => inBase 16 rest
  | '0' :: _ => inBase 8 cs
  | _ =>
    if cs.contains ':' then inSixty (splitAt ':' cs) else Number.integerOfText (String.ofList cs)

def integer (cs : List Char) : Except Fault Int :=
  let (negative, body) := Number.readSign (withoutUnderscores cs)
  (magnitude body).map fun n => if negative then -n else n

/-- The double of a text in digits. -/
def decimal (cs : List Char) : Except Fault Float :=
  match Number.doubleOfText (String.ofList cs) with
  | some x => .ok x
  | none => .error (.notDecimal (quoted (String.ofList cs)))

/-- The sum of parts in base sixty, from the last one on. -/
def sumSixty (parts : List Float) : Float :=
  (parts.foldr (fun x (sum, power) => (sum + x * Float.ofScientific power false 0, power * 60))
    (0, 1)).1

def double (cs : List Char) : Except Fault Float := do
  let (negative, body) := Number.readSign (lower (withoutUnderscores cs))
  let x ←
    if body == ['.', 'i', 'n', 'f'] then pure (1 / 0)
    else if body == ['.', 'n', 'a', 'n'] then pure (0 / 0)
    else if body.contains ':' then sumSixty <$> (splitAt ':' body).mapM decimal
    else decimal body
  return signed negative x
where
  signed (negative : Bool) (x : Float) : Float := if negative then -x else x

/-- The truth value of a word in any case. -/
def truth? (cs : List Char) : Option Bool :=
  let word := String.ofList (lower cs)
  if trueWords.contains word then some true
  else if falseWords.contains word then some false
  else none

/-- The value of a scalar of a kind; none when there is no such value. -/
def value? (k : ScalarKind) (text : String) : Except Fault (Option Value) :=
  let cs := text.toList
  match k with
  | .null => .ok (some .null)
  | .bool => .ok ((truth? cs).map .bool)
  | .int => (integer cs).map fun n => some (.int n)
  | .float => (double cs).map fun x => some (.float x)
  | .timestamp => match Timestamp.read? cs with
    | some t => t.text.map fun s => some (.text s)
    | none => .ok none
  | .text => .ok (some (.text text))
  | .merge | .default => .ok none

end ScalarKind
end Worksheet.Yaml
