import Worksheet.Value
import Worksheet.Number.Conversion

/-!
JSON text read as a value. Numbers with a point or an exponent are doubles and others integers; the
names `NaN`, `Infinity` and `-Infinity` are doubles too. Of fields with one name the last wins, in
the place of the first. A text that is no JSON is refused with the reason and the place.
-/
namespace Worksheet.Json

open Text

inductive Reason where
  | value
  | propertyName
  | colon
  | comma
  | unterminated
  | controlCharacter
  | escape
  | unicodeEscape
  | extraData
  | byteOrderMark
  deriving DecidableEq, Repr

def Reason.message : Reason → String
  | .value => "Expecting value"
  | .propertyName => "Expecting property name enclosed in double quotes"
  | .colon => "Expecting ':' delimiter"
  | .comma => "Expecting ',' delimiter"
  | .unterminated => "Unterminated string starting at"
  | .controlCharacter => "Invalid control character at"
  | .escape => "Invalid \\escape"
  | .unicodeEscape => "Invalid \\uXXXX escape"
  | .extraData => "Extra data"
  | .byteOrderMark => "Unexpected UTF-8 BOM (decode using utf-8-sig)"

/-- Why reading stopped: a wrong character, counted from the end of the text, or a number or a
nesting beyond the limits. -/
inductive Halt where
  | wrong (reason : Reason) (unread : Nat)
  | beyond (fault : Fault)

abbrev Read (α : Type) := Except Halt (α × List Char)

def wrongAt {α : Type} (reason : Reason) (cs : List Char) : Except Halt α :=
  .error (.wrong reason cs.length)

def isGap (c : Char) : Bool := c == ' ' || c == '\t' || c == '\n' || c == '\r'

def skipGap (cs : List Char) : List Char := cs.dropWhile isGap

/-- Four hexadecimal digits with something behind them. -/
def unicodeUnit? : List Char → Option (Nat × List Char)
  | a :: b :: c :: d :: rest =>
    if rest.isEmpty then none
    else do
      let a ← hexValue? a
      let b ← hexValue? b
      let c ← hexValue? c
      let d ← hexValue? d
      return (((a * 16 + b) * 16 + c) * 16 + d, rest)
  | _ => none

def simpleEscape? (c : Char) : Option Char :=
  if c == '"' || c == '\\' || c == '/' then some c
  else if c == 'b' then some '\x08'
  else if c == 'f' then some '\x0c'
  else if c == 'n' then some '\n'
  else if c == 'r' then some '\r'
  else if c == 't' then some '\t'
  else none

/-- The character of one unit or of a pair of surrogates; half a pair has none of its own. -/
def unitChar (n : Nat) : Char := if 0xD800 ≤ n && n ≤ 0xDFFF then '\ufffd' else Char.ofNat n

/-- The second unit of a pair of surrogates, behind the first. -/
def lowSurrogate? : List Char → Option (Except Unit (Nat × List Char))
  | '\\' :: 'u' :: rest =>
    if rest.length ≤ 4 then none
    else match unicodeUnit? rest with
      | none => some (.error ())
      | some (n, rest) => if 0xDC00 ≤ n && n ≤ 0xDFFF then some (.ok (n, rest)) else none
  | _ => none

/-- The characters of an escape, behind its backslash. -/
def escapeAt (cs : List Char) : Except Halt (Char × List Char) :=
  match cs with
  | 'u' :: rest =>
    match unicodeUnit? rest with
    | none => wrongAt .unicodeEscape cs
    | some (high, rest) =>
      if 0xD800 ≤ high && high ≤ 0xDBFF then
        match lowSurrogate? rest with
        | none => .ok (unitChar high, rest)
        | some (.error ()) => wrongAt .unicodeEscape (rest.drop 1)
        | some (.ok (low, rest)) =>
          .ok (Char.ofNat (0x10000 + (high - 0xD800) * 0x400 + (low - 0xDC00)), rest)
      else .ok (unitChar high, rest)
  | c :: rest =>
    match simpleEscape? c with
    | some c => .ok (c, rest)
    | none => .error (.wrong .escape (cs.length + 1))
  | [] => .error (.wrong .escape 1)

/-- The rest of a string up to its closing quote; `opening` is the place of the opening one and
`tries` bounds the characters. -/
def stringFrom (opening : Nat) : (tries : Nat) → List Char → List Char → Read String
  | 0, _, _ => .error (.wrong .unterminated opening)
  | _, [], _ => .error (.wrong .unterminated opening)
  | tries + 1, c :: rest, seen =>
    if c == '"' then .ok (String.ofList seen.reverse, rest)
    else if c == '\\' then
      if rest.isEmpty then .error (.wrong .unterminated opening)
      else match escapeAt rest with
        | .error h => .error h
        | .ok (c, rest) => stringFrom opening tries rest (c :: seen)
    else if c.toNat ≤ 31 then wrongAt .controlCharacter (c :: rest)
    else stringFrom opening tries rest (c :: seen)

/-- A string, behind its opening quote. -/
def string (cs : List Char) : Read String :=
  stringFrom (cs.length + 1) (cs.length + 1) cs []

/-- The digits of the integer part of a number; a leading nought stands alone. -/
def integerDigits : List Char → List Char × List Char
  | '0' :: rest => (['0'], rest)
  | cs => (cs.takeWhile isAsciiDigit, cs.dropWhile isAsciiDigit)

/-- A point and the digits behind it, or nothing. -/
def fractionPart : List Char → List Char × List Char
  | '.' :: rest =>
    let digits := rest.takeWhile isAsciiDigit
    if digits.isEmpty then ([], '.' :: rest) else ('.' :: digits, rest.dropWhile isAsciiDigit)
  | cs => ([], cs)

/-- A signed exponent with at least one digit, or nothing. -/
def exponentPart (cs : List Char) : List Char × List Char :=
  match cs with
  | e :: rest =>
    if e == 'e' || e == 'E' then
      let sign := rest.takeWhile fun c => c == '+' || c == '-'
      let digits := (rest.drop sign.length).takeWhile isAsciiDigit
      if sign.length ≤ 1 && !digits.isEmpty then
        (e :: sign ++ digits, rest.drop (sign.length + digits.length))
      else ([], cs)
    else ([], cs)
  | [] => ([], cs)

/-- A number; `start` is the text from its sign on. -/
def numberAt (start : List Char) : Read Value :=
  let (negative, unsigned) := match start with
    | '-' :: rest => (true, rest)
    | cs => (false, cs)
  let (digits, rest) := integerDigits unsigned
  if digits.isEmpty then wrongAt .value start
  else
    let (fraction, rest) := fractionPart rest
    let (exponent, rest) := exponentPart rest
    if fraction.isEmpty && exponent.isEmpty then
      match integerOfDigits (digits.map digitValue) with
      | .ok n => .ok (.int (if negative then -(n : Int) else n), rest)
      | .error f => .error (.beyond f)
    else match Number.readNumeral (digits ++ fraction ++ exponent) with
      | some d => .ok (.float (if negative then -d.toFloat else d.toFloat), rest)
      | none => wrongAt .value start

/-- A name at the front of a text. -/
def named? (name : String) (v : Value) (cs : List Char) : Option (Value × List Char) :=
  if name.toList.isPrefixOf cs then some (v, cs.drop name.length) else none

def nameAt? (cs : List Char) : Option (Value × List Char) :=
  named? "null" .null cs <|> named? "true" (.bool true) cs <|> named? "false" (.bool false) cs
    <|> named? "NaN" (.float (0 / 0)) cs <|> named? "Infinity" (.float (1 / 0)) cs
    <|> named? "-Infinity" (.float (-1 / 0)) cs

/-- A value other than a list or a record. -/
def scalarAt (cs : List Char) : Read Value :=
  match cs with
  | '"' :: rest => (string rest).map fun (s, rest) => (.text s, rest)
  | _ => match nameAt? cs with
    | some r => .ok r
    | none => numberAt cs

/-- The items of a list up to its end; `tries` bounds their number. -/
def itemsFrom (item : List Char → Read Value) :
    (tries : Nat) → List Char → List Value → Read Value
  | 0, cs, _ => wrongAt .value cs
  | tries + 1, cs, seen =>
    match item cs with
    | .error h => .error h
    | .ok (v, rest) =>
      match skipGap rest with
      | ']' :: rest => .ok (.list (v :: seen).reverse, rest)
      | ',' :: rest => itemsFrom item tries (skipGap rest) (v :: seen)
      | rest => wrongAt .comma rest

/-- A list, behind its opening bracket. -/
def listAt (item : List Char → Read Value) (cs : List Char) : Read Value :=
  match skipGap cs with
  | ']' :: rest => .ok (.list [], rest)
  | cs => itemsFrom item (cs.length + 1) cs []

/-- One field: a name, a colon and a value. -/
def fieldAt (item : List Char → Read Value) (cs : List Char) : Read (String × Value) :=
  match cs with
  | '"' :: rest =>
    match string rest with
    | .error h => .error h
    | .ok (name, rest) =>
      match skipGap rest with
      | ':' :: rest => (item (skipGap rest)).map fun (v, rest) => ((name, v), rest)
      | rest => wrongAt .colon rest
  | _ => wrongAt .propertyName cs

/-- The fields of a record up to its end; `tries` bounds their number. -/
def fieldsFrom (item : List Char → Read Value) :
    (tries : Nat) → List Char → List (String × Value) → Read Value
  | 0, cs, _ => wrongAt .propertyName cs
  | tries + 1, cs, seen =>
    match fieldAt item cs with
    | .error h => .error h
    | .ok ((name, v), rest) =>
      match skipGap rest with
      | '}' :: rest => .ok (.record (Value.putField seen name v), rest)
      | ',' :: rest => fieldsFrom item tries (skipGap rest) (Value.putField seen name v)
      | rest => wrongAt .comma rest

/-- A record, behind its opening brace. -/
def recordAt (item : List Char → Read Value) (cs : List Char) : Read Value :=
  match skipGap cs with
  | '}' :: rest => .ok (.record [], rest)
  | cs => fieldsFrom item (cs.length + 1) cs []

/-- A value with `depth` levels left. -/
def valueAt : (depth : Nat) → List Char → Read Value
  | 0, cs => match cs with
    | '[' :: _ => .error (.beyond .nestedTooDeep)
    | '{' :: _ => .error (.beyond .nestedTooDeep)
    | _ => scalarAt cs
  | depth + 1, cs => match cs with
    | '[' :: rest => listAt (valueAt depth) rest
    | '{' :: rest => recordAt (valueAt depth) rest
    | _ => scalarAt cs

/-- The value that a text is, gaps around it aside. Lists and records that are nested deeper than
there is room for are refused. -/
def document (depth : Nat) (cs : List Char) : Except Halt Value :=
  match cs with
  | '\ufeff' :: _ => wrongAt .byteOrderMark cs
  | _ =>
    match valueAt depth (skipGap cs) with
    | .error h => .error h
    | .ok (v, rest) =>
      let rest := skipGap rest
      if rest.isEmpty then .ok v else wrongAt .extraData rest

/-- A reason with the line, the column and the place that it names in a text. -/
def describe (cs : List Char) (reason : Reason) (unread : Nat) : String :=
  let place := cs.length - unread
  let before := cs.take place
  let line := before.count '\n' + 1
  let column := (before.reverse.takeWhile (· != '\n')).length + 1
  reason.message ++ ": line " ++ toString line ++ " column " ++ toString column ++
    " (char " ++ toString place ++ ")"

end Worksheet.Json
