import Worksheet.Record
import Worksheet.Text.Upper

/-!
The format of a cell. A host gives it as a record; flags may be spelled in several ways, choices
only in one, and unknown fields are ignored. `Format.normal` keeps the fields that say something:
reading a normal form back gives the same format, except for a currency that no currency format
uses.
-/
namespace Worksheet

inductive Align where
  | left
  | center
  | right
  deriving DecidableEq, Repr

inductive Tone where
  | none
  | amber
  | sky
  | emerald
  | rose
  deriving DecidableEq, Repr

inductive FormatKind where
  | auto
  | number
  | percent
  | currency
  | date
  deriving DecidableEq, Repr

/-- A field with a fixed set of spellings; the first choice is the default. -/
class Choice (α : Type) where
  choices : List α
  spelling : α → String

instance : Choice Align where
  choices := [.left, .center, .right]
  spelling
    | .left => "left"
    | .center => "center"
    | .right => "right"

instance : Choice Tone where
  choices := [.none, .amber, .sky, .emerald, .rose]
  spelling
    | .none => "none"
    | .amber => "amber"
    | .sky => "sky"
    | .emerald => "emerald"
    | .rose => "rose"

instance : Choice FormatKind where
  choices := [.auto, .number, .percent, .currency, .date]
  spelling
    | .auto => "auto"
    | .number => "number"
    | .percent => "percent"
    | .currency => "currency"
    | .date => "date"

def Choice.find? (α : Type) [Choice α] (s : String) : Option α :=
  (Choice.choices : List α).find? fun choice => Choice.spelling choice == s

structure Format where
  bold : Bool := false
  italic : Bool := false
  underline : Bool := false
  align : Align := .left
  tone : Tone := .none
  kind : FormatKind := .auto
  currency : Option String := none
  deriving DecidableEq, Repr

namespace Format

open Record

def offWords : List String := ["0", "off", "f", "false", "n", "no"]

def onWords : List String := ["1", "on", "t", "true", "y", "yes"]

/-- A flag from nought or one. -/
def readBit (n : Int) : Except FieldFault Bool :=
  if n == 0 then .ok false else if n == 1 then .ok true else .error .flagText

/-- A flag from a word in any case, or from a number of 64 bits. -/
def readFlag : Value → Except FieldFault Bool
  | .bool b => .ok b
  | .int n => if -wordBound ≤ n && n < wordBound then readBit n else .error .flagType
  | .float x => match readWhole x with
    | .ok n => readBit n
    | .error _ => .error .flagType
  | .text s =>
    let word := Text.asciiLowerText s
    if offWords.contains word then .ok false
    else if onWords.contains word then .ok true
    else .error .flagText
  | _ => .error .flagType

def readChoice (α : Type) [Choice α] : Value → Except FieldFault α
  | .text s => match Choice.find? α s with
    | some choice => .ok choice
    | none => .error .choice
  | _ => .error .choice

/-- Read every field; all problems are reported, in the order of the fields. -/
def ofFields (fields : List (String × Value)) : Except (List FieldProblem) Format :=
  let bold := optional fields "bold" readFlag false
  let italic := optional fields "italic" readFlag false
  let underline := optional fields "underline" readFlag false
  let align := optional fields "align" (readChoice Align) .left
  let tone := optional fields "tone" (readChoice Tone) .none
  let kind := optional fields "type" (readChoice FormatKind) .auto
  let currency := optional fields "currency" readText? none
  match bold, italic, underline, align, tone, kind, currency with
  | .ok bold, .ok italic, .ok underline, .ok align, .ok tone, .ok kind, .ok currency =>
    .ok ⟨bold, italic, underline, align, tone, kind, currency⟩
  | _, _, _, _, _, _, _ =>
    .error (problem? bold ++ problem? italic ++ problem? underline ++ problem? align ++
      problem? tone ++ problem? kind ++ problem? currency)

/-- The format that a host gives: nothing at all, or a record. -/
def validate (v : Value) : Except (List FieldProblem) Format :=
  if !v.isGiven then .ok {}
  else match v with
    | .record fields => ofFields fields
    | _ => .error [⟨"", .recordType⟩]

def flagField (name : String) (b : Bool) : List (String × Value) :=
  if b then [(name, .bool true)] else []

def choiceField {α : Type} [Choice α] (name : String) (choice : α) (isDefault : Bool) :
    List (String × Value) :=
  if isDefault then [] else [(name, .text (Choice.spelling choice))]

/-- The currency, where one is used. -/
def usedCurrency (f : Format) : Option String := if f.kind = .currency then f.currency else none

/-- The fields that differ from their defaults, without a currency that is not used. -/
def normal (f : Format) : List (String × Value) :=
  flagField "bold" f.bold ++ flagField "italic" f.italic ++ flagField "underline" f.underline ++
    choiceField "align" f.align (f.align = .left) ++ choiceField "tone" f.tone (f.tone = .none) ++
    choiceField "type" f.kind (f.kind = .auto) ++
    match f.usedCurrency with
    | some code => [("currency", .text code)]
    | none => []

/-- The normal form of what a host gives. -/
def normalize (v : Value) : Except Fault (List (String × Value)) :=
  match validate v with
  | .ok f => .ok f.normal
  | .error problems => .error (.invalidFields problems)

end Format
end Worksheet
