import Worksheet.Date.Instant
import Worksheet.Display.Figure
import Worksheet.Format

/-!
Values as a cell shows them. The format of the cell that shows a value decides, and a value that
cannot be shown in it is shown as without one. The locale is looked up only for a number or a date.
-/
namespace Worksheet.Display

open Text Number

/-- What a host sets for all cells, and the day on which dates are read. -/
structure Settings where
  locale : Value := .text "tr_TR"
  /-- The currency of the formats that name none. -/
  currency : Value := .text "TRY"
  today : Date
  library : Library

/-- The locale in which values are shown. -/
def Settings.region (s : Settings) : Except Fault Locale := s.library.locale s.locale

/-- How one value is to be shown; a host may name a kind that there is not. -/
structure Presentation where
  kind : Option FormatKind := some .auto
  currency : Value := .null

namespace Presentation

def ofFormat (f : Format) : Presentation :=
  ⟨some f.kind, match f.currency with | some code => .text code | none => .null⟩

/-- The kind that a value names: none at all is the automatic one. -/
def kindOf (v : Value) : Option FormatKind :=
  if v.isGiven then v.text?.bind (Choice.find? FormatKind) else some .auto

/-- The presentation that a host asks for, by nothing at all or by a record. -/
def ofValue : Value → Except Fault Presentation
  | .null => .ok {}
  | v => do
    let kind ← v.lookup "type"
    let currency ← v.lookup "currency"
    return ⟨kindOf (kind.getD .null), currency.getD .null⟩

/-- The presentation of the fields of a format. -/
def ofFields (fields : List (String × Value)) : Presentation :=
  ⟨kindOf ((fields.lookup "type").getD .null), (fields.lookup "currency").getD .null⟩

end Presentation

/-- Whether a number has a double that is finite. An integer may have none. -/
def isFinite (n : Number) : Except Fault Bool := n.toFloat.map Float.isFinite

/-- A value without a format. -/
def automatic (s : Settings) (v : Value) : Except Fault String :=
  let shown (n : Number) : Except Fault String := do
    if ← isFinite n then number (← s.region) n
    else return ErrorCode.value.text
  match v with
  | .error code => .ok code.text
  | .list _ => .ok ErrorCode.value.text
  | .null => .ok ""
  | .bool b => .ok (if b then "TRUE" else "FALSE")
  | .int n => shown (.int n)
  | .float x => shown (.float x)
  | v => v.toText

/-- The first comma of a text as a point. -/
def commaAsPoint : List Char → List Char
  | [] => []
  | c :: rest => if c == ',' then '.' :: rest else c :: commaAsPoint rest

/-- The number of a text; blank text is nought. -/
def textNumber (cs : List Char) : Option Number :=
  let cs := commaAsPoint (trim cs)
  if cs.isEmpty then some (.int 0) else (readFinite cs).map .float

/-- The finite number that a value is shown as. -/
def numberOf : Value → Except Fault (Option Number)
  | .bool _ => .ok none
  | .int n => (isFinite (.int n)).map fun finite => if finite then some (.int n) else none
  | .float x => .ok (if x.isFinite then some (.float x) else none)
  | v => v.toText.map fun s => textNumber s.toList

/-- The day that is read in a text. -/
def dayOfText (s : Settings) (text : String) : Except Fault (Option Date) :=
  match s.library.day s.today text with
  | .ok d => .ok (some d)
  | .error (.other f) => .error f
  | .error _ => .ok none

/-- The day that a value is shown as: numbers are milliseconds, other values are read as text. -/
def dateOf (s : Settings) : Value → Except Fault (Option Date)
  | .bool _ => .ok none
  | .int n => (isFinite (.int n)).map fun finite =>
      if finite then Date.ofMilliseconds? (.int n) else none
  | .float x => .ok (if x.isFinite then Date.ofMilliseconds? (.float x) else none)
  | v => do
    let cs := trim (← v.toText).toList
    if cs.isEmpty then return none else dayOfText s (String.ofList cs)

/-- A number in a format for numbers. -/
def inKind (s : Settings) (p : Presentation) (v : Value) (n : Number) : Except Fault String :=
  match p.kind with
  | some .percent => do percent (← s.region) (n.round 4)
  | some .currency => do
    let code ← (if p.currency.isGiven then p.currency else s.currency).upper
    money (← s.region) (s.library.places code) code n
  | some .number => do number (← s.region) (n.round 2)
  | _ => automatic s v

/-- Whether a value is shown in the same way whatever its format. -/
def ignoresFormat : Value → Bool
  | .error _ | .list _ | .null => true
  | _ => false

/-- The text that a cell shows. -/
def display (s : Settings) (p : Presentation) (v : Value) : Except Fault String :=
  if p.kind = some .auto || ignoresFormat v then automatic s v
  else if p.kind = some .date then do
    match ← dateOf s v with
    | some d => return (← s.region).shortDate d
    | none => automatic s v
  else do
    match ← numberOf v with
    | some n => inKind s p v n
    | none => automatic s v

end Worksheet.Display
