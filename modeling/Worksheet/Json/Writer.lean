import Worksheet.Value

/-!
Values written as JSON in ASCII. Everything else is escaped by UTF-16 units; doubles are written as
everywhere, with names for those that are not finite.
-/
namespace Worksheet.Json

open Text

/-- How a document is laid out: on one line, or each item on its own line behind an indent, and with
the fields of records as they come or sorted by name. -/
structure Layout where
  indent : Option Nat
  sorted : Bool

def Layout.line : Layout := ⟨none, true⟩

def Layout.page : Layout := ⟨some 2, false⟩

def unicodeEscape (n : Nat) : List Char := '\\' :: 'u' :: hexDigits 4 n

/-- A character inside a string. -/
def charText (c : Char) : List Char :=
  let n := c.toNat
  if c == '"' || c == '\\' then ['\\', c]
  else if c == '\n' then ['\\', 'n']
  else if c == '\r' then ['\\', 'r']
  else if c == '\t' then ['\\', 't']
  else if n == 8 then ['\\', 'b']
  else if n == 12 then ['\\', 'f']
  else if 32 ≤ n && n < 127 then [c]
  else if n < 0x10000 then unicodeEscape n
  else unicodeEscape (0xD800 + (n - 0x10000) / 0x400) ++ unicodeEscape (0xDC00 + n % 0x400)

def stringText (s : String) : String :=
  String.ofList ('"' :: s.toList.flatMap charText ++ ['"'])

def floatText (x : Float) : String :=
  if x.isNaN then "NaN"
  else if x.isInf then (if x < 0 then "-Infinity" else "Infinity")
  else Number.floatText x

def sortFields (fields : List (String × String)) : List (String × String) :=
  fields.mergeSort fun a b => a.1 ≤ b.1

/-- Items between brackets, `level` levels inside the document. -/
def enclose (layout : Layout) (level : Nat) (opening closing : String) (items : List String) :
    String :=
  if items.isEmpty then opening ++ closing
  else match layout.indent with
    | none => opening ++ ", ".intercalate items ++ closing
    | some n =>
      let line (depth : Nat) := "\n" ++ String.ofList (List.replicate (n * depth) ' ')
      opening ++ line (level + 1) ++ ("," ++ line (level + 1)).intercalate items ++
        line level ++ closing

mutual
def render (layout : Layout) (level : Nat) : Value → Except Fault String
  | .null => .ok "null"
  | .bool b => .ok (if b then "true" else "false")
  | .int n => integerText n
  | .float x => .ok (floatText x)
  | .text s => .ok (stringText s)
  | .error code => .ok (stringText code.text)
  | .list items => (renderAll layout (level + 1) items).map (enclose layout level "[" "]")
  | .record fields => do
    let parts ← renderFields layout (level + 1) fields
    let parts := if layout.sorted then sortFields parts else parts
    return enclose layout level "\x7b" "\x7d" (parts.map fun (name, part) =>
      stringText name ++ ": " ++ part)

def renderAll (layout : Layout) (level : Nat) : List Value → Except Fault (List String)
  | [] => .ok []
  | v :: rest => do
    let part ← render layout level v
    let parts ← renderAll layout level rest
    return part :: parts

def renderFields (layout : Layout) (level : Nat) :
    List (String × Value) → Except Fault (List (String × String))
  | [] => .ok []
  | (name, v) :: rest => do
    let part ← render layout level v
    let parts ← renderFields layout level rest
    return (name, part) :: parts
end

/-- The text of a document. -/
def text (layout : Layout) (v : Value) : Except Fault String := render layout 0 v

end Worksheet.Json
