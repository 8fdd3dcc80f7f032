import Worksheet.Json.Reader
import Worksheet.Json.Writer
import Worksheet.Log.Event
import Worksheet.Text.Split
import Worksheet.Text.Utf8

/-!
The journal of events: bytes that hold one JSON record a line, the newest at the end. Reading looks
at the end of the journal only, skips lines that are no JSON, and gives the newest records first.
-/
namespace Worksheet.Log

open Text

abbrev Journal := List UInt8

namespace Journal

/-- How many bytes at the end are looked at, unless a host says otherwise. -/
def defaultTail : Int := 2 * 1024 * 1024

/-- The most records of one reading. -/
def maxRecords : Int := 2000

/-- The line of an event. -/
def line (e : Event) (time : String) : Except Fault (List UInt8) := do
  let text ← Json.text .line (e.stamped time)
  return encodeUtf8 (text ++ "\n")

def write (j : Journal) (e : Event) (time : String) : Except Fault Journal := do
  let line ← line e time
  return j ++ line

/-- The bytes at the end of a journal. In one that is longer, the line that is cut is left out. -/
def window (j : Journal) (tail : Int) : List UInt8 :=
  if j.length ≤ tail then j
  else ((j.drop (j.length - tail).toNat).dropWhile (· != 10)).drop 1

/-- The record of a line; blank lines and lines that are no JSON have none. JSON is read up to a
depth of nesting. -/
def record? (depth : Nat) (line : List Char) : Except Fault (Option Value) :=
  let cs := trim line
  if cs.isEmpty then .ok none
  else match Json.document depth cs with
    | .ok v => .ok (some v)
    | .error (.wrong ..) => .ok none
    | .error (.beyond fault) => .error fault

/-- The records of lines behind those of `seen`, the last one first. -/
def recordsFrom (depth : Nat) :
    (seen : List Value) → List (List Char) → Except Fault (List Value)
  | seen, [] => .ok seen
  | seen, line :: rest =>
    match record? depth line with
    | .error f => .error f
    | .ok none => recordsFrom depth seen rest
    | .ok (some v) => recordsFrom depth (v :: seen) rest

/-- The records of bytes, newest first. -/
def newest (depth : Nat) (bytes : List UInt8) : Except Fault (List Value) :=
  recordsFrom depth [] (lines (decodeUtf8 bytes))

/-- Which records are wanted: of a level, of a type, and how many. An empty text names neither a
level nor a type. -/
structure Query where
  level : Option String := none
  type : Option String := none
  limit : Int := 200

/-- Whether a field holds a wanted text, if one is wanted; only records have fields. -/
def matchesField (wanted : Option String) (name : String) (v : Value) : Except Fault Bool :=
  match wanted.filter fun text => !text.isEmpty with
  | none => .ok true
  | some text => do
    let field ← v.lookup name
    return (field.bind Value.text?) == some text

def Query.accepts (q : Query) (v : Value) : Except Fault Bool := do
  if ← matchesField q.level "level" v then matchesField q.type "event_type" v else return false

/-- The wanted records up to the limit, behind those of `seen`; the limit is looked at only behind a
record. -/
def selectFrom (q : Query) : (seen : List Value) → List Value → Except Fault (List Value)
  | seen, [] => .ok seen.reverse
  | seen, v :: rest =>
    match q.accepts v with
    | .error f => .error f
    | .ok false => selectFrom q seen rest
    | .ok true =>
      if min q.limit maxRecords ≤ seen.length + 1 then .ok (v :: seen).reverse
      else selectFrom q (v :: seen) rest

/-- The wanted records at the end of a journal, newest first. -/
def read (j : Journal) (depth : Nat) (tail : Int) (q : Query) : Except Fault (List Value) := do
  let records ← newest depth (j.window tail)
  selectFrom q [] records

end Journal
end Worksheet.Log
