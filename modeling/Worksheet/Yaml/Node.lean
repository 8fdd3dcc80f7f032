import Worksheet.Yaml.Complaint
import Worksheet.Yaml.Schema

/-!
The nodes of a document and the values that they stand for. Of fields with one name the last wins,
in the place of the first; a field for merging brings the fields of other mappings, which stand
before the mapping's own. When several nodes have no value, the outermost is complained about, and
of these the first.
-/
namespace Worksheet.Yaml

/-- Why a document is not read. -/
inductive Stop where
  | complaint (c : Complaint)
  | fault (f : Fault)

inductive Node where
  | scalar (tag text : String) (start : Mark)
  | sequence (tag : String) (items : List Node) (start : Mark)
  | mapping (tag : String) (fields : List (Node × Node)) (start : Mark)

namespace Node

def start : Node → Mark
  | scalar _ _ m | sequence _ _ m | mapping _ _ m => m

def kind : Node → String
  | scalar .. => "scalar"
  | sequence .. => "sequence"
  | mapping .. => "mapping"

def tag : Node → String
  | scalar t _ _ | sequence t _ _ | mapping t _ _ => t

def sequenceTag : String := tagStem ++ "seq"

def mappingTag : String := tagStem ++ "map"

/-! ### Merging -/

/-- A key that is spelled as the default value is text. -/
def asName (key : Node) : Node :=
  match key with
  | scalar tag text m =>
    if tag == ScalarKind.default.tag then scalar ScalarKind.text.tag text m else key
  | _ => key

/-- Fields of a mapping: those that merging brings, and its own. -/
structure Fields where
  merged : List (Node × Node) := []
  own : List (Node × Node) := []

def Fields.all (f : Fields) : List (Node × Node) := f.merged ++ f.own

mutual
/-- The fields of the mapping that starts at a place. -/
def fieldsOf (owner : Mark) : List (Node × Node) → Except Complaint Fields
  | [] => .ok {}
  | (key, n) :: rest => do
    if key.tag == ScalarKind.merge.tag then
      let brought ← broughtBy owner n
      let f ← fieldsOf owner rest
      return { f with merged := brought ++ f.merged }
    else
      let f ← fieldsOf owner rest
      return { f with own := (key.asName, n) :: f.own }

/-- The fields that a value for merging brings: those of a mapping or of several. -/
def broughtBy (owner : Mark) : Node → Except Complaint (List (Node × Node))
  | mapping _ fields start => (fieldsOf start fields).map Fields.all
  | sequence _ items _ => broughtByAll owner items
  | scalar _ _ start => .error ⟨some .fields, some owner, .unmergeable "scalar", start⟩

/-- The fields that several mappings bring, those of the last first. -/
def broughtByAll (owner : Mark) : List Node → Except Complaint (List (Node × Node))
  | [] => .ok []
  | mapping _ fields start :: rest => do
    let f ← fieldsOf start fields
    let others ← broughtByAll owner rest
    return others ++ f.all
  | n :: _ => .error ⟨some .fields, some owner, .unmergeableItem n.kind, n.start⟩
end

/-! ### Values -/

/-- A node without a value, and how deep it is nested. -/
structure Flaw where
  depth : Nat
  stop : Stop

/-- A complaint about a place. -/
def flaw {α : Type} (depth : Nat) (trouble : Trouble) (place : Mark) : Except Flaw α :=
  .error ⟨depth, .complaint { trouble, place }⟩

/-- Two results, or the flaw that is less deep; of two alike the first. -/
def both {α β : Type} : Except Flaw α → Except Flaw β → Except Flaw (α × β)
  | .ok x, .ok y => .ok (x, y)
  | .error f, .error g => .error (if g.depth < f.depth then g else f)
  | .error f, .ok _ => .error f
  | .ok _, .error g => .error g

/-- The results of all items, or the flaw that is the least deep. -/
def each {α β : Type} (f : α → Except Flaw β) : List α → Except Flaw (List β)
  | [] => .ok []
  | x :: rest => (both (f x) (each f rest)).map fun (y, ys) => y :: ys

/-- The value of a scalar, by its tag. -/
def scalarValue (depth : Nat) (tag text : String) (start : Mark) : Except Flaw Value :=
  match ScalarKind.ofTag? tag with
  | some k => match k.value? text with
    | .ok (some v) => .ok v
    | .ok none => flaw depth (.unknownTag tag) start
    | .error f => .error ⟨depth, .fault f⟩
  | none =>
    if tag == sequenceTag then flaw (depth + 1) (.wrongNode "sequence" "scalar") start
    else if tag == mappingTag then flaw (depth + 1) (.wrongNode "mapping" "scalar") start
    else flaw depth (.unknownTag tag) start

/-- The complaint about a collection whose tag demands something else. -/
def wrongTag (depth : Nat) (n : Node) : Except Flaw Value :=
  if (ScalarKind.ofTag? n.tag).isSome then flaw depth (.wrongNode "scalar" n.kind) n.start
  else if n.tag == sequenceTag then flaw (depth + 1) (.wrongNode "sequence" n.kind) n.start
  else if n.tag == mappingTag then flaw (depth + 1) (.wrongNode "mapping" n.kind) n.start
  else flaw depth (.unknownTag n.tag) n.start

/-- The name of a field; collections are no names. -/
def fieldName (depth : Nat) (owner : Mark) (key : Node) : Except Flaw String :=
  match key with
  | scalar tag text start => do
    match (← scalarValue depth tag text start).toText with
    | .ok name => return name
    | .error f => throw ⟨depth, .fault f⟩
  | n =>
    if n.tag == sequenceTag || n.tag == mappingTag then
      .error ⟨depth, .complaint ⟨some .fields, some owner, .collectionAsKey, n.start⟩⟩
    else (wrongTag depth n).map fun _ => ""

/-- The record of fields. -/
def record (fields : List (String × Value)) : Value :=
  .record (fields.foldl (fun seen field => Value.putField seen field.1 field.2) [])

/-- The value of a node that is nested `depth` deep and has at most `levels` below it. -/
def valueAt : (levels : Nat) → (depth : Nat) → Node → Except Flaw Value
  | 0, depth, _ => .error ⟨depth, .fault .nestedTooDeep⟩
  | levels + 1, depth, n =>
    match n with
    | scalar tag text start => scalarValue depth tag text start
    | sequence tag items _ =>
      if tag == sequenceTag then (each (valueAt levels (depth + 1)) items).map .list
      else wrongTag depth n
    | mapping tag fields start =>
      if tag == mappingTag then
        match fieldsOf start fields with
        | .error c => .error ⟨depth + 1, .complaint c⟩
        | .ok f => (each (fun (key, n) => both (fieldName (depth + 1) start key)
            (valueAt levels (depth + 1) n)) f.all).map record
      else wrongTag depth n

mutual
/-- How many levels a node has. -/
def height : Node → Nat
  | scalar .. => 1
  | sequence _ items _ => heightOfItems items + 1
  | mapping _ fields _ => heightOfFields fields + 1

def heightOfItems : List Node → Nat
  | [] => 0
  | n :: rest => max n.height (heightOfItems rest)

def heightOfFields : List (Node × Node) → Nat
  | [] => 0
  | (key, n) :: rest => max (max key.height n.height) (heightOfFields rest)
end

/-- The value of the root of a document. -/
def value (n : Node) : Except Stop Value := (valueAt n.height 0 n).mapError Flaw.stop

end Node
end Worksheet.Yaml
