import Worksheet.Address
import Worksheet.Format
import Worksheet.Log.Event

/-!
A sheet: rows of stored cells, which may differ in length. A cell is stored bare, as a scalar, or
structured, as a record of a value and a format; a bare cell is one with an empty format. Missing
cells read as empty text.
-/
namespace Worksheet

/-- The value and the normal format of a cell. -/
structure CellData where
  value : Value
  format : List (String × Value)

namespace Cell

def isStructured : Value → Bool
  | .record fields => fields.any fun field => field.1 == "value" || field.1 == "format"
  | _ => false

/-- How a cell is stored: bare when its format is empty. -/
def build (value format : Value) : Except Fault Value :=
  (Format.normalize format).map fun fields =>
    if fields.isEmpty then value
    else .record [("value", value), ("format", .record fields)]

def storedFormat (cell : Value) : Value := (cell.field? "format").getD .null

/-- The value of a structured cell; none at all reads as empty text. -/
def storedValue (cell : Value) : Value :=
  match (cell.field? "value").getD .null with
  | .null => .text ""
  | v => v

/-- A cell with another value and the format it had. -/
def withValue (cell value : Value) : Except Fault Value :=
  if isStructured cell then build value (storedFormat cell) else .ok value

/-- What a stored cell holds, and the problems of its format if that is not valid. -/
def data : Value → CellData × List FieldProblem
  | .null => (⟨.text "", []⟩, [])
  | cell =>
    if isStructured cell then
      match Format.validate (storedFormat cell) with
      | .ok f => (⟨storedValue cell, f.normal⟩, [])
      | .error problems => (⟨storedValue cell, []⟩, problems)
    else (⟨cell, []⟩, [])

end Cell

structure Sheet where
  rows : List (List Value)
  /-- The column count of a sheet without cells. -/
  defaultColumns : Int := 8
  /-- How many edits there have been. -/
  revision : Nat := 0

namespace Sheet

/-- A blank grid; negative sizes count as nought. -/
def empty (rows : Int := 12) (cols : Int := 8) : Sheet :=
  ⟨List.replicate rows.toNat (List.replicate cols.toNat (.text "")), cols, 0⟩

/-- The sheet of stored rows, if they are rows; a value that is not given has none. -/
def ofValue (rows : Value) (defaultColumns : Int := 8) : Except Fault Sheet := do
  let rows ← if rows.isGiven then rows.items else pure []
  return { rows := ← rows.mapM Value.items, defaultColumns }

def rowCount (s : Sheet) : Nat := s.rows.length

/-- The length of the longest row. -/
def widest (s : Sheet) : Nat := s.rows.foldl (fun n row => max n row.length) 0

/-- The longest row counts, or the default when there are no cells. -/
def columnCount (s : Sheet) (default : Option Int := none) : Int :=
  if s.widest = 0 then default.getD s.defaultColumns else s.widest

/-- The stored cell at a position, if there is one. -/
def cell? (s : Sheet) (c : Coord) : Option Value :=
  if c.row < 0 || c.col < 0 then none
  else s.rows[c.row.toNat]?.bind fun row => row[c.col.toNat]?

/-- The value and the format at any position. -/
def cellData (s : Sheet) (c : Coord) : CellData := (Cell.data ((s.cell? c).getD .null)).1

/-- What is wrong with the format stored at a position. -/
def formatProblems (s : Sheet) (c : Coord) : List FieldProblem :=
  (Cell.data ((s.cell? c).getD .null)).2

def rawCell (s : Sheet) (c : Coord) : Value := (s.cellData c).value

def cellFormat (s : Sheet) (c : Coord) : List (String × Value) := (s.cellData c).format

/-- The address of a position that a sheet has. -/
def addressText (c : Coord) : String :=
  match c.address with
  | .ok text => text
  | .error _ => ""

/-- The warning that reading a cell gives when its format is not valid. -/
def readEvents (s : Sheet) (c : Coord) : List Log.Event :=
  let problems := s.formatProblems c
  if problems.isEmpty then []
  else [{
    level := .warning
    type := .formatInvalid
    message := "Ignoring invalid cell format"
    context := [("cell", .text (addressText c)), ("detail", .text (problemsText problems))]
    errorCode := some "invalid_format" }]

/-- The text of a cell as it stands while it is edited. -/
def rawText (s : Sheet) (c : Coord) : Except Fault String :=
  match s.rawCell c with
  | .bool b => .ok (if b then "TRUE" else "FALSE")
  | .float x => match (Number.decode? x).filter Number.isWhole with
    | some b => integerText (Number.wholePart b)
    | none => .ok (Number.floatText x)
  | v => v.toText

end Sheet
end Worksheet
