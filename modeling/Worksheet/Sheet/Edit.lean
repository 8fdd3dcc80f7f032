import Worksheet.Sheet.Basic
import Worksheet.Sheet.Clipboard

/-!
Edits of a sheet. Every edit that changes something counts in the revision. An edit that is refused
reports a fault beside the sheet as it left it.
-/
namespace Worksheet

/-- A sheet after an edit, what the edit returned and what it reported. -/
structure Edited (α : Type) where
  sheet : Sheet
  result : Except Fault α
  events : List Log.Event := []

namespace Sheet

/-- A position from nought on. -/
structure Place where
  row : Nat
  col : Nat
  deriving DecidableEq, Repr

def place? (c : Coord) : Option Place :=
  if c.row < 0 || c.col < 0 then none else some ⟨c.row.toNat, c.col.toNat⟩

def blanks (n : Nat) : List Value := List.replicate n (.text "")

/-- A row with blank cells at its end, at least `n` long. -/
def padTo (n : Nat) (row : List Value) : List Value := row ++ blanks (n - row.length)

/-- Rows with empty rows at their end, at least `n` of them. -/
def padRows (n : Nat) (rows : List (List Value)) : List (List Value) :=
  rows ++ List.replicate (n - rows.length) []

/-- Rows in which a position has a cell. -/
def ensure (rows : List (List Value)) (p : Place) : List (List Value) :=
  (padRows (p.row + 1) rows).modify p.row (padTo (p.col + 1))

def storedAt (rows : List (List Value)) (p : Place) : Value :=
  ((rows[p.row]?.bind fun row => row[p.col]?).getD .null)

def store (rows : List (List Value)) (p : Place) (cell : Value) : List (List Value) :=
  rows.modify p.row fun row => row.set p.col cell

/-- Count an edit that left these rows. -/
def touched (s : Sheet) (rows : List (List Value)) : Sheet :=
  { s with rows, revision := s.revision + 1 }

/-- Write a value and keep the format of its cell. -/
def setValue (s : Sheet) (c : Coord) (value : Value) : Edited Unit :=
  match place? c with
  | none => ⟨s, .error (.negativePosition c.row c.col), []⟩
  | some p =>
    let rows := ensure s.rows p
    match Cell.withValue (storedAt rows p) value with
    | .error f => ⟨{ s with rows }, .error f, []⟩
    | .ok cell => ⟨s.touched (store rows p cell), .ok (), []⟩

/-- Give a cell a format and keep its value. -/
def setFormat (s : Sheet) (c : Coord) (format : Value) : Edited Unit :=
  match Format.normalize format with
  | .error f => ⟨s, .error f, []⟩
  | .ok fields =>
    let events := s.readEvents c
    match place? c with
    | none => ⟨s, .error (.negativePosition c.row c.col), events⟩
    | some p =>
      match Cell.build (s.rawCell c) (.record fields) with
      | .error f => ⟨{ s with rows := ensure s.rows p }, .error f, events⟩
      | .ok cell => ⟨s.touched (store (ensure s.rows p) p cell), .ok (), events⟩

/-- Where to insert behind `after`, at the end when it is not given. -/
def insertionIndex (after : Option Int) (count : Int) : Int :=
  match after with
  | none => count
  | some i => min (max (i + 1) 0) count

/-- Insert a blank row and return its index. -/
def insertRow (s : Sheet) (after : Option Int := none) : Edited Int :=
  let index := insertionIndex after s.rowCount
  let rows := s.rows.insertIdx index.toNat (blanks s.columnCount.toNat)
  ⟨s.touched rows, .ok index, []⟩

/-- Insert a blank column and return its index; short rows are filled up first. -/
def insertColumn (s : Sheet) (after : Option Int := none) : Edited Int :=
  let count := s.columnCount
  let index := insertionIndex after count
  let rows :=
    if s.rows.isEmpty then [blanks (count + 1).toNat]
    else s.rows.map fun row => (padTo count.toNat row).insertIdx index.toNat (.text "")
  ⟨s.touched rows, .ok index, []⟩

/-- The indices below a count, each once and in order. -/
def selection (indices : List Int) (count : Int) : List Nat :=
  (List.range count.toNat).filter fun (i : Nat) => indices.contains (i : Int)

/-- A list without the elements at some indices. -/
def eraseIndices {α : Type} (selected : List Nat) (xs : List α) : List α :=
  (xs.zipIdx.filter fun entry => !selected.contains entry.2).map (·.1)

/-- The warning about a deletion that would leave nothing. -/
def rejection (operation message code : String) (selected : List Nat) : Log.Event where
  level := .warning
  type := .mutationRejected
  message := message
  context := [("operation", .text operation),
    ("indices", .list (selected.map fun (i : Nat) => .int i))]
  errorCode := some code

/-- Delete rows and return how many; indices out of range are ignored, and one row must remain. -/
def deleteRows (s : Sheet) (indices : List Int) : Edited Nat :=
  let selected := selection indices s.rowCount
  if selected.isEmpty then ⟨s, .ok 0, []⟩
  else if s.rowCount ≤ selected.length then
    ⟨s, .error .lastRow,
      [rejection "delete_rows" "Refused to delete every row" "last_row_delete" selected]⟩
  else ⟨s.touched (eraseIndices selected s.rows), .ok selected.length, []⟩

/-- A row without some columns; a row that they empty keeps a blank cell. -/
def eraseColumns (selected : List Nat) (row : List Value) : List Value :=
  if row.isEmpty then row
  else
    let kept := eraseIndices selected row
    if kept.isEmpty then blanks 1 else kept

/-- Delete columns and return how many; indices out of range are ignored, and one column must
remain. -/
def deleteColumns (s : Sheet) (indices : List Int) : Edited Nat :=
  let selected := selection indices s.columnCount
  if selected.isEmpty then ⟨s, .ok 0, []⟩
  else if s.columnCount ≤ selected.length then
    ⟨s, .error .lastColumn,
      [rejection "delete_columns" "Refused to delete every column" "last_column_delete" selected]⟩
  else ⟨s.touched (s.rows.map (eraseColumns selected)), .ok selected.length, []⟩

/-- Write the cells of one pasted row from a position on; stops at a cell that cannot be written. -/
def pasteCells (rows : List (List Value)) (p : Place) :
    List String → List (List Value) × Option Fault
  | [] => (rows, none)
  | s :: rest =>
    match Cell.withValue (storedAt rows p) (.text s) with
    | .error f => (rows, some f)
    | .ok cell => pasteCells (store rows p cell) ⟨p.row, p.col + 1⟩ rest

/-- Write pasted rows from a position on; each row first grows to its last cell. -/
def pasteRows (rows : List (List Value)) (p : Place) :
    List (List String) → List (List Value) × Option Fault
  | [] => (rows, none)
  | cells :: rest =>
    match pasteCells (ensure rows ⟨p.row, p.col + cells.length - 1⟩) p cells with
    | (rows, some f) => (rows, some f)
    | (rows, none) => pasteRows rows ⟨p.row + 1, p.col⟩ rest

def pasteEvent (c : Coord) (grid : List (List String)) : Log.Event where
  level := .info
  type := .sheetPaste
  message := "Pasted block"
  context := [("cell", .text (addressText c)), ("rows", .int grid.length),
    ("cols", .int (grid.foldl (fun n row => max n row.length) 0))]

/-- Whether a grid is for the edit of a single cell. -/
def isSingleCell (grid : List (List String)) : Bool :=
  match grid with
  | [[_]] => true
  | _ => false

/-- Write a block of text with its first cell at a position, and return whether that was done; a
single cell is left to the usual edit. -/
def paste (s : Sheet) (c : Coord) (text : String) : Edited Bool :=
  let grid := Clipboard.parse text
  if text.isEmpty || isSingleCell grid then ⟨s, .ok false, []⟩
  else match place? c with
    | none => ⟨s, .error (.negativePaste c.row c.col), []⟩
    | some p =>
      match pasteRows s.rows p grid with
      | (rows, some f) => ⟨{ s with rows }, .error f, []⟩
      | (rows, none) => ⟨s.touched rows, .ok true, [pasteEvent c grid]⟩

end Sheet
end Worksheet
