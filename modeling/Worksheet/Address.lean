import Worksheet.Fault
import Worksheet.Text.Blank
import Worksheet.Text.Upper

/-!
Cell addresses. Columns are lettered in bijective base 26 (`A`, ..., `Z`, `AA`, ...) and rows are
numbered from one in text; coordinates count both from nought. A range is a rectangle between two
corners, listed row by row.
-/
namespace Worksheet

structure Coord where
  row : Int
  col : Int
  deriving DecidableEq, Repr, Inhabited

/-- A rectangle with its bounds included; `Range.between` puts them in order. -/
structure Range where
  rowStart : Int
  colStart : Int
  rowEnd : Int
  colEnd : Int
  deriving DecidableEq, Repr

namespace Address

open Text

def letter (n : Nat) : Char := Char.ofNat (65 + n)

/-- The letters of a column number counted from one; nought has none. -/
def labelLetters (n : Nat) : List Char :=
  if n = 0 then [] else labelLetters ((n - 1) / 26) ++ [letter ((n - 1) % 26)]
termination_by n
decreasing_by omega

/-- The label of a column. -/
def columnLabel (col : Nat) : List Char := labelLetters (col + 1)

/-- The column of a label in any case. Characters other than letters count by their distance from
`A`, and no letters at all give the column before the first. -/
def columnIndex (letters : List Char) : Int :=
  (upper letters).foldl (fun n c => n * 26 + ((c.toNat : Int) - 64)) 0 - 1

/-- The label of a column that exists. -/
def label (col : Int) : Except Fault String :=
  if col < 0 then .error (.negativeColumn col) else .ok (String.ofList (columnLabel col.toNat))

end Address

namespace Coord

open Text

/-- Letters and then decimal digits, and nothing else; the digits may be of any script. -/
def split? (cs : List Char) : Option (List Char × List Nat) :=
  let letters := cs.takeWhile isAsciiLetter
  let rest := cs.dropWhile isAsciiLetter
  if letters.isEmpty || rest.isEmpty then none
  else (rest.mapM decimalDigit?).map fun digits => (letters, digits)

/-- The coordinate that a text names, blanks around it aside. Rows are numbered from one. -/
def read (s : String) : Except Fault (Option Coord) :=
  match split? (trim s.toList) with
  | none => .ok none
  | some (letters, digits) => do
    let number ← integerOfDigits digits
    return if number = 0 then none else some ⟨(number : Int) - 1, Address.columnIndex letters⟩

def address (c : Coord) : Except Fault String := do
  let column ← Address.label c.col
  let row ← integerText (c.row + 1)
  return column ++ row

end Coord

namespace Range

/-- The rectangle between two opposite corners, whichever they are. -/
def between (a b : Coord) : Range :=
  ⟨min a.row b.row, min a.col b.col, max a.row b.row, max a.col b.col⟩

def read (start stop : String) : Except Fault (Option Range) := do
  let a ← Coord.read start
  let b ← Coord.read stop
  return match a, b with
    | some a, some b => some (between a b)
    | _, _ => none

def height (r : Range) : Nat := (r.rowEnd - r.rowStart + 1).toNat

def width (r : Range) : Nat := (r.colEnd - r.colStart + 1).toNat

def size (r : Range) : Nat := r.height * r.width

/-- The coordinate at a place of the enumeration row by row. -/
def nth (r : Range) (i : Nat) : Coord :=
  ⟨r.rowStart + (i / r.width : Nat), r.colStart + (i % r.width : Nat)⟩

/-- All coordinates, row by row. -/
def coords (r : Range) : List Coord :=
  (List.range r.height).flatMap fun (i : Nat) =>
    (List.range r.width).map fun (j : Nat) => ⟨r.rowStart + i, r.colStart + j⟩

end Range
end Worksheet
