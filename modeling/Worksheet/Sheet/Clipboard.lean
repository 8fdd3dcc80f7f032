import Worksheet.Text.Split

/-!
Text from a clipboard as a grid: rows end with a line feed, a carriage return or both, and tabs
stand between the cells of a row. One empty line at the end is the end of the last row.
-/
namespace Worksheet.Clipboard

open Text

/-- Without the last line if that is empty and not the only one. -/
def dropFinal (lines : List (List Char)) : List (List Char) :=
  if lines.length > 1 && lines.getLast? == some [] then lines.dropLast else lines

def grid (cs : List Char) : List (List (List Char)) :=
  (dropFinal (splitAt '\n' (unifyBreaks cs))).map (splitAt '\t')

/-- The rows of cells of a text. -/
def parse (s : String) : List (List String) :=
  (grid s.toList).map fun row => row.map String.ofList

end Worksheet.Clipboard
