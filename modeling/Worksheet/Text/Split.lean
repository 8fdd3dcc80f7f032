/-!
Text cut into parts and into lines. Lines end with a line feed, a carriage return or both, and a
wider set of characters ends the lines of a log.
-/
namespace Worksheet.Text

/-- The parts between marks; there is always one more than there are marks. -/
def splitAt (mark : Char) : List Char → List (List Char)
  | [] => [[]]
  | c :: rest =>
    if c == mark then [] :: splitAt mark rest
    else match splitAt mark rest with
      | part :: parts => (c :: part) :: parts
      | [] => [[c]]

/-- Every line end as a line feed. -/
def unifyBreaks : List Char → List Char
  | [] => []
  | '\r' :: '\n' :: rest => '\n' :: unifyBreaks rest
  | c :: rest => (if c == '\r' then '\n' else c) :: unifyBreaks rest

/-- Line feeds, carriage returns, tabulators and separators that end a line. -/
def isLineBreak (c : Char) : Bool :=
  let n := c.toNat
  (10 ≤ n && n ≤ 13) || (28 ≤ n && n ≤ 30) || n == 0x85 || n == 0x2028 || n == 0x2029

/-- The lines that follow `seen` and the reversed beginning of a line. -/
def linesFrom : List Char → (line : List Char) → (seen : List (List Char)) → List (List Char)
  | [], line, seen => (if line.isEmpty then seen else line.reverse :: seen).reverse
  | '\r' :: '\n' :: rest, line, seen => linesFrom rest [] (line.reverse :: seen)
  | c :: rest, line, seen =>
    if isLineBreak c then linesFrom rest [] (line.reverse :: seen)
    else linesFrom rest (c :: line) seen

/-- The lines of a text without their ends. -/
def lines (cs : List Char) : List (List Char) := linesFrom cs [] []

end Worksheet.Text
