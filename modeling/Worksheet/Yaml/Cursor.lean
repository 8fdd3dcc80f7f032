import Worksheet.Yaml.Complaint

/-!
A document read character by character. A cursor holds what is left of the text and the place
where that begins. The end of the text reads as a character that no document holds.
-/
namespace Worksheet.Yaml

structure Cursor where
  rest : List Char
  mark : Mark := {}

/-- What stands for the end of a text. -/
def ending : Char := '\x00'

/-- The end of a line or of the text. -/
def endsLine (c : Char) : Bool := c == ending || isBreak c

/-- What stands between words: a blank, a tabulator, or the end of a line or of the text. -/
def isGap (c : Char) : Bool := endsLine c || c == ' ' || c == '\t'

/-- Letters, digits and the marks that names may have. -/
def isNamePart (c : Char) : Bool := c.isAlphanum || c == '-' || c == '_'

/-- The place behind a character, by what follows it. A byte order mark takes no column. -/
def Mark.past (m : Mark) (c next : Char) : Mark :=
  if isBreak c && !(c == '\r' && next == '\n') then ⟨m.index + 1, m.line + 1, 0⟩
  else ⟨m.index + 1, m.line, if c == '\ufeff' then m.column else m.column + 1⟩

namespace Cursor

/-- The character so many places further on. -/
def peekAt (c : Cursor) (n : Nat) : Char := (c.rest.drop n).headD ending

def peek (c : Cursor) : Char := c.rest.headD ending

def column (c : Cursor) : Nat := c.mark.column

def next (c : Cursor) : Cursor :=
  match c.rest with
  | [] => c
  | first :: rest => ⟨rest, c.mark.past first (rest.headD ending)⟩

def skip : (count : Nat) → Cursor → Cursor
  | 0, c => c
  | count + 1, c => skip count c.next

/-- The characters in front that pass a test. -/
def run (c : Cursor) (test : Char → Bool) : List Char := c.rest.takeWhile test

/-- Past all characters in front that pass a test. -/
def skipWhile (c : Cursor) (test : Char → Bool) : Cursor := c.skip (c.run test).length

def skipBlanks (c : Cursor) : Cursor := c.skipWhile (· == ' ')

/-- Past a comment, up to the end of its line. -/
def skipComment (c : Cursor) : Cursor :=
  if c.peek == '#' then c.skipWhile (!endsLine ·) else c

/-- The end of a line, if one is here, as it stands in a scalar. -/
def takeBreak (c : Cursor) : Option (Char × Cursor) :=
  let first := c.peek
  if first == '\u2028' || first == '\u2029' then some (first, c.next)
  else if isBreak first then
    some ('\n', if first == '\r' && c.peekAt 1 == '\n' then c.next.next else c.next)
  else none

/-- Whether three marks and a gap are here. -/
def isMarked (c : Cursor) (mark : Char) : Bool :=
  c.peek == mark && c.peekAt 1 == mark && c.peekAt 2 == mark && isGap (c.peekAt 3)

/-- Whether a document starts or ends here, when this is the start of a line. -/
def atDocumentMark (c : Cursor) : Bool := c.isMarked '-' || c.isMarked '.'

/-- Past blanks, comments and line ends, and whether there was a line end; `tries` bounds the
lines. -/
def skipGaps : (tries : Nat) → Cursor → (broken : Bool) → Cursor × Bool
  | 0, c, broken => (c, broken)
  | tries + 1, c, broken =>
    let c := c.skipBlanks.skipComment
    match c.takeBreak with
    | some (_, c) => skipGaps tries c true
    | none => (c, broken)

end Cursor
end Worksheet.Yaml
