import Worksheet.Yaml.Cursor
import Worksheet.Text.Digit

/-!
The texts of scalars. A plain scalar goes on over several lines as long as these are indented; a
scalar in quotes may hold anything, in double quotes with escapes; a block scalar is made of all
deeper lines. A single line end inside a scalar is a blank, and of more line ends the first does not
count, except in a literal block.
-/
namespace Worksheet.Yaml

open Text

/-- The line ends between two lines of a scalar: one alone is a blank, the first of more is left
out; separators that are no line feeds stay. -/
def foldedBreaks (first : Char) (others : List Char) : List Char :=
  if first != '\n' then first :: others
  else if others.isEmpty then [' ']
  else others

/-! ### Plain scalars -/

/-- Marks between brackets. -/
def isFlowMark (c : Char) : Bool := c == ',' || c == '[' || c == ']' || c == '{' || c == '}'

/-- Whether a colon ends a plain scalar, by what follows it. -/
def endsKey (flow : Bool) (next : Char) : Bool := isGap next || (flow && isFlowMark next)

/-- The characters of a plain scalar up to a gap or a mark. -/
def plainWord (flow : Bool) : List Char → List Char
  | [] => []
  | c :: rest =>
    if isGap c || (c == ':' && endsKey flow (rest.headD ending))
        || (flow && (isFlowMark c || c == '?')) then []
    else c :: plainWord flow rest

/-- Characters that no plain scalar starts with. -/
def isIndicator (c : Char) : Bool :=
  isFlowMark c || c == '-' || c == '?' || c == ':' || c == '#' || c == '&' || c == '*' || c == '!'
    || c == '|' || c == '>' || c == apostrophe || c == quotationMark || c == '%' || c == '@'
    || c.toNat == 96

/-- Whether a plain scalar starts here. A dash may start one if something follows it, and so may a
question mark or a colon outside brackets. -/
def Cursor.startsPlain (c : Cursor) (flow : Bool) : Bool :=
  let first := c.peek
  (!isGap first && !isIndicator first) ||
    (!isGap (c.peekAt 1) && (first == '-' || (!flow && (first == '?' || first == ':'))))

/-- What stands between two words of a plain scalar. -/
structure PlainGap where
  /-- Its part of the scalar; empty when the scalar ends. -/
  text : List Char
  cursor : Cursor
  /-- Whether there is a line end in it. -/
  broken : Bool

/-- The line ends behind the first one, with blanks between them; none at the mark of a document.
`tries` bounds the lines. -/
def plainBreaks : (tries : Nat) → Cursor → List Char → Option (List Char) × Cursor
  | 0, c, seen => (some seen.reverse, c)
  | tries + 1, c, seen =>
    if c.atDocumentMark then (none, c)
    else
      let c := c.skipBlanks
      match c.takeBreak with
      | some (first, c) => plainBreaks tries c (first :: seen)
      | none => (some seen.reverse, c)

def plainGap (c : Cursor) : PlainGap :=
  let blanks := c.run (· == ' ')
  let c := c.skip blanks.length
  match c.takeBreak with
  | none => ⟨blanks, c, false⟩
  | some (first, c) =>
    match plainBreaks (c.rest.length + 1) c [] with
    | (some others, c) => ⟨foldedBreaks first others, c, true⟩
    | (none, c) => ⟨[], c, true⟩

/-- A scalar that was read. -/
structure ScalarRead where
  text : List Char
  stop : Mark
  cursor : Cursor
  /-- Whether a line ended behind the scalar. -/
  broken : Bool := false

/-- A plain scalar on lines that are indented at least so far; `tries` bounds its words. -/
def plainFrom (flow : Bool) (indent : Int) :
    (tries : Nat) → (read : ScalarRead) → (gap : List Char) → ScalarRead
  | 0, read, _ => read
  | tries + 1, read, gap =>
    let c := read.cursor
    let word := if c.peek == '#' then [] else plainWord flow c.rest
    if word.isEmpty then read
    else
      let c := c.skip word.length
      let next := plainGap c
      let read := ⟨read.text ++ gap ++ word, c.mark, next.cursor, next.broken⟩
      if next.text.isEmpty || next.cursor.peek == '#'
          || (!flow && (next.cursor.column : Int) < indent) then read
      else plainFrom flow indent tries read next.text

def plainScalar (flow : Bool) (indent : Int) (c : Cursor) : ScalarRead :=
  plainFrom flow indent (c.rest.length + 1) ⟨[], c.mark, c, false⟩ []

/-! ### Scalars in quotes -/

/-- The line ends in quotes behind the first one, with blanks and tabulators around them; the mark
of a document may not stand there. `tries` bounds the lines. -/
def quotedBreaks (start : Mark) : (tries : Nat) → Cursor → List Char →
    Except Complaint (List Char × Cursor)
  | 0, c, seen => .ok (seen.reverse, c)
  | tries + 1, c, seen =>
    if c.atDocumentMark then .error ⟨some .quotedScalar, some start, .documentMark, c.mark⟩
    else
      let c := c.skipWhile fun d => d == ' ' || d == '\t'
      match c.takeBreak with
      | some (first, c) => quotedBreaks start tries c (first :: seen)
      | none => .ok (seen.reverse, c)

/-- What stands between two words in quotes. -/
def quotedGap (start : Mark) (c : Cursor) : Except Complaint (List Char × Cursor) :=
  let blanks := c.run fun d => d == ' ' || d == '\t'
  let c := c.skip blanks.length
  if c.rest.isEmpty then .error ⟨some .quotedScalar, some start, .endOfText, c.mark⟩
  else match c.takeBreak with
    | none => .ok (blanks, c)
    | some (first, c) => do
      let (others, c) ← quotedBreaks start (c.rest.length + 1) c []
      return (foldedBreaks first others, c)

/-- What letters and marks behind a backslash stand for. -/
def escapes : List (Char × Char) :=
  [ ('0', '\x00'), ('a', '\x07'), ('b', '\x08'), ('t', '\t'), ('\t', '\t'), ('n', '\n'),
    ('v', '\x0b'), ('f', '\x0c'), ('r', '\r'), ('e', '\x1b'), (' ', ' '), ('"', '"'), ('/', '/'),
    ('\\', '\\'), ('N', '\u0085'), ('_', '\u00a0'), ('L', '\u2028'), ('P', '\u2029') ]

/-- How many hexadecimal digits follow a letter behind a backslash. -/
def codeLength? : Char → Option Nat
  | 'x' => some 2
  | 'u' => some 4
  | 'U' => some 8
  | _ => none

/-- The character of a code; codes of halves of a character have none of their own. -/
def charOfCode (code : Nat) : Char :=
  if (Char.ofNat code).toNat = code then Char.ofNat code else '\ufffd'

/-- The characters of an escape, from behind its backslash. -/
def escapeAt (start : Mark) (c : Cursor) : Except Complaint (List Char × Cursor) :=
  match escapes.lookup c.peek with
  | some d => .ok ([d], c.next)
  | none => match codeLength? c.peek, c.takeBreak with
    | some count, _ =>
      let c := c.next
      let digits := c.rest.take count
      match digits.mapM hexValue? with
      | some values =>
        if digits.length = count then
          .ok ([charOfCode (values.foldl (fun n d => n * 16 + d) 0)], c.skip count)
        else .error ⟨some .doubleQuotedScalar, some start, .noHexadecimal count ending, c.mark⟩
      | none =>
        let wrong := (digits.dropWhile fun d => (hexValue? d).isSome).headD ending
        .error ⟨some .doubleQuotedScalar, some start, .noHexadecimal count wrong, c.mark⟩
    | none, some (_, c) => quotedBreaks start (c.rest.length + 1) c []
    | none, none =>
      .error ⟨some .doubleQuotedScalar, some start, .unknownEscape c.peek, c.mark⟩

/-- The rest of a scalar up to its closing quote; `tries` bounds its characters. -/
def quotedFrom (quote : Char) (start : Mark) :
    (tries : Nat) → Cursor → List Char → Except Complaint ScalarRead
  | 0, c, _ => .error ⟨some .quotedScalar, some start, .endOfText, c.mark⟩
  | tries + 1, c, seen =>
    let first := c.peek
    if first == quote then
      if quote == apostrophe && c.peekAt 1 == quote then
        quotedFrom quote start tries (c.skip 2) (quote :: seen)
      else .ok ⟨seen.reverse, c.next.mark, c.next, false⟩
    else if quote == quotationMark && first == backslash then
      match escapeAt start c.next with
      | .ok (chars, c) => quotedFrom quote start tries c (chars.reverse ++ seen)
      | .error e => .error e
    else if isGap first then
      match quotedGap start c with
      | .ok (chars, c) => quotedFrom quote start tries c (chars.reverse ++ seen)
      | .error e => .error e
    else quotedFrom quote start tries c.next (first :: seen)

/-- A scalar in quotes; the cursor stands before the opening quote. -/
def quotedScalar (c : Cursor) : Except Complaint ScalarRead :=
  quotedFrom c.peek c.mark (c.rest.length + 1) c.next []

/-! ### Block scalars -/

/-- What becomes of the line ends behind a block scalar. -/
inductive Chomping where
  | clip
  | strip
  | keep
  deriving DecidableEq

/-- What stands at the head of a block scalar. -/
structure BlockHead where
  chomping : Chomping := .clip
  /-- How much deeper than their surroundings its lines are. -/
  increment : Option Nat := none

def chomping? : Char → Option Chomping
  | '+' => some .keep
  | '-' => some .strip
  | _ => none

/-- A digit of the head, which may not be nought. -/
def incrementAt (start : Mark) (c : Cursor) : Except Complaint (Option Nat × Cursor) :=
  if isAsciiDigit c.peek then
    if c.peek == '0' then .error ⟨some .blockScalar, some start, .noIndent, c.mark⟩
    else .ok (some (digitValue c.peek), c.next)
  else .ok (none, c)

/-- The head of a block scalar: a sign and a digit, in any order. -/
def blockHead (start : Mark) (c : Cursor) : Except Complaint (BlockHead × Cursor) := do
  let (head, c) ← match chomping? c.peek with
    | some chomping => do
      let (increment, c) ← incrementAt start c.next
      pure ((⟨chomping, increment⟩ : BlockHead), c)
    | none => do
      let (increment, c) ← incrementAt start c
      match increment, chomping? c.peek with
      | some n, some chomping => pure (⟨chomping, some n⟩, c.next)
      | increment, _ => pure ({ increment }, c)
  if endsLine c.peek || c.peek == ' ' then return (head, c)
  else throw ⟨some .blockScalar, some start, .noIndicator c.peek, c.mark⟩

/-- Past the rest of the line of a head. -/
def pastHead (start : Mark) (c : Cursor) : Except Complaint Cursor :=
  let c := c.skipBlanks.skipComment
  if endsLine c.peek then .ok ((c.takeBreak.map (·.2)).getD c)
  else .error ⟨some .blockScalar, some start, .noLineEnd c.peek, c.mark⟩

/-- Line ends before the first line, and how far the blanks between them reach. -/
structure Lead where
  breaks : List Char
  reach : Nat
  stop : Mark
  cursor : Cursor

/-- The line ends and blanks in front of a block scalar; `tries` bounds the lines. -/
def leadFrom : (tries : Nat) → Lead → Lead
  | 0, lead => lead
  | tries + 1, lead =>
    let c := lead.cursor.skipBlanks
    let lead := { lead with cursor := c, reach := max lead.reach c.column }
    match c.takeBreak with
    | some (first, c) =>
      leadFrom tries { lead with breaks := lead.breaks ++ [first], stop := c.mark, cursor := c }
    | none => lead

/-- At most so many blanks that the column becomes `indent`. -/
def skipIndent (indent : Nat) (c : Cursor) : Cursor :=
  c.skip (min (c.run (· == ' ')).length (indent - c.column))

/-- The line ends between the lines of a block scalar; `tries` bounds the lines. -/
def blockBreaks (indent : Nat) : (tries : Nat) → Lead → Lead
  | 0, lead => lead
  | tries + 1, lead =>
    let c := skipIndent indent lead.cursor
    match c.takeBreak with
    | some (first, c) =>
      blockBreaks indent tries
        { lead with breaks := lead.breaks ++ [first], stop := c.mark, cursor := c }
    | none => { lead with cursor := c }

def leadAt (c : Cursor) : Lead := ⟨[], 0, c.mark, c⟩

def isBlankOrTab (c : Char) : Bool := c == ' ' || c == '\t'

/-- The lines of a block scalar; `tries` bounds them. -/
def blockLines (folded : Bool) (head : BlockHead) (indent : Nat) :
    (tries : Nat) → Lead → List Char → ScalarRead
  | 0, lead, text => ⟨text, lead.stop, lead.cursor, false⟩
  | tries + 1, lead, text =>
    let c := lead.cursor
    let line := c.run (!endsLine ·)
    let text := text ++ lead.breaks ++ line
    let after := c.skip line.length
    let (lineEnd, after) := match after.takeBreak with
      | some (d, after) => ([d], after)
      | none => ([], after)
    let lead := blockBreaks indent (after.rest.length + 1) (leadAt after)
    let next := lead.cursor
    if next.column = indent ∧ !next.rest.isEmpty then
      let joined :=
        if folded && lineEnd == ['\n'] && !isBlankOrTab c.peek && !isBlankOrTab next.peek then
          (if lead.breaks.isEmpty then [' '] else [])
        else lineEnd
      blockLines folded head indent tries lead (text ++ joined)
    else
      let tail := match head.chomping with
        | .strip => []
        | .clip => lineEnd
        | .keep => lineEnd ++ lead.breaks
      ⟨text ++ tail, lead.stop, next, false⟩

/-- A block scalar inside a block that is indented so far; the cursor stands before its mark. -/
def blockScalar (folded : Bool) (outer : Int) (c : Cursor) : Except Complaint ScalarRead := do
  let start := c.mark
  let (head, c) ← blockHead start c.next
  let c ← pastHead start c
  let least := (outer + 1).toNat
  let least := if least < 1 then 1 else least
  let tries := c.rest.length + 1
  let (indent, lead) := match head.increment with
    | some n =>
      let indent := least + n - 1
      (indent, blockBreaks indent tries (leadAt c))
    | none =>
      let lead := leadFrom tries (leadAt c)
      (max least lead.reach, lead)
  if lead.cursor.column = indent ∧ !lead.cursor.rest.isEmpty then
    return blockLines folded head indent tries lead []
  else
    return ⟨if head.chomping = .keep then lead.breaks else [], lead.stop, lead.cursor, false⟩

end Worksheet.Yaml
