import Worksheet.Yaml.Scalar
import Worksheet.Yaml.Token

/-!
A document as tokens. Tokens are read only as far as they are needed. Whether a token starts a key
is known only when the colon behind it is met on the same line; until then its place is a candidate,
and the tokens behind it wait. Indentation opens and closes block collections and does not count
between brackets.
-/
namespace Worksheet.Yaml

open Text

/-- The most characters between the start of a key and its colon. -/
def keyLength : Nat := 1024

/-- A place where a key may have started. -/
structure Candidate where
  /-- How many brackets are open. -/
  level : Nat
  /-- The number of the token. -/
  number : Nat
  /-- Whether nothing but a key may stand here. -/
  required : Bool
  mark : Mark

structure Lexer where
  cursor : Cursor
  level : Nat := 0
  indent : Int := -1
  /-- The indentations of the blocks around, innermost first. -/
  outer : List Int := []
  keyAllowed : Bool := true
  candidates : List Candidate := []
  /-- Tokens that were read and not taken. -/
  queue : List Token := []
  taken : Nat := 0
  finished : Bool := false
  /-- More tokens than the text can have. -/
  limit : Nat

namespace Lexer

def ofText (cs : List Char) : Lexer := { cursor := ⟨cs, {}⟩, limit := 2 * cs.length + 2 }

def mark (l : Lexer) : Mark := l.cursor.mark

def column (l : Lexer) : Int := l.cursor.column

def inFlow (l : Lexer) : Bool := l.level != 0

def push (l : Lexer) (kind : TokenKind) (start stop : Mark) : Lexer :=
  { l with queue := l.queue ++ [⟨kind, start, stop⟩] }

/-- A token of so many characters. -/
def pushMark (l : Lexer) (kind : TokenKind) (length : Nat) : Lexer :=
  let after := l.cursor.skip length
  { l.push kind l.mark after.mark with cursor := after }

/-- A token at the given place in the queue. -/
def insertToken (l : Lexer) (place : Nat) (kind : TokenKind) (m : Mark) : Lexer :=
  { l with queue := l.queue.take place ++ ⟨kind, m, m⟩ :: l.queue.drop place }

/-! ### Keys -/

/-- The complaint about a key that has no colon. -/
def lost (l : Lexer) (k : Candidate) : Complaint :=
  ⟨some .simpleKey, some k.mark, .noColon, l.mark⟩

def candidate? (l : Lexer) : Option Candidate := l.candidates.find? (·.level == l.level)

def withoutCandidate (l : Lexer) : Lexer :=
  { l with candidates := l.candidates.filter (·.level != l.level) }

/-- Give up the candidate of this level. -/
def dropCandidate (l : Lexer) : Except Complaint Lexer :=
  match l.candidate? with
  | none => .ok l
  | some k => if k.required then .error (l.lost k) else .ok l.withoutCandidate

/-- Whether a candidate can be no key any more: a key stands on one line and is not long. -/
def isStale (l : Lexer) (k : Candidate) : Bool :=
  k.mark.line != l.mark.line || l.mark.index > k.mark.index + keyLength

/-- Give up all candidates that can be no keys any more. -/
def dropStale (l : Lexer) : Except Complaint Lexer :=
  match l.candidates.find? fun k => k.required && l.isStale k with
  | some k => .error (l.lost k)
  | none => .ok { l with candidates := l.candidates.filter (!l.isStale ·) }

/-- Take this place as a candidate, if a key may start here. -/
def saveCandidate (l : Lexer) : Except Complaint Lexer :=
  if l.keyAllowed then do
    let required := !l.inFlow && l.indent == l.column
    let k : Candidate := ⟨l.level, l.taken + l.queue.length, required, l.mark⟩
    let l ← l.dropCandidate
    return { l with candidates := k :: l.candidates }
  else .ok l

/-! ### Indentation -/

/-- Close blocks until one is indented no deeper than a column. -/
def closeFrom (column : Int) (mark : Mark) : (indent : Int) → (outer : List Int) → List Token →
    Int × List Int × List Token
  | indent, [], queue => (indent, [], queue)
  | indent, next :: outer, queue =>
    if column < indent then closeFrom column mark next outer (queue ++ [⟨.blockEnd, mark, mark⟩])
    else (indent, next :: outer, queue)

/-- Close the blocks that a column ends; between brackets there are none. -/
def close (l : Lexer) (column : Int) : Lexer :=
  if l.inFlow then l
  else
    let (indent, outer, queue) := closeFrom column l.mark l.indent l.outer l.queue
    { l with indent, outer, queue }

/-- Open a block at a column, if it is deeper; whether it was. -/
def deepen? (l : Lexer) (column : Int) : Option Lexer :=
  if l.indent < column then some { l with indent := column, outer := l.indent :: l.outer }
  else none

/-- Open a block here with a token at the end of the queue. -/
def openHere (l : Lexer) (kind : TokenKind) : Lexer :=
  match l.deepen? l.column with
  | some opened => opened.push kind l.mark l.mark
  | none => l

/-! ### Marks -/

def refuse {α : Type} (l : Lexer) (trouble : Trouble) : Except Complaint α :=
  .error { trouble, place := l.mark }

def fetchEnd (l : Lexer) : Except Complaint Lexer := do
  let l ← (l.close (-1)).dropCandidate
  return { l.push .textEnd l.mark l.mark with
    keyAllowed := false, candidates := [], finished := true }

/-- The start or the end of a document. -/
def fetchDocumentMark (l : Lexer) (kind : TokenKind) : Except Complaint Lexer := do
  let l ← (l.close (-1)).dropCandidate
  return { l.pushMark kind 3 with keyAllowed := false }

def fetchFlowStart (l : Lexer) (kind : TokenKind) : Except Complaint Lexer := do
  let l ← l.saveCandidate
  return { l.pushMark kind 1 with level := l.level + 1, keyAllowed := true }

def fetchFlowEnd (l : Lexer) (kind : TokenKind) : Except Complaint Lexer := do
  let l ← l.dropCandidate
  return { l.pushMark kind 1 with level := l.level - 1, keyAllowed := false }

def fetchSeparator (l : Lexer) : Except Complaint Lexer := do
  let l ← l.dropCandidate
  return { l.pushMark .separator 1 with keyAllowed := true }

def fetchEntry (l : Lexer) : Except Complaint Lexer := do
  if !l.inFlow && !l.keyAllowed then l.refuse .misplacedEntry
  else
    let l ← (if l.inFlow then l else l.openHere .sequenceStart).dropCandidate
    return { l.pushMark .entry 1 with keyAllowed := true }

def fetchKey (l : Lexer) : Except Complaint Lexer := do
  if !l.inFlow && !l.keyAllowed then l.refuse .misplacedKey
  else
    let l ← (if l.inFlow then l else l.openHere .mappingStart).dropCandidate
    return { l.pushMark .key 1 with keyAllowed := !l.inFlow }

/-- The colon behind a key. The key may open a mapping, whose start stands before it. -/
def fetchKeyValue (l : Lexer) (k : Candidate) : Lexer :=
  let place := k.number - l.taken
  let l := l.withoutCandidate.insertToken place .key k.mark
  let l := if l.inFlow then l else match l.deepen? k.mark.column with
    | some opened => opened.insertToken place .mappingStart k.mark
    | none => l
  { l.pushMark .value 1 with keyAllowed := false }

def fetchValue (l : Lexer) : Except Complaint Lexer :=
  match l.candidate? with
  | some k => .ok (l.fetchKeyValue k)
  | none => do
    if !l.inFlow && !l.keyAllowed then l.refuse .misplacedValue
    else
      let l := if l.inFlow then l else l.openHere .mappingStart
      let l ← { l with keyAllowed := !l.inFlow }.dropCandidate
      return l.pushMark .value 1

/-! ### Names and tags -/

/-- What may follow the name of an anchor. -/
def endsName (c : Char) : Bool :=
  isGap c || c == '?' || c == ':' || c == ',' || c == ']' || c == '}' || c == '%' || c == '@'
    || c.toNat == 96

/-- An anchor or a reference to one, behind its mark. -/
def fetchName (l : Lexer) (activity : Activity) (kind : String → TokenKind) :
    Except Complaint Lexer := do
  let l ← l.saveCandidate
  let start := l.mark
  let c := l.cursor.next
  let name := c.run isNamePart
  let after := c.skip name.length
  if name.isEmpty || !endsName after.peek then
    throw ⟨some activity, some start, .noName after.peek, after.mark⟩
  return { l.push (kind (String.ofList name)) start after.mark with
    cursor := after, keyAllowed := false }

/-- Characters of a tag. -/
def isTagPart (c : Char) : Bool :=
  c.isAlphanum || "-;/?:@&=+$,_.!~*'()[]%".toList.contains c

/-- The handle of a tag: two exclamation marks with a name between them, or one and a blank. -/
def tagHandle (activity : Activity) (start : Mark) (c : Cursor) :
    Except Complaint (String × Cursor) :=
  if c.peek != '!' then .error ⟨some activity, some start, .wanted "'!'" c.peek, c.mark⟩
  else
    let name := c.next.run isNamePart
    let after := c.next.skip name.length
    if after.peek == '!' then .ok (String.ofList ('!' :: name ++ ['!']), after.next)
    else if after.peek == ' ' && name.isEmpty then .ok ("!", after)
    else .error ⟨some activity, some start, .wanted "'!'" after.peek, after.mark⟩

/-- The characters of a tag, of which there must be some. -/
def tagText (start : Mark) (c : Cursor) : Except Complaint (String × Cursor) :=
  let text := c.run isTagPart
  if text.isEmpty then .error ⟨some .tagParts, some start, .wanted "URI" c.peek, c.mark⟩
  else .ok (String.ofList text, c.skip text.length)

/-- The handle and the rest of a tag. A tag in angle brackets has no handle, and an exclamation mark
alone is a tag without a rest. -/
def tagAt (c : Cursor) : Except Complaint (Option String × String × Cursor) :=
  let start := c.mark
  let second := c.peekAt 1
  if second == '<' then do
    let (text, c) ← tagText start (c.skip 2)
    if c.peek == '>' then return (none, text, c.next)
    else throw ⟨some .tagParts, some start, .wanted "'>'" c.peek, c.mark⟩
  else if isGap second then .ok (none, "!", c.next)
  else do
    let written := c.next.run fun d => !endsLine d && d != ' '
    let (handle, c) ← if written.contains '!' then tagHandle .tag start c else pure ("!", c.next)
    let (text, c) ← tagText start c
    return (some handle, text, c)

def fetchTag (l : Lexer) : Except Complaint Lexer := do
  let l ← l.saveCandidate
  let start := l.mark
  let (handle, suffix, c) ← tagAt l.cursor
  if endsLine c.peek || c.peek == ' ' then
    return { l.push (.tag handle suffix) start c.mark with cursor := c, keyAllowed := false }
  else throw ⟨some .tag, some start, .wanted "' '" c.peek, c.mark⟩

/-! ### Directives -/

def versionPart (start : Mark) (c : Cursor) : Except Complaint (Nat × Cursor) :=
  let digits := c.run isAsciiDigit
  if digits.isEmpty then .error ⟨some .directive, some start, .noDigit c.peek, c.mark⟩
  else .ok (digitsValue digits, c.skip digits.length)

/-- The version behind its directive's name. -/
def versionAt (start : Mark) (c : Cursor) : Except Complaint (TokenKind × Cursor) := do
  let (major, c) ← versionPart start c.skipBlanks
  if c.peek != '.' then throw ⟨some .directive, some start, .noPoint c.peek, c.mark⟩
  let (_, c) ← versionPart start c.next
  if endsLine c.peek || c.peek == ' ' then return (.version major, c)
  else throw ⟨some .directive, some start, .noNumberEnd c.peek, c.mark⟩

/-- The handle behind its directive's name, and what it stands for. -/
def handleAt (start : Mark) (c : Cursor) : Except Complaint (TokenKind × Cursor) := do
  let (name, c) ← tagHandle .directive start c.skipBlanks
  if c.peek != ' ' then throw ⟨some .directive, some start, .wanted "' '" c.peek, c.mark⟩
  let (stem, c) ← tagText start c.skipBlanks
  if endsLine c.peek || c.peek == ' ' then return (.handle name stem, c)
  else throw ⟨some .directive, some start, .wanted "' '" c.peek, c.mark⟩

/-- A directive, which takes its whole line. -/
def fetchDirective (l : Lexer) : Except Complaint Lexer := do
  let l ← (l.close (-1)).dropCandidate
  let start := l.mark
  let c := l.cursor.next
  let name := c.run isNamePart
  let after := c.skip name.length
  if name.isEmpty || !(endsLine after.peek || after.peek == ' ') then
    throw ⟨some .directive, some start, .noName after.peek, after.mark⟩
  let (kind, c) ← match String.ofList name with
    | "YAML" => versionAt start after
    | "TAG" => handleAt start after
    | _ => pure (.directive, after.skipWhile (!endsLine ·))
  let behind := c.skipBlanks.skipComment
  if !endsLine behind.peek then
    throw ⟨some .directive, some start, .noLineEnd behind.peek, behind.mark⟩
  return { l.push kind start c.mark with
    cursor := (behind.takeBreak.map (·.2)).getD behind, keyAllowed := false }

/-! ### Scalars -/

def pushScalar (l : Lexer) (read : ScalarRead) (plain : Bool) : Lexer :=
  { l.push (.scalar (String.ofList read.text) plain) l.mark read.stop with cursor := read.cursor }

def fetchPlain (l : Lexer) : Except Complaint Lexer := do
  let l ← l.saveCandidate
  let read := plainScalar l.inFlow (l.indent + 1) l.cursor
  return { l.pushScalar read true with keyAllowed := read.broken }

def fetchQuoted (l : Lexer) : Except Complaint Lexer := do
  let l ← l.saveCandidate
  let read ← quotedScalar l.cursor
  return { l.pushScalar read false with keyAllowed := false }

def fetchBlock (l : Lexer) (folded : Bool) : Except Complaint Lexer := do
  let l ← l.dropCandidate
  let read ← blockScalar folded l.indent l.cursor
  return { l.pushScalar read false with keyAllowed := true }

/-! ### All tokens -/

/-- Past what stands between tokens. A new line outside brackets may start with a key. -/
def skipGaps (l : Lexer) : Lexer :=
  let c := l.cursor
  let c := if c.mark.index = 0 ∧ c.peek = '\ufeff' then c.next else c
  let (c, broken) := c.skipGaps (c.rest.length + 1) false
  { l with cursor := c, keyAllowed := l.keyAllowed || (broken && !l.inFlow) }

/-- The token at the cursor, by its first character. -/
def fetchAt (l : Lexer) : Except Complaint Lexer :=
  let c := l.cursor
  let first := c.peek
  let apart := isGap (c.peekAt 1)
  let startsLine := c.column == 0
  if c.rest.isEmpty then l.fetchEnd
  else if first == '%' && startsLine then l.fetchDirective
  else if startsLine && c.isMarked '-' then l.fetchDocumentMark .documentStart
  else if startsLine && c.isMarked '.' then l.fetchDocumentMark .documentEnd
  else if first == '[' then l.fetchFlowStart .flowSequenceStart
  else if first == '{' then l.fetchFlowStart .flowMappingStart
  else if first == ']' then l.fetchFlowEnd .flowSequenceEnd
  else if first == '}' then l.fetchFlowEnd .flowMappingEnd
  else if first == ',' then l.fetchSeparator
  else if first == '-' && apart then l.fetchEntry
  else if first == '?' && (l.inFlow || apart) then l.fetchKey
  else if first == ':' && (l.inFlow || apart) then l.fetchValue
  else if first == '*' then l.fetchName .referenceName .reference
  else if first == '&' then l.fetchName .anchorName .anchor
  else if first == '!' then l.fetchTag
  else if first == '|' && !l.inFlow then l.fetchBlock false
  else if first == '>' && !l.inFlow then l.fetchBlock true
  else if first == apostrophe || first == quotationMark then l.fetchQuoted
  else if c.startsPlain l.inFlow then l.fetchPlain
  else .error ⟨some .token, none, .noToken first, l.mark⟩

/-- Read one more token, with the ends of the blocks that close before it. -/
def fetch (l : Lexer) : Except Complaint Lexer := do
  let l ← l.skipGaps.dropStale
  (l.close l.column).fetchAt

/-- The number of the first token that may yet become a key. -/
def firstCandidate (l : Lexer) : Option Nat := (l.candidates.map Candidate.number).min?

/-- Read on until the next token is certain; `tries` bounds the tokens. -/
def fill : (tries : Nat) → Lexer → Except Complaint Lexer
  | 0, l => .ok l
  | tries + 1, l =>
    if l.finished then .ok l
    else if l.queue.isEmpty then do fill tries (← l.fetch)
    else do
      let l ← l.dropStale
      if l.firstCandidate = some l.taken then fill tries (← l.fetch) else return l

/-- The next token. At the end of the text there is always one more. -/
def peek (l : Lexer) : Except Complaint (Token × Lexer) := do
  let l ← l.fill l.limit
  return (l.queue.headD ⟨.textEnd, l.mark, l.mark⟩, l)

/-- Take the next token, which was looked at. -/
def take (l : Lexer) : Lexer := { l with queue := l.queue.drop 1, taken := l.taken + 1 }

end Lexer
end Worksheet.Yaml
