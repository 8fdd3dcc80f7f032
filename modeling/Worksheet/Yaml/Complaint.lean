import Worksheet.Text.Quoted

/-!
What is wrong with a document, and where. A complaint names what was being read and where that
began, and then the trouble and its place. Every place is shown with the piece of its line that
stands around it.
-/
namespace Worksheet.Yaml

open Text

/-- Characters that end a line. -/
def isBreak (c : Char) : Bool :=
  c == '\n' || c == '\r' || c == '\u0085' || c == '\u2028' || c == '\u2029'

/-- A place in a text; lines and columns are counted from nought. -/
structure Mark where
  index : Nat := 0
  line : Nat := 0
  column : Nat := 0
  deriving DecidableEq, Repr

/-- How many characters on one side of a place are too many to be shown. -/
def shownWidth : Nat := 37

/-- How many are shown in that case. -/
def cutWidth : Nat := 32

/-- The characters shown on one side of a place, nearest first, and what stands for the others. -/
def cutAside (cs : List Char) : List Char × String :=
  if shownWidth ≤ cs.length then (cs.take cutWidth, " ... ") else (cs, "")

/-- The piece of a line around a place, and a pointer to it on the next line. -/
def Mark.snippet (source : List Char) (m : Mark) : String :=
  let (before, head) := cutAside ((source.take m.index).reverse.takeWhile (!isBreak ·))
  let (behind, tail) := cutAside ((source.drop m.index).takeWhile (!isBreak ·))
  let pointer := List.replicate (4 + before.length + head.length) ' ' ++ ['^']
  "    " ++ head ++ String.ofList (before.reverse ++ behind) ++ tail ++ "\n" ++
    String.ofList pointer

def Mark.describe (source : List Char) (m : Mark) : String :=
  "  in \"<unicode string>\", line " ++ toString (m.line + 1) ++ ", column " ++
    toString (m.column + 1) ++ ":\n" ++ m.snippet source

/-- Which step of reading a document fails. -/
inductive Stage where
  | characters
  | tokens
  | grammar
  | nodes
  | values
  deriving DecidableEq, Repr

/-- What is being read. -/
inductive Activity where
  | token
  | simpleKey
  | directive
  | anchorName
  | referenceName
  | tag
  | tagParts
  | blockScalar
  | quotedScalar
  | doubleQuotedScalar
  | node
  | blockNode
  | flowNode
  | blockSequence
  | blockMapping
  | flowSequence
  | flowMapping
  | onlyDocument
  /-- An anchor was there before. -/
  | firstAnchor (name : String)
  | fields
  deriving DecidableEq

def Activity.text : Activity → String
  | .token => "while scanning for the next token"
  | .simpleKey => "while scanning a simple key"
  | .directive => "while scanning a directive"
  | .anchorName => "while scanning an anchor"
  | .referenceName => "while scanning an alias"
  | .tag => "while scanning a tag"
  | .tagParts => "while parsing a tag"
  | .blockScalar => "while scanning a block scalar"
  | .quotedScalar => "while scanning a quoted scalar"
  | .doubleQuotedScalar => "while scanning a double-quoted scalar"
  | .node => "while parsing a node"
  | .blockNode => "while parsing a block node"
  | .flowNode => "while parsing a flow node"
  | .blockSequence => "while parsing a block collection"
  | .blockMapping => "while parsing a block mapping"
  | .flowSequence => "while parsing a flow sequence"
  | .flowMapping => "while parsing a flow mapping"
  | .onlyDocument => "expected a single document in the stream"
  | .firstAnchor name => "found duplicate anchor " ++ quoted name ++ "; first occurrence"
  | .fields => "while constructing a mapping"

/-- What is wrong. Characters and tokens are those that were found. -/
inductive Trouble where
  | noToken (c : Char)
  | noColon
  | misplacedEntry
  | misplacedKey
  | misplacedValue
  | noName (c : Char)
  | noDigit (c : Char)
  | noPoint (c : Char)
  | noNumberEnd (c : Char)
  | noLineEnd (c : Char)
  /-- Something else was to come. -/
  | wanted (what : String) (c : Char)
  | noIndent
  | noIndicator (c : Char)
  | noHexadecimal (count : Nat) (c : Char)
  | unknownEscape (c : Char)
  | endOfText
  | documentMark
  | noDocument (token : String)
  | secondVersion
  | wrongVersion
  | secondHandle (handle : String)
  | unknownHandle (handle : String)
  | noContent (token : String)
  | noBlockEnd (token : String)
  | noSequenceEnd (token : String)
  | noMappingEnd (token : String)
  | unknownAnchor (name : String)
  | secondAnchor
  | secondDocument
  | unknownTag (tag : String)
  | collectionAsKey
  /-- A node of one kind stands where another kind must. -/
  | wrongNode (due found : String)
  | unmergeable (found : String)
  | unmergeableItem (found : String)
  deriving DecidableEq

namespace Trouble

def shown (c : Char) : String := quoted (String.singleton c)

def text : Trouble → String
  | .noToken c => "found character " ++ shown c ++ " that cannot start any token"
  | .noColon => "could not find expected ':'"
  | .misplacedEntry => "sequence entries are not allowed here"
  | .misplacedKey => "mapping keys are not allowed here"
  | .misplacedValue => "mapping values are not allowed here"
  | .noName c => "expected alphabetic or numeric character, but found " ++ shown c
  | .noDigit c => "expected a digit, but found " ++ shown c
  | .noPoint c => "expected a digit or '.', but found " ++ shown c
  | .noNumberEnd c => "expected a digit or ' ', but found " ++ shown c
  | .noLineEnd c => "expected a comment or a line break, but found " ++ shown c
  | .wanted what c => "expected " ++ what ++ ", but found " ++ shown c
  | .noIndent => "expected indentation indicator in the range 1-9, but found 0"
  | .noIndicator c => "expected chomping or indentation indicators, but found " ++ shown c
  | .noHexadecimal count c =>
    "expected escape sequence of " ++ toString count ++ " hexadecimal numbers, but found " ++
      shown c
  | .unknownEscape c => "found unknown escape character " ++ shown c
  | .endOfText => "found unexpected end of stream"
  | .documentMark => "found unexpected document separator"
  | .noDocument token => "expected '<document start>', but found " ++ quoted token
  | .secondVersion => "found duplicate YAML directive"
  | .wrongVersion => "found incompatible YAML document (version 1.* is required)"
  | .secondHandle handle => "duplicate tag handle " ++ quoted handle
  | .unknownHandle handle => "found undefined tag handle " ++ quoted handle
  | .noContent token => "expected the node content, but found " ++ quoted token
  | .noBlockEnd token => "expected <block end>, but found " ++ quoted token
  | .noSequenceEnd token => "expected ',' or ']', but got " ++ quoted token
  | .noMappingEnd token => "expected ',' or '\x7d', but got " ++ quoted token
  | .unknownAnchor name => "found undefined alias " ++ quoted name
  | .secondAnchor => "second occurrence"
  | .secondDocument => "but found another document"
  | .unknownTag tag => "could not determine a constructor for the tag " ++ quoted tag
  | .collectionAsKey => "found unhashable key"
  | .wrongNode due found => "expected a " ++ due ++ " node, but found " ++ found
  | .unmergeable found =>
    "expected a mapping or list of mappings for merging, but found " ++ found
  | .unmergeableItem found => "expected a mapping for merging, but found " ++ found

def stage : Trouble → Stage
  | .noDocument _ | .secondVersion | .wrongVersion | .secondHandle _ | .unknownHandle _
  | .noContent _ | .noBlockEnd _ | .noSequenceEnd _ | .noMappingEnd _ => .grammar
  | .unknownAnchor _ | .secondAnchor | .secondDocument => .nodes
  | .unknownTag _ | .collectionAsKey | .wrongNode .. | .unmergeable _ | .unmergeableItem _ =>
    .values
  | _ => .tokens

end Trouble

structure Complaint where
  activity : Option Activity := none
  /-- Where the activity began. -/
  since : Option Mark := none
  trouble : Trouble
  place : Mark
  deriving DecidableEq

/-- A complaint about the text that it is about; a place is not shown twice. -/
def Complaint.message (source : List Char) (c : Complaint) : String :=
  let activity := (c.activity.map Activity.text).toList
  let since := match c.since with
    | none => []
    | some m =>
      if m.line = c.place.line ∧ m.column = c.place.column then [] else [m.describe source]
  "\n".intercalate (activity ++ since ++ [c.trouble.text, c.place.describe source])

/-- Characters that a document may hold. -/
def isAcceptable (c : Char) : Bool :=
  let n := c.toNat
  n == 9 || n == 10 || n == 13 || (0x20 ≤ n && n ≤ 0x7e) || n == 0x85 ||
    (0xa0 ≤ n && n ≤ 0xfffd) || 0x10000 ≤ n

/-- The complaint about the first character that a document may not hold. -/
def unacceptable? (source : List Char) : Option String :=
  match source.dropWhile isAcceptable with
  | [] => none
  | c :: rest =>
    some ("unacceptable character #x" ++ String.ofList (hexDigits 4 c.toNat) ++
      ": special characters are not allowed\n  in \"<unicode string>\", position " ++
      toString (source.length - rest.length - 1))

end Worksheet.Yaml
