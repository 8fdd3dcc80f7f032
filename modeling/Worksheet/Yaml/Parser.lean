import Worksheet.Yaml.Lexer
import Worksheet.Yaml.Node

/-!
The nodes of a document from its tokens. Each rule looks at the next token and no further. What is
missing stands for an empty scalar. An anchor gives a node a name, by which it may stand once more
further on.
-/
namespace Worksheet.Yaml

/-- What an anchor names. -/
structure Anchored where
  start : Mark
  /-- Not there yet, as long as the node itself is being read. -/
  node : Option Node

structure Parser where
  lexer : Lexer
  /-- What the handles of tags stand for. -/
  handles : List (String × String) := [("!", "!"), ("!!", tagStem)]
  anchors : List (String × Anchored) := []

abbrev Parse := StateT Parser (Except Stop)

namespace Parse

def complain {α : Type} (c : Complaint) : Parse α := throw (.complaint c)

def peek : Parse Token := do
  let s ← get
  match s.lexer.peek with
  | .ok (t, lexer) =>
    set { s with lexer }
    return t
  | .error c => complain c

def take : Parse Token := do
  let t ← peek
  modify fun s => { s with lexer := s.lexer.take }
  return t

/-- Whether the next token is one of some. -/
def nextIn (kinds : List TokenKind) : Parse Bool := do return kinds.contains (← peek).kind

/-- More steps than any rule takes. -/
def limit : Parse Nat := do return (← get).lexer.limit

def emptyScalar (m : Mark) : Node := .scalar ScalarKind.null.tag "" m

/-! ### Anchors and tags -/

/-- What stands in front of a node. -/
structure Properties where
  anchor : Option String := none
  tag : Option String := none
  start : Option Mark := none

/-- A tag with its handle replaced. -/
def fullTag (start : Mark) (t : Token) (handle : Option String) (suffix : String) :
    Parse String := do
  match handle with
  | none => return suffix
  | some handle => match (← get).handles.lookup handle with
    | some stem => return stem ++ suffix
    | none => complain ⟨some .node, some start, .unknownHandle handle, t.start⟩

/-- An anchor and a tag, in any order. -/
def properties : Parse Properties := do
  let first ← peek
  match first.kind with
  | .anchor name =>
    let _ ← take
    let second ← peek
    match second.kind with
    | .tag handle suffix =>
      let _ ← take
      return ⟨some name, some (← fullTag first.start second handle suffix), some first.start⟩
    | _ => return ⟨some name, none, some first.start⟩
  | .tag handle suffix =>
    let _ ← take
    let second ← peek
    let anchor ← match second.kind with
      | .anchor name => do
        let _ ← take
        pure (some name)
      | _ => pure none
    return ⟨anchor, some (← fullTag first.start first handle suffix), some first.start⟩
  | _ => return {}

/-- Tie an anchor to a node that starts here. -/
def declare (p : Properties) (start : Mark) : Parse Unit := do
  match p.anchor with
  | none => return
  | some name =>
    match (← get).anchors.lookup name with
    | some known => complain ⟨some (.firstAnchor name), some known.start, .secondAnchor, start⟩
    | none => modify fun s => { s with anchors := (name, ⟨start, none⟩) :: s.anchors }

/-- The node of an anchor is complete. -/
def finish (p : Properties) (n : Node) : Parse Node := do
  match p.anchor with
  | none => return n
  | some name =>
    modify fun s => { s with anchors := (name, ⟨n.start, some n⟩) :: s.anchors }
    return n

/-- The node that an anchor names. -/
def referred (t : Token) (name : String) : Parse Node := do
  match (← get).anchors.lookup name with
  | none => complain { trouble := .unknownAnchor name, place := t.start }
  | some known => match known.node with
    | some n => return n
    | none => throw (.fault .nestedTooDeep)

/-- Whether a tag leaves the kind of a node open. -/
def isOpen (tag : Option String) : Bool := tag.isNone || tag == some "!"

def collectionTag (p : Properties) (usual : String) : String :=
  if isOpen p.tag then usual else p.tag.getD usual

/-- The tag of a scalar: its own, or the one that its spelling has if it is plain. -/
def scalarTag (p : Properties) (text : String) (plain : Bool) : String :=
  match p.tag with
  | none => if plain then (ScalarKind.ofPlain text.toList).tag else ScalarKind.text.tag
  | some "!" => (ScalarKind.ofPlain text.toList).tag
  | some tag => tag

/-! ### Collections -/

/-- How a node is read: whether it may be a block, and whether it may be a sequence that is indented
no deeper than its key. -/
abbrev NodeRule := (block indentless : Bool) → Parse Node

/-- A node, or an empty scalar when the next token is one of those that end it. -/
def nodeUnless (rule : NodeRule) (block indentless : Bool) (ends : List TokenKind) (m : Mark) :
    Parse Node := do
  if ← nextIn ends then return emptyScalar m else rule block indentless

/-- The items of a block sequence; `tries` bounds them. -/
def blockItems (rule : NodeRule) (start : Mark) : (tries : Nat) → List Node → Parse (List Node)
  | 0, seen => return seen.reverse
  | tries + 1, seen => do
    let t ← peek
    match t.kind with
    | .entry =>
      let _ ← take
      let n ← nodeUnless rule true false [.entry, .blockEnd] t.stop
      blockItems rule start tries (n :: seen)
    | .blockEnd =>
      let _ ← take
      return seen.reverse
    | kind => complain ⟨some .blockSequence, some start, .noBlockEnd kind.name, t.start⟩

/-- The items of a sequence that is indented no deeper than its key; `tries` bounds them. -/
def indentlessItems (rule : NodeRule) : (tries : Nat) → List Node → Parse (List Node)
  | 0, seen => return seen.reverse
  | tries + 1, seen => do
    if ← nextIn [.entry] then
      let t ← take
      let n ← nodeUnless rule true false [.entry, .key, .value, .blockEnd] t.stop
      indentlessItems rule tries (n :: seen)
    else return seen.reverse

/-- What stands behind a colon, or an empty scalar when there is no colon. -/
def valueNode (rule : NodeRule) (block : Bool) (ends : List TokenKind) : Parse Node := do
  let t ← peek
  if t.kind = .value then
    let _ ← take
    nodeUnless rule block block ends t.stop
  else return emptyScalar t.start

/-- The fields of a block mapping; `tries` bounds them. -/
def blockFields (rule : NodeRule) (start : Mark) :
    (tries : Nat) → List (Node × Node) → Parse (List (Node × Node))
  | 0, seen => return seen.reverse
  | tries + 1, seen => do
    let t ← peek
    match t.kind with
    | .key =>
      let _ ← take
      let key ← nodeUnless rule true true [.key, .value, .blockEnd] t.stop
      let n ← valueNode rule true [.key, .value, .blockEnd]
      blockFields rule start tries ((key, n) :: seen)
    | .blockEnd =>
      let _ ← take
      return seen.reverse
    | kind => complain ⟨some .blockMapping, some start, .noBlockEnd kind.name, t.start⟩

/-- Past the separator before an item that is not the first, unless the collection ends. -/
def separate (first : Bool) (stop : TokenKind) (wrong : Token → Complaint) : Parse Unit := do
  if first || (← nextIn [stop]) then return
  else
    let t ← peek
    if t.kind = .separator then
      let _ ← take
      return
    else complain (wrong t)

/-- A key with a value as an item of a sequence. -/
def flowPair (rule : NodeRule) : Parse Node := do
  let t ← take
  let key ← nodeUnless rule false false [.value, .separator, .flowSequenceEnd] t.stop
  let n ← valueNode rule false [.separator, .flowSequenceEnd]
  return .mapping Node.mappingTag [(key, n)] t.start

/-- The items of a sequence in brackets; `tries` bounds them. -/
def flowItems (rule : NodeRule) (start : Mark) : (tries : Nat) → List Node → Parse (List Node)
  | 0, seen => return seen.reverse
  | tries + 1, seen => do
    separate seen.isEmpty .flowSequenceEnd fun t =>
      ⟨some .flowSequence, some start, .noSequenceEnd t.kind.name, t.start⟩
    let t ← peek
    match t.kind with
    | .flowSequenceEnd =>
      let _ ← take
      return seen.reverse
    | .key => flowItems rule start tries ((← flowPair rule) :: seen)
    | _ => flowItems rule start tries ((← rule false false) :: seen)

/-- The fields of a mapping in braces; `tries` bounds them. -/
def flowFields (rule : NodeRule) (start : Mark) :
    (tries : Nat) → List (Node × Node) → Parse (List (Node × Node))
  | 0, seen => return seen.reverse
  | tries + 1, seen => do
    separate seen.isEmpty .flowMappingEnd fun t =>
      ⟨some .flowMapping, some start, .noMappingEnd t.kind.name, t.start⟩
    let t ← peek
    match t.kind with
    | .flowMappingEnd =>
      let _ ← take
      return seen.reverse
    | .key =>
      let _ ← take
      let key ← nodeUnless rule false false [.value, .separator, .flowMappingEnd] t.stop
      let n ← valueNode rule false [.separator, .flowMappingEnd]
      flowFields rule start tries ((key, n) :: seen)
    | _ =>
      let key ← rule false false
      flowFields rule start tries ((key, emptyScalar (← peek).start) :: seen)

/-! ### Nodes -/

/-- The node behind its properties. -/
def contentAt (rule : NodeRule) (block indentless : Bool) (p : Properties) : Parse Node := do
  let t ← peek
  let start := p.start.getD t.start
  let tries ← limit
  let sequence (items : Parse (List Node)) : Parse Node := do
    declare p start
    return .sequence (collectionTag p Node.sequenceTag) (← items) start
  let mapping (fields : Parse (List (Node × Node))) : Parse Node := do
    declare p start
    return .mapping (collectionTag p Node.mappingTag) (← fields) start
  match t.kind, block with
  | .entry, _ =>
    if indentless then sequence (indentlessItems rule tries [])
    else noContent t start
  | .scalar text plain, _ =>
    let _ ← take
    declare p start
    return .scalar (scalarTag p text plain) text start
  | .flowSequenceStart, _ => sequence do flowItems rule (← take).start tries []
  | .flowMappingStart, _ => mapping do flowFields rule (← take).start tries []
  | .sequenceStart, true => sequence do blockItems rule (← take).start tries []
  | .mappingStart, true => mapping do blockFields rule (← take).start tries []
  | _, _ => noContent t start
where
  /-- Nothing is here: an anchor or a tag may stand alone. -/
  noContent (t : Token) (start : Mark) : Parse Node := do
    if p.start.isSome then
      declare p start
      return .scalar (if isOpen p.tag then ScalarKind.null.tag else p.tag.getD "") "" start
    else complain ⟨some (if block then .blockNode else .flowNode), some start,
      .noContent t.kind.name, t.start⟩

/-- A node that may be nested so deep. -/
def nodeAt : (depth : Nat) → NodeRule
  | 0 => fun _ _ => throw (.fault .nestedTooDeep)
  | depth + 1 => fun block indentless => do
    let t ← peek
    match t.kind with
    | .reference name =>
      let _ ← take
      referred t name
    | _ =>
      let p ← properties
      finish p (← contentAt (nodeAt depth) block indentless p)

end Parse
end Worksheet.Yaml
