import Worksheet.Yaml.Parser

/-!
A text as one document: the directives and the mark before it, its root, and the mark behind it. A
text without a document stands for nothing, and a second document is refused.
-/
namespace Worksheet.Yaml

namespace Parse

/-- The directives before the mark of a document; `tries` bounds them. -/
def directives : (tries : Nat) → (versioned : Bool) → (handles : List (String × String)) →
    Parse (List (String × String))
  | 0, _, handles => return handles
  | tries + 1, versioned, handles => do
    let t ← peek
    match t.kind with
    | .version major =>
      if versioned then complain { trouble := .secondVersion, place := t.start }
      else if major != 1 then complain { trouble := .wrongVersion, place := t.start }
      else
        let _ ← take
        directives tries true handles
    | .handle name stem =>
      if (handles.lookup name).isSome then
        complain { trouble := .secondHandle name, place := t.start }
      else
        let _ ← take
        directives tries versioned ((name, stem) :: handles)
    | .directive =>
      let _ ← take
      directives tries versioned handles
    | _ => return handles

/-- Past the ends of documents; `tries` bounds them. -/
def skipEnds : (tries : Nat) → Parse Unit
  | 0 => return
  | tries + 1 => do
    if ← nextIn [.documentEnd] then
      let _ ← take
      skipEnds tries
    else return

/-- Past the start of a document and to its place, if there is one more. -/
def start? : Parse (Option Mark) := do
  skipEnds (← limit)
  let t ← peek
  if t.kind = .textEnd then return none
  else
    let handles ← directives (← limit) false []
    modify fun s => { s with handles := handles ++ s.handles }
    let mark ← peek
    if mark.kind = .documentStart then
      let _ ← take
      return some t.start
    else complain { trouble := .noDocument mark.kind.name, place := mark.start }

def isDirective : TokenKind → Bool
  | .version _ | .handle .. | .directive => true
  | _ => false

/-- The root behind the mark of a document. -/
def markedRoot (depth : Nat) : Parse Node := do
  let t ← peek
  if isDirective t.kind || [.documentStart, .documentEnd, .textEnd].contains t.kind then
    return emptyScalar t.start
  else nodeAt depth true false

/-- The root of the first document, which needs no mark. -/
def root? (depth : Nat) : Parse (Option Node) := do
  let t ← peek
  if isDirective t.kind || [.documentStart, .textEnd].contains t.kind then
    match ← start? with
    | some _ => return some (← markedRoot depth)
    | none => return none
  else return some (← nodeAt depth true false)

/-- The root of the only document. -/
def onlyRoot? (depth : Nat) : Parse (Option Node) := do
  match ← root? depth with
  | none => return none
  | some root =>
    if ← nextIn [.documentEnd] then
      let _ ← take
    match ← start? with
    | none => return some root
    | some place => complain ⟨some .onlyDocument, some root.start, .secondDocument, place⟩

end Parse

/-- The value of a document's root. -/
def rootValue (depth : Nat) (source : List Char) : Except Stop Value := do
  let parser : Parser := { lexer := Lexer.ofText source }
  match ← (Parse.onlyRoot? depth).run' parser with
  | none => return .null
  | some root => root.value

/-- The value of a document, whose nodes may be nested to a depth; a text that is no document is
complained about. -/
def document (depth : Nat) (source : List Char) : Except Fault Value :=
  match unacceptable? source with
  | some text => .error (.notDocument .characters text)
  | none => match rootValue depth source with
    | .ok v => .ok v
    | .error (.fault f) => .error f
    | .error (.complaint c) => .error (.notDocument c.trouble.stage (c.message source))

end Worksheet.Yaml
