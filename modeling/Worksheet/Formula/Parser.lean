import Worksheet.Formula.CallStack
import Worksheet.Formula.Lexer
import Worksheet.Number.Conversion

/-!
Formulas read by recursive descent, one function a rule of the grammar:

    expression  := term (("+" | "-") term)*
    term        := factor (("*" | "/") factor)*
    factor      := "-" factor | number | cell [":" cell] | name "(" [arguments] ")"
                 | "(" expression ")"
    arguments   := expression ("," expression)*

A rule starts at a cursor and either returns its tree and the cursor behind it or stops, with the
place where the cursor stood. Each rule takes a frame of the call stack until it returns, so a factor
takes one behind a sign, three in brackets and four in the arguments of a call.
-/
namespace Worksheet.Formula

/-- The tokens not yet read, and how many were read before them. -/
structure Cursor where
  position : Nat
  unread : List Token

/-- Why a rule stopped, and where its cursor stood. -/
structure Stop where
  fault : Fault
  position : Nat

abbrev Rule := Cursor → Except Stop (Node × Cursor)

namespace Cursor

/-- The cursor behind the first unread token. -/
def next (c : Cursor) : Cursor := ⟨c.position + 1, c.unread.tail⟩

/-- Stop here, reporting the token that comes next. -/
def stop {α : Type} (c : Cursor) (cause : GrammarFault) : Except Stop α :=
  .error ⟨.grammar cause c.position, c.position⟩

/-- Stop here, reporting the token just read. -/
def stopBehind {α : Type} (c : Cursor) (cause : GrammarFault) : Except Stop α :=
  .error ⟨.grammar cause (c.position - 1), c.position⟩

/-- Stop here because of a token's value. -/
def check {α : Type} (c : Cursor) (r : Except Fault α) : Except Stop α :=
  r.mapError fun fault => ⟨fault, c.position⟩

/-- Whether the next token is a given mark. -/
def sees (c : Cursor) (mark : String) : Bool :=
  match c.unread with
  | t :: _ => t.spells .punctuation mark
  | [] => false

def expect (c : Cursor) (mark : String) : Except Stop Cursor :=
  if c.sees mark then .ok c.next else c.stop (.expected mark)

end Cursor

def sumOperator? (t : Token) : Option Operator :=
  if t.spells .operator "+" then some .add
  else if t.spells .operator "-" then some .sub
  else none

def productOperator? (t : Token) : Option Operator :=
  if t.spells .operator "*" then some .mul
  else if t.spells .operator "/" then some .div
  else none

/-- Further operands of a chain, grouped to the left; `tries` bounds their number. -/
def chainFrom (op? : Token → Option Operator) (operand : Rule) :
    (tries : Nat) → Node → Cursor → Except Stop (Node × Cursor)
  | 0, left, c => .ok (left, c)
  | tries + 1, left, c =>
    match c.unread.head?.bind op? with
    | none => .ok (left, c)
    | some op =>
      match operand c.next with
      | .error s => .error s
      | .ok (right, c') => chainFrom op? operand tries (.binary op left right) c'

/-- Operands with operators between them. -/
def chain (op? : Token → Option Operator) (operand : Rule) : Rule := fun c =>
  match operand c with
  | .error s => .error s
  | .ok (left, c') => chainFrom op? operand c'.unread.length left c'

def term (factor : Rule) : Rule := chain productOperator? factor

def expression (factor : Rule) : Rule := chain sumOperator? (term factor)

/-- Arguments up to the closing bracket; `tries` bounds their number. -/
def argumentsFrom (factor : Rule) :
    (tries : Nat) → List Node → Cursor → Except Stop (List Node × Cursor)
  | 0, _, c => c.stop .unexpectedEnd
  | tries + 1, seen, c =>
    match expression factor c with
    | .error s => .error s
    | .ok (arg, c') =>
      if c'.sees "," then argumentsFrom factor tries (arg :: seen) c'.next
      else (c'.expect ")").map fun c'' => ((arg :: seen).reverse, c'')

/-- The arguments of a call, behind its opening bracket. -/
def arguments (factor : Rule) (c : Cursor) : Except Stop (List Node × Cursor) :=
  if c.sees ")" then .ok ([], c.next)
  else argumentsFrom factor (c.unread.length + 1) [] c

/-- A cell, behind its token, or the range that it opens. -/
def cellOrRange (ref : Value) (c : Cursor) : Except Stop (Node × Cursor) :=
  if c.sees ":" then
    let c := c.next
    match c.unread with
    | [] => c.stop .unexpectedEnd
    | corner :: _ =>
      if corner.kind == .cell then do
        let start ← c.next.check ref.toText
        let stop ← c.next.check corner.value.toText
        return (.range start stop, c.next)
      else c.next.stopBehind .rangeEnd
  else (c.check ref.toText).map fun ref => (.cell ref, c)

/-- A call, behind its name. -/
def call (args : Cursor → Except Stop (List Node × Cursor)) (name : Value) (c : Cursor) :
    Except Stop (Node × Cursor) :=
  if c.sees "(" then do
    let name ← c.next.check name.toText
    let (args, c') ← args c.next
    return (.call name args, c')
  else do
    let shown ← c.check name.literal
    c.stopBehind (.unknownName shown)

/-- Stop here as there is no frame left. -/
def Cursor.tooDeep {α : Type} (c : Cursor) : Except Stop α := .error ⟨.nestedTooDeep, c.position⟩

section Frames
variable [CallStack]

/-- A factor with `room` frames left. -/
def factor : (room : Nat) → Rule
  | 0, c => c.tooDeep
  | room + 1, c =>
    if room < CallStack.look c.unread.head? then c.tooDeep
    else match c.unread with
      | [] => c.stop .unexpectedEnd
      | t :: _ =>
        if t.spells .operator "-" then
          (factor room c.next).map fun (operand, c') => (.negate operand, c')
        else match t.kind with
          | .number => (c.next.check t.value.toDouble).map fun x => (.constant (.float x), c.next)
          | .cell => cellOrRange t.value c.next
          | .identifier =>
            -- the list of arguments, an expression and a term lie between the factors
            let args := match room with
              | room + 3 => arguments (factor room)
              | _ => Cursor.tooDeep
            call args t.value c.next
          | _ =>
            if t.spells .punctuation "(" then do
              -- an expression and a term lie between the factors
              let inner : Rule := match room with
                | room + 2 => factor room
                | _ => Cursor.tooDeep
              let (node, c') ← expression inner c.next
              let c'' ← c'.expect ")"
              return (node, c'')
            else do
              let shown ← c.check t.value.literal
              c.stop (.unexpectedToken shown)

/-- The tree of a whole token list, and the cursor behind it, with `room` frames left. -/
def parseAll (room : Nat) (ts : List Token) : Except Stop (Node × Cursor) := do
  let (node, c) ← expression (factor (room - 2)) ⟨0, ts⟩
  if c.unread.isEmpty then return (node, c) else c.stop .trailingTokens

end Frames

/-- Why a formula has no tree: its text has no tokens, or its tokens are no expression. -/
inductive Refusal where
  | lexical (fault : LexFault)
  | grammatical (fault : Fault)
  deriving DecidableEq, Repr

namespace Refusal

def tag : Refusal → String
  | .lexical fault => fault.tag
  | .grammatical _ => "parse"

def detail : Refusal → String
  | .lexical fault => "Formula lex error: " ++ fault.tag
  | .grammatical fault => fault.message

end Refusal

/-- The text of a formula behind its equals sign, if it has one. -/
def body (s : String) : List Char :=
  match Text.trim s.toList with
  | '=' :: rest => rest
  | cs => cs

/-- Text that asks to be read as a formula. -/
def startsFormula (s : String) : Bool := (Text.trim s.toList).head? == some '='

variable [CallStack]

/-- A tree or a refusal; faults other than those of the text itself stop the reading. -/
def parse (ts : List Token) : Except Fault (Except Refusal Node) :=
  match parseAll CallStack.reading ts with
  | .ok (node, _) => .ok (.ok node)
  | .error s => if s.fault.isTextual then .ok (.error (.grammatical s.fault)) else .error s.fault

/-- Read a formula, with or without its equals sign. -/
def parseFormula (s : String) : Except Fault (Except Refusal Node) :=
  match tokens (body s) with
  | .error fault => .ok (.error (.lexical fault))
  | .ok ts => parse ts

/-- Why a text is no formula; none when it is one. -/
def complaint? (s : String) : Except Fault (Option String) :=
  if !startsFormula s then .ok (some "Formula must start with '='")
  else match parseFormula s with
    | .ok (.ok _) => .ok none
    | .ok (.error refusal) => .ok (some refusal.detail)
    | .error .nestedTooDeep => .ok (some Fault.nestedTooDeep.message)
    | .error fault => .error fault

end Worksheet.Formula
