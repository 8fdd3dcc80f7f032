import Worksheet.Value

/-!
Tokens of a formula. The lexer gives numbers a double and all other tokens their spelling; a host
may hand over tokens of its own with any value, and kinds that the grammar does not know.
-/
namespace Worksheet.Formula

inductive TokenKind where
  | number
  | cell
  | identifier
  | operator
  | punctuation
  | other
  deriving DecidableEq, Repr

structure Token where
  kind : TokenKind
  value : Value

namespace Token

def number (x : Float) : Token := ⟨.number, .float x⟩

def cell (ref : String) : Token := ⟨.cell, .text ref⟩

def identifier (name : String) : Token := ⟨.identifier, .text name⟩

def operator (c : Char) : Token := ⟨.operator, .text (String.singleton c)⟩

def punctuation (c : Char) : Token := ⟨.punctuation, .text (String.singleton c)⟩

/-- Whether a token is of a kind and spelled in a given way. -/
def spells (t : Token) (kind : TokenKind) (spelling : String) : Bool :=
  t.kind == kind && t.value.text? == some spelling

end Token
end Worksheet.Formula
