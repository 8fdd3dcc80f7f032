import Worksheet.Formula.Token
import Worksheet.Text.Blank
import Worksheet.Number.Numeral

/-!
Formula text split into tokens. Blanks separate tokens and are skipped; each token is taken as long
as possible. Numbers carry neither sign nor exponent, letters followed by digits are a cell, and
letters alone a name. The first run that starts no token ends the whole reading.
-/
namespace Worksheet.Formula

open Text Number

inductive LexFault where
  /-- A run of digits and points that is no number. -/
  | number
  /-- A character that starts no token. -/
  | invalid
  deriving DecidableEq, Repr

def LexFault.tag : LexFault → String
  | .number => "number"
  | .invalid => "invalid"

def isNumeral (c : Char) : Bool := isAsciiDigit c || c == '.'

def isOperator (c : Char) : Bool := c == '+' || c == '-' || c == '*' || c == '/'

def isPunctuation (c : Char) : Bool := c == '(' || c == ')' || c == ',' || c == ':'

/-- The token of a run of digits and points. -/
def numberToken (run : List Char) : Except LexFault Token :=
  match readNumeral run with
  | some d => .ok (.number d.toFloat)
  | none => .error .number

/-- The token of a run of letters and the digits that follow it. -/
def nameToken (letters digits : List Char) : Token :=
  if digits.isEmpty then .identifier (String.ofList letters)
  else .cell (String.ofList (letters ++ digits))

/-- The longest token at the front of a text that starts with `c`, and what follows it. -/
def lexeme (c : Char) (rest : List Char) : Except LexFault (Token × List Char) :=
  if isNumeral c then
    (numberToken (c :: rest.takeWhile isNumeral)).map fun t => (t, rest.dropWhile isNumeral)
  else if isAsciiLetter c then
    let afterLetters := rest.dropWhile isAsciiLetter
    .ok (nameToken (c :: rest.takeWhile isAsciiLetter) (afterLetters.takeWhile isAsciiDigit),
      afterLetters.dropWhile isAsciiDigit)
  else if isOperator c then .ok (.operator c, rest)
  else if isPunctuation c then .ok (.punctuation c, rest)
  else .error .invalid

theorem length_dropWhile_le (p : Char → Bool) (cs : List Char) :
    (cs.dropWhile p).length ≤ cs.length :=
  (List.dropWhile_suffix p).length_le

theorem lexeme_length {c : Char} {rest remaining : List Char} {t : Token}
    (h : lexeme c rest = .ok (t, remaining)) : remaining.length ≤ rest.length := by
  unfold lexeme at h
  split at h
  · cases hn : numberToken (c :: rest.takeWhile isNumeral) with
    | error f => simp [hn, Except.map] at h
    | ok t' =>
      simp only [hn, Except.map, Except.ok.injEq, Prod.mk.injEq] at h
      exact h.2 ▸ length_dropWhile_le _ _
  · split at h
    · simp only [Except.ok.injEq, Prod.mk.injEq] at h
      exact h.2 ▸ Nat.le_trans (length_dropWhile_le _ _) (length_dropWhile_le _ _)
    · split at h
      · simp only [Except.ok.injEq, Prod.mk.injEq] at h
        exact h.2 ▸ Nat.le_refl _
      · split at h
        · simp only [Except.ok.injEq, Prod.mk.injEq] at h
          exact h.2 ▸ Nat.le_refl _
        · simp at h

/-- All tokens of a text, or the fault of the first run that is none. -/
def tokens : List Char → Except LexFault (List Token)
  | [] => .ok []
  | c :: rest =>
    if isBlank c then tokens rest
    else
      match _taken : lexeme c rest with
      | .error f => .error f
      | .ok (t, remaining) => (tokens remaining).map (t :: ·)
termination_by cs => cs.length
decreasing_by
  · simp
  · have := lexeme_length _taken
    simp only [List.length_cons]
    omega

def tokenize (s : String) : Except LexFault (List Token) := tokens s.toList

end Worksheet.Formula
