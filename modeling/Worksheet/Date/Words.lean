import Worksheet.Text.Blank
import Worksheet.Text.Letter
import Worksheet.Text.Upper

/-!
Text about a day split into words. Letters and digits run together as long as points keep them
apart; such runs are broken at the points afterwards, unless they are one number with a fraction.
Every blank is a word of its own, and so is every other mark.
-/
namespace Worksheet.Date.Words

open Text

/-- What a run holds so far: letters, digits, or either with points among them. -/
inductive Mode where
  | letters
  | digits
  | dottedLetters
  | dottedDigits
  deriving DecidableEq

/-- A run as far as it was read, its last character first. -/
structure Run where
  mode : Mode
  chars : List Char
  sawLetters : Bool

/-- The mode in which a run goes on with a character, if it does. -/
def Run.accepts? (r : Run) (c : Char) : Option Mode :=
  let afterPoint := r.chars.head? == some '.'
  match r.mode with
  | .letters => if isLetter c then some .letters else if c == '.' then some .dottedLetters else none
  | .digits =>
    if isDigit c then some .digits
    else if c == '.' || (c == ',' && r.chars.length ≥ 2) then some .dottedDigits
    else none
  | .dottedLetters =>
    if c == '.' || isLetter c then some .dottedLetters
    else if isDigit c && afterPoint then some .dottedDigits
    else none
  | .dottedDigits =>
    if c == '.' || isDigit c then some .dottedDigits
    else if isLetter c && afterPoint then some .dottedLetters
    else none

/-- The longest run, and what follows it. -/
def Run.extend (r : Run) : List Char → Run × List Char
  | [] => (r, [])
  | c :: rest =>
    let sawLetters := r.sawLetters || r.mode == .letters || r.mode == .dottedLetters
    match r.accepts? c with
    | some mode => Run.extend ⟨mode, c :: r.chars, sawLetters⟩ rest
    | none => ({ r with sawLetters }, c :: rest)

def isSeparator (c : Char) : Bool := c == '.' || c == ','

/-- The parts around points and commas, and these themselves. -/
def breakUp : List Char → List (List Char)
  | [] => [[]]
  | c :: rest =>
    if isSeparator c then [] :: [c] :: breakUp rest
    else match breakUp rest with
      | part :: parts => (c :: part) :: parts
      | [] => [[c]]

/-- The words of a run. -/
def Run.words (r : Run) : List (List Char) :=
  let chars := r.chars.reverse
  let dotted := r.mode == .dottedLetters || r.mode == .dottedDigits
  if dotted && (r.sawLetters || chars.count '.' > 1 || r.chars.head?.any isSeparator) then
    (breakUp chars).filter (!·.isEmpty)
  else if r.mode == .dottedDigits && chars.count '.' == 0 then
    [chars.map fun c => if c == ',' then '.' else c]
  else [chars]

/-- The words of a text; `tries` bounds their runs. -/
def wordsFrom : (tries : Nat) → List Char → List (List Char)
  | 0, _ => []
  | _, [] => []
  | tries + 1, c :: rest =>
    let mode :=
      if isLetter c then some Mode.letters else if isDigit c then some Mode.digits else none
    match mode with
    | some mode =>
      let (r, rest) := Run.extend ⟨mode, [c], false⟩ rest
      r.words ++ wordsFrom tries rest
    | none => (if isBlank c then [' '] else [c]) :: wordsFrom tries rest

def split (s : String) : List String :=
  let chars := s.toList.filter (· != '\x00')
  (wordsFrom chars.length chars).map String.ofList

/-- Names in any case, each with its number. -/
abbrev Names := List (String × Nat)

def number? (names : Names) (word : String) : Option Nat := names.lookup (asciiLowerText word)

def months : Names :=
  [("jan", 1), ("january", 1), ("feb", 2), ("february", 2), ("mar", 3), ("march", 3), ("apr", 4),
    ("april", 4), ("may", 5), ("jun", 6), ("june", 6), ("jul", 7), ("july", 7), ("aug", 8),
    ("august", 8), ("sep", 9), ("sept", 9), ("september", 9), ("oct", 10), ("october", 10),
    ("nov", 11), ("november", 11), ("dec", 12), ("december", 12)]

def weekdays : Names :=
  [("mon", 0), ("monday", 0), ("tue", 1), ("tuesday", 1), ("wed", 2), ("wednesday", 2), ("thu", 3),
    ("thursday", 3), ("fri", 4), ("friday", 4), ("sat", 5), ("saturday", 5), ("sun", 6),
    ("sunday", 6)]

/-- Units of time: hours, minutes and seconds. -/
def units : Names :=
  [("h", 0), ("hour", 0), ("hours", 0), ("m", 1), ("minute", 1), ("minutes", 1), ("s", 2),
    ("second", 2), ("seconds", 2)]

/-- Halves of a day. -/
def halves : Names := [("am", 0), ("a", 0), ("pm", 1), ("p", 1)]

/-- Words that say nothing. -/
def fillers : List String :=
  [" ", ".", ",", ";", "-", "/", "'", "at", "on", "and", "ad", "m", "t", "of", "st", "nd", "rd",
    "th"]

def isFiller (word : String) : Bool := fillers.contains (asciiLowerText word)

def isUniversal (word : String) : Bool := ["utc", "gmt", "z"].contains (asciiLowerText word)

/-- Spellings of numbers that are no part of a date. -/
def isOddNumber (word : String) : Bool :=
  ["nan", "inf", "infinity"].contains (asciiLowerText word)

end Worksheet.Date.Words
