/-!
Characters from bytes. A byte that cannot go on a sequence ends it: the bytes of the sequence so far
become one replacement character, and the byte itself is looked at again. A byte that starts no
sequence becomes a replacement character alone.
-/
namespace Worksheet.Text

def replacement : Char := '\ufffd'

/-- A sequence that is not complete: its value so far, how many bytes it lacks, and the least and
the greatest that may come next. -/
structure Sequence where
  value : Nat
  missing : Nat
  low : Nat
  high : Nat

/-- The sequence that a byte beyond ASCII starts. The bounds of its next byte rule out long forms,
surrogates and values beyond the last character. -/
def Sequence.start? (b : Nat) : Option Sequence :=
  if b < 0xC2 then none
  else if b < 0xE0 then some ⟨b - 0xC0, 1, 0x80, 0xBF⟩
  else if b == 0xE0 then some ⟨0, 2, 0xA0, 0xBF⟩
  else if b == 0xED then some ⟨0xD, 2, 0x80, 0x9F⟩
  else if b < 0xF0 then some ⟨b - 0xE0, 2, 0x80, 0xBF⟩
  else if b == 0xF0 then some ⟨0, 3, 0x90, 0xBF⟩
  else if b < 0xF4 then some ⟨b - 0xF0, 3, 0x80, 0xBF⟩
  else if b == 0xF4 then some ⟨4, 3, 0x80, 0x8F⟩
  else none

/-- One more byte of a sequence. -/
def Sequence.extend (s : Sequence) (b : Nat) : Sequence :=
  ⟨s.value * 64 + (b - 0x80), s.missing - 1, 0x80, 0xBF⟩

/-- A byte outside a sequence, behind the reversed characters before it. -/
def startByte (b : Nat) (seen : List Char) : Option Sequence × List Char :=
  if b < 0x80 then (none, Char.ofNat b :: seen)
  else match Sequence.start? b with
    | some s => (some s, seen)
    | none => (none, replacement :: seen)

/-- A byte behind an open sequence, if there is one, and the reversed characters before it. -/
def readByte (open? : Option Sequence) (b : Nat) (seen : List Char) : Option Sequence × List Char :=
  match open? with
  | none => startByte b seen
  | some s =>
    if s.low ≤ b && b ≤ s.high then
      if s.missing == 1 then (none, Char.ofNat (s.extend b).value :: seen)
      else (some (s.extend b), seen)
    else startByte b (replacement :: seen)

def decodeFrom : Option Sequence → List Char → List UInt8 → List Char
  | none, seen, [] => seen.reverse
  | some _, seen, [] => (replacement :: seen).reverse
  | open?, seen, b :: rest =>
    let (open?, seen) := readByte open? b.toNat seen
    decodeFrom open? seen rest

def decodeUtf8 (bytes : List UInt8) : List Char := decodeFrom none [] bytes

def encodeUtf8 (s : String) : List UInt8 := s.toUTF8.toList

end Worksheet.Text
