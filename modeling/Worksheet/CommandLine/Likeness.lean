/-!
Which of some names a mistyped one may have been meant for. Two texts are alike as far as common
blocks cover them: the longest common block, and then those before and those behind it.
-/
namespace Worksheet.CommandLine.Likeness

/-- A block that two texts share: where it starts in each of them, and its length. -/
structure Block where
  left : Nat := 0
  right : Nat := 0
  size : Nat := 0

/-- The length of the common start of two texts. -/
def sharedStart : List Char → List Char → Nat
  | a :: as, b :: bs => if a == b then sharedStart as bs + 1 else 0
  | _, _ => 0

/-- The block that starts at given places, if it is longer than the best one so far. -/
def better (a b : List Char) (left : Nat) (best : Block) (right : Nat) : Block :=
  let size := sharedStart (a.drop left) (b.drop right)
  if best.size < size then ⟨left, right, size⟩ else best

/-- The longest common block, and of several the one that starts first. -/
def longest (a b : List Char) : Block :=
  (List.range a.length).foldl
    (fun best left => (List.range b.length).foldl (better a b left) best) {}

/-- How many characters common blocks cover in each of two texts. -/
def covered (a b : List Char) : Nat :=
  match longest a b with
  | ⟨left, right, size⟩ =>
    if 0 < size ∧ left + size ≤ a.length then
      covered (a.take left) (b.take right) + size +
        covered (a.drop (left + size)) (b.drop (right + size))
    else 0
termination_by a.length
decreasing_by all_goals simp only [List.length_take, List.length_drop]; omega

/-- A name, and how far common blocks cover it and the mistyped one: `twice / total`. -/
structure Candidate where
  name : String
  twice : Nat
  total : Nat

def Candidate.of (word name : String) : Candidate :=
  ⟨name, 2 * covered name.toList word.toList, name.length + word.length⟩

/-- Close texts are covered to three fifths. -/
def Candidate.isClose (c : Candidate) : Bool := 3 * c.total ≤ 5 * c.twice

/-- The better covered name comes first, and of two alike the later one in the alphabet. -/
def Candidate.precedes (c d : Candidate) : Bool :=
  d.twice * c.total < c.twice * d.total ||
    (d.twice * c.total == c.twice * d.total && !decide (c.name < d.name))

/-- At most three close names, in the order of the alphabet. -/
def suggestions (word : String) (names : List String) : List String :=
  let close := (names.map (Candidate.of word)).filter Candidate.isClose
  ((close.mergeSort Candidate.precedes).take 3).map Candidate.name
    |>.mergeSort fun s t => !decide (t < s)

end Worksheet.CommandLine.Likeness
