import Worksheet.Proofs.CellNames
import Worksheet.Proofs.Occurrences

/-!
The rectangle between two corners. It holds every cell between the two rows and the two columns,
once, row by row. Any two opposite corners of it, named in letters of any case, are read as the same
rectangle, so a formula that names it in one of these ways looks up the same cells in the same order
as in any other.
-/
namespace Worksheet

open Text

/-! ### Cells of a rectangle -/

namespace Coord

/-- The order of reading: by rows, and from left to right in a row. -/
def Before (c d : Coord) : Prop := c.row < d.row ∨ c.row = d.row ∧ c.col < d.col

/-- A cell between two rows and between two columns, those of the corners among them. -/
structure Between (a b c : Coord) : Prop where
  row_ge : min a.row b.row ≤ c.row
  row_le : c.row ≤ max a.row b.row
  col_ge : min a.col b.col ≤ c.col
  col_le : c.col ≤ max a.col b.col

/-- The ways to name the rectangle between two corners by opposite corners of it. -/
inductive Opposite (a b : Coord) : Coord → Coord → Prop
  | same : Opposite a b a b
  | swapped : Opposite a b b a
  | rows : Opposite a b ⟨b.row, a.col⟩ ⟨a.row, b.col⟩
  | cols : Opposite a b ⟨a.row, b.col⟩ ⟨b.row, a.col⟩

end Coord

namespace Range

variable {r : Range} {a b c d : Coord}

theorem coords_pairwise (r : Range) : r.coords.Pairwise Coord.Before := by
  unfold coords
  rw [List.pairwise_flatMap]
  constructor
  · intro i _
    rw [List.pairwise_map]
    apply List.pairwise_lt_range.imp
    intro j k hjk
    right
    dsimp only
    omega
  · apply List.pairwise_lt_range.imp
    intro i k hik c hc d hd
    obtain ⟨j, -, rfl⟩ := List.mem_map.mp hc
    obtain ⟨l, -, rfl⟩ := List.mem_map.mp hd
    left
    dsimp only
    omega

theorem coords_nodup (r : Range) : r.coords.Nodup := by
  apply r.coords_pairwise.imp
  intro c d hcd heq
  subst heq
  rcases hcd with hrow | ⟨-, hcol⟩
  · omega
  · omega

theorem mem_coords_between : c ∈ (between a b).coords ↔ a.Between b c := by
  have hbounds : c ∈ (between a b).coords ↔ (min a.row b.row ≤ c.row ∧ c.row ≤ max a.row b.row) ∧
      min a.col b.col ≤ c.col ∧ c.col ≤ max a.col b.col := mem_coords
  rw [hbounds]
  constructor
  · rintro ⟨⟨hrow, hrow'⟩, hcol, hcol'⟩
    exact ⟨hrow, hrow', hcol, hcol'⟩
  · intro h
    exact ⟨⟨h.row_ge, h.row_le⟩, h.col_ge, h.col_le⟩

/-- All ways to name a rectangle name the same one. -/
theorem between_of_opposite (h : a.Opposite b c d) : between c d = between a b := by
  have hrow : min b.row a.row = min a.row b.row := Int.min_comm _ _
  have hrow' : max b.row a.row = max a.row b.row := Int.max_comm _ _
  have hcol : min b.col a.col = min a.col b.col := Int.min_comm _ _
  have hcol' : max b.col a.col = max a.col b.col := Int.max_comm _ _
  cases h with
  | same => rfl
  | swapped => simp only [between, hrow, hrow', hcol, hcol']
  | rows => simp only [between, hrow, hrow']
  | cols => simp only [between, hcol, hcol']

theorem read_of_corners {start stop : String} (ha : Coord.read start = .ok (some a))
    (hb : Coord.read stop = .ok (some b)) : read start stop = .ok (some (between a b)) := by
  unfold read
  rw [ha, hb]
  rfl

end Range

/-! ### Names of corners -/

/-- Texts that differ only in the case of their letters. -/
def SameLetters (s t : String) : Prop := s.toList.map capital = t.toList.map capital

instance (s t : String) : Decidable (SameLetters s t) := inferInstanceAs (Decidable (_ = _))

theorem SameLetters.legible {s t : String} (h : SameLetters s t) (hs : Legible s.toList) :
    Legible t.toList := by
  intro c hc
  have hcapital : capital c ∈ s.toList.map capital := by
    rw [h]
    exact List.mem_map_of_mem hc
  obtain ⟨d, hd, hsame⟩ := List.mem_map.mp hcapital
  apply isLegible_capital.mp
  rw [← hsame]
  exact isLegible_capital.mpr (hs d hd)

/-- A cell is named in letters of any case. -/
theorem SameLetters.read_eq {s t : String} {c : Coord} (h : SameLetters s t)
    (hs : Coord.read s = .ok (some c)) : Coord.read t = .ok (some c) := by
  have hlegible := legible_of_read hs
  have hupper : upperText t = upperText s := by
    unfold upperText
    rw [upper_of_legible hlegible, upper_of_legible (h.legible hlegible), h]
  rw [← read_upperText (h.legible hlegible), hupper, read_upperText hlegible]
  exact hs

/-! ### Lookups of a rectangle -/

namespace Formula

open Steps

/-- Look cells up one after the other: the first error is the result, and without one the list of
all values behind those that were found before. -/
def lookThrough {m : Type → Type} [Monad m] (lookup : Coord → m Value) :
    List Coord → (found : List Value) → m Value
  | [], found => pure (.list found)
  | c :: rest, found => do
    let v ← lookup c
    if v.isError then pure v else lookThrough lookup rest (found ++ [v])

section Lookups
variable {m : Type → Type} [Monad m] (lookup : Coord → m Value) (fail : Fault → m Value)

theorem run_gather (r : Range) (count i : Nat) (seen : List Value) :
    (gather r count i seen).run lookup fail =
      lookThrough lookup ((List.range' i count).map r.nth) seen.reverse := by
  induction count generalizing i seen with
  | zero => rfl
  | succ count ih =>
    rw [List.range'_succ, List.map_cons]
    unfold gather Steps.run lookThrough
    apply congrArg (lookup (r.nth i) >>= ·)
    funext v
    show (if v.isError then Steps.done v else gather r count (i + 1) (v :: seen)).run lookup fail = _
    by_cases hv : v.isError = true
    · rw [if_pos hv, if_pos hv]
      rfl
    · rw [if_neg hv, if_neg hv, ih, List.reverse_cons]

/-- The cells of a range are looked up in the order in which they are listed. -/
theorem run_range [CallStack] {start stop : String} {r : Range}
    (h : Range.read start stop = .ok (some r)) :
    (Node.range start stop).steps.run lookup fail = lookThrough lookup r.coords [] := by
  have hsteps : (Node.range start stop).steps = gather r r.size 0 [] := by
    rw [Node.steps_range, rangeSteps, h]
  rw [hsteps, run_gather, coords_eq_map, List.range_eq_range', List.reverse_nil]

end Lookups
end Formula

/-- Two names of cells name the rectangle between these. It lists every cell between the two rows
and the two columns, each once and in the order of reading, and no other. All names of opposite
corners, in letters of any case, are read as that rectangle, and whoever answers a formula that
names it in such a way is asked for these cells in their order, up to the first error, which then is
the result. -/
theorem rectangle_of_corners [Formula.CallStack] {start stop : String} {a b : Coord}
    (ha : Coord.read start = .ok (some a)) (hb : Coord.read stop = .ok (some b)) :
    ∃ r, Range.read start stop = .ok (some r) ∧
      (∀ c, c ∈ r.coords ↔ a.Between b c) ∧ r.coords.Nodup ∧ r.coords.Pairwise Coord.Before ∧
      ∀ a' b' name name', a.Opposite b a' b' → Coord.read name = .ok (some a') →
        Coord.read name' = .ok (some b') → ∀ spelled spelled', SameLetters name spelled →
        SameLetters name' spelled' →
        Range.read spelled spelled' = .ok (some r) ∧
        ∀ (m : Type → Type) [Monad m] (lookup : Coord → m Value) (fail : Fault → m Value),
          (Formula.Node.range spelled spelled').steps.run lookup fail =
            Formula.lookThrough lookup r.coords [] := by
  refine ⟨.between a b, Range.read_of_corners ha hb, fun c => Range.mem_coords_between,
    Range.coords_nodup _, Range.coords_pairwise _, ?_⟩
  intro a' b' name name' hopposite ha' hb' spelled spelled' hspelled hspelled'
  have hread : Range.read spelled spelled' = .ok (some (.between a b)) := by
    rw [Range.read_of_corners (hspelled.read_eq ha') (hspelled'.read_eq hb'),
      Range.between_of_opposite hopposite]
  exact ⟨hread, fun m _ lookup fail => Formula.run_range lookup fail hread⟩

attribute [local instance] Formula.CallStack.usual

/-- Three rows of two cells, named from the lower left to the upper right in small letters. The
third cell is an error, so it is the last one that is looked up. -/
theorem rectangle_of_corners_tall :
    let lookup (c : Coord) : StateM (List Coord) Value := do
      modify (· ++ [c])
      return if c = ⟨1, 0⟩ then .error .division else .int 7
    let fail (_ : Fault) : StateM (List Coord) Value := return .null
    Coord.read "A1" = .ok (some ⟨0, 0⟩) ∧ Coord.read "B3" = .ok (some ⟨2, 1⟩) ∧
    Range.read "a3" "b1" = Range.read "A1" "B3" ∧
    ((Formula.Node.range "a3" "b1").steps.run lookup fail).run [] =
      (.error .division, [⟨0, 0⟩, ⟨0, 1⟩, ⟨1, 0⟩]) := by
  intro lookup fail
  have hfirst : Coord.read "A1" = .ok (some ⟨0, 0⟩) := by rfl
  have hlast : Coord.read "B3" = .ok (some ⟨2, 1⟩) := by rfl
  have hlower : Coord.read "A3" = .ok (some ⟨2, 0⟩) := by rfl
  have hupper : Coord.read "B1" = .ok (some ⟨0, 1⟩) := by rfl
  obtain ⟨r, hr, -, -, -, hnames⟩ := rectangle_of_corners hfirst hlast
  obtain ⟨hread, hruns⟩ := hnames ⟨2, 0⟩ ⟨0, 1⟩ "A3" "B1" .rows hlower hupper "a3" "b1"
    (by decide) (by decide)
  have hrectangle : r = Range.between ⟨0, 0⟩ ⟨2, 1⟩ := by
    rw [Range.read_of_corners hfirst hlast] at hr
    exact (Option.some.inj (Except.ok.inj hr)).symm
  refine ⟨hfirst, hlast, hread.trans hr.symm, ?_⟩
  rw [hruns (StateM (List Coord)) lookup fail, hrectangle]
  rfl

end Worksheet
