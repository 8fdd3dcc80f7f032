import Worksheet.Proofs.PointEdits

/-!
Dimensions of a sheet. The column count is not kept anywhere: it is the length of the longest row,
or the default width when no row has a cell. An insertion raises its dimension by one, and a
deletion that returns lowers it by what it returns and leaves at least one line. Only a sheet
without cells has no columns to lose: it is as wide as before, whatever number of columns the
deletion returns.
-/
namespace Worksheet.Sheet

variable {s : Sheet} {indices : List Int} {count : Int} {k n : Nat}

/-! ### The longest row -/

section Widest
variable {row : List Value}

theorem foldl_max_le_iff {α : Type} (f : α → Nat) (xs : List α) (n bound : Nat) :
    xs.foldl (fun n x => max n (f x)) n ≤ bound ↔ n ≤ bound ∧ ∀ x ∈ xs, f x ≤ bound := by
  induction xs generalizing n with
  | nil => simp
  | cons x rest ih =>
    rw [List.foldl_cons, ih, Nat.max_le, List.forall_mem_cons, and_assoc]

theorem widest_le_iff : s.widest ≤ n ↔ ∀ row ∈ s.rows, row.length ≤ n := by
  show s.rows.foldl (fun n row => max n row.length) 0 ≤ n ↔ _
  rw [foldl_max_le_iff List.length]
  exact and_iff_right (Nat.zero_le n)

theorem widest_eq_zero_iff : s.widest = 0 ↔ ∀ row ∈ s.rows, row = [] := by
  rw [← Nat.le_zero, widest_le_iff]
  simp only [Nat.le_zero, List.length_eq_zero_iff]

theorem exists_length_eq_widest (h : s.widest ≠ 0) : ∃ row ∈ s.rows, row.length = s.widest := by
  by_contra hnone
  have hshort : s.widest ≤ s.widest - 1 := by
    apply widest_le_iff.mpr
    intro row hrow
    have hle := length_le_widest hrow
    have hne : row.length ≠ s.widest := fun heq => hnone ⟨row, hrow, heq⟩
    omega
  omega

/-- The column count is the length of a row than which no row is longer. -/
theorem columnCount_eq (hn : n ≠ 0) (hle : ∀ row ∈ s.rows, row.length ≤ n) (hrow : row ∈ s.rows)
    (hlength : row.length = n) : s.columnCount = n := by
  have hat_most : s.widest ≤ n := widest_le_iff.mpr hle
  have hat_least : row.length ≤ s.widest := length_le_widest hrow
  unfold columnCount
  rw [if_neg (by omega)]
  omega

theorem columnCount_of_widest (h : s.widest ≠ 0) : s.columnCount = s.widest := if_neg h

theorem columnCount_of_blank (h : s.widest = 0) : s.columnCount = s.defaultColumns := if_pos h

theorem one_le_columnCount (hdefault : 1 ≤ s.defaultColumns) : 1 ≤ s.columnCount := by
  by_cases h : s.widest = 0
  · rw [columnCount_of_blank h]
    exact hdefault
  · rw [columnCount_of_widest h]
    omega

end Widest

/-! ### Insertions -/

theorem rowCount_insertRow (s : Sheet) (after : Option Int) :
    (s.insertRow after).sheet.rowCount = s.rowCount + 1 := by
  have hindex := insertionIndex_le after s.rowCount
  unfold rowCount at hindex ⊢
  apply List.length_insertIdx_of_le_length
  show (insertionIndex after s.rowCount).toNat ≤ s.rows.length
  unfold rowCount
  omega

/-- The new row is as long as the longest one. -/
theorem columnCount_insertRow (hdefault : 1 ≤ s.defaultColumns) (after : Option Int) :
    (s.insertRow after).sheet.columnCount = s.columnCount := by
  have hcount := one_le_columnCount hdefault
  have hindex : (insertionIndex after s.rowCount).toNat ≤ s.rows.length := by
    have hle := insertionIndex_le after s.rowCount
    unfold rowCount at hle ⊢
    omega
  have hmem (row : List Value) : row ∈ (s.insertRow after).sheet.rows ↔
      row = blanks s.columnCount.toNat ∨ row ∈ s.rows := List.mem_insertIdx hindex
  have hlength : (blanks s.columnCount.toNat).length = s.columnCount.toNat :=
    List.length_replicate
  rw [columnCount_eq (by omega) _ ((hmem _).mpr (.inl rfl)) hlength]
  · omega
  · intro row hrow
    rcases (hmem row).mp hrow with rfl | hrow
    · omega
    · exact length_le_columnCount hrow

/-- After a column was inserted every row has as many cells as the sheet had columns, and one. -/
theorem length_of_mem_insertColumn {row : List Value} {after : Option Int}
    (h : row ∈ (s.insertColumn after).sheet.rows) (hcount : 0 ≤ s.columnCount) :
    row.length = s.columnCount.toNat + 1 := by
  have hindex := insertionIndex_le after s.columnCount
  unfold insertColumn touched at h
  dsimp only at h
  split at h
  · rw [List.mem_singleton.mp h]
    have hlength : (blanks (s.columnCount + 1).toNat).length = (s.columnCount + 1).toNat :=
      List.length_replicate
    omega
  · obtain ⟨old, hold, rfl⟩ := List.mem_map.mp h
    have hle := length_le_columnCount hold
    have hpadded := length_padTo s.columnCount.toNat old
    rw [List.length_insertIdx_of_le_length (by omega)]
    omega

theorem columnCount_insertColumn (hdefault : 1 ≤ s.defaultColumns) (after : Option Int) :
    (s.insertColumn after).sheet.columnCount = s.columnCount + 1 := by
  have hcount := one_le_columnCount hdefault
  have hlength {row : List Value} (h : row ∈ (s.insertColumn after).sheet.rows) :=
    length_of_mem_insertColumn h (by omega)
  obtain ⟨row, hrow⟩ : ∃ row, row ∈ (s.insertColumn after).sheet.rows := by
    apply List.exists_mem_of_ne_nil
    unfold insertColumn touched
    dsimp only
    split
    · exact List.cons_ne_nil _ _
    · rename_i hrows
      simpa using hrows
  rw [columnCount_eq (Nat.succ_ne_zero _) _ hrow (hlength hrow)]
  · omega
  · intro other hother
    exact Nat.le_of_eq (hlength hother)

/-! ### Deletions -/

section Deletions
variable {α : Type} {xs : List α}

/-- Indices below a count are deleted or left. -/
theorem length_remaining_add (indices : List Int) (count : Int) :
    (remaining indices count).length + (selection indices count).length = count.toNat := by
  have hsplit := List.length_eq_length_filter_add (l := List.range count.toNat)
    fun (i : Nat) => indices.contains (i : Int)
  rw [List.length_range] at hsplit
  unfold remaining selection
  omega

theorem length_remaining_le {m n : Nat} (h : m ≤ n) (indices : List Int) :
    (remaining indices m).length ≤ (remaining indices n).length :=
  ((List.range_sublist.mpr h).filter _).length_le

/-- As many elements of a list are left as indices below its length. -/
theorem length_eraseIndices (h : xs.length ≤ count.toNat) :
    (eraseIndices (selection indices count) xs).length = (remaining indices xs.length).length := by
  have hmap := congrArg List.length (map_some_eraseIndices (selection indices count) xs)
  rw [filter_range_selection h, List.length_map, List.length_map] at hmap
  exact hmap

/-- All indices below a count are deleted just when all of them are given. -/
theorem le_length_selection_iff (indices : List Int) (count : Int) :
    count ≤ (selection indices count).length ↔
      ∀ k : Nat, (k : Int) < count → (k : Int) ∈ indices := by
  have hsum := length_remaining_add indices count
  have hnone : remaining indices count = [] ↔
      ∀ k : Nat, (k : Int) < count → (k : Int) ∈ indices := by
    simp only [List.eq_nil_iff_forall_not_mem, mem_remaining, not_and, not_not]
  rw [← hnone, ← List.length_eq_zero_iff]
  omega

theorem deleteRows_result (s : Sheet) (indices : List Int) :
    (s.deleteRows indices).result =
      if 1 ≤ (selection indices s.rowCount).length ∧
          s.rowCount ≤ (selection indices s.rowCount).length then .error .lastRow
      else .ok (selection indices s.rowCount).length := by
  unfold deleteRows
  dsimp only
  split
  · rename_i hnone
    rw [List.isEmpty_iff.mp hnone]
    rfl
  · rename_i hsome
    have hpos : 1 ≤ (selection indices s.rowCount).length :=
      List.length_pos_iff.mpr (by simpa using hsome)
    simp only [hpos, true_and]
    split
    · rfl
    · rfl

theorem deleteColumns_result (hcount : 1 ≤ s.columnCount) (indices : List Int) :
    (s.deleteColumns indices).result =
      if s.columnCount ≤ (selection indices s.columnCount).length then .error .lastColumn
      else .ok (selection indices s.columnCount).length := by
  unfold deleteColumns
  dsimp only
  split
  · rename_i hnone
    rw [List.isEmpty_iff.mp hnone, if_neg (by simp only [List.length_nil]; omega)]
    rfl
  · split
    · rfl
    · rfl

theorem rowCount_deleteRows (h : (s.deleteRows indices).result = .ok k) :
    (s.deleteRows indices).sheet.rowCount + k = s.rowCount ∧
      (1 ≤ s.rowCount → 1 ≤ (s.deleteRows indices).sheet.rowCount) := by
  have hrows := congrArg List.length (rows_deleteRows h)
  rw [length_eraseIndices (by unfold rowCount; omega)] at hrows
  have hsum := length_remaining_add indices s.rowCount
  rw [deleteRows_result] at h
  split at h
  · cases h
  · cases h
    unfold rowCount at *
    omega

/-- A row that loses all its cells is given a blank one, so one column must be left for it. -/
theorem length_eraseColumns_le {row : List Value} {selected : List Nat}
    (h : (eraseIndices selected row).length ≤ n) (hn : 1 ≤ n) :
    (eraseColumns selected row).length ≤ n := by
  unfold eraseColumns
  split
  · rename_i hrow
    rw [List.isEmpty_iff.mp hrow]
    exact Nat.zero_le n
  · dsimp only
    split
    · exact hn
    · exact h

theorem length_eraseColumns {row : List Value} {selected : List Nat}
    (h : 1 ≤ (eraseIndices selected row).length) :
    (eraseColumns selected row).length = (eraseIndices selected row).length := by
  have hkept : eraseIndices selected row ≠ [] := List.length_pos_iff.mp h
  have hrow : row ≠ [] := by
    rintro rfl
    exact hkept rfl
  unfold eraseColumns
  rw [if_neg (by simpa using hrow)]
  dsimp only
  rw [if_neg (by simpa using hkept)]

/-- The longest row loses every column that is deleted, and no row is left longer. -/
theorem columnCount_deleteColumns (h : (s.deleteColumns indices).result = .ok k)
    (hwidest : s.widest ≠ 0) : (s.deleteColumns indices).sheet.columnCount + k = s.columnCount := by
  have hcount := columnCount_of_widest hwidest
  have hsum := length_remaining_add indices s.columnCount
  have hrows := rows_deleteColumns h
  rw [deleteColumns_result (by omega)] at h
  split at h
  · cases h
  · cases h
    obtain ⟨row, hrow, hlength⟩ := exists_length_eq_widest hwidest
    have hleft : (eraseIndices (selection indices s.columnCount) row).length =
        (remaining indices s.columnCount).length := by
      rw [length_eraseIndices (length_le_columnCount hrow), hlength, hcount]
    have hone : 1 ≤ (remaining indices s.columnCount).length := by omega
    have hkept := length_eraseColumns (hleft ▸ hone)
    rw [columnCount_eq (by omega) _ (hrows ▸ List.mem_map_of_mem hrow) (hkept.trans hleft)]
    · omega
    · intro other hother
      rw [hrows] at hother
      obtain ⟨old, hold, rfl⟩ := List.mem_map.mp hother
      apply length_eraseColumns_le _ hone
      rw [length_eraseIndices (length_le_columnCount hold), hcount]
      exact length_remaining_le (length_le_widest hold) indices

/-- A deletion of columns does nothing to rows without cells. -/
theorem deleteColumns_of_blank (h : (s.deleteColumns indices).result = .ok k)
    (hblank : s.widest = 0) : (s.deleteColumns indices).sheet.rows = s.rows ∧
      (s.deleteColumns indices).sheet.columnCount = s.columnCount := by
  have hrows : (s.deleteColumns indices).sheet.rows = s.rows := by
    rw [rows_deleteColumns h]
    refine (List.map_congr_left ?_).trans (List.map_id _)
    intro row hrow
    rw [widest_eq_zero_iff.mp hblank row hrow]
    rfl
  have hdefault : (s.deleteColumns indices).sheet.defaultColumns = s.defaultColumns := by
    unfold deleteColumns
    dsimp only
    split
    · rfl
    · split
      · rfl
      · rfl
  refine ⟨hrows, ?_⟩
  rw [columnCount_of_blank hblank, ← hdefault]
  apply columnCount_of_blank
  rw [widest_eq_zero_iff, hrows]
  exact widest_eq_zero_iff.mp hblank

end Deletions

/-- Every edit of whole lines changes the dimensions by as much as it says, but for deletions of
columns on a sheet without cells. An inserted row leaves the width as it is; after a column was
inserted all rows are as long as the sheet is wide. What a deletion returns is how many lines fewer
there are, at least one line is left, and a request for all lines is refused, and no other. Rows
without cells have no columns that could be deleted, so such a sheet keeps its default width,
whatever the deletion returns. -/
theorem dimensions_of_edits (s : Sheet) (hdefault : 1 ≤ s.defaultColumns) :
    (∀ after, (s.insertRow after).sheet.rowCount = s.rowCount + 1 ∧
      (s.insertRow after).sheet.columnCount = s.columnCount) ∧
    (∀ after, (s.insertColumn after).sheet.columnCount = s.columnCount + 1 ∧
      ∀ row ∈ (s.insertColumn after).sheet.rows,
        (row.length : Int) = (s.insertColumn after).sheet.columnCount) ∧
    (∀ indices k, (s.deleteRows indices).result = .ok k →
      (s.deleteRows indices).sheet.rowCount + k = s.rowCount ∧
      (1 ≤ s.rowCount → 1 ≤ (s.deleteRows indices).sheet.rowCount)) ∧
    (∀ indices k, (s.deleteColumns indices).result = .ok k →
      1 ≤ (s.deleteColumns indices).sheet.columnCount ∧
      ((∃ row ∈ s.rows, row ≠ []) →
        (s.deleteColumns indices).sheet.columnCount + k = s.columnCount) ∧
      ((∀ row ∈ s.rows, row = []) → (s.deleteColumns indices).sheet.rows = s.rows ∧
        (s.deleteColumns indices).sheet.columnCount = s.columnCount)) ∧
    (∀ indices, (s.deleteRows indices).result = .error .lastRow ↔
      1 ≤ s.rowCount ∧ ∀ r : Nat, r < s.rowCount → (r : Int) ∈ indices) ∧
    ∀ indices, (s.deleteColumns indices).result = .error .lastColumn ↔
      ∀ c : Nat, (c : Int) < s.columnCount → (c : Int) ∈ indices := by
  have hcount := one_le_columnCount hdefault
  refine ⟨?_, ?_, ?_, ?_, ?_, ?_⟩
  · intro after
    exact ⟨rowCount_insertRow s after, columnCount_insertRow hdefault after⟩
  · intro after
    refine ⟨columnCount_insertColumn hdefault after, ?_⟩
    intro row hrow
    rw [columnCount_insertColumn hdefault, length_of_mem_insertColumn hrow (by omega)]
    omega
  · intro indices k h
    exact rowCount_deleteRows h
  · intro indices k h
    by_cases hblank : s.widest = 0
    · obtain ⟨hrows, hwidth⟩ := deleteColumns_of_blank h hblank
      refine ⟨by omega, ?_, fun _ => ⟨hrows, hwidth⟩⟩
      rintro ⟨row, hrow, hne⟩
      exact absurd (widest_eq_zero_iff.mp hblank row hrow) hne
    · have hwidth := columnCount_deleteColumns h hblank
      refine ⟨?_, fun _ => hwidth, fun hnone => absurd (widest_eq_zero_iff.mpr hnone) hblank⟩
      rw [deleteColumns_result hcount] at h
      split at h
      · cases h
      · cases h
        omega
  · intro indices
    have hall := le_length_selection_iff indices s.rowCount
    have hsum := length_remaining_add indices s.rowCount
    simp only [Int.ofNat_lt] at hall
    rw [deleteRows_result, ← hall]
    split
    · exact ⟨fun _ => by omega, fun _ => rfl⟩
    · exact ⟨nofun, fun hcovered => by omega⟩
  · intro indices
    rw [deleteColumns_result hcount, ← le_length_selection_iff]
    split
    · rename_i hrefused
      exact ⟨fun _ => hrefused, fun _ => rfl⟩
    · rename_i hdone
      exact ⟨nofun, fun hcovered => absurd hcovered hdone⟩

/-- Rows that differ in length lose two columns, and a sheet without rows none, though one is
returned. -/
theorem dimensions_of_edits_ragged :
    (ragged.deleteColumns [1, 0, -2, 0]).result = .ok 2 ∧
    (ragged.deleteColumns [1, 0, -2, 0]).sheet.columnCount + 2 = ragged.columnCount ∧
    (Sheet.deleteColumns ⟨[], 8, 0⟩ [0]).result = .ok 1 ∧
    (Sheet.deleteColumns ⟨[], 8, 0⟩ [0]).sheet.columnCount = 8 := by
  obtain ⟨-, -, -, hragged, -⟩ := dimensions_of_edits ragged (by decide)
  obtain ⟨-, -, -, hblank, -⟩ := dimensions_of_edits ⟨[], 8, 0⟩ (by decide)
  refine ⟨rfl, (hragged _ 2 rfl).2.1 ⟨[.text "a"], List.mem_cons_self, nofun⟩, rfl, ?_⟩
  exact ((hblank _ 1 rfl).2.2 (List.forall_mem_nil _)).2

end Worksheet.Sheet
