import Worksheet.Proofs.StorageShapes

/-!
Inserted and deleted lines. A sheet reads as a grid without bounds that is blank where there are no
cells. Rows and columns that are inserted or deleted only number the lines of this grid anew: an
insertion pushes all lines from its index on behind a blank one, and a deletion closes up those that
are left. The rows may differ in length, so columns are looked at in every row on its own.
-/
namespace Worksheet

/-- What a position without a cell holds. -/
def CellData.blank : CellData := ⟨.text "", []⟩

namespace Sheet

/-! ### Lines of the grid -/

section Lines
variable {row : List Value} {rows : List (List Value)} {s : Sheet}

/-- A row of the grid, which has no cells behind the last row of the sheet. -/
def line (rows : List (List Value)) (r : Nat) : List Value := (rows[r]?).getD []

/-- What a row holds at a place, also behind its last cell. -/
def entry (row : List Value) (k : Nat) : CellData := (Cell.data ((row[k]?).getD .null)).1

theorem entry_of_none {k : Nat} (h : row[k]? = none) : entry row k = .blank := by
  unfold entry
  rw [h]
  rfl

theorem entry_of_text {k : Nat} (h : row[k]? = some (.text "")) : entry row k = .blank := by
  unfold entry
  rw [h]
  rfl

theorem cellData_natCast (s : Sheet) (r c : Nat) :
    s.cellData ⟨r, c⟩ = entry (line s.rows r) c := by
  have hplace : place? ⟨r, c⟩ = some ⟨r, c⟩ := place?_cast ⟨r, c⟩
  unfold cellData
  rw [data_cell? s hplace]
  unfold readAt storedAt line entry
  dsimp only
  cases s.rows[r]? with
  | none => rfl
  | some row => rfl

theorem cellData_of_negative {c : Coord} (h : c.row < 0 ∨ c.col < 0) (s : Sheet) :
    s.cellData c = .blank := by
  have hplace : place? c = none := if_pos (by simpa using h)
  exact (cellData_of_place?_eq_none hplace s).1

theorem entry_padTo (n : Nat) (row : List Value) (k : Nat) :
    entry (padTo n row) k = entry row k := by
  rcases getElem?_padTo n row k with hsame | ⟨hnone, hblank⟩
  · unfold entry
    rw [hsame]
  · rw [entry_of_none hnone, entry_of_text hblank]

theorem entry_nil (k : Nat) : entry [] k = .blank := rfl

theorem entry_blanks (n k : Nat) : entry (blanks n) k = .blank := by
  by_cases hk : k < n
  · exact entry_of_text (by rw [blanks, List.getElem?_replicate, if_pos hk])
  · exact entry_of_none (by rw [blanks, List.getElem?_replicate, if_neg hk])

/-- An edit of every row is one of every row of the grid, when it keeps blank rows blank. -/
theorem entry_line_map {edit : List Value → List Value}
    (hblank : ∀ k, entry (edit []) k = .blank) (rows : List (List Value)) (n k : Nat) :
    entry (line (rows.map edit) n) k = entry (edit (line rows n)) k := by
  unfold line
  rw [List.getElem?_map]
  cases rows[n]? with
  | none => exact (hblank k).symm
  | some row => rfl

/-- Rows are no longer than the longest row. -/
theorem length_le_widest (h : row ∈ s.rows) : row.length ≤ s.widest :=
  Session.le_foldl_max List.length s.rows 0 h

theorem length_le_columnCount (h : row ∈ s.rows) : row.length ≤ s.columnCount.toNat := by
  have hwidest := length_le_widest h
  unfold columnCount
  split
  · omega
  · omega

end Lines

/-! ### Insertions -/

section Insertions
variable {α : Type} {f g : Int → CellData} {s : Sheet}

theorem getD_insertIdx {xs : List α} {i : Nat} (h : i ≤ xs.length) (x default : α) (k : Nat) :
    ((xs.insertIdx i x)[k]?).getD default =
      if k < i then (xs[k]?).getD default else if k = i then x else (xs[k - 1]?).getD default := by
  rw [List.getElem?_insertIdx]
  by_cases hbefore : k < i
  · rw [if_pos hbefore, if_pos hbefore]
  · rw [if_neg hbefore, if_neg hbefore]
    by_cases hat : k = i
    · rw [if_pos hat, if_pos hat, if_pos (by omega)]
      rfl
    · rw [if_neg hat, if_neg hat]

/-- Lines that are blank before nought and were pushed on from an index on. An index before nought
pushes on all of them, and is blank like the line before the first. -/
theorem pushed_on {i : Int} (hf : ∀ k < 0, f k = .blank) (hg : ∀ k < 0, g k = .blank)
    (h : ∀ n : Nat, g n =
      if n < i.toNat then f n else if n = i.toNat then .blank else f (n - 1 : Nat)) (k : Int) :
    g k = if k < i then f k else if k = i then .blank else f (k - 1) := by
  by_cases hk : k < 0
  · rw [hg k hk, hf k hk, hf (k - 1) (by omega), ite_self, ite_self]
  · obtain ⟨n, rfl⟩ : ∃ n : Nat, k = n := ⟨k.toNat, by omega⟩
    rw [h n]
    by_cases hbefore : (n : Int) < i
    · rw [if_pos hbefore, if_pos (by omega)]
    · have hbehind : ¬ n < i.toNat := by omega
      rw [if_neg hbefore, if_neg hbehind]
      by_cases hat : n = i.toNat
      · rw [if_pos hat]
        by_cases hi : (n : Int) = i
        · rw [if_pos hi]
        · rw [if_neg hi, hf _ (by omega)]
      · have hi : (n : Int) ≠ i := by omega
        have hpred : ((n - 1 : Nat) : Int) = n - 1 := by omega
        rw [if_neg hat, if_neg hi, hpred]

theorem insertionIndex_le (after : Option Int) (count : Int) :
    insertionIndex after count ≤ count := by
  unfold insertionIndex
  split
  · exact Int.le_refl count
  · exact Int.min_le_right _ count

theorem cellData_insertRow (s : Sheet) (after : Option Int) (r c : Int) :
    (s.insertRow after).sheet.cellData ⟨r, c⟩ =
      if r < insertionIndex after s.rowCount then s.cellData ⟨r, c⟩
      else if r = insertionIndex after s.rowCount then .blank
      else s.cellData ⟨r - 1, c⟩ := by
  have hindex := insertionIndex_le after s.rowCount
  refine pushed_on (f := fun r => s.cellData ⟨r, c⟩)
    (g := fun r => (s.insertRow after).sheet.cellData ⟨r, c⟩)
    (fun k hk => cellData_of_negative (.inl hk) _) (fun k hk => cellData_of_negative (.inl hk) _)
    (fun n => ?_) r
  by_cases hc : c < 0
  · rw [cellData_of_negative (.inr hc), cellData_of_negative (.inr hc),
      cellData_of_negative (.inr hc), ite_self, ite_self]
  · obtain ⟨k, rfl⟩ : ∃ k : Nat, c = k := ⟨c.toNat, by omega⟩
    have hwithin : (insertionIndex after s.rowCount).toNat ≤ s.rows.length := by
      unfold rowCount at hindex ⊢
      omega
    have hline : line (s.insertRow after).sheet.rows n =
        if n < (insertionIndex after s.rowCount).toNat then line s.rows n
        else if n = (insertionIndex after s.rowCount).toNat then blanks s.columnCount.toNat
        else line s.rows (n - 1) := getD_insertIdx hwithin _ [] n
    rw [cellData_natCast, cellData_natCast, cellData_natCast, hline]
    split
    · rfl
    · split
      · exact entry_blanks _ k
      · rfl

/-- What a row holds after it was filled up and a blank cell was inserted into it. -/
theorem entry_insertIdx {n i : Nat} (h : i ≤ n) (row : List Value) (k : Nat) :
    entry ((padTo n row).insertIdx i (.text "")) k =
      if k < i then entry row k else if k = i then .blank else entry row (k - 1) := by
  have hlength : i ≤ (padTo n row).length := by
    simp only [padTo, blanks, List.length_append, List.length_replicate]
    omega
  rw [← entry_padTo n row k, ← entry_padTo n row (k - 1)]
  unfold entry
  rw [getD_insertIdx hlength]
  split
  · rfl
  · split
    · rfl
    · rfl

theorem cellData_insertColumn (s : Sheet) (after : Option Int) (r c : Int) :
    (s.insertColumn after).sheet.cellData ⟨r, c⟩ =
      if c < insertionIndex after s.columnCount then s.cellData ⟨r, c⟩
      else if c = insertionIndex after s.columnCount then .blank
      else s.cellData ⟨r, c - 1⟩ := by
  have hindex := insertionIndex_le after s.columnCount
  refine pushed_on (f := fun c => s.cellData ⟨r, c⟩)
    (g := fun c => (s.insertColumn after).sheet.cellData ⟨r, c⟩)
    (fun k hk => cellData_of_negative (.inr hk) _) (fun k hk => cellData_of_negative (.inr hk) _)
    (fun k => ?_) c
  by_cases hr : r < 0
  · rw [cellData_of_negative (.inl hr), cellData_of_negative (.inl hr),
      cellData_of_negative (.inl hr), ite_self, ite_self]
  · obtain ⟨n, rfl⟩ : ∃ n : Nat, r = n := ⟨r.toNat, by omega⟩
    rw [cellData_natCast, cellData_natCast, cellData_natCast]
    have hwithin : (insertionIndex after s.columnCount).toNat ≤ s.columnCount.toNat := by omega
    have hinserted := entry_insertIdx hwithin
    unfold insertColumn touched
    dsimp only
    by_cases hrows : s.rows = []
    · -- the only row is then the one that was added, and it is blank
      rw [hrows]
      have hold (k : Nat) : entry (line [] n) k = .blank := rfl
      have hnew : entry (line [blanks (s.columnCount + 1).toNat] n) k = .blank := by
        cases n with
        | zero => exact entry_blanks _ k
        | succ n => exact entry_nil k
      rw [hold, hold, ite_self, ite_self]
      exact hnew
    · rw [if_neg (by simpa using hrows), entry_line_map, hinserted]
      intro k
      rw [hinserted, entry_nil, entry_nil, ite_self, ite_self]

end Insertions

/-! ### Deletions -/

section Deletions
variable {α : Type} {indices : List Int} {count : Int}

/-- The indices below a count that are left. -/
def remaining (indices : List Int) (count : Int) : List Nat :=
  (List.range count.toNat).filter fun (i : Nat) => !indices.contains (i : Int)

theorem mem_remaining {k : Nat} :
    k ∈ remaining indices count ↔ (k : Int) < count ∧ (k : Int) ∉ indices := by
  have hbelow : k < count.toNat ↔ (k : Int) < count := by omega
  simp only [remaining, List.mem_filter, List.mem_range, hbelow, Bool.not_eq_true',
    List.contains_eq_mem, decide_eq_false_iff_not]

theorem pairwise_remaining (indices : List Int) (count : Int) :
    (remaining indices count).Pairwise (· < ·) :=
  List.pairwise_lt_range.filter _

theorem map_some_eraseIndices (selected : List Nat) (xs : List α) :
    (eraseIndices selected xs).map some =
      ((List.range xs.length).filter fun k => !selected.contains k).map (xs[·]?) := by
  have hindices : xs.zipIdx.map Prod.snd = List.range xs.length := by
    rw [List.zipIdx_map_snd, List.range_eq_range']
  unfold eraseIndices
  rw [← hindices, List.filter_map, List.map_map, List.map_map]
  refine List.map_congr_left fun entry hentry => ?_
  exact (List.mem_zipIdx_iff_getElem?.mp (List.mem_of_mem_filter hentry)).symm

theorem filter_range_selection {n : Nat} (h : n ≤ count.toNat) :
    ((List.range n).filter fun k => !(selection indices count).contains k) =
      (List.range n).filter fun (k : Nat) => !indices.contains (k : Int) := by
  refine List.filter_congr fun k hk => ?_
  have hbelow : k < count.toNat := Nat.lt_of_lt_of_le (List.mem_range.mp hk) h
  have hselected : k ∈ selection indices count ↔ (k : Int) ∈ indices := by
    simp only [selection, List.mem_filter, List.mem_range, hbelow, true_and, List.contains_eq_mem,
      decide_eq_true_eq]
  rw [List.contains_eq_mem, List.contains_eq_mem, decide_eq_decide.mpr hselected]

/-- A deletion closes up what is left of a list, also where the list ends before the count. -/
theorem getElem?_eraseIndices {xs : List α} (h : xs.length ≤ count.toNat) (j : Nat) :
    (eraseIndices (selection indices count) xs)[j]? =
      (remaining indices count)[j]?.bind (xs[·]?) := by
  obtain ⟨m, hm⟩ := Nat.exists_eq_add_of_le h
  have hfront := map_some_eraseIndices (selection indices count) xs
  rw [filter_range_selection h] at hfront
  unfold remaining
  -- the indices that the list has, and those behind its end
  rw [hm, List.range_add, List.filter_append]
  generalize hkept : ((List.range xs.length).filter fun (k : Nat) => !indices.contains (k : Int)) =
    front at hfront ⊢
  have hlength : (eraseIndices (selection indices count) xs).length = front.length := by
    simpa only [List.length_map] using congrArg List.length hfront
  by_cases hj : j < front.length
  · have hplace := congrArg (·[j]?) hfront
    rw [List.getElem?_map, List.getElem?_map, List.getElem?_eq_getElem hj,
      Option.map_some] at hplace
    obtain ⟨x, hx, hsome⟩ := Option.map_eq_some_iff.mp hplace
    rw [List.getElem?_append_left hj, List.getElem?_eq_getElem hj, Option.bind_some, hx, hsome]
  · rw [List.getElem?_eq_none (by omega), List.getElem?_append_right (by omega)]
    refine (Option.bind_eq_none_iff.mpr fun k hk => ?_).symm
    obtain ⟨i, -, rfl⟩ := List.mem_map.mp (List.mem_of_mem_filter (List.mem_of_getElem? hk))
    exact List.getElem?_eq_none (Nat.le_add_right _ i)

theorem eraseIndices_nil (xs : List α) : eraseIndices [] xs = xs := by
  have hall : (xs.zipIdx.filter fun entry => !([] : List Nat).contains entry.2) = xs.zipIdx :=
    List.filter_eq_self.mpr fun _ _ => rfl
  unfold eraseIndices
  rw [hall, List.zipIdx_map_fst]

/-- The rows after a deletion, or after one that selects nothing. -/
theorem rows_deleteRows {s : Sheet} {n : Nat} (h : (s.deleteRows indices).result = .ok n) :
    (s.deleteRows indices).sheet.rows = eraseIndices (selection indices s.rowCount) s.rows := by
  unfold deleteRows at h ⊢
  dsimp only at h ⊢
  split
  · rename_i hnone
    rw [List.isEmpty_iff.mp hnone, eraseIndices_nil]
  · rename_i hsome
    rw [if_neg hsome] at h
    split
    · rename_i hall
      rw [if_pos hall] at h
      cases h
    · rfl

theorem eraseColumns_nil (row : List Value) : eraseColumns [] row = row := by
  unfold eraseColumns
  rw [eraseIndices_nil]
  split
  · rfl
  · rename_i hrow
    exact if_neg hrow

theorem rows_deleteColumns {s : Sheet} {n : Nat} (h : (s.deleteColumns indices).result = .ok n) :
    (s.deleteColumns indices).sheet.rows =
      s.rows.map (eraseColumns (selection indices s.columnCount)) := by
  unfold deleteColumns at h ⊢
  dsimp only at h ⊢
  split
  · rename_i hnone
    rw [List.isEmpty_iff.mp hnone, funext eraseColumns_nil, List.map_id']
  · rename_i hsome
    rw [if_neg hsome] at h
    split
    · rename_i hall
      rw [if_pos hall] at h
      cases h
    · rfl

/-- The blank cell that an emptied row keeps cannot be told from no cell. -/
theorem entry_eraseColumns (selected : List Nat) (row : List Value) (k : Nat) :
    entry (eraseColumns selected row) k = entry (eraseIndices selected row) k := by
  unfold eraseColumns
  by_cases hrow : row = []
  · rw [hrow]
    rfl
  · rw [if_neg (by simpa using hrow)]
    dsimp only
    split
    · rename_i hkept
      rw [List.isEmpty_iff.mp hkept, entry_nil, entry_blanks]
    · rfl

theorem elim_of_blank {place : Option Nat} {g : Nat → CellData} (h : ∀ k, g k = .blank) :
    place.elim .blank g = .blank := by
  cases place with
  | none => rfl
  | some k => exact h k

theorem cellData_deleteRows {s : Sheet} {n : Nat} (h : (s.deleteRows indices).result = .ok n)
    (j : Nat) (c : Int) :
    (s.deleteRows indices).sheet.cellData ⟨j, c⟩ =
      (remaining indices s.rowCount)[j]?.elim .blank fun k => s.cellData ⟨k, c⟩ := by
  by_cases hc : c < 0
  · rw [cellData_of_negative (.inr hc), elim_of_blank fun k => cellData_of_negative (.inr hc) s]
  · obtain ⟨k, rfl⟩ : ∃ k : Nat, c = k := ⟨c.toNat, by omega⟩
    rw [cellData_natCast, rows_deleteRows h, line]
    rw [getElem?_eraseIndices (by unfold rowCount; omega)]
    cases (remaining indices s.rowCount)[j]? with
    | none => rfl
    | some i => exact (cellData_natCast s i k).symm

theorem cellData_deleteColumns {s : Sheet} {n : Nat}
    (h : (s.deleteColumns indices).result = .ok n) (r : Int) (j : Nat) :
    (s.deleteColumns indices).sheet.cellData ⟨r, j⟩ =
      (remaining indices s.columnCount)[j]?.elim .blank fun k => s.cellData ⟨r, k⟩ := by
  by_cases hr : r < 0
  · rw [cellData_of_negative (.inl hr), elim_of_blank fun k => cellData_of_negative (.inl hr) s]
  · obtain ⟨i, rfl⟩ : ∃ i : Nat, r = i := ⟨r.toNat, by omega⟩
    have hlength : (line s.rows i).length ≤ s.columnCount.toNat := by
      unfold line
      cases hrow : s.rows[i]? with
      | none => exact Nat.zero_le _
      | some row => exact length_le_columnCount (List.mem_of_getElem? hrow)
    rw [cellData_natCast, rows_deleteColumns h, entry_line_map fun k => rfl, entry_eraseColumns,
      entry, getElem?_eraseIndices hlength]
    cases (remaining indices s.columnCount)[j]? with
    | none => rfl
    | some k => exact (cellData_natCast s i k).symm

end Deletions

theorem insertionIndex_eq (after : Option Int) (count : Int) : insertionIndex after count =
    after.elim count fun line => min (max (line + 1) 0) count := by
  cases after with
  | none => rfl
  | some line => rfl

/-- Insertions and deletions number the lines of the grid anew and do nothing else. A row is
inserted behind the one that is named, or as the last one when none is, and never outside the grid;
the rows before it read as they did, it is blank, and those behind it read as the rows before them
did; so do columns, in every row. After rows or columns were deleted, the line
at a place reads as the line at this place did among those that are left, in their order, and the
lines behind these are blank. -/
theorem lines_of_edits (s : Sheet) :
    (∀ after, ∃ i, i = (after.elim (s.rowCount : Int) fun line =>
        min (max (line + 1) 0) s.rowCount) ∧
      (s.insertRow after).result = .ok i ∧ ∀ r c : Int,
      (s.insertRow after).sheet.cellData ⟨r, c⟩ =
        if r < i then s.cellData ⟨r, c⟩ else if r = i then .blank else s.cellData ⟨r - 1, c⟩) ∧
    (∀ after, ∃ i, i = (after.elim s.columnCount fun line =>
        min (max (line + 1) 0) s.columnCount) ∧
      (s.insertColumn after).result = .ok i ∧ ∀ r c : Int,
      (s.insertColumn after).sheet.cellData ⟨r, c⟩ =
        if c < i then s.cellData ⟨r, c⟩ else if c = i then .blank else s.cellData ⟨r, c - 1⟩) ∧
    (∀ indices n, (s.deleteRows indices).result = .ok n → ∃ left : List Nat,
      left.Pairwise (· < ·) ∧ (∀ k, k ∈ left ↔ k < s.rowCount ∧ (k : Int) ∉ indices) ∧
      ∀ (j : Nat) (c : Int), (s.deleteRows indices).sheet.cellData ⟨j, c⟩ =
        left[j]?.elim .blank fun k => s.cellData ⟨k, c⟩) ∧
    ∀ indices n, (s.deleteColumns indices).result = .ok n → ∃ left : List Nat,
      left.Pairwise (· < ·) ∧ (∀ k, k ∈ left ↔ (k : Int) < s.columnCount ∧ (k : Int) ∉ indices) ∧
      ∀ (r : Int) (j : Nat), (s.deleteColumns indices).sheet.cellData ⟨r, j⟩ =
        left[j]?.elim .blank fun k => s.cellData ⟨r, k⟩ := by
  refine ⟨fun after => ⟨_, insertionIndex_eq after _, rfl, cellData_insertRow s after⟩,
    fun after => ⟨_, insertionIndex_eq after _, rfl, cellData_insertColumn s after⟩,
    fun indices n h => ?_, fun indices n h => ?_⟩
  · refine ⟨remaining indices s.rowCount, pairwise_remaining _ _, fun k => ?_,
      cellData_deleteRows h⟩
    rw [mem_remaining, Int.ofNat_lt]
  · exact ⟨remaining indices s.columnCount, pairwise_remaining _ _, fun k => mem_remaining,
      cellData_deleteColumns h⟩

/-- Rows of three lengths, one of them without cells. -/
def ragged : Sheet := ⟨[[.text "a"], [], [.text "b", .bool true, .int 3]], 8, 0⟩

/-- A row goes behind the first one and a column behind the last. Indices that are out of range or
given twice delete nothing more; the first row is emptied by the deletion of two columns, and the
last one closes up. -/
theorem lines_of_edits_ragged :
    ((ragged.insertRow (some 0)).result = .ok 1 ∧ ∀ r c : Int,
      (ragged.insertRow (some 0)).sheet.cellData ⟨r, c⟩ =
        if r < 1 then ragged.cellData ⟨r, c⟩ else if r = 1 then .blank
        else ragged.cellData ⟨r - 1, c⟩) ∧
    ((ragged.insertColumn (some 99)).result = .ok 3 ∧ ∀ r c : Int,
      (ragged.insertColumn (some 99)).sheet.cellData ⟨r, c⟩ =
        if c < 3 then ragged.cellData ⟨r, c⟩ else if c = 3 then .blank
        else ragged.cellData ⟨r, c - 1⟩) ∧
    (ragged.deleteRows [1, -1, 7, 1]).result = .ok 1 ∧
    (ragged.deleteColumns [1, 0, -2, 0]).result = .ok 2 ∧
    (∃ left : List Nat, left.Pairwise (· < ·) ∧
      (∀ k, k ∈ left ↔ k < ragged.rowCount ∧ (k : Int) ∉ [1, -1, 7, 1]) ∧
      ∀ (j : Nat) (c : Int), (ragged.deleteRows [1, -1, 7, 1]).sheet.cellData ⟨j, c⟩ =
        left[j]?.elim .blank fun k => ragged.cellData ⟨k, c⟩) ∧
    ∃ left : List Nat, left.Pairwise (· < ·) ∧
      (∀ k, k ∈ left ↔ (k : Int) < ragged.columnCount ∧ (k : Int) ∉ [1, 0, -2, 0]) ∧
      ∀ (r : Int) (j : Nat), (ragged.deleteColumns [1, 0, -2, 0]).sheet.cellData ⟨r, j⟩ =
        left[j]?.elim .blank fun k => ragged.cellData ⟨r, k⟩ := by
  obtain ⟨hrow, hcolumn, hrows, hcolumns⟩ := lines_of_edits ragged
  obtain ⟨i, rfl, hresult, hcell⟩ := hrow (some 0)
  obtain ⟨j, rfl, hresult', hcell'⟩ := hcolumn (some 99)
  exact ⟨⟨hresult, hcell⟩, ⟨hresult', hcell'⟩, rfl, rfl, hrows _ 1 rfl, hcolumns _ 2 rfl⟩

end Sheet
end Worksheet
