import Worksheet.Sheet.Edit

/-!
Cells in rows that grow. Rows grow by blank cells only, a position that has a cell needs no growth,
and a cell that is written leaves all others as they are.
-/
namespace Worksheet.Sheet

variable {rows : List (List Value)} {p q : Place}

/-- The cell of some rows at a position, if they have one. -/
def cellAt (rows : List (List Value)) (p : Place) : Option Value :=
  rows[p.row]?.bind fun row => row[p.col]?

theorem storedAt_eq_getD (rows : List (List Value)) (p : Place) :
    storedAt rows p = (cellAt rows p).getD .null := rfl

theorem getElem?_padTo (n : Nat) (row : List Value) (k : Nat) :
    (padTo n row)[k]? = row[k]? ∨ row[k]? = none ∧ (padTo n row)[k]? = some (.text "") := by
  unfold padTo blanks
  by_cases hk : k < row.length
  · exact .inl (List.getElem?_append_left hk)
  · have hnone : row[k]? = none := List.getElem?_eq_none (Nat.le_of_not_lt hk)
    rw [List.getElem?_append_right (Nat.le_of_not_lt hk), List.getElem?_replicate, hnone]
    split
    · exact .inr ⟨rfl, rfl⟩
    · exact .inl rfl

theorem getElem?_padRows (n : Nat) (rows : List (List Value)) (r : Nat) :
    (padRows n rows)[r]? = rows[r]? ∨ rows[r]? = none ∧ (padRows n rows)[r]? = some [] := by
  unfold padRows
  by_cases hr : r < rows.length
  · exact .inl (List.getElem?_append_left hr)
  · have hnone : rows[r]? = none := List.getElem?_eq_none (Nat.le_of_not_lt hr)
    rw [List.getElem?_append_right (Nat.le_of_not_lt hr), List.getElem?_replicate, hnone]
    split
    · exact .inr ⟨rfl, rfl⟩
    · exact .inl rfl

theorem cellAt_padRows (n : Nat) (rows : List (List Value)) (q : Place) :
    cellAt (padRows n rows) q = cellAt rows q := by
  unfold cellAt
  rcases getElem?_padRows n rows q.row with h | ⟨hnone, h⟩
  · rw [h]
  · rw [h, hnone]
    rfl

/-- Growth adds blank cells and leaves all others as they are. -/
theorem cellAt_ensure (rows : List (List Value)) (p q : Place) :
    cellAt (ensure rows p) q = cellAt rows q ∨
      cellAt rows q = none ∧ cellAt (ensure rows p) q = some (.text "") := by
  rw [← cellAt_padRows (p.row + 1) rows q]
  unfold ensure cellAt
  by_cases hrow : p.row = q.row
  · rw [hrow, List.getElem?_modify_eq]
    cases hfound : (padRows (q.row + 1) rows)[q.row]? with
    | none => exact .inl rfl
    | some row => exact getElem?_padTo (p.col + 1) row q.col
  · rw [List.getElem?_modify_ne _ _ hrow]
    exact .inl rfl

theorem ensure_of_isSome (h : (cellAt rows p).isSome = true) : ensure rows p = rows := by
  obtain ⟨cell, hcell⟩ := Option.isSome_iff_exists.mp h
  obtain ⟨row, hrow, hcol⟩ := Option.bind_eq_some_iff.mp hcell
  have hheight : p.row < rows.length := (List.getElem?_eq_some_iff.mp hrow).1
  have hwidth : p.col < row.length := (List.getElem?_eq_some_iff.mp hcol).1
  have hrows : padRows (p.row + 1) rows = rows := by
    unfold padRows
    rw [Nat.sub_eq_zero_of_le hheight, List.replicate_zero, List.append_nil]
  have hpad : padTo (p.col + 1) row = row := by
    unfold padTo blanks
    rw [Nat.sub_eq_zero_of_le hwidth, List.replicate_zero, List.append_nil]
  unfold ensure
  rw [hrows]
  refine List.ext_getElem? fun r => ?_
  by_cases hr : p.row = r
  · rw [← hr, List.getElem?_modify_eq, hrow, Option.map_eq_map, Option.map_some, hpad]
  · rw [List.getElem?_modify_ne _ _ hr]

theorem place_eq (hrow : p.row = q.row) (hcol : p.col = q.col) : p = q := by
  cases p
  cases q
  cases hrow
  cases hcol
  rfl

theorem cellAt_store (rows : List (List Value)) (cell : Value) (h : q ≠ p) :
    cellAt (store rows p cell) q = cellAt rows q := by
  unfold store cellAt
  by_cases hrow : p.row = q.row
  · have hcol : p.col ≠ q.col := fun hcol => h (place_eq hrow.symm hcol.symm)
    rw [hrow, List.getElem?_modify_eq]
    cases hfound : rows[q.row]? with
    | none => rfl
    | some row => exact List.getElem?_set_ne hcol
  · rw [List.getElem?_modify_ne _ _ hrow]

/-! ### Reading cells -/

/-- What a position holds, and the problems of its format. -/
def readAt (rows : List (List Value)) (p : Place) : CellData × List FieldProblem :=
  Cell.data (storedAt rows p)

/-- Growth is not seen when cells are read. -/
theorem readAt_ensure (rows : List (List Value)) (p q : Place) :
    readAt (ensure rows p) q = readAt rows q := by
  unfold readAt
  rw [storedAt_eq_getD, storedAt_eq_getD]
  rcases cellAt_ensure rows p q with hsame | ⟨hnone, hblank⟩
  · rw [hsame]
  · rw [hnone, hblank]
    rfl

theorem readAt_store (rows : List (List Value)) (cell : Value) (h : q ≠ p) :
    readAt (store rows p cell) q = readAt rows q := by
  unfold readAt
  rw [storedAt_eq_getD, cellAt_store rows cell h, storedAt_eq_getD]

/-- A format that is not valid is that of a cell that is there. -/
theorem isSome_of_problems (h : (readAt rows p).2 ≠ []) : (cellAt rows p).isSome = true := by
  unfold readAt at h
  rw [storedAt_eq_getD] at h
  cases hcell : cellAt rows p with
  | some cell => rfl
  | none =>
    rw [hcell] at h
    exact absurd rfl h

theorem data_cell? (s : Sheet) {c : Coord} (h : place? c = some p) :
    Cell.data ((s.cell? c).getD .null) = readAt s.rows p := by
  unfold place? at h
  split at h
  · cases h
  · rename_i hnonneg
    cases h
    unfold cell?
    rw [if_neg hnonneg]
    rfl

theorem cell?_of_place?_eq_none (s : Sheet) {c : Coord} (h : place? c = none) :
    s.cell? c = none := by
  unfold place? at h
  split at h
  · rename_i hnegative
    exact if_pos hnegative
  · cases h

theorem exists_row_of_cell? {s : Sheet} {c : Coord} {cell : Value} (h : s.cell? c = some cell) :
    ∃ row ∈ s.rows, cell ∈ row := by
  unfold cell? at h
  split at h
  · cases h
  · obtain ⟨row, hrow, hcell⟩ := Option.bind_eq_some_iff.mp h
    exact ⟨row, List.mem_of_getElem? hrow, List.mem_of_getElem? hcell⟩

/-- Positions that are read alike hold the same. -/
theorem data_congr {s s' : Sheet} {c : Coord}
    (h : ∀ p, place? c = some p → readAt s'.rows p = readAt s.rows p) :
    Cell.data ((s'.cell? c).getD .null) = Cell.data ((s.cell? c).getD .null) := by
  cases hplace : place? c with
  | none => rw [cell?_of_place?_eq_none _ hplace, cell?_of_place?_eq_none _ hplace]
  | some p => rw [data_cell? _ hplace, data_cell? _ hplace, h p hplace]

theorem cellData_congr {s s' : Sheet} {c : Coord}
    (h : ∀ p, place? c = some p → readAt s'.rows p = readAt s.rows p) :
    s'.cellData c = s.cellData c := congrArg Prod.fst (data_congr h)

/-! ### Edits of one cell -/

theorem eq_of_place? {c d : Coord} (hc : place? c = some p) (hd : place? d = some p) : c = d := by
  obtain ⟨row, col⟩ := c
  obtain ⟨row', col'⟩ := d
  unfold place? at hc hd
  split at hc
  · cases hc
  · split at hd
    · cases hd
    · simp only [Bool.or_eq_true, decide_eq_true_eq, not_or, Option.some.injEq, Coord.mk.injEq] at *
      subst hc
      simp only [Place.mk.injEq] at hd
      omega

/-- A position to which rows have grown has a cell. -/
theorem isSome_ensure (rows : List (List Value)) (p : Place) :
    (cellAt (ensure rows p) p).isSome = true := by
  have hheight : p.row < (padRows (p.row + 1) rows).length := by
    unfold padRows
    rw [List.length_append, List.length_replicate]
    omega
  unfold ensure cellAt
  rw [List.getElem?_modify_eq, List.getElem?_eq_getElem hheight]
  change (padTo (p.col + 1) _)[p.col]?.isSome = true
  rw [isSome_getElem?]
  unfold padTo blanks
  rw [List.length_append, List.length_replicate]
  omega

theorem cellAt_store_self {cell : Value} (h : (cellAt rows p).isSome = true) :
    cellAt (store rows p cell) p = some cell := by
  obtain ⟨old, hold⟩ := Option.isSome_iff_exists.mp h
  obtain ⟨row, hrow, hcol⟩ := Option.bind_eq_some_iff.mp hold
  have hwidth : p.col < row.length := (List.getElem?_eq_some_iff.mp hcol).1
  unfold cellAt store
  rw [List.getElem?_modify_eq, hrow]
  exact List.getElem?_set_self hwidth

theorem readAt_store_self {cell : Value} (h : (cellAt rows p).isSome = true) :
    readAt (store rows p cell) p = Cell.data cell := by
  unfold readAt
  rw [storedAt_eq_getD, cellAt_store_self h]
  rfl

theorem place_ne {c d : Coord} {p q : Place} (h : c ≠ d) (hc : place? c = some q)
    (hd : place? d = some p) : q ≠ p := by
  rintro rfl
  exact h (eq_of_place? hc hd)

theorem readAt_store_ensure {q : Place} {cell : Value} (h : q ≠ p) :
    readAt (store (ensure rows p) p cell) q = readAt rows q :=
  (readAt_store _ _ h).trans (readAt_ensure rows p q)

section OneCell
variable {s : Sheet} {c d : Coord} {value format : Value}

/-- Writing a value leaves all other cells as they are. -/
theorem cellData_setValue (h : c ≠ d) : (s.setValue d value).sheet.cellData c = s.cellData c := by
  refine cellData_congr fun q hq => ?_
  unfold setValue
  cases hplace : place? d with
  | none => rfl
  | some p =>
    dsimp only
    split
    · exact readAt_ensure s.rows p q
    · exact readAt_store_ensure (place_ne h hq hplace)

/-- So does giving a format. -/
theorem cellData_setFormat (h : c ≠ d) :
    (s.setFormat d format).sheet.cellData c = s.cellData c := by
  refine cellData_congr fun q hq => ?_
  unfold setFormat
  split
  · rfl
  · cases hplace : place? d with
    | none => rfl
    | some p =>
      dsimp only
      split
      · exact readAt_ensure s.rows p q
      · exact readAt_store_ensure (place_ne h hq hplace)

/-- A cell without a value reads as empty text. -/
theorem rawCell_ne_null (s : Sheet) (c : Coord) : s.rawCell c ≠ .null := by
  have hstored (cell : Value) : Cell.storedValue cell ≠ .null := by
    unfold Cell.storedValue
    split
    · exact nofun
    · assumption
  unfold rawCell cellData Cell.data
  split
  · exact nofun
  · rename_i hcell
    split
    · split
      · exact hstored _
      · exact hstored _
    · exact hcell

theorem data_of_bare {v : Value} (hnull : v ≠ .null) (hbare : Cell.isStructured v = false) :
    Cell.data v = (⟨v, []⟩, []) := by
  unfold Cell.data
  split
  · exact absurd rfl hnull
  · rw [if_neg (by rw [hbare]; exact Bool.false_ne_true)]

theorem storedValue_of_value {v : Value} (hnull : v ≠ .null) (format : Value) :
    Cell.storedValue (.record [("value", v), ("format", format)]) = v := by
  cases v with
  | null => exact absurd rfl hnull
  | _ => rfl

/-- The value of a cell that was built, unless it looks like a cell itself. -/
theorem value_of_build {v cell : Value} (hbuild : Cell.build v format = .ok cell)
    (hnull : v ≠ .null) (hbare : Cell.isStructured v = false) : (Cell.data cell).1.value = v := by
  unfold Cell.build at hbuild
  cases hfields : Format.normalize format with
  | error f =>
    rw [hfields] at hbuild
    cases hbuild
  | ok fields =>
    rw [hfields] at hbuild
    change Except.ok (if fields.isEmpty then v else _) = _ at hbuild
    split at hbuild
    · cases hbuild
      rw [data_of_bare hnull hbare]
    · cases hbuild
      simp only [Cell.data]
      rw [if_pos (by rfl)]
      split
      · exact storedValue_of_value hnull _
      · exact storedValue_of_value hnull _

/-- A format changes no value, unless one looks like a cell itself. -/
theorem rawCell_setFormat (h : Cell.isStructured (s.rawCell d) = false) (c : Coord) :
    (s.setFormat d format).sheet.rawCell c = s.rawCell c := by
  by_cases hc : c = d
  · subst hc
    cases hplace : place? c with
    | none =>
      unfold rawCell cellData
      rw [cell?_of_place?_eq_none _ hplace, cell?_of_place?_eq_none _ hplace]
    | some p =>
      have hrows : ∀ s : Sheet, s.rawCell c = (readAt s.rows p).1.value := fun s =>
        congrArg (fun data => data.1.value) (data_cell? s hplace)
      unfold setFormat
      split
      · rfl
      · rw [hplace]
        dsimp only
        split
        · rw [hrows, hrows s, readAt_ensure]
        · rename_i cell hbuild
          rw [hrows]
          change (readAt (store (ensure s.rows p) p cell) p).1.value = _
          rw [readAt_store_self (isSome_ensure s.rows p),
            value_of_build hbuild (rawCell_ne_null s c) h]
  · exact congrArg CellData.value (cellData_setFormat hc)

end OneCell

end Worksheet.Sheet
