import Worksheet.Proofs.Reindexing

/-!
Edits of one cell. Writing a value or a format first lets the rows grow to the cell and then stores
it; the growth is seen only in the number of rows and in the length of the one row. A cell is stored
bare when its format says nothing, and however it is stored it is read back as what was written.
-/
namespace Worksheet

open Sheet

/-! ### Stored cells -/

section Stored
variable {v : Value} {fields : List (String × Value)}

/-- The format of a cell is a normal form, whatever is stored. -/
theorem Cell.exists_normal (cell : Value) : ∃ f : Format, (Cell.data cell).1.format = f.normal := by
  unfold Cell.data
  split
  · exact ⟨{}, rfl⟩
  · split
    · split
      · rename_i f _
        exact ⟨f, rfl⟩
      · exact ⟨{}, rfl⟩
    · exact ⟨{}, rfl⟩

/-- What is stored is read back; only a bare value that looks like a cell itself is not. -/
theorem data_stored (f : Format) (hnull : v ≠ .null)
    (hbare : f.normal = [] → Cell.isStructured v = false) :
    Cell.data (stored v f.normal) = (⟨v, f.normal⟩, []) := by
  unfold stored
  by_cases hempty : f.normal = []
  · rw [hempty]
    exact data_of_bare hnull (hbare hempty)
  · have hformat : Cell.storedFormat (.record [("value", v), ("format", .record f.normal)]) =
        .record f.normal := rfl
    rw [if_neg (by simpa using hempty)]
    simp only [Cell.data]
    rw [if_pos (by rfl), hformat, Format.validate_normal, storedValue_of_value hnull]
    dsimp only
    rw [f.normal_usedCurrency]

theorem isStructured_stored (hbare : fields = [] → Cell.isStructured v = false) :
    Cell.isStructured (stored v fields) = false ↔ fields = [] := by
  unfold stored
  cases fields with
  | nil => simpa using hbare rfl
  | cons field fields => simp [Cell.isStructured]

end Stored

namespace Sheet

/-! ### Rows that grow -/

section Rows
variable {rows : List (List Value)} {p : Place}

theorem length_padTo (n : Nat) (row : List Value) : (padTo n row).length = max row.length n := by
  simp only [padTo, blanks, List.length_append, List.length_replicate]
  omega

theorem length_padRows (n : Nat) (rows : List (List Value)) :
    (padRows n rows).length = max rows.length n := by
  simp only [padRows, List.length_append, List.length_replicate]
  omega

theorem length_ensure (rows : List (List Value)) (p : Place) :
    (ensure rows p).length = max rows.length (p.row + 1) := by
  unfold ensure
  rw [List.length_modify, length_padRows]

theorem length_store (rows : List (List Value)) (p : Place) (cell : Value) :
    (store rows p cell).length = rows.length := List.length_modify ..

theorem line_padRows (n : Nat) (rows : List (List Value)) (r : Nat) :
    line (padRows n rows) r = line rows r := by
  unfold line
  rcases getElem?_padRows n rows r with hsame | ⟨hnone, hempty⟩
  · rw [hsame]
  · rw [hnone, hempty]
    rfl

/-- Only the row of the position grows. -/
theorem line_ensure (rows : List (List Value)) (p : Place) (r : Nat) :
    line (ensure rows p) r =
      if r = p.row then padTo (p.col + 1) (line rows r) else line rows r := by
  rw [← line_padRows (p.row + 1) rows r]
  unfold ensure line
  by_cases hr : r = p.row
  · have hheight : r < (padRows (p.row + 1) rows).length := by
      rw [length_padRows]
      omega
    rw [if_pos hr, ← hr, List.getElem?_modify_eq]
    rw [hr, List.getElem?_eq_getElem (hr ▸ hheight)]
    rfl
  · rw [if_neg hr, List.getElem?_modify_ne _ _ (Ne.symm hr)]

theorem line_store (rows : List (List Value)) (p : Place) (cell : Value) (r : Nat) :
    line (store rows p cell) r =
      if r = p.row then (line rows r).set p.col cell else line rows r := by
  unfold store line
  by_cases hr : r = p.row
  · rw [if_pos hr, hr, List.getElem?_modify_eq]
    cases rows[p.row]? with
    | none => rfl
    | some row => rfl
  · rw [if_neg hr, List.getElem?_modify_ne _ _ (Ne.symm hr)]

theorem exists_place {c : Coord} (hrow : 0 ≤ c.row) (hcol : 0 ≤ c.col) :
    ∃ p : Place, c = ⟨p.row, p.col⟩ := by
  obtain ⟨row, col⟩ := c
  dsimp only at hrow hcol
  refine ⟨⟨row.toNat, col.toNat⟩, ?_⟩
  rw [Int.toNat_of_nonneg hrow, Int.toNat_of_nonneg hcol]

theorem cell?_cast (s : Sheet) (p : Place) : s.cell? ⟨p.row, p.col⟩ = cellAt s.rows p := by
  unfold cell?
  rw [if_neg (by simp)]
  rfl

end Rows

/-! ### Edits -/

/-- A sheet after an edit that counted and changed one cell, to which its row may have grown. -/
structure ChangedAt (s s' : Sheet) (c : Coord) : Prop where
  elsewhere : ∀ d, d ≠ c → s'.cellData d = s.cellData d
  rowCount_eq : (s'.rowCount : Int) = max (s.rowCount : Int) (c.row + 1)
  length_eq : ∀ r : Nat, r ≠ c.row → (line s'.rows r).length = (line s.rows r).length
  length_row_eq : ∀ r : Nat, r = c.row →
    ((line s'.rows r).length : Int) = max ((line s.rows r).length : Int) (c.col + 1)
  defaultColumns_eq : s'.defaultColumns = s.defaultColumns
  revision_eq : s'.revision = s.revision + 1

section Edits
variable {s : Sheet} {p : Place} {v : Value} {fields : List (String × Value)}

theorem changedAt_store (s : Sheet) (p : Place) (cell : Value) :
    ChangedAt s (s.touched (store (ensure s.rows p) p cell)) ⟨p.row, p.col⟩ := by
  refine ⟨fun d hd => ?_, ?_, fun r hr => ?_, fun r hr => ?_, rfl, rfl⟩
  · exact cellData_congr fun q hq => readAt_store_ensure (place_ne hd hq (place?_cast p))
  · have hlength : (s.touched (store (ensure s.rows p) p cell)).rowCount =
        max s.rowCount (p.row + 1) := (length_store _ p cell).trans (length_ensure s.rows p)
    dsimp only
    omega
  · have hne : r ≠ p.row := by
      dsimp only at hr
      omega
    show (line (store (ensure s.rows p) p cell) r).length = _
    rw [line_store, if_neg hne, line_ensure, if_neg hne]
  · have heq : r = p.row := by
      dsimp only at hr
      omega
    have hlength : (line (store (ensure s.rows p) p cell) r).length =
        max (line s.rows r).length (p.col + 1) := by
      rw [line_store, if_pos heq, List.length_set, line_ensure, if_pos heq, length_padTo]
    show ((line (store (ensure s.rows p) p cell) r).length : Int) =
      max ((line s.rows r).length : Int) (p.col + 1)
    omega

/-- A sheet in which a value with a format was stored at a position. -/
theorem cell?_store (s : Sheet) (p : Place) (cell : Value) :
    (s.touched (store (ensure s.rows p) p cell)).cell? ⟨p.row, p.col⟩ = some cell := by
  rw [cell?_cast]
  exact cellAt_store_self (isSome_ensure s.rows p)

/-- Growth does not change what a cell makes of a value. -/
theorem withValue_ensure (hformat : s.formatProblems ⟨p.row, p.col⟩ = []) (q : Place) (v : Value) :
    Cell.withValue (storedAt (ensure s.rows q) p) v =
      .ok (stored v (s.cellFormat ⟨p.row, p.col⟩)) := by
  have hdata : Cell.data (storedAt (ensure s.rows q) p) =
      (s.cellData ⟨p.row, p.col⟩, s.formatProblems ⟨p.row, p.col⟩) := by
    rw [← readAt_eq_of_place? (place?_cast p) s]
    exact readAt_ensure s.rows q p
  rw [withValue_eq, hdata, if_pos hformat]
  rfl

theorem setValue_eq (hformat : s.formatProblems ⟨p.row, p.col⟩ = []) (v : Value) :
    s.setValue ⟨p.row, p.col⟩ v =
      ⟨s.touched (store (ensure s.rows p) p (stored v (s.cellFormat ⟨p.row, p.col⟩))), .ok (),
        []⟩ := by
  unfold setValue
  rw [place?_cast]
  dsimp only
  rw [withValue_ensure hformat p v]

theorem setFormat_eq (p : Place) {format : Value} (h : Format.normalize format = .ok fields) :
    s.setFormat ⟨p.row, p.col⟩ format =
      ⟨s.touched (store (ensure s.rows p) p (stored (s.rawCell ⟨p.row, p.col⟩) fields)), .ok (),
        s.readEvents ⟨p.row, p.col⟩⟩ := by
  obtain ⟨f, rfl⟩ := Format.exists_of_normalize h
  unfold setFormat
  rw [h, place?_cast]
  dsimp only
  rw [build_normal]

/-- A cell that is stored with what it reads as, bare just when its format says nothing. -/
structure StoredAs (s : Sheet) (c : Coord) (data : CellData) : Prop where
  cellData_eq : s.cellData c = data
  cell?_eq : s.cell? c = some (stored data.value data.format)
  bare_iff : Cell.isStructured (stored data.value data.format) = false ↔ data.format = []

theorem storedAs_store (s : Sheet) (p : Place) (f : Format) (hnull : v ≠ .null)
    (hbare : f.normal = [] → Cell.isStructured v = false) :
    StoredAs (s.touched (store (ensure s.rows p) p (stored v f.normal))) ⟨p.row, p.col⟩
      ⟨v, f.normal⟩ := by
  refine ⟨?_, cell?_store s p _, isStructured_stored hbare⟩
  unfold cellData
  rw [cell?_store, Option.getD_some, data_stored f hnull hbare]

end Edits

/-- An edit of one cell is done and seen there only. Writing a value keeps the format of the cell if
that is valid; giving a format keeps the value, which is a scalar in any sheet that is made of
cells, so that it does not look like a cell once it stands bare. -/
theorem edits_of_one_cell (s : Sheet) (c : Coord) (hrow : 0 ≤ c.row) (hcol : 0 ≤ c.col) :
    (∀ v, v ≠ .null → Cell.isStructured v = false → s.formatProblems c = [] →
      let edited := s.setValue c v
      edited.result = .ok () ∧ ChangedAt s edited.sheet c ∧
        StoredAs edited.sheet c ⟨v, s.cellFormat c⟩) ∧
    ∀ format fields, Format.normalize format = .ok fields →
      let edited := s.setFormat c format
      edited.result = .ok () ∧ ChangedAt s edited.sheet c ∧
        ((fields = [] → Cell.isStructured (s.rawCell c) = false) →
          StoredAs edited.sheet c ⟨s.rawCell c, fields⟩) := by
  obtain ⟨p, rfl⟩ := exists_place hrow hcol
  refine ⟨fun v hnull hbare hproblems => ?_, fun format fields hfields => ?_⟩
  · obtain ⟨f, hf⟩ : ∃ f : Format, s.cellFormat ⟨p.row, p.col⟩ = f.normal := Cell.exists_normal _
    intro edited
    have hedited : edited = _ := setValue_eq hproblems v
    rw [hedited, hf]
    exact ⟨rfl, changedAt_store s p _, storedAs_store s p f hnull fun _ => hbare⟩
  · obtain ⟨f, rfl⟩ := Format.exists_of_normalize hfields
    intro edited
    have hedited : edited = _ := setFormat_eq p hfields
    rw [hedited]
    exact ⟨rfl, changedAt_store s p _, fun hbare =>
      storedAs_store s p f (rawCell_ne_null s _) hbare⟩

/-- A row of one cell above one whose format says more than it needs to. -/
def patchy : Sheet :=
  ⟨[[.text "a"],
    [.record [("value", .int 1),
      ("format", .record [("bold", .bool true), ("italic", .bool false)])]]], 8, 4⟩

/-- A text takes the place of the number and keeps what the format says; without a format the number
stands bare. A cell far out is written the same. -/
theorem edits_of_one_cell_patchy :
    let written := patchy.setValue ⟨1, 0⟩ (.text "b")
    let cleared := patchy.setFormat ⟨1, 0⟩ .null
    let far := patchy.setValue ⟨3, 1⟩ (.float 0)
    StoredAs written.sheet ⟨1, 0⟩ ⟨.text "b", [("bold", .bool true)]⟩ ∧
      StoredAs cleared.sheet ⟨1, 0⟩ ⟨.int 1, []⟩ ∧
      far.sheet.rowCount = 4 ∧ StoredAs far.sheet ⟨3, 1⟩ ⟨.float 0, []⟩ := by
  intro written cleared far
  have hproblems : patchy.formatProblems ⟨1, 0⟩ = [] := by rfl
  have hfar : patchy.formatProblems ⟨3, 1⟩ = [] := by rfl
  obtain ⟨hvalue, hformat⟩ := edits_of_one_cell patchy ⟨1, 0⟩ (by decide) (by decide)
  obtain ⟨-, -, hwritten⟩ := hvalue (.text "b") nofun rfl hproblems
  obtain ⟨-, -, hcleared⟩ := hformat .null [] rfl
  obtain ⟨hout, -⟩ := edits_of_one_cell patchy ⟨3, 1⟩ (by decide) (by decide)
  obtain ⟨-, hchanged, hwide⟩ := hout (.float 0) nofun rfl hfar
  have hrows : (far.sheet.rowCount : Int) = max 2 (3 + 1) := hchanged.rowCount_eq
  refine ⟨hwritten, hcleared fun _ => rfl, ?_, hwide⟩
  omega

end Sheet

end Worksheet
