import Worksheet.Proofs.ClipboardGrids
import Worksheet.Proofs.PointEdits

/-!
Pasted blocks. A paste grows each row of its block at once and then writes the row from left to
right; edits of the single cells grow the row cell by cell. The cells behind the one that is written
are blank until their turn comes, so that it does not matter when they are added, and both leave
the same rows.
-/
namespace Worksheet.Sheet

/-! ### Growth and writing -/

section Growth
variable {row : List Value} {rows rows' : List (List Value)} {p : Place}

theorem padTo_padTo {k n : Nat} (h : k ≤ n) (row : List Value) :
    padTo n (padTo k row) = padTo n row := by
  have hsum : k - row.length + (n - max row.length k) = n - row.length := by omega
  have hlength := length_padTo k row
  unfold padTo blanks at hlength ⊢
  rw [hlength, List.append_assoc, List.replicate_append_replicate, hsum]

theorem padTo_set {k : Nat} (h : k < row.length) (n : Nat) (cell : Value) :
    padTo n (row.set k cell) = (padTo n row).set k cell := by
  unfold padTo
  rw [List.length_set, List.set_append_left k cell h]

theorem ext_line (hlength : rows'.length = rows.length)
    (hline : ∀ r, line rows' r = line rows r) : rows' = rows := by
  apply List.ext_getElem hlength
  intro r hr hr'
  have hsame := hline r
  unfold line at hsame
  rw [List.getElem?_eq_getElem hr, List.getElem?_eq_getElem hr'] at hsame
  exact hsame

/-- A row may grow to its last cell before or after one of its cells is written. -/
theorem store_ensure {k : Nat} (h : p.col ≤ k) (rows : List (List Value)) (cell : Value) :
    store (ensure rows ⟨p.row, k⟩) p cell =
      ensure (store (ensure rows p) p cell) ⟨p.row, k⟩ := by
  apply ext_line
  · simp only [length_store, length_ensure]
    omega
  · intro r
    rw [line_store, line_ensure, line_ensure, line_store, line_ensure]
    by_cases hr : r = p.row
    · have hwidth : p.col < (padTo (p.col + 1) (line rows r)).length := by
        rw [length_padTo]
        omega
      simp only [if_pos hr]
      rw [padTo_set hwidth, padTo_padTo (by omega)]
    · simp only [if_neg hr]

end Growth

/-! ### Texts written one after the other -/

/-- Texts for some cells, as edits of one cell each. -/
def textEdits (texts : List (Coord × String)) : List Mutation :=
  texts.map fun entry => .setValue entry.1 (.text entry.2)

/-- Every format that is stored is valid. -/
def WellFormatted (s : Sheet) : Prop := ∀ c, s.formatProblems c = []

section Texts
variable {s s' : Sheet} {c d : Coord} {text : String} {texts : List (Coord × String)}

theorem wellFormatted_of_stored (h : ∀ row ∈ s.rows, ∀ cell ∈ row, (Cell.data cell).2 = []) :
    s.WellFormatted := by
  intro c
  unfold formatProblems
  cases hcell : s.cell? c with
  | none => rfl
  | some cell =>
    obtain ⟨row, hrow, hmem⟩ := exists_row_of_cell? hcell
    exact h row hrow cell hmem

theorem performAll_append (ms ms' : List Mutation) (s : Sheet) :
    performAll (ms ++ ms') s =
      ((performAll ms s).1 ++ (performAll ms' (performAll ms s).2).1,
        (performAll ms' (performAll ms s).2).2) := by
  induction ms generalizing s with
  | nil => rfl
  | cons m rest ih =>
    show (_ :: (performAll (rest ++ ms') _).1, (performAll (rest ++ ms') _).2) = _
    rw [ih]
    rfl

/-- A text is taken by its cell in place of the old value, and is seen nowhere else. -/
theorem data_setText (hs : s.WellFormatted) (hrow : 0 ≤ c.row) (hcol : 0 ≤ c.col) (text : String)
    (d : Coord) :
    let s' := (s.setValue c (.text text)).sheet
    Cell.data ((s'.cell? d).getD .null) =
      (if d = c then ⟨.text text, s.cellFormat c⟩ else s.cellData d, []) := by
  obtain ⟨p, rfl⟩ := exists_place hrow hcol
  obtain ⟨f, hf⟩ : ∃ f : Format, s.cellFormat ⟨p.row, p.col⟩ = f.normal := Cell.exists_normal _
  intro s'
  have hs' : s' = s.touched (store (ensure s.rows p) p (stored (.text text) f.normal)) := by
    rw [← hf]
    exact congrArg Edited.sheet (setValue_eq (hs _) (.text text))
  by_cases hd : d = ⟨p.row, p.col⟩
  · have hnull : Value.text text ≠ .null := nofun
    rw [if_pos hd, hs', hd, cell?_store, Option.getD_some, data_stored f hnull fun _ => rfl, hf]
  · have hread : Cell.data ((s'.cell? d).getD .null) = Cell.data ((s.cell? d).getD .null) := by
      rw [hs']
      exact data_congr fun q hq => readAt_store_ensure (place_ne hd hq (place?_cast p))
    rw [if_neg hd, hread]
    exact congrArg (Prod.mk (s.cellData d)) (hs d)

theorem wellFormatted_setText (hs : s.WellFormatted) (hrow : 0 ≤ c.row) (hcol : 0 ≤ c.col)
    (text : String) : (s.setValue c (.text text)).sheet.WellFormatted := fun d =>
  congrArg Prod.snd (data_setText hs hrow hcol text d)

theorem cellData_setText (hs : s.WellFormatted) (hrow : 0 ≤ c.row) (hcol : 0 ≤ c.col)
    (text : String) (d : Coord) : (s.setValue c (.text text)).sheet.cellData d =
      if d = c then ⟨.text text, s.cellFormat c⟩ else s.cellData d :=
  congrArg Prod.fst (data_setText hs hrow hcol text d)

theorem cellFormat_setText (hs : s.WellFormatted) (hrow : 0 ≤ c.row) (hcol : 0 ≤ c.col)
    (text : String) (d : Coord) :
    (s.setValue c (.text text)).sheet.cellFormat d = s.cellFormat d := by
  unfold cellFormat
  rw [cellData_setText hs hrow hcol]
  by_cases hd : d = c
  · rw [if_pos hd, hd]
    rfl
  · rw [if_neg hd]

theorem perform_setText (hs : s.WellFormatted) (hrow : 0 ≤ c.row) (hcol : 0 ≤ c.col)
    (text : String) :
    ((Mutation.setValue c (.text text)).perform s).result = .ok .nothing ∧
      (s.setValue c (.text text)).sheet.defaultColumns = s.defaultColumns := by
  obtain ⟨p, rfl⟩ := exists_place hrow hcol
  show (s.setValue _ _).result.map _ = _ ∧ _
  rw [setValue_eq (hs _)]
  exact ⟨rfl, rfl⟩

/-- What texts for some cells leave of a sheet. -/
structure Took (s s' : Sheet) (texts : List (Coord × String)) : Prop where
  wellFormatted : s'.WellFormatted
  defaultColumns_eq : s'.defaultColumns = s.defaultColumns
  elsewhere : ∀ d, (∀ entry ∈ texts, entry.1 ≠ d) → s'.cellData d = s.cellData d
  there : ∀ d text, (d, text) ∈ texts → (∀ other, (d, other) ∈ texts → other = text) →
    s'.cellData d = ⟨.text text, s.cellFormat d⟩

/-- A text that is taken before others. -/
theorem Took.cons (hs : s.WellFormatted) (hrow : 0 ≤ c.row) (hcol : 0 ≤ c.col)
    (h : Took (s.setValue c (.text text)).sheet s' texts) : Took s s' ((c, text) :: texts) := by
  obtain ⟨-, hcolumns⟩ := perform_setText hs hrow hcol text
  have hdata := cellData_setText hs hrow hcol text
  have hformat := cellFormat_setText hs hrow hcol text
  refine ⟨h.wellFormatted, h.defaultColumns_eq.trans hcolumns, ?_, ?_⟩
  · intro d hd
    have hne : d ≠ c := (hd _ List.mem_cons_self).symm
    rw [h.elsewhere d fun other hother => hd other (List.mem_cons_of_mem _ hother), hdata,
      if_neg hne]
  · intro d value hd hsame
    by_cases hagain : ∃ other, (d, other) ∈ texts
    · obtain ⟨other, hother⟩ := hagain
      -- the last text for a cell counts, and all of them are the same
      have heq : other = value := hsame other (List.mem_cons_of_mem _ hother)
      rw [h.there d value (heq ▸ hother) fun another hanother =>
        hsame another (List.mem_cons_of_mem _ hanother), hformat]
    · rcases List.mem_cons.mp hd with heq | hrest
      · cases heq
        rw [h.elsewhere c fun other hother heq => hagain ⟨other.2, heq ▸ hother⟩, hdata,
          if_pos rfl]
      · exact absurd ⟨value, hrest⟩ hagain

/-- Texts for cells are all taken where every format is valid. -/
theorem took_textEdits (hs : s.WellFormatted)
    (htexts : ∀ entry ∈ texts, 0 ≤ entry.1.row ∧ 0 ≤ entry.1.col) :
    (∀ result ∈ (performAll (textEdits texts) s).1, result = .ok .nothing) ∧
      Took s (performAll (textEdits texts) s).2 texts := by
  induction texts generalizing s with
  | nil => exact ⟨nofun, hs, rfl, fun d _ => rfl, nofun⟩
  | cons entry rest ih =>
    obtain ⟨c, text⟩ := entry
    obtain ⟨hrow, hcol⟩ := htexts (c, text) List.mem_cons_self
    obtain ⟨hresult, -⟩ := perform_setText hs hrow hcol text
    obtain ⟨hresults, htook⟩ := ih (wellFormatted_setText hs hrow hcol text) fun other hother =>
      htexts other (List.mem_cons_of_mem _ hother)
    exact ⟨List.forall_mem_cons.mpr ⟨hresult, hresults⟩, htook.cons hs hrow hcol⟩

end Texts

/-! ### Blocks -/

/-- The cells of a row that begins at a position, each with its text. -/
def rowTexts (c : Coord) (cells : List String) : List (Coord × String) :=
  cells.mapIdx fun j text => (⟨c.row, c.col + j⟩, text)

/-- The cells of a block from its first one on, row by row, each with its text. -/
def blockTexts (c : Coord) (grid : List (List String)) : List (Coord × String) :=
  (grid.mapIdx fun i cells => rowTexts ⟨c.row + i, c.col⟩ cells).flatten

section Blocks
variable {s : Sheet} {c d : Coord} {p : Place} {text : String} {cells : List String}
  {grid : List (List String)}

theorem mem_blockTexts : (d, text) ∈ blockTexts c grid ↔
    ∃ i j cells, grid[i]? = some cells ∧ cells[j]? = some text ∧
      d = ⟨c.row + (i : Nat), c.col + (j : Nat)⟩ := by
  unfold blockTexts rowTexts
  simp only [List.mem_flatten, List.mem_mapIdx]
  constructor
  · rintro ⟨_, ⟨i, hi, rfl⟩, hd⟩
    obtain ⟨j, hj, heq⟩ := List.mem_mapIdx.mp hd
    cases heq
    exact ⟨i, j, grid[i], List.getElem?_eq_getElem hi, List.getElem?_eq_getElem hj, rfl⟩
  · rintro ⟨i, j, cells, hcells, htext, rfl⟩
    obtain ⟨hi, rfl⟩ := List.getElem?_eq_some_iff.mp hcells
    obtain ⟨hj, rfl⟩ := List.getElem?_eq_some_iff.mp htext
    exact ⟨_, ⟨i, hi, rfl⟩, List.mem_mapIdx.mpr ⟨j, hj, rfl⟩⟩

/-- A block has one text for each of its cells. -/
theorem eq_of_mem_blockTexts {other : String} (h : (d, text) ∈ blockTexts c grid)
    (hother : (d, other) ∈ blockTexts c grid) : other = text := by
  obtain ⟨i, j, cells, hcells, htext, rfl⟩ := mem_blockTexts.mp h
  obtain ⟨i', j', cells', hcells', hother, heq⟩ := mem_blockTexts.mp hother
  have hrow : c.row + (i : Int) = c.row + i' := congrArg Coord.row heq
  have hcol : c.col + (j : Int) = c.col + j' := congrArg Coord.col heq
  obtain rfl : i = i' := by omega
  obtain rfl : j = j' := by omega
  rw [hcells, Option.some.injEq] at hcells'
  rw [← hcells', htext, Option.some.injEq] at hother
  exact hother.symm

theorem rowTexts_cons (c : Coord) (text : String) (cells : List String) :
    rowTexts c (text :: cells) = (c, text) :: rowTexts ⟨c.row, c.col + 1⟩ cells := by
  have hshift (j : Nat) : c.col + (j + 1 : Nat) = c.col + 1 + j := by omega
  unfold rowTexts
  rw [List.mapIdx_cons]
  simp only [hshift, Int.natCast_zero, Int.add_zero]

theorem blockTexts_cons (c : Coord) (cells : List String) (grid : List (List String)) :
    blockTexts c (cells :: grid) = rowTexts c cells ++ blockTexts ⟨c.row + 1, c.col⟩ grid := by
  have hshift (i : Nat) : c.row + (i + 1 : Nat) = c.row + 1 + i := by omega
  unfold blockTexts
  rw [List.mapIdx_cons, List.flatten_cons]
  simp only [hshift, Int.natCast_zero, Int.add_zero]

theorem nonneg_of_mem_blockTexts (hrow : 0 ≤ c.row) (hcol : 0 ≤ c.col)
    (grid : List (List String)) :
    ∀ entry ∈ blockTexts c grid, 0 ≤ entry.1.row ∧ 0 ≤ entry.1.col := by
  rintro ⟨d, text⟩ h
  obtain ⟨i, j, -, -, -, rfl⟩ := mem_blockTexts.mp h
  dsimp only
  omega

/-- A row that has grown to its last cell takes its texts as one does that grows cell by cell. -/
theorem pasteCells_eq_edits (hs : s.WellFormatted) (p : Place) (text : String)
    (rest : List String) :
    pasteCells (ensure s.rows ⟨p.row, p.col + rest.length⟩) p (text :: rest) =
      ((performAll (textEdits (rowTexts ⟨p.row, p.col⟩ (text :: rest))) s).2.rows, none) := by
  induction rest generalizing s p text with
  | nil =>
    unfold pasteCells
    rw [withValue_ensure (hs _)]
    show (store (ensure s.rows p) p _, none) =
      ((s.setValue ⟨p.row, p.col⟩ (.text text)).sheet.rows, none)
    rw [setValue_eq (hs _)]
    rfl
  | cons next rest ih =>
    have hlast : p.col + (next :: rest).length = p.col + 1 + rest.length := by
      rw [List.length_cons]
      omega
    have hvalid : (s.setValue ⟨p.row, p.col⟩ (.text text)).sheet.WellFormatted :=
      wellFormatted_setText hs (by simp) (by simp) text
    have hlater := ih hvalid ⟨p.row, p.col + 1⟩ next
    unfold pasteCells
    rw [withValue_ensure (hs _), rowTexts_cons, hlast]
    show pasteCells (store _ p _) ⟨p.row, p.col + 1⟩ (next :: rest) =
      ((performAll (textEdits (rowTexts ⟨p.row, p.col + 1⟩ (next :: rest)))
        (s.setValue ⟨p.row, p.col⟩ (.text text)).sheet).2.rows, none)
    rw [store_ensure (by omega)]
    rw [setValue_eq (hs _)] at hlater ⊢
    exact hlater

/-- Rows that are not empty are pasted as their texts are written one after the other. -/
theorem pasteRows_eq_edits (hs : s.WellFormatted) (p : Place) (hgrid : ∀ cells ∈ grid, cells ≠ []) :
    pasteRows s.rows p grid =
      ((performAll (textEdits (blockTexts ⟨p.row, p.col⟩ grid)) s).2.rows, none) := by
  induction grid generalizing s p with
  | nil => rfl
  | cons cells grid ih =>
    obtain ⟨text, rest, rfl⟩ := List.exists_cons_of_ne_nil (hgrid cells List.mem_cons_self)
    have hlast : p.col + (text :: rest).length - 1 = p.col + rest.length := by
      rw [List.length_cons]
      omega
    have hsplit := blockTexts_cons ⟨p.row, p.col⟩ (text :: rest) grid
    have hnonneg : ∀ entry ∈ rowTexts ⟨p.row, p.col⟩ (text :: rest),
        0 ≤ entry.1.row ∧ 0 ≤ entry.1.col := fun entry hentry =>
      nonneg_of_mem_blockTexts (by simp) (by simp) ((text :: rest) :: grid) entry
        (hsplit ▸ List.mem_append_left _ hentry)
    obtain ⟨-, htook⟩ := took_textEdits hs hnonneg
    unfold pasteRows
    rw [hlast, pasteCells_eq_edits hs, hsplit]
    dsimp only
    rw [ih htook.wellFormatted ⟨p.row + 1, p.col⟩ fun cells hcells =>
      hgrid cells (List.mem_cons_of_mem _ hcells)]
    unfold textEdits
    rw [List.map_append, performAll_append]
    rfl

end Blocks

/-! ### Texts from a clipboard -/

theorem isSingleCell_iff {grid : List (List String)} :
    isSingleCell grid = true ↔ ∃ value, grid = [[value]] := by
  unfold isSingleCell
  constructor
  · intro h
    split at h
    · rename_i value
      exact ⟨value, rfl⟩
    · cases h
  · rintro ⟨value, rfl⟩
    rfl

theorem paste_of_skipped {s : Sheet} {c : Coord} {text : String}
    (h : text = "" ∨ ∃ value, Clipboard.parse text = [[value]]) :
    s.paste c text = ⟨s, .ok false, []⟩ := by
  rw [← isSingleCell_iff, ← String.isEmpty_iff, ← Bool.or_eq_true] at h
  exact if_pos h

theorem paste_of_block {s : Sheet} {c : Coord} {text : String} (hs : s.WellFormatted)
    (hrow : 0 ≤ c.row) (hcol : 0 ≤ c.col)
    (h : ¬ (text = "" ∨ ∃ value, Clipboard.parse text = [[value]])) :
    s.paste c text =
      ⟨s.touched (performAll (textEdits (blockTexts c (Clipboard.parse text))) s).2.rows, .ok true,
        [pasteEvent c (Clipboard.parse text)]⟩ := by
  obtain ⟨p, rfl⟩ := exists_place hrow hcol
  rw [← isSingleCell_iff, ← String.isEmpty_iff, ← Bool.or_eq_true] at h
  unfold paste
  dsimp only
  rw [if_neg h, place?_cast]
  dsimp only
  rw [pasteRows_eq_edits hs p fun cells hcells => Clipboard.ne_nil_of_mem_parse hcells]

/-- Pasting a text is the same as writing its cells one after the other, in the order in which they
are read, but counts as one edit; a single cell is left alone. A block may be ragged and stand
anywhere: each of its cells takes its text and keeps its format, and all others read as before. -/
theorem paste_eq_edits (s : Sheet) (c : Coord) (text : String) (hs : s.WellFormatted)
    (hrow : 0 ≤ c.row) (hcol : 0 ≤ c.col) :
    let grid := Clipboard.parse text
    let pasted := s.paste c text
    let typed := performAll (textEdits (blockTexts c grid)) s
    (text = "" ∨ (∃ value, grid = [[value]]) → pasted.result = .ok false ∧ pasted.sheet = s) ∧
    (¬ (text = "" ∨ ∃ value, grid = [[value]]) →
      pasted.result = .ok true ∧
      pasted.sheet = { typed.2 with revision := s.revision + 1 } ∧
      (∀ result ∈ typed.1, result = .ok .nothing) ∧
      (∀ (i j : Nat) cells value, grid[i]? = some cells → cells[j]? = some value →
        pasted.sheet.cellData ⟨c.row + i, c.col + j⟩ =
          ⟨.text value, s.cellFormat ⟨c.row + i, c.col + j⟩⟩) ∧
      ∀ d, (∀ (i j : Nat) cells value, grid[i]? = some cells → cells[j]? = some value →
          d ≠ ⟨c.row + i, c.col + j⟩) →
        pasted.sheet.cellData d = s.cellData d) := by
  intro grid pasted typed
  have hgrid : Clipboard.parse text = grid := rfl
  have hpaste : s.paste c text = pasted := rfl
  have htyped : performAll (textEdits (blockTexts c grid)) s = typed := rfl
  clear_value grid pasted typed
  refine ⟨fun h => ?_, fun h => ?_⟩
  · have hpasted : s.paste c text = ⟨s, .ok false, []⟩ := paste_of_skipped (hgrid ▸ h)
    rw [← hpaste, hpasted]
    exact ⟨rfl, rfl⟩
  · have hpasted := paste_of_block hs hrow hcol (hgrid ▸ h)
    have htook := took_textEdits hs (nonneg_of_mem_blockTexts hrow hcol grid)
    rw [hpaste, hgrid, htyped] at hpasted
    rw [htyped] at htook
    obtain ⟨hdone, htook⟩ := htook
    have hread (d : Coord) : pasted.sheet.cellData d = typed.2.cellData d := by
      rw [hpasted]
      rfl
    refine ⟨congrArg Edited.result hpasted, ?_, hdone, ?_, ?_⟩
    · rw [hpasted]
      show Sheet.mk typed.2.rows s.defaultColumns _ = Sheet.mk typed.2.rows _ _
      rw [htook.defaultColumns_eq]
    · intro i j cells value hcells hvalue
      have hmem : (⟨c.row + i, c.col + j⟩, value) ∈ blockTexts c grid :=
        mem_blockTexts.mpr ⟨i, j, cells, hcells, hvalue, rfl⟩
      exact (hread _).trans (htook.there _ value hmem fun other hother =>
        eq_of_mem_blockTexts hmem hother)
    · intro d hd
      refine (hread d).trans (htook.elsewhere d ?_)
      rintro ⟨e, value⟩ hmem rfl
      obtain ⟨i, j, cells, hcells, hvalue, heq⟩ := mem_blockTexts.mp hmem
      exact hd i j cells value hcells hvalue heq

/-- A ragged block that begins at the formatted cell of `patchy` and goes on below the sheet. -/
theorem paste_eq_edits_patchy :
    let pasted := patchy.paste ⟨1, 0⟩ "b\tc\nd"
    let typed := performAll (textEdits [(⟨1, 0⟩, "b"), (⟨1, 1⟩, "c"), (⟨2, 0⟩, "d")]) patchy
    pasted.result = .ok true ∧ pasted.sheet.rows = typed.2.rows ∧
      pasted.sheet.revision = 5 ∧ typed.2.revision = 7 ∧
      pasted.sheet.cellData ⟨1, 0⟩ = ⟨.text "b", [("bold", .bool true)]⟩ := by
  intro pasted typed
  have hformats : patchy.WellFormatted := by
    apply wellFormatted_of_stored
    simp only [patchy, List.forall_mem_cons]
    exact ⟨⟨rfl, nofun⟩, ⟨rfl, nofun⟩, nofun⟩
  have hgrid : Clipboard.parse "b\tc\nd" = [["b", "c"], ["d"]] := by rfl
  have htexts : blockTexts ⟨1, 0⟩ [["b", "c"], ["d"]] =
      [(⟨1, 0⟩, "b"), (⟨1, 1⟩, "c"), (⟨2, 0⟩, "d")] := by rfl
  obtain ⟨-, hblock⟩ :=
    paste_eq_edits patchy ⟨1, 0⟩ "b\tc\nd" hformats (by decide) (by decide)
  rw [hgrid, htexts] at hblock
  obtain ⟨hresult, hsheet, -, hcells, -⟩ := hblock (by simp)
  have hrevision : typed.2.revision = 7 := by rfl
  have hrows : pasted.sheet.rows = typed.2.rows := by
    show (patchy.paste _ _).sheet.rows = _
    rw [hsheet]
  refine ⟨hresult, hrows, ?_, hrevision, ?_⟩
  · show (patchy.paste _ _).sheet.revision = _
    rw [hsheet]
    rfl
  · exact hcells 0 0 ["b", "c"] "b" rfl rfl

end Worksheet.Sheet
