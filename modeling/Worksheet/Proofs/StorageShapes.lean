import Mathlib.Data.List.InsertIdx
import Worksheet.Proofs.RejectedEdits

/-!
Shapes in which a cell is stored. A bare cell and a structured one may hold the same value and
format, and edits do not tell them apart: what an edit returns and what it leaves depends on what
the cells hold and, where it writes a value, on the problems of the format that is stored there. So
two sheets that hold the same can be told apart by edits just when a format that is not valid is
stored on one of them and not on the other.
-/
namespace Worksheet

/-! ### Rows looked at cell by cell -/

section Lists
variable {α β : Type} {look : α → β} {edit : α → α} {xs ys : List α}

theorem map_look_modify (h : ys.map look = xs.map look)
    (hedit : ∀ a b, look b = look a → look (edit b) = look (edit a)) (i : Nat) :
    (ys.modify i edit).map look = (xs.modify i edit).map look := by
  refine List.ext_getElem? fun j => ?_
  have hj : (ys[j]?).map look = (xs[j]?).map look := by
    rw [← List.getElem?_map, ← List.getElem?_map, h]
  rw [List.getElem?_map, List.getElem?_map]
  by_cases hij : i = j
  · rw [hij, List.getElem?_modify_eq, List.getElem?_modify_eq]
    cases hx : xs[j]? with
    | none =>
      rw [hx, Option.map_none, Option.map_eq_none_iff] at hj
      rw [hj]
    | some a =>
      rw [hx, Option.map_some, Option.map_eq_some_iff] at hj
      obtain ⟨b, hy, hab⟩ := hj
      rw [hy]
      exact congrArg some (hedit a b hab)
  · rw [List.getElem?_modify_ne _ _ hij, List.getElem?_modify_ne _ _ hij, hj]

theorem map_look_map (h : ys.map look = xs.map look)
    (hedit : ∀ a b, look b = look a → look (edit b) = look (edit a)) :
    (ys.map edit).map look = (xs.map edit).map look := by
  have hsame : List.Forall₂ (fun b a => look b = look a) ys xs := by
    rw [← List.forall₂_eq_eq_eq, List.forall₂_map_left_iff, List.forall₂_map_right_iff] at h
    exact h
  rw [← List.forall₂_eq_eq_eq, List.forall₂_map_left_iff, List.forall₂_map_right_iff,
    List.forall₂_map_left_iff, List.forall₂_map_right_iff]
  exact hsame.imp fun b a hab => hedit a b hab

theorem isEmpty_of_map_look (h : ys.map look = xs.map look) : ys.isEmpty = xs.isEmpty := by
  rw [← List.isEmpty_map (f := look), h, List.isEmpty_map]

theorem map_look_eraseIndices (selected : List Nat) (xs : List α) :
    (Sheet.eraseIndices selected xs).map look = Sheet.eraseIndices selected (xs.map look) := by
  unfold Sheet.eraseIndices
  rw [List.zipIdx_map, List.filter_map, List.map_map, List.map_map]
  rfl

end Lists

open Sheet

section Rows
variable {β : Type} {look : Value → β} {rows rows' : List (List Value)} {p q : Place}

/-- Rows as they look when every cell is looked at in the same way. -/
def view (look : Value → β) (rows : List (List Value)) : List (List β) := rows.map (List.map look)

theorem lengths_of_view (h : view look rows' = view look rows) :
    rows'.map List.length = rows.map List.length := by
  have hlengths := congrArg (List.map List.length) h
  unfold view at hlengths
  rw [List.map_map, List.map_map] at hlengths
  have hrow : List.length ∘ List.map look = List.length := funext fun row => List.length_map look
  rw [hrow] at hlengths
  exact hlengths

theorem length_of_view (h : view look rows' = view look rows) : rows'.length = rows.length := by
  have hlength := congrArg List.length (lengths_of_view h)
  rw [List.length_map, List.length_map] at hlength
  exact hlength

theorem map_look_padTo {row row' : List Value} (h : row'.map look = row.map look) (n : Nat) :
    (padTo n row').map look = (padTo n row).map look := by
  have hlength : row'.length = row.length := by
    rw [← List.length_map look, h, List.length_map]
  unfold padTo
  rw [List.map_append, List.map_append, h, hlength]

theorem view_ensure (h : view look rows' = view look rows) (p : Place) :
    view look (ensure rows' p) = view look (ensure rows p) := by
  have hpadded : view look (padRows (p.row + 1) rows') = view look (padRows (p.row + 1) rows) := by
    have hfront : rows'.map (List.map look) = rows.map (List.map look) := h
    unfold view padRows
    rw [List.map_append, List.map_append, hfront, length_of_view h]
  exact map_look_modify hpadded (fun row row' hrow => map_look_padTo hrow (p.col + 1)) p.row

theorem view_store (h : view look rows' = view look rows) (p : Place) (cell : Value) :
    view look (store rows' p cell) = view look (store rows p cell) := by
  refine map_look_modify h (fun row row' hrow => ?_) p.row
  rw [List.map_set, List.map_set, hrow]

theorem map_look_eraseColumns {row row' : List Value} (h : row'.map look = row.map look)
    (selected : List Nat) :
    (eraseColumns selected row').map look = (eraseColumns selected row).map look := by
  have hkept : (eraseIndices selected row').map look = (eraseIndices selected row).map look := by
    rw [map_look_eraseIndices, map_look_eraseIndices, h]
  unfold eraseColumns
  dsimp only
  rw [isEmpty_of_map_look h, isEmpty_of_map_look hkept]
  split
  · exact h
  · split
    · rfl
    · exact hkept

/-- Looking at every position is looking at all rows. -/
theorem view_eq_iff : view look rows' = view look rows ↔
    rows'.map List.length = rows.map List.length ∧
      ∀ p, look (storedAt rows' p) = look (storedAt rows p) := by
  constructor
  · intro h
    refine ⟨lengths_of_view h, fun p => ?_⟩
    have hcell : (cellAt rows' p).map look = (cellAt rows p).map look := by
      have hview (rows : List (List Value)) : (cellAt rows p).map look =
          (view look rows)[p.row]?.bind fun row => row[p.col]? := by
        unfold cellAt view
        rw [List.getElem?_map]
        cases rows[p.row]? with
        | none => rfl
        | some row => exact (List.getElem?_map).symm
      rw [hview, hview, h]
    rw [storedAt_eq_getD, storedAt_eq_getD, ← Option.getD_map look, ← Option.getD_map look, hcell]
  · rintro ⟨hlengths, hcells⟩
    unfold view
    refine List.ext_getElem? fun r => ?_
    have hr : (rows'[r]?).map List.length = (rows[r]?).map List.length := by
      rw [← List.getElem?_map, ← List.getElem?_map, hlengths]
    rw [List.getElem?_map, List.getElem?_map]
    cases hrow : rows[r]? with
    | none =>
      rw [hrow, Option.map_none, Option.map_eq_none_iff] at hr
      rw [hr]
    | some row =>
      rw [hrow, Option.map_some, Option.map_eq_some_iff] at hr
      obtain ⟨row', hrow', hlength⟩ := hr
      rw [hrow']
      refine congrArg some (List.ext_getElem (by simpa using hlength) fun k hk' hk => ?_)
      rw [List.length_map] at hk hk'
      have hcell := hcells ⟨r, k⟩
      unfold storedAt at hcell
      dsimp only at hcell
      rw [hrow, hrow', Option.bind_some, Option.bind_some, List.getElem?_eq_getElem hk,
        List.getElem?_eq_getElem hk'] at hcell
      rw [List.getElem_map, List.getElem_map]
      exact hcell

/-! ### Writing values -/

/-- Whether a value is refused, and the cell with it otherwise, depends on what a cell holds and on
the problems of its format. -/
theorem withValue_eq (cell v : Value) :
    Cell.withValue cell v =
      if (Cell.data cell).2 = [] then .ok (stored v (Cell.data cell).1.format)
      else .error (.invalidFields (Cell.data cell).2) := by
  unfold Cell.withValue
  cases hstructured : Cell.isStructured cell with
  | false =>
    have hdata : (Cell.data cell).1.format = [] ∧ (Cell.data cell).2 = [] := by
      unfold Cell.data
      split
      · exact ⟨rfl, rfl⟩
      · rw [if_neg (by rw [hstructured]; exact Bool.false_ne_true)]
        exact ⟨rfl, rfl⟩
    rw [if_pos hdata.2, hdata.1]
    rfl
  | true =>
    unfold Cell.build Format.normalize
    cases hformat : Format.validate (Cell.storedFormat cell) with
    | ok f =>
      have hdata : Cell.data cell = (⟨Cell.storedValue cell, f.normal⟩, []) := by
        cases cell with
        | record fields => simp only [Cell.data, if_pos hstructured, hformat]
        | _ => cases hstructured
      rw [hdata]
      rfl
    | error problems =>
      have hdata : Cell.data cell = (⟨Cell.storedValue cell, []⟩, problems) := by
        cases cell with
        | record fields => simp only [Cell.data, if_pos hstructured, hformat]
        | _ => cases hstructured
      rw [hdata, if_neg (Format.problems_ne_nil hformat)]
      rfl

theorem withValue_congr (h : readAt rows' p = readAt rows p) (v : Value) :
    Cell.withValue (storedAt rows' p) v = Cell.withValue (storedAt rows p) v := by
  have hdata : Cell.data (storedAt rows' p) = Cell.data (storedAt rows p) := h
  rw [withValue_eq, withValue_eq, hdata]

/-- A row that is pasted over cells that are read alike. -/
theorem pasteCells_congr {cells : List String} (h : view look rows' = view look rows)
    (hread : ∀ q, InRow p cells q → readAt rows' q = readAt rows q) :
    (pasteCells rows' p cells).2 = (pasteCells rows p cells).2 ∧
      view look (pasteCells rows' p cells).1 = view look (pasteCells rows p cells).1 := by
  induction cells generalizing rows rows' p with
  | nil => exact ⟨rfl, h⟩
  | cons text rest ih =>
    unfold pasteCells
    rw [withValue_congr (hread p inRow_head)]
    cases Cell.withValue (storedAt rows p) (.text text) with
    | error f => exact ⟨rfl, h⟩
    | ok cell =>
      refine ih (view_store h p cell) fun q hq => ?_
      rw [readAt_store _ _ hq.ne, readAt_store _ _ hq.ne]
      exact hread q hq.tail

/-- So is a block. -/
theorem pasteRows_congr {grid : List (List String)} (h : view look rows' = view look rows)
    (hread : ∀ q, InBlock p grid q → readAt rows' q = readAt rows q) :
    (pasteRows rows' p grid).2 = (pasteRows rows p grid).2 ∧
      view look (pasteRows rows' p grid).1 = view look (pasteRows rows p grid).1 := by
  induction grid generalizing rows rows' p with
  | nil => exact ⟨rfl, h⟩
  | cons cells rest ih =>
    have hgrown (q : Place) (hq : InRow p cells q) :
        readAt (ensure rows' ⟨p.row, p.col + cells.length - 1⟩) q =
          readAt (ensure rows ⟨p.row, p.col + cells.length - 1⟩) q := by
      rw [readAt_ensure, readAt_ensure]
      exact hread q hq.inBlock
    obtain ⟨hstop, hview⟩ := pasteCells_congr (view_ensure h _) hgrown
    unfold pasteRows
    cases hrow : pasteCells (ensure rows ⟨p.row, p.col + cells.length - 1⟩) p cells with
    | mk later stop =>
    cases hrow' : pasteCells (ensure rows' ⟨p.row, p.col + cells.length - 1⟩) p cells with
    | mk later' stop' =>
    rw [hrow, hrow'] at hstop hview
    dsimp only at hstop hview
    subst hstop
    cases stop' with
    | some f => exact ⟨rfl, hview⟩
    | none =>
      refine ih hview fun q hq => ?_
      rw [readAt_pasteCells hrow hq.not_inRow, readAt_pasteCells hrow' hq.not_inRow,
        readAt_ensure, readAt_ensure]
      exact hread q hq.tail

end Rows

/-! ### Edits -/

/-- What an edit returns. -/
inductive Returned where
  | nothing
  | index (i : Int)
  | count (n : Nat)
  | changed (b : Bool)

/-- An edit whose result is put in another way. -/
def Edited.map {α β : Type} (f : α → β) (e : Edited α) : Edited β :=
  ⟨e.sheet, e.result.map f, e.events⟩

/-- An edit with what it returns. -/
def Mutation.perform : Mutation → Sheet → Edited Returned
  | .setValue c value, s => (s.setValue c value).map fun _ => .nothing
  | .setFormat c format, s => (s.setFormat c format).map fun _ => .nothing
  | .insertRow after, s => (s.insertRow after).map .index
  | .insertColumn after, s => (s.insertColumn after).map .index
  | .deleteRows indices, s => (s.deleteRows indices).map .count
  | .deleteColumns indices, s => (s.deleteColumns indices).map .count
  | .paste c text, s => (s.paste c text).map .changed

/-- The positions to which an edit writes a value. -/
def Mutation.Writes (m : Mutation) (c : Coord) : Prop :=
  match m with
  | .setValue d _ => c = d
  | .paste d text => ∃ p q, place? d = some p ∧ place? c = some q ∧
      InBlock p (Clipboard.parse text) q
  | .setFormat _ _ | .insertRow _ | .insertColumn _ | .deleteRows _ | .deleteColumns _ => False

/-- Edits made one after the other, whether they are refused or not: what each of them returns, and
the sheet that they leave. -/
def performAll : List Mutation → Sheet → List (Except Fault Returned) × Sheet
  | [], s => ([], s)
  | m :: rest, s =>
    let edited := m.perform s
    let later := performAll rest edited.sheet
    (edited.result :: later.1, later.2)

/-- Sheets whose cells look the same. -/
structure Sheet.SameView {β : Type} (look : Value → β) (s s' : Sheet) : Prop where
  defaultColumns_eq : s'.defaultColumns = s.defaultColumns
  view_eq : view look s'.rows = view look s.rows

/-- Edits that return the same and leave sheets whose cells look the same. -/
structure Edited.SameView {α β : Type} (look : Value → β) (e e' : Edited α) : Prop where
  result_eq : e'.result = e.result
  sheet : e.sheet.SameView look e'.sheet

section Edits
variable {α β γ : Type} {look : Value → β} {s s' : Sheet} {c : Coord}

theorem Edited.SameView.map {e e' : Edited α} (h : e.SameView look e') (f : α → γ) :
    (e.map f).SameView look (e'.map f) :=
  ⟨congrArg (Except.map f) h.result_eq, h.sheet⟩

namespace Sheet

theorem SameView.touched (h : s.SameView look s') {rows rows' : List (List Value)}
    (hview : view look rows' = view look rows) :
    (s.touched rows).SameView look (s'.touched rows') := ⟨h.defaultColumns_eq, hview⟩

theorem SameView.rowCount_eq (h : s.SameView look s') : s'.rowCount = s.rowCount :=
  length_of_view h.view_eq

theorem SameView.columnCount_eq (h : s.SameView look s') : s'.columnCount = s.columnCount := by
  have hwidest (s : Sheet) : s.widest = (s.rows.map List.length).foldl max 0 := by
    unfold widest
    rw [List.foldl_map]
  unfold columnCount
  rw [hwidest, hwidest s, lengths_of_view h.view_eq, h.defaultColumns_eq]

theorem SameView.setValue (h : s.SameView look s')
    (hread : ∀ p, place? c = some p → readAt s'.rows p = readAt s.rows p) (value : Value) :
    (s.setValue c value).SameView look (s'.setValue c value) := by
  unfold Sheet.setValue
  cases hplace : place? c with
  | none => exact ⟨rfl, h⟩
  | some p =>
    have hgrown := view_ensure h.view_eq p
    have hcell : readAt (ensure s'.rows p) p = readAt (ensure s.rows p) p := by
      rw [readAt_ensure, readAt_ensure, hread p hplace]
    dsimp only
    rw [withValue_congr hcell]
    cases Cell.withValue (storedAt (ensure s.rows p) p) value with
    | error f => exact ⟨rfl, h.defaultColumns_eq, hgrown⟩
    | ok cell => exact ⟨rfl, h.touched (view_store hgrown p cell)⟩

theorem SameView.setFormat (h : s.SameView look s') (hraw : s'.rawCell c = s.rawCell c)
    (format : Value) : (s.setFormat c format).SameView look (s'.setFormat c format) := by
  unfold Sheet.setFormat
  cases Format.normalize format with
  | error f => exact ⟨rfl, h⟩
  | ok fields =>
    cases place? c with
    | none => exact ⟨rfl, h⟩
    | some p =>
      have hgrown := view_ensure h.view_eq p
      dsimp only
      rw [hraw]
      cases Cell.build (s.rawCell c) (.record fields) with
      | error f => exact ⟨rfl, h.defaultColumns_eq, hgrown⟩
      | ok cell => exact ⟨rfl, h.touched (view_store hgrown p cell)⟩

theorem SameView.insertRow (h : s.SameView look s') (after : Option Int) :
    (s.insertRow after).SameView look (s'.insertRow after) := by
  have hrows : s'.rows.map (List.map look) = s.rows.map (List.map look) := h.view_eq
  unfold Sheet.insertRow
  rw [h.rowCount_eq, h.columnCount_eq]
  refine ⟨rfl, h.touched ?_⟩
  unfold view
  rw [List.map_insertIdx, List.map_insertIdx, hrows]

theorem SameView.insertColumn (h : s.SameView look s') (after : Option Int) :
    (s.insertColumn after).SameView look (s'.insertColumn after) := by
  have hisEmpty : s'.rows.isEmpty = s.rows.isEmpty := isEmpty_of_map_look h.view_eq
  unfold Sheet.insertColumn
  rw [h.columnCount_eq, hisEmpty]
  refine ⟨rfl, h.touched ?_⟩
  split
  · rfl
  · refine map_look_map h.view_eq fun row row' hrow => ?_
    rw [List.map_insertIdx, List.map_insertIdx, map_look_padTo hrow]

theorem SameView.deleteRows (h : s.SameView look s') (indices : List Int) :
    (s.deleteRows indices).SameView look (s'.deleteRows indices) := by
  have hrows : s'.rows.map (List.map look) = s.rows.map (List.map look) := h.view_eq
  unfold Sheet.deleteRows
  rw [h.rowCount_eq]
  dsimp only
  split
  · exact ⟨rfl, h⟩
  · split
    · exact ⟨rfl, h⟩
    · refine ⟨rfl, h.touched ?_⟩
      unfold view
      rw [map_look_eraseIndices, map_look_eraseIndices, hrows]

theorem SameView.deleteColumns (h : s.SameView look s') (indices : List Int) :
    (s.deleteColumns indices).SameView look (s'.deleteColumns indices) := by
  unfold Sheet.deleteColumns
  rw [h.columnCount_eq]
  dsimp only
  split
  · exact ⟨rfl, h⟩
  · split
    · exact ⟨rfl, h⟩
    · exact ⟨rfl, h.touched
        (map_look_map h.view_eq fun row row' hrow => map_look_eraseColumns hrow _)⟩

theorem SameView.paste (h : s.SameView look s') {text : String}
    (hread : ∀ p q, place? c = some p → InBlock p (Clipboard.parse text) q →
      readAt s'.rows q = readAt s.rows q) :
    (s.paste c text).SameView look (s'.paste c text) := by
  unfold Sheet.paste
  dsimp only
  split
  · exact ⟨rfl, h⟩
  · cases hplace : place? c with
    | none => exact ⟨rfl, h⟩
    | some p =>
      obtain ⟨hstop, hview⟩ := pasteRows_congr h.view_eq fun q hq => hread p q hplace hq
      dsimp only
      cases hrows : pasteRows s.rows p (Clipboard.parse text) with
      | mk rows stop =>
      cases hrows' : pasteRows s'.rows p (Clipboard.parse text) with
      | mk rows' stop' =>
      rw [hrows, hrows'] at hstop hview
      dsimp only at hstop hview
      subst hstop
      cases stop' with
      | some f => exact ⟨rfl, h.defaultColumns_eq, hview⟩
      | none => exact ⟨rfl, h.touched hview⟩

end Sheet

theorem readAt_eq_of_place? {p : Place} (h : place? c = some p) (s : Sheet) :
    readAt s.rows p = (s.cellData c, s.formatProblems c) := by
  unfold cellData formatProblems
  rw [data_cell? s h]

/-- An edit does the same on sheets whose cells look and hold the same, when the formats that are
stored where it writes have the same problems. -/
theorem Mutation.perform_sameView (m : Mutation) (h : s.SameView look s')
    (hdata : ∀ c, s'.cellData c = s.cellData c)
    (hwrites : ∀ c, m.Writes c → s'.formatProblems c = s.formatProblems c) :
    (m.perform s).SameView look (m.perform s') := by
  cases m with
  | setValue c value =>
    refine (h.setValue (fun p hp => ?_) value).map _
    rw [readAt_eq_of_place? hp, readAt_eq_of_place? hp, hdata, hwrites c rfl]
  | setFormat c format => exact (h.setFormat (congrArg CellData.value (hdata c)) format).map _
  | insertRow after => exact (h.insertRow after).map _
  | insertColumn after => exact (h.insertColumn after).map _
  | deleteRows indices => exact (h.deleteRows indices).map _
  | deleteColumns indices => exact (h.deleteColumns indices).map _
  | paste c text =>
    refine (h.paste fun p q hp hq => ?_).map _
    have hplace := place?_cast q
    rw [readAt_eq_of_place? hplace, readAt_eq_of_place? hplace, hdata,
      hwrites _ ⟨p, q, hp, hplace, hq⟩]

end Edits

/-! ### Sheets that hold the same -/

/-- Sheets that hold the same values and formats, stored in whatever shapes. -/
structure Sheet.Alike (s s' : Sheet) : Prop where
  defaultColumns_eq : s'.defaultColumns = s.defaultColumns
  lengths_eq : s'.rows.map List.length = s.rows.map List.length
  cellData_eq : ∀ c, s'.cellData c = s.cellData c

section Alike
variable {s s' : Sheet} {c : Coord}

theorem cellData_of_place?_eq_none (h : place? c = none) (s : Sheet) :
    s.cellData c = ⟨.text "", []⟩ ∧ s.formatProblems c = [] := by
  unfold cellData formatProblems
  rw [cell?_of_place?_eq_none s h]
  exact ⟨rfl, rfl⟩

theorem alike_iff_sameView : s.Alike s' ↔ s.SameView (fun cell => (Cell.data cell).1) s' := by
  constructor
  · intro h
    refine ⟨h.defaultColumns_eq, view_eq_iff.mpr ⟨h.lengths_eq, fun p => ?_⟩⟩
    change (readAt s'.rows p).1 = (readAt s.rows p).1
    rw [readAt_eq_of_place? (place?_cast p), readAt_eq_of_place? (place?_cast p), h.cellData_eq]
  · intro h
    obtain ⟨hlengths, hcells⟩ := view_eq_iff.mp h.view_eq
    refine ⟨h.defaultColumns_eq, hlengths, fun c => ?_⟩
    cases hplace : place? c with
    | none =>
      rw [(cellData_of_place?_eq_none hplace s').1, (cellData_of_place?_eq_none hplace s).1]
    | some p =>
      have hcell : (readAt s'.rows p).1 = (readAt s.rows p).1 := hcells p
      rw [readAt_eq_of_place? hplace, readAt_eq_of_place? hplace] at hcell
      exact hcell

theorem alike_and_problems_iff_sameView :
    (s.Alike s' ∧ ∀ c, s'.formatProblems c = s.formatProblems c) ↔ s.SameView Cell.data s' := by
  constructor
  · rintro ⟨h, hproblems⟩
    refine ⟨h.defaultColumns_eq, view_eq_iff.mpr ⟨h.lengths_eq, fun p => ?_⟩⟩
    change readAt s'.rows p = readAt s.rows p
    rw [readAt_eq_of_place? (place?_cast p), readAt_eq_of_place? (place?_cast p), h.cellData_eq,
      hproblems]
  · intro h
    obtain ⟨hlengths, hcells⟩ := view_eq_iff.mp h.view_eq
    refine ⟨alike_iff_sameView.mpr ⟨h.defaultColumns_eq, view_eq_iff.mpr ⟨hlengths, fun p => ?_⟩⟩,
      fun c => ?_⟩
    · exact congrArg Prod.fst (hcells p)
    · cases hplace : place? c with
      | none =>
        rw [(cellData_of_place?_eq_none hplace s').2, (cellData_of_place?_eq_none hplace s).2]
      | some p =>
        have hcell : readAt s'.rows p = readAt s.rows p := hcells p
        rw [readAt_eq_of_place? hplace, readAt_eq_of_place? hplace] at hcell
        exact congrArg Prod.snd hcell

/-- Any edits do the same on sheets that hold the same with the same problems. -/
theorem performAll_sameView (ms : List Mutation) (h : s.SameView Cell.data s') :
    (performAll ms s').1 = (performAll ms s).1 ∧
      (performAll ms s).2.SameView Cell.data (performAll ms s').2 := by
  induction ms generalizing s s' with
  | nil => exact ⟨rfl, h⟩
  | cons m rest ih =>
    obtain ⟨halike, hproblems⟩ := alike_and_problems_iff_sameView.mpr h
    have hperform := m.perform_sameView h halike.cellData_eq fun c _ => hproblems c
    obtain ⟨hresults, hsheets⟩ := ih hperform.sheet
    refine ⟨?_, hsheets⟩
    unfold performAll
    dsimp only
    rw [hperform.result_eq, hresults]

theorem setValue_result {p : Place} (h : place? c = some p) (s : Sheet) (value : Value) :
    (s.setValue c value).result =
      if s.formatProblems c = [] then .ok () else .error (.invalidFields (s.formatProblems c)) := by
  have hdata : Cell.data (storedAt (ensure s.rows p) p) = (s.cellData c, s.formatProblems c) := by
    rw [← readAt_eq_of_place? h s]
    exact readAt_ensure s.rows p p
  unfold setValue
  rw [h]
  dsimp only
  rw [withValue_eq, hdata]
  by_cases hproblems : s.formatProblems c = []
  · rw [if_pos hproblems, if_pos hproblems]
  · rw [if_neg hproblems, if_neg hproblems]

/-- Writing a value shows whether the format at a position has problems, and which ones. -/
theorem formatProblems_eq_of_results {value : Value}
    (h : ((Mutation.setValue c value).perform s').result =
      ((Mutation.setValue c value).perform s).result) :
    s'.formatProblems c = s.formatProblems c := by
  cases hplace : place? c with
  | none => rw [(cellData_of_place?_eq_none hplace s').2, (cellData_of_place?_eq_none hplace s).2]
  | some p =>
    have hresult (s : Sheet) : ((Mutation.setValue c value).perform s).result =
        if s.formatProblems c = [] then .ok .nothing
        else .error (.invalidFields (s.formatProblems c)) := by
      change (s.setValue c value).result.map _ = _
      rw [setValue_result hplace]
      split
      · rfl
      · rfl
    rw [hresult, hresult] at h
    by_cases hs' : s'.formatProblems c = []
    · by_cases hs : s.formatProblems c = []
      · rw [hs, hs']
      · rw [if_pos hs', if_neg hs] at h
        cases h
    · by_cases hs : s.formatProblems c = []
      · rw [if_neg hs', if_pos hs] at h
        cases h
      · rw [if_neg hs', if_neg hs, Except.error.injEq, Fault.invalidFields.injEq] at h
        exact h

/-- On two sheets that hold the same, whatever the shapes in which they store it, an edit returns
the same or is refused for the same reason, and leaves sheets that hold the same again, provided
that where it writes values the stored formats have the same problems, if any. So edits tell the
sheets apart just when a stored format has a problem on one of them that it does not have on the
other, although it reads as empty on both. -/
theorem edits_of_alike (s s' : Sheet) (h : s.Alike s') :
    (∀ m : Mutation, (∀ c, m.Writes c → s'.formatProblems c = s.formatProblems c) →
      (m.perform s').result = (m.perform s).result ∧
      (m.perform s).sheet.Alike (m.perform s').sheet) ∧
    ((∀ ms, (performAll ms s').1 = (performAll ms s).1) ↔
      ∀ c, s'.formatProblems c = s.formatProblems c) ∧
    ((∀ c, s'.formatProblems c = s.formatProblems c) →
      ∀ ms, (performAll ms s).2.Alike (performAll ms s').2) := by
  have hall (hproblems : ∀ c, s'.formatProblems c = s.formatProblems c) (ms : List Mutation) :=
    performAll_sameView ms (alike_and_problems_iff_sameView.mp ⟨h, hproblems⟩)
  refine ⟨fun m hwrites => ?_, ⟨fun hresults c => ?_, fun hproblems ms => (hall hproblems ms).1⟩,
    fun hproblems ms => (alike_and_problems_iff_sameView.mpr (hall hproblems ms).2).1⟩
  · have hperform := m.perform_sameView (alike_iff_sameView.mp h) h.cellData_eq hwrites
    exact ⟨hperform.result_eq, alike_iff_sameView.mpr hperform.sheet⟩
  · have hwritten := hresults [.setValue c (.text "")]
    exact formatProblems_eq_of_results (List.cons.inj hwritten).1

def oneCell (cell : Value) : Sheet := ⟨[[cell]], 8, 0⟩

/-- A text as a structured cell stores it. -/
def textIn (format : Value) : Value := .record [("value", .text "a"), ("format", format)]

/-- A bare text and one in an empty format cannot be told apart by edits; one in a format that is
not valid can, though it holds the same. -/
theorem edits_of_alike_oneCell :
    let bare := oneCell (.text "a")
    let formatted := oneCell (textIn .null)
    let invalid := oneCell (textIn (.record [("type", .text "bad")]))
    bare.Alike formatted ∧ (∀ ms, (performAll ms formatted).1 = (performAll ms bare).1) ∧
      bare.Alike invalid ∧ ∃ ms, (performAll ms invalid).1 ≠ (performAll ms bare).1 := by
  intro bare formatted invalid
  obtain ⟨hformatted, hproblems⟩ := alike_and_problems_iff_sameView.mpr
    (⟨rfl, rfl⟩ : bare.SameView Cell.data formatted)
  have hinvalid : bare.Alike invalid := alike_iff_sameView.mpr ⟨rfl, rfl⟩
  refine ⟨hformatted, (edits_of_alike _ _ hformatted).2.1.mpr hproblems, hinvalid, ?_⟩
  by_contra! hsame
  cases (edits_of_alike _ _ hinvalid).2.1.mp hsame ⟨0, 0⟩

end Alike
end Worksheet
