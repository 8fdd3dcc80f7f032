import Worksheet.Proofs.Freshness
import Worksheet.Proofs.NormalFormats
import Worksheet.Proofs.StoredCells

/-!
Edits that are refused. A value is refused by a cell whose format is not valid, and by no other; so
an edit of one cell that is refused has found its cell there and leaves the sheet as it was, and so
do refused deletions. Only pasting goes from cell to cell: one that meets a cell with such a format
stops there, and leaves what it has written until then without counting as an edit.
-/
namespace Worksheet

open Sheet

/-- A fault that is about the format of a cell as it was read, which is not valid. -/
def Refuses (found : CellData × List FieldProblem) (f : Fault) : Prop :=
  found.2 ≠ [] ∧ f = .invalidFields found.2

/-- Only a cell whose format is not valid refuses a value. -/
theorem refuses_of_withValue {cell v : Value} {f : Fault} (h : Cell.withValue cell v = .error f) :
    Refuses (Cell.data cell) f := by
  unfold Cell.withValue at h
  split at h
  · rename_i hstructured
    unfold Cell.build Format.normalize at h
    cases hformat : Format.validate (Cell.storedFormat cell) with
    | ok format =>
      rw [hformat] at h
      cases h
    | error problems =>
      rw [hformat] at h
      cases h
      have hdata : (Cell.data cell).2 = problems := by
        cases cell with
        | record fields => simp only [Cell.data, if_pos hstructured, hformat]
        | _ => cases hstructured
      exact ⟨hdata ▸ Format.problems_ne_nil hformat, by rw [hdata]⟩
  · cases h

/-! ### Edits of one cell -/

/-- A cell that holds a value in a format. -/
def stored (v : Value) (format : List (String × Value)) : Value :=
  if format.isEmpty then v else .record [("value", v), ("format", .record format)]

theorem build_normal (v : Value) (f : Format) :
    Cell.build v (.record f.normal) = .ok (stored v f.normal) := by
  unfold Cell.build
  rw [Format.normalize_normal]
  rfl

section Cells
variable {s : Sheet} {c : Coord} {f : Fault}

theorem setValue_rejected {value : Value} (h : (s.setValue c value).result = .error f) :
    (s.setValue c value).sheet = s := by
  unfold setValue at h ⊢
  cases hplace : place? c with
  | none => rfl
  | some p =>
    rw [hplace] at h
    dsimp only at h ⊢
    cases hcell : Cell.withValue (storedAt (ensure s.rows p) p) value with
    | ok cell =>
      rw [hcell] at h
      cases h
    | error g =>
      have hproblems : (readAt (ensure s.rows p) p).2 ≠ [] := (refuses_of_withValue hcell).1
      rw [readAt_ensure] at hproblems
      dsimp only
      rw [ensure_of_isSome (isSome_of_problems hproblems)]

theorem setFormat_rejected {format : Value} (h : (s.setFormat c format).result = .error f) :
    (s.setFormat c format).sheet = s := by
  unfold setFormat Format.normalize at h ⊢
  cases hformat : Format.validate format with
  | error problems => rfl
  | ok format =>
    rw [hformat] at h
    cases hplace : place? c with
    | none => rfl
    | some p =>
      rw [hplace] at h
      simp only [build_normal] at h
      cases h

end Cells

/-! ### Deletions -/

theorem deleteRows_rejected {s : Sheet} {indices : List Int} {f : Fault}
    (h : (s.deleteRows indices).result = .error f) : (s.deleteRows indices).sheet = s := by
  unfold deleteRows at h ⊢
  dsimp only at h ⊢
  split at h
  · cases h
  · rename_i hselected
    split at h
    · rename_i hall
      rw [if_neg hselected, if_pos hall]
    · cases h

theorem deleteColumns_rejected {s : Sheet} {indices : List Int} {f : Fault}
    (h : (s.deleteColumns indices).result = .error f) : (s.deleteColumns indices).sheet = s := by
  unfold deleteColumns at h ⊢
  dsimp only at h ⊢
  split at h
  · cases h
  · rename_i hselected
    split at h
    · rename_i hall
      rw [if_neg hselected, if_pos hall]
    · cases h

/-! ### Pasting -/

/-- A position in the row of a block that begins at a position. -/
def InRow (p : Place) (cells : List String) (q : Place) : Prop :=
  ∃ j < cells.length, q = ⟨p.row, p.col + j⟩

/-- A position in a block that begins at a position. -/
def InBlock (p : Place) (grid : List (List String)) (q : Place) : Prop :=
  ∃ i cells, grid[i]? = some cells ∧ InRow ⟨p.row + i, p.col⟩ cells q

section Pasting
variable {rows rows' : List (List Value)} {p q : Place} {f : Fault} {stop : Option Fault}
  {text : String} {cells : List String} {grid : List (List String)}

theorem inRow_head : InRow p (text :: cells) p := ⟨0, Nat.zero_lt_succ _, rfl⟩

theorem InRow.tail (h : InRow ⟨p.row, p.col + 1⟩ cells q) : InRow p (text :: cells) q := by
  obtain ⟨j, hj, rfl⟩ := h
  refine ⟨j + 1, Nat.succ_lt_succ hj, place_eq rfl ?_⟩
  dsimp only
  omega

theorem InRow.ne (h : InRow ⟨p.row, p.col + 1⟩ cells q) : q ≠ p := by
  rintro rfl
  obtain ⟨j, -, heq⟩ := h
  have hcol : q.col = q.col + 1 + j := congrArg Place.col heq
  omega

theorem InRow.inBlock (h : InRow p cells q) : InBlock p (cells :: grid) q := ⟨0, cells, rfl, h⟩

theorem InBlock.tail (h : InBlock ⟨p.row + 1, p.col⟩ grid q) : InBlock p (cells :: grid) q := by
  obtain ⟨i, others, hothers, j, hj, rfl⟩ := h
  refine ⟨i + 1, others, hothers, j, hj, place_eq ?_ rfl⟩
  dsimp only
  omega

theorem InBlock.not_inRow (h : InBlock ⟨p.row + 1, p.col⟩ grid q) : ¬ InRow p cells q := by
  obtain ⟨i, others, -, j, -, rfl⟩ := h
  rintro ⟨k, -, heq⟩
  have hrow : p.row + 1 + i = p.row := congrArg Place.row heq
  omega

/-- A pasted row leaves all other cells as they are. -/
theorem readAt_pasteCells (h : pasteCells rows p cells = (rows', stop)) (hq : ¬ InRow p cells q) :
    readAt rows' q = readAt rows q := by
  induction cells generalizing rows p with
  | nil =>
    cases h
    rfl
  | cons text rest ih =>
    unfold pasteCells at h
    cases hcell : Cell.withValue (storedAt rows p) (.text text) with
    | error g =>
      rw [hcell] at h
      cases h
      rfl
    | ok cell =>
      rw [hcell] at h
      have hne : q ≠ p := fun heq => hq (heq ▸ inRow_head)
      rw [ih h fun hrest => hq hrest.tail, readAt_store rows cell hne]

/-- A pasted row that stops has met a cell that refuses. -/
theorem pasteCells_refused (h : pasteCells rows p cells = (rows', some f)) :
    ∃ q, InRow p cells q ∧ Refuses (readAt rows q) f := by
  induction cells generalizing rows p with
  | nil => cases h
  | cons text rest ih =>
    unfold pasteCells at h
    cases hcell : Cell.withValue (storedAt rows p) (.text text) with
    | error g =>
      rw [hcell] at h
      cases h
      exact ⟨p, inRow_head, refuses_of_withValue hcell⟩
    | ok cell =>
      rw [hcell] at h
      obtain ⟨q, hq, hrefuses⟩ := ih h
      rw [readAt_store rows cell hq.ne] at hrefuses
      exact ⟨q, hq.tail, hrefuses⟩

/-- Pasted rows leave all cells outside their block as they are, also when they stop. -/
theorem readAt_pasteRows (h : pasteRows rows p grid = (rows', stop)) (hq : ¬ InBlock p grid q) :
    readAt rows' q = readAt rows q := by
  induction grid generalizing rows p with
  | nil =>
    cases h
    rfl
  | cons cells rest ih =>
    unfold pasteRows at h
    obtain ⟨later, met, hcells⟩ : ∃ later met,
        pasteCells (ensure rows ⟨p.row, p.col + cells.length - 1⟩) p cells = (later, met) :=
      ⟨_, _, rfl⟩
    have hrow := readAt_pasteCells hcells fun hrow => hq hrow.inBlock
    rw [readAt_ensure] at hrow
    rw [hcells] at h
    cases met with
    | some g =>
      cases h
      exact hrow
    | none => rw [ih h fun hrest => hq hrest.tail, hrow]

/-- Pasted rows that stop have met a cell that refused already before they were pasted. -/
theorem pasteRows_refused (h : pasteRows rows p grid = (rows', some f)) :
    ∃ q, InBlock p grid q ∧ Refuses (readAt rows q) f := by
  induction grid generalizing rows p with
  | nil => cases h
  | cons cells rest ih =>
    unfold pasteRows at h
    obtain ⟨later, met, hcells⟩ : ∃ later met,
        pasteCells (ensure rows ⟨p.row, p.col + cells.length - 1⟩) p cells = (later, met) :=
      ⟨_, _, rfl⟩
    rw [hcells] at h
    cases met with
    | some g =>
      cases h
      obtain ⟨q, hq, hrefuses⟩ := pasteCells_refused hcells
      rw [readAt_ensure] at hrefuses
      exact ⟨q, hq.inBlock, hrefuses⟩
    | none =>
      obtain ⟨q, hq, hrefuses⟩ := ih h
      rw [readAt_pasteCells hcells hq.not_inRow, readAt_ensure] at hrefuses
      exact ⟨q, hq.tail, hrefuses⟩

end Pasting

/-- A sheet that a refused paste leaves: the block has a position where the format is not valid, of
which the fault tells, and outside of the block every cell reads as before. -/
structure Obstructed (s s' : Sheet) (p : Place) (grid : List (List String)) (f : Fault) :
    Prop where
  met : ∃ q, InBlock p grid q ∧ s.formatProblems ⟨q.row, q.col⟩ ≠ [] ∧
    f = .invalidFields (s.formatProblems ⟨q.row, q.col⟩)
  outside : ∀ c, (∀ q, place? c = some q → ¬ InBlock p grid q) → s'.cellData c = s.cellData c

theorem place?_cast (p : Place) : place? ⟨p.row, p.col⟩ = some p := by
  unfold place?
  rw [if_neg (by simp)]
  rfl

theorem paste_rejected {s : Sheet} {c : Coord} {text : String} {f : Fault}
    (h : (s.paste c text).result = .error f) :
    (s.paste c text).sheet.revision = s.revision ∧
      ((s.paste c text).sheet = s ∨ ∃ p, place? c = some p ∧
        Obstructed s (s.paste c text).sheet p (Clipboard.parse text) f) := by
  unfold paste at h ⊢
  dsimp only at h ⊢
  split
  · exact ⟨rfl, .inl rfl⟩
  · rename_i hblock
    rw [if_neg hblock] at h
    cases hplace : place? c with
    | none => exact ⟨rfl, .inl rfl⟩
    | some p =>
      rw [hplace] at h
      obtain ⟨rows, stop, hrows⟩ : ∃ rows stop,
          pasteRows s.rows p (Clipboard.parse text) = (rows, stop) := ⟨_, _, rfl⟩
      dsimp only at h ⊢
      rw [hrows] at h ⊢
      cases stop with
      | none => cases h
      | some g =>
        cases h
        refine ⟨rfl, .inr ⟨p, rfl, ?_, fun d hd => ?_⟩⟩
        · obtain ⟨q, hq, hrefuses⟩ := pasteRows_refused hrows
          rw [← data_cell? s (place?_cast q)] at hrefuses
          exact ⟨q, hq, hrefuses⟩
        · exact cellData_congr fun q hq => readAt_pasteRows hrows (hd q hq)

theorem result_of_forget {α : Type} {e : Edited α} {f : Fault}
    (h : e.forget.result = .error f) : e.result = .error f := by
  cases hresult : e.result with
  | error g =>
    simp only [Edited.forget, hresult] at h
    cases h
    rfl
  | ok a =>
    simp only [Edited.forget, hresult] at h
    cases h

/-- An edit that is refused does not count and, unless it pastes a block over a cell whose format is
not valid, leaves the sheet as it was. -/
theorem Mutation.rejected (m : Mutation) (s : Sheet) (f : Fault)
    (h : (m.edit s).result = .error f) :
    (m.edit s).sheet.revision = s.revision ∧
      ((m.edit s).sheet = s ∨ ∃ c text p, m = .paste c text ∧ place? c = some p ∧
        Obstructed s (m.edit s).sheet p (Clipboard.parse text) f) := by
  have hunchanged : (m.edit s).sheet = s → (m.edit s).sheet.revision = s.revision ∧
      ((m.edit s).sheet = s ∨ ∃ c text p, m = .paste c text ∧ place? c = some p ∧
        Obstructed s (m.edit s).sheet p (Clipboard.parse text) f) :=
    fun hsheet => ⟨congrArg Sheet.revision hsheet, .inl hsheet⟩
  cases m with
  | setValue c value => exact hunchanged (setValue_rejected h)
  | setFormat c format => exact hunchanged (setFormat_rejected h)
  | insertRow after => cases result_of_forget h
  | insertColumn after => cases result_of_forget h
  | deleteRows indices => exact hunchanged (deleteRows_rejected (result_of_forget h))
  | deleteColumns indices => exact hunchanged (deleteColumns_rejected (result_of_forget h))
  | paste c text =>
    obtain ⟨hrevision, hsheet | ⟨p, hp, hobstructed⟩⟩ := paste_rejected (result_of_forget h)
    · exact ⟨hrevision, .inl hsheet⟩
    · exact ⟨hrevision, .inr ⟨c, text, p, rfl, hp, hobstructed⟩⟩

/-- A block of cells, one of them with a type of format that there is not. -/
def marred : Sheet :=
  ⟨[[.text "a", .record [("value", .int 1), ("format", .record [("type", .text "bad")])]],
    [.text "c", .text "d"]], 8, 0⟩

/-- Pasting over it is refused at its second cell; the first one is written, and no edit counts. -/
theorem rejected_marred :
    let edited := (Mutation.paste ⟨0, 0⟩ "1\t2\n3\t4").edit marred
    edited.result = .error (.invalidFields [⟨"type", .choice⟩]) ∧
      edited.sheet.revision = marred.revision ∧ edited.sheet ≠ marred ∧
      Obstructed marred edited.sheet ⟨0, 0⟩ [["1", "2"], ["3", "4"]]
        (.invalidFields [⟨"type", .choice⟩]) := by
  intro edited
  have hresult : edited.result = .error (.invalidFields [⟨"type", .choice⟩]) := by rfl
  have hgrid : Clipboard.parse "1\t2\n3\t4" = [["1", "2"], ["3", "4"]] := by rfl
  have hsheet : edited.sheet ≠ marred := by
    intro heq
    have hfirst : storedAt edited.sheet.rows ⟨0, 0⟩ = .text "1" := by rfl
    rw [heq] at hfirst
    have hold : storedAt marred.rows ⟨0, 0⟩ = .text "a" := by rfl
    rw [hold] at hfirst
    exact absurd (Value.text.inj hfirst) (by decide)
  obtain ⟨hrevision, hunchanged | ⟨c, text, p, hpaste, hp, hobstructed⟩⟩ :=
    Mutation.rejected (.paste ⟨0, 0⟩ "1\t2\n3\t4") marred _ hresult
  · exact absurd hunchanged hsheet
  · cases hpaste
    cases hp
    rw [hgrid] at hobstructed
    exact ⟨hresult, hrevision, hsheet, hobstructed⟩

end Worksheet
