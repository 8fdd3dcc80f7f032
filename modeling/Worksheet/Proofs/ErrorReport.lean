import Worksheet.Proofs.PlainAddresses
import Worksheet.Proofs.PointEdits
import Worksheet.Proofs.Statistics

/-!
The report of errors. A cell that is not there reads as empty text, so an error is remembered only
at a cell that the sheet has, and an edit takes no cell away without counting. Showing the whole
grid leaves every cell of it remembered. So after that a session that is not stale reports exactly
the cells of the grid with an error, however it was used before.
-/
namespace Worksheet

open Sheet

/-! ### Cells that are there -/

namespace Sheet

theorem cell?_eq_bind (s : Sheet) (c : Coord) : s.cell? c = (place? c).bind (cellAt s.rows) := by
  cases hplace : place? c with
  | none => exact cell?_of_place?_eq_none s hplace
  | some p =>
    rw [eq_of_place? hplace (place?_cast p), cell?_cast]
    rfl

/-- Rows that have every cell that others have. -/
def Covers (rows' rows : List (List Value)) : Prop :=
  ∀ p, (cellAt rows p).isSome = true → (cellAt rows' p).isSome = true

variable {rows rows' rows'' : List (List Value)} {p : Place} {stop : Option Fault}

theorem Covers.refl (rows : List (List Value)) : Covers rows rows := fun _ h => h

theorem Covers.trans (h : Covers rows' rows) (h' : Covers rows'' rows') : Covers rows'' rows :=
  fun p hp => h' p (h p hp)

theorem covers_ensure (rows : List (List Value)) (p : Place) : Covers (ensure rows p) rows := by
  intro q hq
  rcases cellAt_ensure rows p q with hsame | ⟨hnone, -⟩
  · rw [hsame]
    exact hq
  · rw [hnone] at hq
    cases hq

theorem covers_store (rows : List (List Value)) (p : Place) (cell : Value) :
    Covers (store rows p cell) rows := by
  intro q hq
  by_cases hqp : q = p
  · rw [hqp] at hq ⊢
    rw [cellAt_store_self hq]
    rfl
  · rw [cellAt_store rows cell hqp]
    exact hq

theorem covers_pasteCells {cells : List String} (h : pasteCells rows p cells = (rows', stop)) :
    Covers rows' rows := by
  induction cells generalizing rows p with
  | nil =>
    cases h
    exact .refl _
  | cons text rest ih =>
    unfold pasteCells at h
    cases hcell : Cell.withValue (storedAt rows p) (.text text) with
    | error g =>
      rw [hcell] at h
      cases h
      exact .refl _
    | ok cell =>
      rw [hcell] at h
      exact (covers_store rows p cell).trans (ih h)

/-- Pasting takes no cell away, also when it stops. -/
theorem covers_pasteRows {grid : List (List String)} (h : pasteRows rows p grid = (rows', stop)) :
    Covers rows' rows := by
  induction grid generalizing rows p with
  | nil =>
    cases h
    exact .refl _
  | cons cells rest ih =>
    unfold pasteRows at h
    obtain ⟨later, met, hcells⟩ : ∃ later met,
        pasteCells (ensure rows ⟨p.row, p.col + cells.length - 1⟩) p cells = (later, met) :=
      ⟨_, _, rfl⟩
    have hrow := (covers_ensure rows _).trans (covers_pasteCells hcells)
    rw [hcells] at h
    cases met with
    | some g =>
      cases h
      exact hrow
    | none => exact hrow.trans (ih h)

/-- A sheet that has every cell that another has. -/
def Keeps (s s' : Sheet) : Prop :=
  ∀ c, (s.cell? c).isSome = true → (s'.cell? c).isSome = true

theorem Covers.keeps {s s' : Sheet} (h : Covers s'.rows s.rows) : Keeps s s' := by
  intro c hc
  rw [cell?_eq_bind] at hc ⊢
  cases hplace : place? c with
  | none =>
    rw [hplace] at hc
    cases hc
  | some p =>
    rw [hplace] at hc
    exact h p hc

end Sheet

/-- An edit that is refused takes no cell away. -/
theorem Mutation.keeps_of_rejected {m : Mutation} {s : Sheet} {f : Fault}
    (h : (m.edit s).result = .error f) : Keeps s (m.edit s).sheet := by
  obtain ⟨-, hsheet | ⟨c, text, p, rfl, hplace, -⟩⟩ := m.rejected s f h
  · rw [hsheet]
    exact fun c hc => hc
  · apply Covers.keeps
    change Covers (s.paste c text).sheet.rows s.rows
    unfold Sheet.paste
    dsimp only
    split
    · exact .refl s.rows
    · rw [hplace]
      obtain ⟨rows, stop, hrows⟩ : ∃ rows stop,
          pasteRows s.rows p (Clipboard.parse text) = (rows, stop) := ⟨_, _, rfl⟩
      dsimp only
      rw [hrows]
      -- also a paste that stopped half way has only added and replaced cells
      cases stop with
      | none => exact covers_pasteRows hrows
      | some g => exact covers_pasteRows hrows

namespace Session

open Formula Formula.Steps Relation

variable {s s' : Sheet} {memo memo' : Memo} {ses ses' : Session} {l l' : Loop} {c : Coord}

/-! ### What is kept -/

/-- Errors are remembered only at cells that the sheet has. -/
def Placed (s : Sheet) (memo : Memo) : Prop :=
  ∀ c v, (c, v) ∈ memo.entries → v.isError = true → (s.cell? c).isSome = true

theorem Placed.keep {v : Value} (h : Placed s memo)
    (hv : v.single.isError = true → (s.cell? c).isSome = true) :
    Placed s (memo.keep c v.single) := by
  intro d w hentry herror
  rcases List.mem_cons.mp hentry with heq | hentry
  · cases heq
    exact hv herror
  · exact h d w hentry herror

theorem Placed.keeps (h : Placed s memo) (hs : Keeps s s') : Placed s' memo :=
  fun c v hentry herror => hs c (h c v hentry herror)

theorem isSome_cell?_of_formula (h : (formula? (s.rawCell c)).isSome = true) :
    (s.cell? c).isSome = true := by
  cases hcell : s.cell? c with
  | some cell => rfl
  | none =>
    rw [formula?_rawCell_of_cell?_eq_none hcell] at h
    cases h

theorem isSome_cell?_of_mem_formulaCells (h : c ∈ formulaCells s) : (s.cell? c).isSome = true :=
  isSome_cell?_of_formula (List.mem_filter.mp h).2

/-- What a session keeps: it is not ahead of its sheet, remembers no cell twice, and unless it is
behind it remembers errors only at cells that the sheet has. -/
structure Kept (s : Sheet) (ses : Session) : Prop where
  revision_le : ses.revision ≤ s.revision
  nodup : (ses.memo.entries.map (·.1)).Nodup
  placed : ses.revision = s.revision → Placed s ses.memo

theorem kept_begin (sheet : Nat) (s : Sheet) (settings : Display.Settings) :
    Kept s (Session.begin sheet s settings) :=
  ⟨Nat.le_refl _, List.nodup_nil, fun _ _ _ hentry => absurd hentry List.not_mem_nil⟩

theorem Kept.edit (h : Kept s ses) (m : Mutation) : Kept (m.edit s).sheet ses := by
  have hle := h.revision_le
  cases hresult : (m.edit s).result with
  | ok u =>
    rcases m.counts s u hresult with hsheet | hrevision
    · rw [hsheet]
      exact h
    · -- the edit has counted, so the session is behind now
      refine ⟨by omega, h.nodup, fun heq => ?_⟩
      omega
  | error f =>
    have hrevision := (m.rejected s f hresult).1
    refine ⟨by omega, h.nodup, fun heq => ?_⟩
    exact (h.placed (heq.trans hrevision)).keeps (Mutation.keeps_of_rejected hresult)

/-! ### Texts that last -/

/-- A session that remembers what another does, with the same settings. -/
structure Extends (later ses : Session) : Prop where
  settings_eq : later.settings = ses.settings
  known : ∀ c v, ses.memo.find? c = some v → later.memo.find? c = some v

theorem Extends.refl (ses : Session) : Extends ses ses := ⟨rfl, fun _ _ h => h⟩

theorem Extends.trans {a b c : Session} (hab : Extends b a) (hbc : Extends c b) : Extends c a :=
  ⟨hbc.settings_eq.trans hab.settings_eq, fun d v h => hbc.known d v (hab.known d v h)⟩

/-- A cell is remembered, and a session shows it as a text. -/
def Shows (s : Sheet) (ses : Session) (c : Coord) (text : String) : Prop :=
  ∃ v, ses.memo.find? c = some v ∧
    Display.display ses.settings (.ofFields (s.cellFormat c)) v = .ok text

section InTurn
variable {α β : Type} {call : Session → α → Called β} {R : Session → α → β → Prop}

theorem inTurn_extends (hcall : ∀ ses a, Extends (call ses a).session ses) (as : List α)
    (ses : Session) : Extends (inTurn call as ses).session ses := by
  induction as generalizing ses with
  | nil => exact .refl ses
  | cons a rest ih =>
    unfold inTurn
    cases (call ses a).result with
    | error f => exact hcall ses a
    | ok b => exact (hcall ses a).trans (ih _)

/-- What holds ever after of every single call holds ever after of all calls in turn. -/
theorem inTurn_lasts (hextends : ∀ ses a, Extends (call ses a).session ses)
    (hcall : ∀ ses later a b, (call ses a).result = .ok b → Extends later (call ses a).session →
      R later a b)
    {as : List α} {bs : List β} {ses later : Session} (h : (inTurn call as ses).result = .ok bs)
    (hlater : Extends later (inTurn call as ses).session) : List.Forall₂ (R later) as bs := by
  induction as generalizing ses bs with
  | nil =>
    cases h
    exact .nil
  | cons a rest ih =>
    unfold inTurn at h hlater
    cases ha : (call ses a).result with
    | error f =>
      rw [ha] at h
      cases h
    | ok b =>
      simp only [ha] at h hlater
      cases hrest : (inTurn call rest (call ses a).session).result with
      | error f =>
        rw [hrest] at h
        cases h
      | ok others =>
        rw [hrest] at h
        cases h
        have hfirst := (inTurn_extends hextends rest (call ses a).session).trans hlater
        exact .cons (hcall ses later a b ha hfirst) (ih hrest hlater)

end InTurn

/-- A grid as a session shows it, all its cells remembered. -/
def ShowsAll (s : Sheet) (ses : Session) (grid : List (List String)) : Prop :=
  List.Forall₂ (fun r row => List.Forall₂ (Shows s ses) (gridRow s r) row)
    (List.range s.rowCount) grid

/-! ### The cells of the grid -/

/-- A position of the grid. -/
def InGrid (s : Sheet) (c : Coord) : Prop :=
  (0 ≤ c.row ∧ c.row < s.rowCount) ∧ 0 ≤ c.col ∧ c.col < s.columnCount

/-- All cells of the grid, row by row. -/
def gridCells (s : Sheet) : List Coord := (List.range s.rowCount).flatMap (gridRow s)

theorem mem_gridRow {r : Nat} :
    c ∈ gridRow s r ↔ c.row = r ∧ 0 ≤ c.col ∧ c.col < s.columnCount := by
  obtain ⟨row, col⟩ := c
  unfold gridRow
  simp only [List.mem_map, List.mem_range, Coord.mk.injEq]
  constructor
  · rintro ⟨k, hk, rfl, rfl⟩
    omega
  · rintro ⟨rfl, hnonneg, hlt⟩
    exact ⟨col.toNat, by omega, rfl, by omega⟩

theorem mem_gridCells : c ∈ gridCells s ↔ InGrid s c := by
  unfold gridCells InGrid
  simp only [List.mem_flatMap, List.mem_range, mem_gridRow]
  constructor
  · rintro ⟨r, hr, hrow, hcol⟩
    exact ⟨by omega, hcol⟩
  · rintro ⟨hrow, hcol⟩
    exact ⟨c.row.toNat, by omega, by omega, hcol⟩

theorem nodup_gridCells (s : Sheet) : (gridCells s).Nodup := by
  apply List.nodup_flatMap.mpr
  refine ⟨fun r hr => ?_, ?_⟩
  · apply List.Nodup.map _ List.nodup_range
    intro i j heq
    simpa using heq
  · apply List.nodup_range.imp
    intro r r' hne c hc hc'
    have hrow := (mem_gridRow.mp hc).1
    have hrow' := (mem_gridRow.mp hc').1
    omega

/-- A cell that the sheet has is in the grid. -/
theorem inGrid_of_isSome (h : (s.cell? c).isSome = true) : InGrid s c := by
  obtain ⟨cell, hcell⟩ := Option.isSome_iff_exists.mp h
  rw [cell?_eq_bind] at hcell
  obtain ⟨p, hplace, hcell⟩ := Option.bind_eq_some_iff.mp hcell
  obtain ⟨row, hrow, hcol⟩ := Option.bind_eq_some_iff.mp hcell
  have hheight : p.row < s.rows.length := (List.getElem?_eq_some_iff.mp hrow).1
  have hwidth : p.col < row.length := (List.getElem?_eq_some_iff.mp hcol).1
  have hlength : row.length ≤ s.columnCount.toNat :=
    length_le_columnCount (List.mem_of_getElem? hrow)
  rw [eq_of_place? hplace (place?_cast p)]
  unfold InGrid Sheet.rowCount
  dsimp only
  omega

/-- Every cell of a grid that is shown is remembered. -/
theorem ShowsAll.known {grid : List (List String)} (h : ShowsAll s ses grid) (hc : InGrid s c) :
    ∃ v, ses.memo.find? c = some v := by
  have hrow {r : Nat} {row : List String} (hrow : List.Forall₂ (Shows s ses) (gridRow s r) row) :
      ∀ c ∈ gridRow s r, ∃ v, ses.memo.find? c = some v := by
    have hknown := hrow.imp fun c text (hshows : Shows s ses c text) =>
      And.intro (hshows.imp fun v hv => hv.1) hshows
    exact ((List.forall₂_and_left _ _).mp hknown).1
  have hrows := h.imp fun r row hshows => And.intro (hrow hshows) hshows
  obtain ⟨r, hr, hcell⟩ := List.mem_flatMap.mp (mem_gridCells.mpr hc)
  exact ((List.forall₂_and_left _ _).mp hrows).1 r hr c hcell

theorem ShowsAll.shape {grid : List (List String)} (h : ShowsAll s ses grid) :
    grid.length = s.rowCount ∧ ∀ row ∈ grid, row.length = s.columnCount.toNat := by
  have hflip : List.Forall₂ (fun row r => List.Forall₂ (Shows s ses) (gridRow s r) row) grid
      (List.range s.rowCount) := List.Forall₂.flip h
  have hlength {r : Nat} {row : List String}
      (hrow : List.Forall₂ (Shows s ses) (gridRow s r) row) :
      row.length = s.columnCount.toNat := by
    rw [← hrow.length_eq, gridRow, List.length_map, List.length_range]
  have hrows := hflip.imp fun row r hrow => And.intro (hlength hrow) hrow
  refine ⟨?_, ((List.forall₂_and_left _ _).mp hrows).1⟩
  rw [← List.Forall₂.length_eq h, List.length_range]

/-! ### Errors by address -/

/-- In a memory that has no cell twice, what is remembered is found. -/
theorem find?_eq_some_iff {v : Value} (h : (memo.entries.map (·.1)).Nodup) :
    memo.find? c = some v ↔ (c, v) ∈ memo.entries := Value.lookup_eq_some_iff_mem h

theorem error?_eq_some_iff {v : Value} {code : ErrorCode} :
    v.error? = some code ↔ v = .error code := by
  cases v <;> simp [Value.error?]

theorem mem_errors {code : ErrorCode} :
    (c, code) ∈ memo.errors ↔ (c, .error code) ∈ memo.entries := by
  unfold Memo.errors
  simp only [List.mem_filterMap, List.mem_reverse, Option.map_eq_some_iff, Prod.mk.injEq,
    error?_eq_some_iff]
  constructor
  · rintro ⟨⟨d, v⟩, hentry, other, hv, rfl, rfl⟩
    dsimp only at hv
    rw [← hv]
    exact hentry
  · intro hentry
    exact ⟨_, hentry, code, rfl, rfl, rfl⟩

theorem nodup_errors (h : (memo.entries.map (·.1)).Nodup) : (memo.errors.map (·.1)).Nodup := by
  unfold List.Nodup at h ⊢
  rw [List.pairwise_map] at h ⊢
  apply List.pairwise_filterMap.mpr
  apply List.pairwise_reverse.mpr
  apply h.imp
  intro entry other hne found hfound found' hfound'
  obtain ⟨code, -, rfl⟩ := Option.map_eq_some_iff.mp hfound
  obtain ⟨code', -, rfl⟩ := Option.map_eq_some_iff.mp hfound'
  exact Ne.symm hne

/-- The cells of a grid have addresses, as its row numbers are not too long to be written. -/
theorem addressable_of_inGrid (hrows : s.rowCount < 10 ^ digitLimit) (hc : InGrid s c) :
    c.Addressable := by
  have hle : (c.row + 1).toNat ≤ s.rowCount := by
    have hrow := hc.1
    omega
  exact ⟨hc.1.1, hc.2.1, Nat.lt_of_le_of_lt hle hrows⟩

section Frames
variable [CallStack]

/-! ### Errors that are remembered -/

/-- A cell that is not there finishes at once, and not with an error. -/
theorem openCell_of_cell?_eq_none (h : s.cell? c = none) :
    (openCell s c).steps = .done (.text "") := by
  rw [openCell_steps_of_not_formula (formula?_rawCell_of_cell?_eq_none h)]
  unfold Sheet.rawCell Sheet.cellData
  rw [h]
  rfl

/-- A level that finishes with an error is that of a cell that is there. -/
theorem Loop.Layered.isSome_cell? (h : l.Layered s) {level : Level} (hlevel : level ∈ l.levels)
    {v : Value} (hsteps : (level.send s l.reply).steps = .done v)
    (herror : v.single.isError = true) : (s.cell? level.cell).isSome = true := by
  cases hgenerator : level.generator with
  | fresh =>
    unfold Level.send at hsteps
    rw [hgenerator] at hsteps
    cases hcell : s.cell? level.cell with
    | some cell => rfl
    | none =>
      rw [openCell_of_cell?_eq_none hcell] at hsteps
      cases hsteps
      cases herror
  | waiting next =>
    apply isSome_cell?_of_mem_formulaCells
    apply h.formula level hlevel
    rw [hgenerator]
    exact nofun

/-- Every pass preserves where errors are remembered. -/
theorem Placed.next (h : Placed s l.books.memo) (hconsistent : Consistent s memo l)
    (hlayered : l.Layered s) (hp : l.pass s = .next l') : Placed s l'.books.memo := by
  have hpassed := hconsistent.passed
  rw [hp] at hpassed
  cases hpassed with
  | finished hlevels hsteps hbooks hmemo =>
    dsimp only
    rw [hmemo]
    apply h.keep
    intro herror
    exact hlayered.isSome_cell? (hlevels ▸ List.mem_cons_self) hsteps herror
  | known => exact h
  | repeated => exact h
  | entered => exact h

theorem Placed.leads (h : Placed s l.books.memo) (hconsistent : Consistent s memo l)
    (hlayered : l.Layered s) (hl : l.Leads s l') : Placed s l'.books.memo := by
  induction hl with
  | refl => exact h
  | tail hl hp ih => exact ih.next (hconsistent.leads hl) (hlayered.leads hl) hp

theorem Lookup.placed {k : Lookup} (h : Placed k.sheet k.memo) :
    Placed k.sheet k.outcome.memo := by
  rcases k.memo_outcome with hhit | ⟨hunknown, last, hl, hmemo⟩
  · rw [hhit]
    exact h
  · rw [hmemo]
    exact Placed.leads (l := Loop.begin (.idle k.memo) k.cell) h (Consistent.begin hunknown)
      (Loop.begin_layered k.sheet _ k.cell) hl

/-! ### Sessions in use -/

/-- A session beside its sheet: it was begun on it, and since then there were calls, and edits that
returned or were refused. -/
inductive InUse : Sheet → Session → Prop
  | begun (sheet : Nat) (s : Sheet) (settings : Display.Settings) :
      InUse s (Session.begin sheet s settings)
  | called {s : Sheet} {ses : Session} (request : Request) (h : InUse s ses) :
      InUse s (serve s ses request)
  | edited {s : Sheet} {ses : Session} (m : Mutation) (h : InUse s ses) :
      InUse (m.edit s).sheet ses

theorem Kept.serve (h : Kept s ses) (request : Request) : Kept s (serve s ses request) := by
  have hchained := chained_lookups s ses request
  have hrevision := (serve_continues (s := s) ses request).revision_eq
  refine ⟨hrevision ▸ h.revision_le, ?_, fun heq => ?_⟩
  · exact hchained.nodup_keys h.nodup
  · refine hchained.preserves (P := Placed s) (fun k hk hplaced => ?_)
      (h.placed (hrevision.symm.trans heq))
    rw [← sheet_of_mem_lookups k hk] at hplaced ⊢
    exact Lookup.placed hplaced

theorem InUse.kept (h : InUse s ses) : Kept s ses := by
  induction h with
  | begun sheet s settings => exact kept_begin sheet s settings
  | called request h ih => exact ih.serve request
  | edited m h ih => exact ih.edit m

/-! ### What is shown -/

/-- A value that is returned is remembered. -/
theorem find?_resolve {v : Value} (h : (resolve s memo c).result = .ok v) :
    (resolve s memo c).memo.find? c = some v := by
  cases hfind : memo.find? c with
  | some w =>
    unfold resolve at h ⊢
    rw [hfind] at h ⊢
    cases h
    exact hfind
  | none =>
    rw [resolve_eq_retrieve, retrieve_of_fresh hfind List.not_mem_nil] at h ⊢
    generalize (openCell s c).steps.run (retrieve s [c]) Remembering.fail = x at h ⊢
    cases hx : (x.run memo.miss).result with
    | error f =>
      rw [Remembering.run_bind_of_error _ _ hx] at h
      cases h
    | ok w =>
      rw [Remembering.run_bind_of_ok _ _ hx] at h ⊢
      cases h
      exact (Memo.find?_keep _ c c _).trans (if_pos rfl)

theorem displayValue_extends (ses : Session) (c : Coord) :
    Extends (ses.displayValue s c).session ses := by
  refine ⟨(displayValue_continues ses c).settings_eq, fun d v hd => ?_⟩
  rw [displayValue_memo]
  exact (resolve_keeps s ses.memo c).2.1 d v hd

/-- What a session has shown is shown the same ever after. -/
theorem shows_of_displayValue {later : Session} {text : String}
    (h : (ses.displayValue s c).result = .ok text)
    (hlater : Extends later (ses.displayValue s c).session) : Shows s later c text := by
  cases hvalue : (ses.value s c).result with
  | error f =>
    rw [displayValue_of_error hvalue] at h
    cases h
  | ok v =>
    rw [displayValue_of_ok hvalue] at h hlater
    exact ⟨v, hlater.known c v (find?_resolve hvalue), hlater.settings_eq ▸ h⟩

theorem Shows.displayValue {text : String} (h : Shows s ses c text) :
    (ses.displayValue s c).result = .ok text := by
  obtain ⟨v, hfind, htext⟩ := h
  have hvalue : (ses.value s c).result = .ok v := by
    unfold value resolve
    rw [hfind]
  rw [displayValue_of_ok hvalue]
  exact htext

theorem evaluateAll_of_ok {grid : List (List String)}
    (h : (displayRows s (List.range s.rowCount) ses).result = .ok grid) :
    let shown := displayRows s (List.range s.rowCount) ses
    ses.evaluateAll s =
      ⟨shown.session, .ok grid, shown.events ++ [shown.session.renderEvent s]⟩ := by
  unfold evaluateAll
  simp only [h]

/-- The session that has shown the whole grid shows it the same ever after. -/
theorem showsAll_of_evaluateAll {grid : List (List String)}
    (h : (ses.evaluateAll s).result = .ok grid) :
    ShowsAll s (ses.evaluateAll s).session grid := by
  rw [result_displayRows] at h
  rw [evaluateAll_of_ok h]
  rw [displayRows_eq_inTurn] at h ⊢
  have hextends (ses : Session) (r : Nat) :
      Extends (displayAll s (gridRow s r) ses).session ses := by
    rw [displayAll_eq_inTurn]
    exact inTurn_extends displayValue_extends _ ses
  refine inTurn_lasts (R := fun later r row => List.Forall₂ (Shows s later) (gridRow s r) row)
    hextends (fun ses later r row hrow hlater => ?_) h (.refl _)
  rw [displayAll_eq_inTurn] at hrow hlater
  exact inTurn_lasts displayValue_extends
    (fun ses later c text htext hlater => shows_of_displayValue htext hlater) hrow hlater

/-! ### The report -/

theorem ShowsAll.showsGrid {grid : List (List String)} (h : ShowsAll s ses grid) :
    ShowsGrid s (fun c => (ses.displayValue s c).result) grid :=
  h.imp fun _ _ hrow => hrow.imp fun _ _ hshows => hshows.displayValue

/-- Whether a session gives an error for a cell. -/
def givesError (s : Sheet) (ses : Session) (c : Coord) : Bool :=
  match (ses.value s c).result with
  | .ok v => v.isError
  | .error _ => false

theorem value_of_known {v : Value} (h : ses.memo.find? c = some v) :
    (ses.value s c).result = .ok v := by
  unfold value resolve
  rw [h]

section Shown
variable (hkept : Kept s ses) (hrevision : ses.revision = s.revision) {grid : List (List String)}
  (hgrid : ShowsAll s ses grid)

include hkept hrevision hgrid

/-- A session that shows the whole grid reports the cells of the grid for which it gives an error,
and no others. -/
theorem mem_errors_iff (c : Coord) (code : ErrorCode) :
    (c, code) ∈ ses.memo.errors ↔ InGrid s c ∧ (ses.value s c).result = .ok (.error code) := by
  rw [mem_errors]
  constructor
  · intro hentry
    refine ⟨inGrid_of_isSome (hkept.placed hrevision c _ hentry rfl), ?_⟩
    exact value_of_known ((find?_eq_some_iff hkept.nodup).mpr hentry)
  · rintro ⟨hc, hvalue⟩
    obtain ⟨v, hv⟩ := hgrid.known hc
    rw [value_of_known hv] at hvalue
    cases hvalue
    exact (find?_eq_some_iff hkept.nodup).mp hv

/-- So it reports as many as there are. -/
theorem length_errors : ses.errors.length = (gridCells s).countP (givesError s ses) := by
  have hperm : (ses.memo.errors.map (·.1)).Perm ((gridCells s).filter (givesError s ses)) := by
    apply (List.perm_ext_iff_of_nodup (nodup_errors hkept.nodup)
      ((nodup_gridCells s).filter _)).mpr
    intro c
    rw [List.mem_filter, mem_gridCells, List.mem_map]
    constructor
    · rintro ⟨⟨d, code⟩, hlisted, rfl⟩
      obtain ⟨hd, hvalue⟩ := (mem_errors_iff hkept hrevision hgrid d code).mp hlisted
      refine ⟨hd, ?_⟩
      unfold givesError
      rw [hvalue]
      rfl
    · rintro ⟨hc, hgives⟩
      unfold givesError at hgives
      obtain ⟨v, hv⟩ := hgrid.known hc
      have hvalue := value_of_known (s := s) hv
      rw [hvalue] at hgives
      obtain ⟨code, hcode⟩ := Option.isSome_iff_exists.mp hgives
      rw [error?_eq_some_iff.mp hcode] at hvalue
      exact ⟨(c, code), (mem_errors_iff hkept hrevision hgrid c code).mpr ⟨hc, hvalue⟩, rfl⟩
  unfold errors
  rw [List.length_map, List.countP_eq_length_filter, ← hperm.length_eq, List.length_map]

/-- Different cells are reported under different addresses. -/
theorem nodup_keys_errors (hrows : s.rowCount < 10 ^ digitLimit) :
    (ses.errors.map (·.1)).Nodup := by
  have hkeys : ses.errors.map (·.1) = (ses.memo.errors.map (·.1)).map addressText := by
    rw [errors, List.map_map, List.map_map]
    rfl
  have haddressable : ∀ c ∈ ses.memo.errors.map (·.1), c.Addressable := by
    intro c hc
    obtain ⟨⟨c, code⟩, hlisted, rfl⟩ := List.mem_map.mp hc
    have hgridded := (mem_errors_iff hkept hrevision hgrid c code).mp hlisted
    exact addressable_of_inGrid hrows hgridded.1
  rw [hkeys]
  apply List.Nodup.map_on _ (nodup_errors hkept.nodup)
  intro c hc d hd heq
  apply Coord.eq_of_address_eq (haddressable c hc) (haddressable d hd)
  rw [addressText_of_addressable (haddressable c hc),
    addressText_of_addressable (haddressable d hd)]
  exact congrArg Except.ok heq

/-- What stands in the report: the addresses of the cells, with their errors. -/
theorem mem_keyed_errors_iff (hrows : s.rowCount < 10 ^ digitLimit) (key : String)
    (code : ErrorCode) :
    (key, code) ∈ ses.errors ↔ ∃ c, InGrid s c ∧ c.address = .ok key ∧
      (ses.value s c).result = .ok (.error code) := by
  have hmem := mem_errors_iff hkept hrevision hgrid
  unfold errors
  rw [List.mem_map]
  constructor
  · rintro ⟨⟨c, other⟩, hlisted, heq⟩
    cases heq
    obtain ⟨hc, hvalue⟩ := (hmem c code).mp hlisted
    exact ⟨c, hc, addressText_of_addressable (addressable_of_inGrid hrows hc), hvalue⟩
  · rintro ⟨c, hc, haddress, hvalue⟩
    refine ⟨(c, code), (hmem c code).mpr ⟨hc, hvalue⟩, ?_⟩
    rw [addressText_of_addressable (addressable_of_inGrid hrows hc)] at haddress
    exact congrArg (·, code) (Except.ok.inj haddress)

end Shown

/-- The last event of showing the whole grid is that of its completion. -/
theorem getLast?_events_evaluateAll {grid : List (List String)}
    (h : (ses.evaluateAll s).result = .ok grid) :
    (ses.evaluateAll s).events.getLast? = some ((ses.evaluateAll s).session.renderEvent s) := by
  rw [result_displayRows] at h
  rw [evaluateAll_of_ok h, List.getLast?_concat]

/-- Once a session that is not stale has shown the whole grid, however it was used before, the grid
has a row for each row of the sheet, each with a text for each column, and shows what the session
gives for its cells. The session reports each cell of the grid for which it gives an error, once and
with that error, and nothing else, so the event tells how many there are. The keys of the report are
the addresses of the cells, which are all different. -/
theorem errors_of_grid (huse : InUse s ses) (hfresh : ses.isStale s = false)
    {grid : List (List String)} (hgrid : (ses.evaluateAll s).result = .ok grid) :
    let called := ses.evaluateAll s
    let after := called.session
    (grid.length = s.rowCount ∧ ∀ row ∈ grid, row.length = s.columnCount.toNat) ∧
    ShowsGrid s (fun c => (after.displayValue s c).result) grid ∧
    (∃ listed : List (Coord × ErrorCode),
      after.errors = listed.map (fun entry => (addressText entry.1, entry.2)) ∧
      (listed.map (·.1)).Nodup ∧
      ∀ c code, (c, code) ∈ listed ↔
        InGrid s c ∧ (after.value s c).result = .ok (.error code)) ∧
    (s.rowCount < 10 ^ digitLimit →
      (after.errors.map (·.1)).Nodup ∧
      ∀ key code, (key, code) ∈ after.errors ↔
        ∃ c, InGrid s c ∧ c.address = .ok key ∧ (after.value s c).result = .ok (.error code)) ∧
    ∃ event, called.events.getLast? = some event ∧ event.type = .renderCompleted ∧
      event.context.lookup "errors" = some (.int ((gridCells s).countP (givesError s after))) := by
  intro called after
  have hkept : Kept s after := (huse.called .all).kept
  have hrevision : after.revision = s.revision := by
    have hcontinues : after.revision = ses.revision := (evaluateAll_continues ses).revision_eq
    rw [isStale, bne_eq_false_iff_eq] at hfresh
    exact hcontinues.trans hfresh.symm
  have hshows : ShowsAll s after grid := showsAll_of_evaluateAll hgrid
  refine ⟨hshows.shape, hshows.showsGrid, ⟨after.memo.errors, rfl, nodup_errors hkept.nodup,
    mem_errors_iff hkept hrevision hshows⟩, fun hrows => ?_, ?_⟩
  · exact ⟨nodup_keys_errors hkept hrevision hshows hrows,
      mem_keyed_errors_iff hkept hrevision hshows hrows⟩
  · refine ⟨_, getLast?_events_evaluateAll hgrid, rfl, ?_⟩
    have hlength := length_errors hkept hrevision hshows
    rw [← hlength]
    rfl

end Frames

attribute [local instance] CallStack.usual

/-- Two cells that name each other are both reported, under their addresses, and the cell beside
them is not. -/
theorem errors_of_grid_ring :
    let used := serveAll ring (Session.begin 0 ring plainSettings) [.value ⟨0, 1⟩]
    let after := (used.evaluateAll ring).session
    after.errors = [("A1", .cycle), ("B1", .cycle)] ∧ (after.errors.map (·.1)).Nodup ∧
      ∀ key code, (key, code) ∈ after.errors ↔ ∃ c, InGrid ring c ∧ c.address = .ok key ∧
        (after.value ring c).result = .ok (.error code) := by
  intro used after
  have huse : InUse ring used := (InUse.begun 0 ring plainSettings).called (.value ⟨0, 1⟩)
  have hlimit : ring.rowCount < 10 ^ digitLimit := Nat.one_lt_pow (by decide) (by decide)
  have herrors : after.errors = [("A1", .cycle), ("B1", .cycle)] := by
    have hrange : List.range ring.rowCount = [0] := by decide
    have hrow : gridRow ring 0 = [⟨0, 0⟩, ⟨0, 1⟩, ⟨0, 2⟩] := by decide
    simp only [after, used, serveAll, serve, evaluateAll, hrange, displayRows, hrow, displayAll,
      displayValue, value, resolve_eq_retrieve, List.foldl, Session.begin]
    decide +kernel
  obtain ⟨-, -, -, hkeys, -⟩ := errors_of_grid huse rfl evaluateAll_ring
  exact ⟨herrors, hkeys hlimit⟩

end Session
end Worksheet
