import Worksheet.Proofs.Bookkeeping

/-!
Resolution with its books. The loop over suspended cells, with a stack and a set of the cells under
evaluation, ends as the machine without them does: every turn of the machine is a pass of the loop,
or two when a cell is entered that answers at once. So after every resolution, whether it returned
or stopped with a fault, nothing is under evaluation, and the memory has what it had before and the
cells that have finished.
-/
namespace Worksheet.Session

open Formula Formula.Steps Relation

section Frames
variable [CallStack]

/-- What a resolution leaves when nothing is under evaluation any more. -/
def Ended.ofOutcome (o : Outcome Value) : Ended := ⟨.idle o.memo, o.result, o.events⟩

/-! ### Passes and turns -/

/-- A level as a suspended cell. -/
def Level.frame (s : Sheet) (level : Level) : Frame :=
  ⟨level.cell, fun v => (level.send s v).steps⟩

/-- The machine that goes on as a loop does. -/
def Loop.machine (s : Sheet) (l : Loop) (level : Level) (below : List Level) : Machine :=
  ⟨l.books.memo, level.cell, (level.send s l.reply).steps, below.map (Level.frame s),
    l.events ++ (level.send s l.reply).events⟩

variable {s : Sheet} {memo : Memo} {l l' : Loop} {c : Coord} {level : Level} {below : List Level}

/-- A machine is where a loop comes to. -/
def Loop.Reaches (s : Sheet) (l : Loop) (m : Machine) : Prop :=
  ∃ l' level below, l.Leads s l' ∧ l'.levels = level :: below ∧ l'.machine s level below = m

/-- An outcome is what a loop comes to. -/
def Loop.Yields (s : Sheet) (l : Loop) (o : Outcome Value) : Prop :=
  ∃ l', l.Leads s l' ∧ l'.pass s = .over (.ofOutcome o)

theorem Loop.Leads.yields {o : Outcome Value} (hl : l.Leads s l') (h : l'.Yields s o) :
    l.Yields s o := by
  obtain ⟨l'', hl', hover⟩ := h
  exact ⟨l'', ReflTransGen.trans hl hl', hover⟩

theorem active_machine (h : Balanced l) (hlevels : l.levels = level :: below) :
    (l.machine s level below).active = l.books.stack := by
  rw [h.stack_eq, hlevels, List.map_cons, Machine.active, Loop.machine, List.map_map]
  rfl

/-- Finishing a cell goes on with the level below, which waits for the value, or is the end. -/
theorem turn_of_finished (h : Consistent s memo l) (hlevels : l.levels = level :: below) {v : Value}
    (hsteps : (level.send s l.reply).steps = .done v) {books : Books}
    (hp : l.pass s =
      .next ⟨books, below, v.single, l.events ++ (level.send s l.reply).events⟩)
    (hmemo : books.memo = l.books.memo.keep level.cell v.single) :
    match (l.machine s level below).step s with
    | .next m => l.Reaches s m
    | .over o => l.Yields s o := by
  have hturn : (l.machine s level below).step s = (l.machine s level below).leave v := by
    have hmachine : (l.machine s level below).steps = .done v := hsteps
    simp only [Machine.step, hmachine]
  have hnext := h.next hp
  rw [hturn]
  cases below with
  | nil =>
    refine ⟨_, .single hp, ?_⟩
    have hbooks := hnext.eq_idle rfl
    dsimp only at hbooks
    rw [Loop.pass, hbooks, hmemo]
    rfl
  | cons under rest =>
    refine ⟨_, under, rest, .single hp, rfl, ?_⟩
    have hquiet : (under.send s v.single).events = [] := by
      have hstarted := h.started
      rw [hlevels] at hstarted
      have hgenerator := hstarted under List.mem_cons_self
      unfold Level.send
      cases hg : under.generator with
      | fresh => exact absurd hg hgenerator
      | waiting next => rfl
    simp only [Loop.machine, hmemo, hquiet, List.append_nil]
    rfl

/-- Entering a cell suspends the one that asked for it; a cell that answers at once is finished in
the pass after. -/
theorem turn_of_entered (h : Consistent s memo l) {resume : Value → Steps}
    (hp : l.pass s = .next ⟨l.books.enter c, ⟨c, .fresh⟩ :: ⟨level.cell, .waiting resume⟩ :: below,
      .null, l.events ++ (level.send s l.reply).events⟩) :
    l.Reaches s (Machine.enter s (l.machine s level below) c resume) := by
  have hnext := h.next hp
  cases hv : (openCell s c).steps with
  | done v =>
    have hsent : ((Level.mk c .fresh).send s .null).steps = .done v := hv
    obtain ⟨books, hbooks, hmemo, -⟩ := hnext.finish rfl v
    have hp' : Loop.pass s ⟨l.books.enter c, ⟨c, .fresh⟩ :: ⟨level.cell, .waiting resume⟩ :: below,
        .null, l.events ++ (level.send s l.reply).events⟩ =
        .next ⟨books, ⟨level.cell, .waiting resume⟩ :: below, v.single,
          l.events ++ (level.send s l.reply).events ++ (openCell s c).events⟩ := by
      simp only [Loop.pass, hsent]
      rw [hbooks]
      rfl
    have hfirst : l.Leads s _ := .single hp
    refine ⟨_, _, _, ReflTransGen.tail hfirst hp', rfl, ?_⟩
    simp only [Loop.machine, Machine.enter, hv, hmemo, Level.send_waiting, List.append_nil]
    rfl
  | fault f =>
    refine ⟨_, _, _, .single hp, rfl, ?_⟩
    simp only [Loop.machine, Machine.enter, hv, Level.send_fresh]
    rfl
  | ask d next =>
    refine ⟨_, _, _, .single hp, rfl, ?_⟩
    simp only [Loop.machine, Machine.enter, hv, Level.send_fresh]
    rfl

/-- A turn of the machine is a pass of the loop, or two of them. -/
theorem turn_of_passes (h : Consistent s memo l) (hlevels : l.levels = level :: below) :
    match (l.machine s level below).step s with
    | .next m => l.Reaches s m
    | .over o => l.Yields s o := by
  have hactive := active_machine (s := s) h.toBalanced hlevels
  have hpassed := h.passed
  generalize hp : l.pass s = p at hpassed
  cases hpassed with
  | ended hnone =>
    rw [hnone] at hlevels
    cases hlevels
  | @failed _ _ f hsame hsteps =>
    cases hlevels.symm.trans hsame
    have hturn : (l.machine s level below).step s = .over ⟨l.books.memo, .error f,
        l.events ++ (level.send s l.reply).events⟩ := by
      have hmachine : (l.machine s level below).steps = .fault f := hsteps
      simp only [Machine.step, hmachine]
      rfl
    rw [hturn]
    exact ⟨l, .refl, hp⟩
  | finished hsame hsteps hbooks hmemo =>
    cases hlevels.symm.trans hsame
    exact turn_of_finished h hlevels hsteps hp hmemo
  | @known _ _ d resume v hsame hsteps hknown =>
    cases hlevels.symm.trans hsame
    have hmachine : (l.machine s level below).steps = .ask d resume := hsteps
    have hfind : (l.machine s level below).memo.find? d = some v := hknown
    simp only [Machine.step, hmachine, hfind]
    refine ⟨_, _, _, .single hp, rfl, ?_⟩
    simp only [Loop.machine, Level.send_waiting, List.append_nil]
    rfl
  | @repeated _ _ d resume hsame hsteps hunknown hd =>
    cases hlevels.symm.trans hsame
    have hmachine : (l.machine s level below).steps = .ask d resume := hsteps
    have hfind : (l.machine s level below).memo.find? d = none := hunknown
    simp only [Machine.step, hmachine, hfind, hactive, if_pos hd]
    refine ⟨_, _, _, .single hp, rfl, ?_⟩
    simp only [Loop.machine, Level.send_waiting, List.append_nil]
  | @entered _ _ d resume hsame hsteps hunknown hd =>
    cases hlevels.symm.trans hsame
    have hmachine : (l.machine s level below).steps = .ask d resume := hsteps
    have hfind : (l.machine s level below).memo.find? d = none := hunknown
    simp only [Machine.step, hmachine, hfind, hactive, if_neg hd]
    exact turn_of_entered h hp

/-- A loop comes to the outcome of the machine that goes on as it does. -/
theorem yields_run (m : Machine) (h : Consistent s memo l) (hlevels : l.levels = level :: below)
    (hm : l.machine s level below = m) : l.Yields s (m.run s) := by
  induction m using Machine.run.induct s generalizing l level below with
  | case1 m o hturn =>
    have hpasses := turn_of_passes h hlevels
    rw [hm, hturn] at hpasses
    rw [Machine.run_of_over hturn]
    exact hpasses
  | case2 m m' hturn ih =>
    have hpasses := turn_of_passes h hlevels
    rw [hm, hturn] at hpasses
    obtain ⟨l', level', below', hl, hlevels', hm'⟩ := hpasses
    rw [Machine.run_of_next hturn]
    exact hl.yields (ih (h.leads hl) hlevels' hm')

/-! ### Resolutions -/

theorem pass_rightUnique : Relator.RightUnique fun l l' : Loop => l.pass s = .next l' := by
  intro l l' l'' h h'
  rw [h] at h'
  cases h'
  rfl

/-- A loop that is over has come to its end. -/
theorem eq_of_leads_of_over {e : Ended} (hl : l.Leads s l') (h : l.pass s = .over e) : l' = l := by
  rcases ReflTransGen.cases_head hl with heq | ⟨l'', hnext, -⟩
  · exact heq.symm
  · rw [h] at hnext
    cases hnext

theorem over_unique {l₁ l₂ : Loop} {e₁ e₂ : Ended} (hl₁ : l.Leads s l₁)
    (h₁ : l₁.pass s = .over e₁) (hl₂ : l.Leads s l₂) (h₂ : l₂.pass s = .over e₂) : e₁ = e₂ := by
  have hsame : l₁ = l₂ := by
    rcases ReflTransGen.total_of_right_unique pass_rightUnique hl₁ hl₂ with h | h
    · exact (eq_of_leads_of_over h h₁).symm
    · exact eq_of_leads_of_over h h₂
  rw [hsame, h₂] at h₁
  cases h₁
  rfl

/-- A session with nothing under evaluation resolves a cell as the machine does, and has nothing
under evaluation afterwards. -/
theorem resolves_iff (s : Sheet) (memo : Memo) (c : Coord) (e : Ended) :
    (Books.idle memo).Resolves s c e ↔ e = .ofOutcome (resolve s memo c) := by
  have hidle : c ∉ (Books.idle memo).inProgress := Finset.notMem_empty c
  unfold resolve
  cases hfind : memo.find? c with
  | some v =>
    constructor
    · rintro (hknown | ⟨-, hactive, -⟩ | ⟨⟨hunknown, -⟩, -⟩)
      · cases hfind.symm.trans hknown
        rfl
      · exact absurd hactive hidle
      · cases hfind.symm.trans hunknown
    · rintro rfl
      exact .known hfind
  | none =>
    obtain ⟨l, hl, hover⟩ := yields_run (Machine.start s memo c) (Consistent.begin hfind) rfl rfl
    constructor
    · rintro (hknown | ⟨-, hactive, -⟩ | ⟨⟨-, -, hl'⟩, hover'⟩)
      · cases hfind.symm.trans hknown
      · exact absurd hactive hidle
      · exact over_unique hl' hover' hl hover
    · rintro rfl
      exact .looped ⟨hfind, hidle, hl⟩ hover

/-- Between resolutions nothing is under evaluation. -/
theorem Books.Served.eq_idle {b : Books} (h : b.Served) : b = .idle b.memo := by
  induction h with
  | fresh => rfl
  | @resolved s b c e _ he ih =>
    rw [ih, resolves_iff] at he
    rw [he]
    rfl

/-- What a resolution leaves of what was remembered before it, and what it warns of. -/
theorem resolve_keeps (s : Sheet) (memo : Memo) (c : Coord) :
    memo.entries <:+ (resolve s memo c).memo.entries ∧
    (∀ d v, memo.find? d = some v → (resolve s memo c).memo.find? d = some v) ∧
    ∀ event ∈ (resolve s memo c).events, event.type = .formulaCycle →
      ∃ d, TellsCircuit s d event := by
  cases hfind : memo.find? c with
  | some v =>
    have ho : resolve s memo c = ⟨memo.hit, .ok v, []⟩ := by
      unfold resolve
      rw [hfind]
    rw [ho]
    exact ⟨List.suffix_refl _, fun d w hd => hd, fun event hevent => absurd hevent List.not_mem_nil⟩
  | none =>
    have hresolves := (resolves_iff s memo c _).mpr rfl
    generalize he : Ended.ofOutcome (resolve s memo c) = e at hresolves
    cases hresolves with
    | known hknown => cases hfind.symm.trans hknown
    | repeated _ hactive _ => exact absurd hactive (Finset.notMem_empty c)
    | @looped l _ hl hover =>
      have hend := (Consistent.begin hfind).leads hl.2.2
      rw [← he] at hover
      obtain ⟨hbooks, hevents⟩ := hend.over hover
      have hmemo : (resolve s memo c).memo = l.books.memo := congrArg Books.memo hbooks
      rw [hmemo]
      exact ⟨hend.older, hend.kept, hevents⟩

/-- In any session, at every pass of a resolution, the levels, the stack and the set are the same
cells, none of them twice or remembered; so a cell that is asked for again is on the stack, and the
warning tells of a circuit of references. The resolution ends, with a value or with a fault, and
then nothing is under evaluation, no cell that still was is remembered, and every cell remembered
before is so with the same value. -/
theorem books_of_resolution (b : Books) (hb : b.Served) (s : Sheet) (c : Coord) :
    let o := resolve s b.memo c
    (∀ l, b.Runs s c l →
      Balanced l ∧ l.pass s ≠ .lost ∧
      (∀ d, l.AsksAgain s d → d ∈ l.books.stack ∧ ∃ l' event, l.pass s = .next l' ∧
        l'.events.getLast? = some event ∧ TellsCircuit s d event) ∧
      ∀ e, l.pass s = .over e → ∀ d ∈ l.books.stack, e.books.memo.find? d = none) ∧
    (∀ e, b.Resolves s c e ↔ e = ⟨⟨o.memo, [], ∅⟩, o.result, o.events⟩) ∧
    b.memo.entries <:+ o.memo.entries ∧
    (∀ d v, b.memo.find? d = some v → o.memo.find? d = some v) ∧
    ∀ event ∈ o.events, event.type = .formulaCycle → ∃ d, TellsCircuit s d event := by
  intro o
  have hidle := hb.eq_idle
  refine ⟨fun l hl => ?_, fun e => ?_, resolve_keeps s b.memo c⟩
  · obtain ⟨hunknown, -, hl⟩ := hl
    rw [hidle] at hl
    have h := (Consistent.begin hunknown).leads hl
    refine ⟨h.toBalanced, h.not_lost, fun d hd => h.asksAgain hd, fun e hp d hd => ?_⟩
    rw [(h.over hp).1]
    exact h.unknown d hd
  · rw [hidle]
    exact resolves_iff s b.memo c e

end Frames

attribute [local instance] CallStack.usual

/-- Two cells that name each other leave nothing under evaluation and one warning behind. -/
theorem books_of_resolution_ring :
    ∃ e, (Books.idle {}).Resolves ring ⟨0, 0⟩ e ∧ e.books.stack = [] ∧ e.books.inProgress = ∅ ∧
      ∃ event ∈ e.events, ∃ d, TellsCircuit ring d event := by
  obtain ⟨-, hresolves, -, -, hwarnings⟩ :=
    books_of_resolution (.idle {}) .fresh ring ⟨0, 0⟩
  have hsome : (resolve ring {} ⟨0, 0⟩).events.any (·.type == .formulaCycle) = true := by
    rw [resolve_eq_retrieve]
    decide +kernel
  obtain ⟨event, hevent, htype⟩ := List.any_eq_true.mp hsome
  exact ⟨_, (hresolves _).mpr rfl, rfl, rfl, event, hevent,
    hwarnings event hevent (beq_iff_eq.mp htype)⟩

end Worksheet.Session
