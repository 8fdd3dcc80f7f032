import Worksheet.Proofs.Resolutions

/-!
Errors unwind the stack. Every dialogue stops at errors, so once a lookup is answered with an error
the last level finishes with it, which answers the level below, and so on: no cell is asked for any
more, and every cell that was on the stack is remembered with that error. A cell that is asked for
again is answered with an error, so a resolution warns of one circuit at most.
-/
namespace Worksheet

variable {m : Memo} {cells : List Coord} {v : Value} {c d : Coord}

/-- Remember cells with one value, the first of them first. -/
def Memo.keepAll (m : Memo) (cells : List Coord) (v : Value) : Memo :=
  cells.foldl (fun m c => m.keep c v) m

theorem Memo.keepAll_cons : m.keepAll (c :: cells) v = (m.keep c v).keepAll cells v := rfl

theorem Memo.find?_keepAll :
    (m.keepAll cells v).find? d = if d ∈ cells then some v else m.find? d := by
  induction cells generalizing m with
  | nil => rfl
  | cons c rest ih =>
    rw [Memo.keepAll_cons, ih, Memo.find?_keep]
    by_cases hrest : d ∈ rest
    · rw [if_pos hrest, if_pos (List.mem_cons_of_mem c hrest)]
    · by_cases hc : d = c
      · rw [if_neg hrest, if_pos hc, if_pos (hc ▸ List.mem_cons_self)]
      · rw [if_neg hrest, if_neg hc, if_neg fun hmem => hrest (List.mem_of_ne_of_mem hc hmem)]

namespace Session

open Formula Formula.Steps Relation

variable {s : Sheet} {memo : Memo} {l l' : Loop} {level : Level} {below : List Level}
  {code : ErrorCode}

/-- A level whose dialogue stops at errors from where it is. -/
def Level.StopsAtErrors (level : Level) : Prop :=
  match level.generator with
  | .fresh => True
  | .waiting next => (ask level.cell next).StopsAtErrors

theorem begin_stopsAtErrors (b : Books) (c : Coord) :
    ∀ level ∈ (Loop.begin b c).levels, level.StopsAtErrors := by
  intro level hlevel
  cases List.mem_singleton.mp hlevel
  trivial

/-- No event is a warning about a circuit. -/
def Quiet (events : List Log.Event) : Prop := ∀ event ∈ events, event.type ≠ .formulaCycle

theorem Quiet.countP_eq_zero {events : List Log.Event} (h : Quiet events) :
    events.countP (·.type == .formulaCycle) = 0 := by
  rw [List.countP_eq_zero]
  intro event hevent
  rw [beq_iff_eq]
  exact h event hevent

section Frames
variable [CallStack]

/-! ### Levels that stop at errors -/

theorem Level.StopsAtErrors.send (h : level.StopsAtErrors) (reply : Value) :
    (level.send s reply).steps.StopsAtErrors := by
  unfold Level.StopsAtErrors at h
  unfold Level.send
  cases hgenerator : level.generator with
  | fresh => exact openCell_stopsAtErrors s level.cell
  | waiting next =>
    rw [hgenerator] at h
    exact h.2 reply

/-- A level that waits finishes with the error that it is told. -/
theorem Level.StopsAtErrors.send_error (h : level.StopsAtErrors) (hwaits : level.generator ≠ .fresh)
    (code : ErrorCode) : level.send s (.error code) = ⟨.done (.error code), []⟩ := by
  unfold Level.StopsAtErrors at h
  unfold Level.send
  cases hgenerator : level.generator with
  | fresh => exact absurd hgenerator hwaits
  | waiting next =>
    rw [hgenerator] at h
    exact congrArg (Opened.mk · []) (h.1 code)

/-- Every pass leaves levels that stop at errors. -/
theorem stopsAtErrors_next (h : Consistent s memo l)
    (hstops : ∀ level ∈ l.levels, level.StopsAtErrors) (hp : l.pass s = .next l') :
    ∀ level ∈ l'.levels, level.StopsAtErrors := by
  have hpassed := h.passed
  rw [hp] at hpassed
  have hwaits {level : Level} {below : List Level} {d : Coord} {next : Value → Steps}
      (hlevels : l.levels = level :: below)
      (hsteps : (level.send s l.reply).steps = .ask d next) :
      ∀ other ∈ ⟨level.cell, .waiting next⟩ :: below, other.StopsAtErrors := by
    intro other hother
    rcases List.mem_cons.mp hother with rfl | hother
    · have hsent := (hstops level (hlevels ▸ List.mem_cons_self)).send (s := s) l.reply
      rw [hsteps] at hsent
      exact hsent
    · exact hstops other (hlevels ▸ List.mem_cons_of_mem level hother)
  cases hpassed with
  | finished hlevels =>
    exact fun other hother => hstops other (hlevels ▸ List.mem_cons_of_mem _ hother)
  | known hlevels hsteps => exact hwaits hlevels hsteps
  | repeated hlevels hsteps => exact hwaits hlevels hsteps
  | entered hlevels hsteps =>
    intro other hother
    rcases List.mem_cons.mp hother with rfl | hother
    · trivial
    · exact hwaits hlevels hsteps other hother

theorem stopsAtErrors_leads (h : Consistent s memo l)
    (hstops : ∀ level ∈ l.levels, level.StopsAtErrors) (hl : l.Leads s l') :
    ∀ level ∈ l'.levels, level.StopsAtErrors := by
  induction hl with
  | refl => exact hstops
  | tail hl hp ih => exact stopsAtErrors_next (h.leads hl) ih hp

/-! ### Unwinding -/

/-- The last level has asked for a cell, and the answer is an error. -/
structure Loop.Answered (l : Loop) (code : ErrorCode) : Prop where
  reply_eq : l.reply = .error code
  waits : ∃ level below, l.levels = level :: below ∧ level.generator ≠ .fresh

/-- All levels wait, and the last one is told an error. -/
structure Loop.Unwinds (l : Loop) (code : ErrorCode) : Prop where
  reply_eq : l.reply = .error code
  waits : ∀ level ∈ l.levels, level.generator ≠ .fresh
  stops : ∀ level ∈ l.levels, level.StopsAtErrors

namespace Loop.Unwinds

theorem send (h : l.Unwinds code) (hlevels : l.levels = level :: below) :
    level.send s l.reply = ⟨.done (.error code), []⟩ := by
  have hmem : level ∈ l.levels := hlevels ▸ List.mem_cons_self
  rw [h.reply_eq]
  exact (h.stops level hmem).send_error (h.waits level hmem) code

/-- No cell is asked for. -/
theorem request? (h : l.Unwinds code) : l.request? s = none := by
  unfold Loop.request?
  cases hlevels : l.levels with
  | nil => rfl
  | cons level below =>
    change (level.send s l.reply).steps.question? = none
    rw [h.send hlevels]
    rfl

/-- The cell of the last level is remembered with the error, which the level below is told. -/
theorem next (hconsistent : Consistent s memo l) (h : l.Unwinds code) (hp : l.pass s = .next l') :
    l'.Unwinds code ∧ ∃ level below, l.levels = level :: below ∧ l'.levels = below ∧
      l'.books.memo = l.books.memo.keep level.cell (.error code) ∧ l'.events = l.events := by
  have hpassed := hconsistent.passed
  rw [hp] at hpassed
  have hquiet {level : Level} {below : List Level} {c : Coord} {next : Value → Steps}
      (hlevels : l.levels = level :: below)
      (hsteps : (level.send s l.reply).steps = .ask c next) : False := by
    rw [h.send hlevels] at hsteps
    cases hsteps
  cases hpassed with
  | @finished level below v books hlevels hsteps hbooks hmemo =>
    have hsent := h.send (s := s) hlevels
    rw [hsent] at hsteps
    cases hsteps
    have hunder : ∀ other ∈ below, other ∈ l.levels := fun other hother =>
      hlevels ▸ List.mem_cons_of_mem level hother
    refine ⟨⟨rfl, fun other hother => h.waits other (hunder other hother),
      fun other hother => h.stops other (hunder other hother)⟩, level, below, hlevels, rfl, hmemo,
      ?_⟩
    dsimp only
    rw [hsent, List.append_nil]
  | known hlevels hsteps => exact (hquiet hlevels hsteps).elim
  | repeated hlevels hsteps => exact (hquiet hlevels hsteps).elim
  | entered hlevels hsteps => exact (hquiet hlevels hsteps).elim

theorem leads (hconsistent : Consistent s memo l) (h : l.Unwinds code) (hl : l.Leads s l') :
    l'.Unwinds code := by
  induction hl with
  | refl => exact h
  | tail hl hp ih => exact (next (hconsistent.leads hl) ih hp).1

/-- Level by level, every cell of the stack is remembered with the error. -/
theorem yields (hconsistent : Consistent s memo l) (h : l.Unwinds code) :
    l.Yields s ⟨l.books.memo.keepAll l.books.stack (.error code), .ok (.error code), l.events⟩ := by
  induction hlevels : l.levels generalizing l with
  | nil =>
    refine ⟨l, .refl, ?_⟩
    rw [Loop.pass, hlevels, hconsistent.eq_idle hlevels, h.reply_eq]
    rfl
  | cons level below ih =>
    obtain ⟨books, hbooks, -⟩ := hconsistent.finish hlevels (.error code)
    have hp : l.pass s = .next ⟨books, below, .error code, l.events⟩ := by
      simp only [Loop.pass, hlevels, h.send hlevels, hbooks, List.append_nil]
      rfl
    obtain ⟨hunwinds, _, _, hsame, -, hmemo, -⟩ := next hconsistent h hp
    cases hlevels.symm.trans hsame
    have hconsistent' := hconsistent.next hp
    have hstack : l.books.stack = level.cell :: books.stack := by
      rw [hconsistent.stack_eq, hlevels, hconsistent'.stack_eq, List.map_cons]
    have hyields := ih hconsistent' hunwinds rfl
    dsimp only at hyields hmemo
    rw [hmemo] at hyields
    rw [hstack, Memo.keepAll_cons]
    exact Loop.Leads.yields (.single hp) hyields

end Loop.Unwinds

theorem Loop.Answered.unwinds (hconsistent : Consistent s memo l)
    (hstops : ∀ level ∈ l.levels, level.StopsAtErrors) (h : l.Answered code) : l.Unwinds code := by
  obtain ⟨level, below, hlevels, hwaits⟩ := h.waits
  have hstarted := hconsistent.started
  rw [hlevels] at hstarted
  refine ⟨h.reply_eq, fun other hother => ?_, hstops⟩
  rw [hlevels] at hother
  rcases List.mem_cons.mp hother with rfl | hother
  · exact hwaits
  · exact hstarted other hother

/-! ### The warning about a circuit -/

theorem Quiet.append_send {events : List Log.Event} (h : Quiet events) (level : Level)
    (reply : Value) : Quiet (events ++ (level.send s reply).events) := by
  intro event hevent
  rcases List.mem_append.mp hevent with hevent | hevent
  · exact h event hevent
  · exact level.send_events_type s reply event hevent

/-- A loop that has been asked for a cell again: it is told of the circuit, and it has warned of it
just now for the first time. -/
structure Warned (s : Sheet) (l : Loop) (d : Coord) (l' : Loop) : Prop where
  asksAgain : l.AsksAgain s d
  answered : l'.Answered .cycle
  memo_eq : l'.books.memo = l.books.memo
  stack_eq : l'.books.stack = l.books.stack
  events_eq : ∃ events, Quiet events ∧
    l'.events = events ++ [Machine.cycleWarning l.books.stack d]

theorem quiet_next (h : Consistent s memo l) (hquiet : Quiet l.events) (hp : l.pass s = .next l') :
    Quiet l'.events ∨ ∃ d, Warned s l d l' := by
  have hpassed := h.passed
  rw [hp] at hpassed
  cases hpassed with
  | finished => exact .inl (hquiet.append_send _ _)
  | known => exact .inl (hquiet.append_send _ _)
  | entered => exact .inl (hquiet.append_send _ _)
  | @repeated level below d next hlevels hsteps hunknown hd =>
    have hrequest : l.request? s = some d := by
      unfold Loop.request?
      rw [hlevels, List.head?_cons, Option.bind_some, hsteps]
      rfl
    exact .inr ⟨d, ⟨hrequest, hunknown, (h.mem_inProgress d).mpr hd⟩, ⟨rfl, _, below, rfl, nofun⟩,
      rfl, rfl, _, hquiet.append_send level l.reply, rfl⟩

/-- A run has not warned of a circuit, or it has come by the loop that did. -/
theorem quiet_leads (h : Consistent s memo l) (hquiet : Quiet l.events) (hl : l.Leads s l') :
    Quiet l'.events ∨
      ∃ l₁ d l₂, l.Leads s l₁ ∧ l₁.pass s = .next l₂ ∧ Warned s l₁ d l₂ ∧ l₂.Leads s l' := by
  induction hl with
  | refl => exact .inl hquiet
  | @tail l₁ l₂ hl hp ih =>
    rcases ih with hquiet | ⟨l₃, d, l₄, hl₃, hp₃, hwarned, hl₄⟩
    · rcases quiet_next (h.leads hl) hquiet hp with hquiet | ⟨d, hwarned⟩
      · exact .inl hquiet
      · exact .inr ⟨l₁, d, l₂, hl, hp, hwarned, .refl⟩
    · exact .inr ⟨l₃, d, l₄, hl₃, hp₃, hwarned, hl₄.tail hp⟩

/-- A loop that has not warned of a circuit does not when it is over. -/
theorem quiet_over (h : Consistent s memo l) (hquiet : Quiet l.events) {e : Ended}
    (hp : l.pass s = .over e) : Quiet e.events := by
  have hpassed := h.passed
  rw [hp] at hpassed
  cases hpassed with
  | ended => exact hquiet
  | failed => exact hquiet.append_send _ _

/-! ### Resolutions -/

variable {b : Books} {c d : Coord}

theorem Books.Runs.consistent (hb : b.Served) (hl : b.Runs s c l) : Consistent s b.memo l := by
  obtain ⟨hunknown, -, hl⟩ := hl
  rw [hb.eq_idle] at hl
  exact (Consistent.begin hunknown).leads hl

theorem Books.Runs.stopsAtErrors (hb : b.Served) (hl : b.Runs s c l) :
    ∀ level ∈ l.levels, level.StopsAtErrors := by
  obtain ⟨hunknown, -, hl⟩ := hl
  rw [hb.eq_idle] at hl
  exact stopsAtErrors_leads (Consistent.begin hunknown) (begin_stopsAtErrors _ c) hl

/-- What a loop of a resolution comes to is its outcome. -/
theorem Books.Runs.outcome {o : Outcome Value} (hb : b.Served) (hl : b.Runs s c l)
    (h : l.Yields s o) : resolve s b.memo c = o := by
  obtain ⟨hunknown, hidle, hl⟩ := hl
  obtain ⟨l', hl', hover⟩ := h
  have hresolves : b.Resolves s c (.ofOutcome o) :=
    .looped ⟨hunknown, hidle, ReflTransGen.trans hl hl'⟩ hover
  rw [hb.eq_idle, resolves_iff] at hresolves
  cases o
  cases hresolves
  rfl

/-- The outcome of a resolution that must evaluate the cell is what a loop of it comes to. -/
theorem Books.Served.exists_over (hb : b.Served) (hunknown : b.memo.find? c = none) :
    ∃ l, b.Runs s c l ∧ l.pass s = .over (.ofOutcome (resolve s b.memo c)) := by
  have hidle := hb.eq_idle
  have hresolves := (resolves_iff s b.memo c _).mpr rfl
  rw [← hidle] at hresolves
  generalize Ended.ofOutcome (resolve s b.memo c) = e at hresolves
  cases hresolves with
  | known hknown => cases hunknown.symm.trans hknown
  | repeated _ hactive _ =>
    rw [hidle] at hactive
    exact absurd hactive (Finset.notMem_empty c)
  | looped hl hover => exact ⟨_, hl, hover⟩

/-- A resolution does not warn of a circuit, or the warning is its last event and comes from a loop
that was asked for a cell again; then all the cells of its stack are remembered with the error. -/
theorem quiet_or_warned (hb : b.Served) (s : Sheet) (c : Coord) :
    Quiet (resolve s b.memo c).events ∨ ∃ l d events, b.Runs s c l ∧ l.AsksAgain s d ∧
      Quiet events ∧ resolve s b.memo c = ⟨l.books.memo.keepAll l.books.stack (.error .cycle),
        .ok (.error .cycle), events ++ [Machine.cycleWarning l.books.stack d]⟩ := by
  cases hfind : b.memo.find? c with
  | some v =>
    left
    unfold resolve
    rw [hfind]
    exact fun event hevent => absurd hevent List.not_mem_nil
  | none =>
    obtain ⟨l, hl, hover⟩ := hb.exists_over (s := s) hfind
    have hbegin : b.Runs s c (.begin b c) := ⟨hfind, hl.2.1, .refl⟩
    have hquiet : Quiet (Loop.begin b c).events :=
      fun event hevent => absurd hevent List.not_mem_nil
    rcases quiet_leads (hbegin.consistent hb) hquiet hl.2.2 with hquiet | hwarned
    · exact .inl (quiet_over (hl.consistent hb) hquiet hover)
    · obtain ⟨l₁, d, l₂, hl₁, hp, hwarned, -⟩ := hwarned
      have hruns₁ : b.Runs s c l₁ := ⟨hfind, hl.2.1, hl₁⟩
      have hruns₂ : b.Runs s c l₂ := ⟨hfind, hl.2.1, hl₁.tail hp⟩
      have hconsistent := hruns₂.consistent hb
      have hyields := Loop.Unwinds.yields hconsistent
        (hwarned.answered.unwinds hconsistent (hruns₂.stopsAtErrors hb))
      obtain ⟨events, hevents, heq⟩ := hwarned.events_eq
      rw [hwarned.memo_eq, hwarned.stack_eq, heq] at hyields
      exact .inr ⟨l₁, d, events, hruns₁, hwarned.asksAgain, hevents,
        hruns₂.outcome hb hyields⟩

/-- In any session, once a lookup of a resolution is answered with an error, by the memory, by the
cell above or because the cell is under evaluation, no cell is asked for any more, and the
resolution returns that error and remembers every cell of the stack with it. So it warns of one
circuit at most, and if it does it returns the error of a circuit, with which it remembers every
cell that was on the stack when the cell was asked for again. -/
theorem first_error_of_resolution (b : Books) (hb : b.Served) (s : Sheet) (c : Coord) :
    let o := resolve s b.memo c
    (∀ l code, b.Runs s c l → l.Answered code →
      (∀ l', l.Leads s l' → l'.request? s = none) ∧
      o = ⟨l.books.memo.keepAll l.books.stack (.error code), .ok (.error code), l.events⟩ ∧
      ∀ a ∈ l.books.stack, o.memo.find? a = some (.error code)) ∧
    o.events.countP (·.type == .formulaCycle) ≤ 1 ∧
    ∀ event ∈ o.events, event.type = .formulaCycle → o.result = .ok (.error .cycle) ∧
      ∃ l d, b.Runs s c l ∧ l.AsksAgain s d ∧ event = Machine.cycleWarning l.books.stack d ∧
        ∀ a ∈ l.books.stack, o.memo.find? a = some (.error .cycle) := by
  intro o
  have hremembered {m : Memo} {cells : List Coord} {code : ErrorCode} :
      ∀ a ∈ cells, (m.keepAll cells (.error code)).find? a = some (.error code) := by
    intro a ha
    rw [Memo.find?_keepAll, if_pos ha]
  have hwarns := quiet_or_warned hb s c
  refine ⟨fun l code hl hanswered => ?_, ?_, fun event hevent htype => ?_⟩
  · have hconsistent := hl.consistent hb
    have hunwinds := hanswered.unwinds hconsistent (hl.stopsAtErrors hb)
    have ho : o = _ := hl.outcome hb (hunwinds.yields hconsistent)
    exact ⟨fun l' hl' => (hunwinds.leads hconsistent hl').request?, ho, ho ▸ hremembered⟩
  · rcases hwarns with hquiet | ⟨l, d, events, -, -, hquiet, ho⟩
    · exact hquiet.countP_eq_zero.le.trans (Nat.zero_le 1)
    · change (resolve s b.memo c).events.countP _ ≤ 1
      rw [ho, List.countP_append, hquiet.countP_eq_zero, Nat.zero_add]
      exact List.countP_le_length
  · rcases hwarns with hquiet | ⟨l, d, events, hl, hagain, hquiet, ho⟩
    · exact absurd htype (hquiet event hevent)
    · change o = _ at ho
      rw [ho] at hevent ⊢
      rcases List.mem_append.mp hevent with hevent | hevent
      · exact absurd htype (hquiet event hevent)
      · exact ⟨rfl, l, d, hl, hagain, List.mem_singleton.mp hevent, hremembered⟩

end Frames

attribute [local instance] CallStack.usual

/-- Of two cells that name each other both are remembered as a circuit, and it is warned of once. -/
theorem first_error_of_resolution_ring :
    ∃ l d, (Books.idle {}).Runs ring ⟨0, 0⟩ l ∧ l.AsksAgain ring d ∧
      (resolve ring {} ⟨0, 0⟩).result = .ok (.error .cycle) ∧
      ∀ a ∈ l.books.stack, (resolve ring {} ⟨0, 0⟩).memo.find? a = some (.error .cycle) := by
  obtain ⟨-, -, hwarned⟩ := first_error_of_resolution (.idle {}) .fresh ring ⟨0, 0⟩
  have hsome : (resolve ring {} ⟨0, 0⟩).events.any (·.type == .formulaCycle) = true := by
    rw [resolve_eq_retrieve]
    decide +kernel
  obtain ⟨event, hevent, htype⟩ := List.any_eq_true.mp hsome
  obtain ⟨hresult, l, d, hl, hagain, -, hstack⟩ := hwarned event hevent (beq_iff_eq.mp htype)
  exact ⟨l, d, hl, hagain, hresult, hstack⟩

end Session
end Worksheet
