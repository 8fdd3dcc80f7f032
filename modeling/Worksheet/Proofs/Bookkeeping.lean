import Worksheet.Proofs.Circuits
import Worksheet.Proofs.FrameLoop

/-!
The books of a resolution. The levels of the loop are the cells of the stack and of the set, and
none of them is remembered; each of them asked for the one above it, so a cell that is asked for
again closes a circuit of references. Every pass preserves this, and a loop that is over leaves
nothing under evaluation, whether it ends with a value or with a fault.
-/
namespace Worksheet.Session

open Formula Formula.Steps Relation

variable {s : Sheet} {memo : Memo} {l l' : Loop} {c d : Coord}

/-- The stack, the set and the levels are the same cells, none of them twice or remembered. -/
structure Balanced (l : Loop) : Prop where
  stack_eq : l.books.stack = l.levels.map (·.cell)
  nodup : l.books.stack.Nodup
  mem_inProgress : ∀ c, c ∈ l.books.inProgress ↔ c ∈ l.books.stack
  unknown : ∀ c ∈ l.books.stack, l.books.memo.find? c = none

theorem mem_foldl_erase {cells : List Coord} {set : Finset Coord} :
    c ∈ cells.foldl Finset.erase set ↔ c ∈ set ∧ c ∉ cells := by
  induction cells generalizing set with
  | nil => simp
  | cons d rest ih =>
    rw [List.foldl_cons, ih, Finset.mem_erase, List.mem_cons, not_or, and_comm (a := c ≠ d),
      and_assoc]

/-- Releasing all levels leaves nothing under evaluation. -/
theorem Balanced.release (h : Balanced l) :
    l.books.release (l.levels.map (·.cell)) = .idle l.books.memo := by
  have hset : (l.levels.map (·.cell)).foldl Finset.erase l.books.inProgress = ∅ := by
    ext c
    rw [mem_foldl_erase, h.mem_inProgress, h.stack_eq]
    simp
  unfold Books.release Books.idle
  rw [hset, h.stack_eq, List.drop_length]

theorem Balanced.eq_idle (h : Balanced l) (hlevels : l.levels = []) :
    l.books = .idle l.books.memo := by
  have hrelease := h.release
  rw [hlevels] at hrelease
  exact hrelease

variable [CallStack]

/-- What every pass preserves, for a loop that began with a memory. -/
structure Consistent (s : Sheet) (memo : Memo) (l : Loop) : Prop extends Balanced l where
  /-- Each cell asked for the one above it. -/
  linked : l.books.stack.IsChain fun a b => Refers s b a
  asks : ∀ level ∈ l.levels, ∀ reply d, (level.send s reply).steps.Mentions d →
    Refers s level.cell d
  /-- Only the last level may not have started. -/
  started : ∀ level ∈ l.levels.tail, level.generator ≠ .fresh
  kept : ∀ c v, memo.find? c = some v → l.books.memo.find? c = some v
  older : memo.entries <:+ l.books.memo.entries
  warnings : ∀ event ∈ l.events, event.type = .formulaCycle → ∃ c, TellsCircuit s c event

/-! ### Steps of the loop -/

theorem Level.send_waiting (s : Sheet) (c : Coord) (next : Value → Steps) (reply : Value) :
    (Level.mk c (.waiting next)).send s reply = ⟨next reply, []⟩ := rfl

theorem Level.send_fresh (s : Sheet) (c : Coord) (reply : Value) :
    (Level.mk c .fresh).send s reply = openCell s c := rfl

theorem Level.send_events_type (s : Sheet) (level : Level) (reply : Value) :
    ∀ event ∈ (level.send s reply).events, event.type ≠ .formulaCycle := by
  intro event hevent
  unfold Level.send at hevent
  split at hevent
  · exact openCell_events_type s level.cell event hevent
  · cases hevent

namespace Consistent

variable {level : Level} {below : List Level} {next : Value → Steps}

theorem begin (h : memo.find? c = none) : Consistent s memo (Loop.begin (.idle memo) c) where
  stack_eq := rfl
  nodup := List.nodup_singleton c
  mem_inProgress d := by simp [Loop.begin, Books.enter, Books.idle]
  unknown d hd := by
    cases List.mem_singleton.mp hd
    exact h
  linked := List.isChain_singleton c
  asks level hlevel reply d hd := by
    cases List.mem_singleton.mp hlevel
    exact refers_of_mentions hd
  started level hlevel := absurd hlevel List.not_mem_nil
  kept d v hd := hd
  older := List.suffix_refl memo.entries
  warnings event hevent := absurd hevent List.not_mem_nil

theorem warnings_append {events : List Log.Event} (h : Consistent s memo l)
    (hevents : ∀ event ∈ events, event.type = .formulaCycle → ∃ c, TellsCircuit s c event) :
    ∀ event ∈ l.events ++ events, event.type = .formulaCycle → ∃ c, TellsCircuit s c event := by
  intro event hevent
  rcases List.mem_append.mp hevent with hevent | hevent
  · exact h.warnings event hevent
  · exact hevents event hevent

theorem warnings_send (h : Consistent s memo l) (level : Level) :
    ∀ event ∈ l.events ++ (level.send s l.reply).events, event.type = .formulaCycle →
      ∃ c, TellsCircuit s c event :=
  h.warnings_append fun event hevent htype =>
    absurd htype (level.send_events_type s l.reply event hevent)

/-- The last level has asked and waits. -/
theorem wait (h : Consistent s memo l) (hlevels : l.levels = level :: below)
    (hask : (level.send s l.reply).steps = .ask c next) (reply : Value) :
    Consistent s memo ⟨l.books, ⟨level.cell, .waiting next⟩ :: below, reply,
      l.events ++ (level.send s l.reply).events⟩ where
  stack_eq := by rw [h.stack_eq, hlevels, List.map_cons, List.map_cons]
  nodup := h.nodup
  mem_inProgress := h.mem_inProgress
  unknown := h.unknown
  linked := h.linked
  asks other hother reply d hd := by
    rcases List.mem_cons.mp hother with rfl | hother
    · refine h.asks level (hlevels ▸ List.mem_cons_self) l.reply d ?_
      rw [hask]
      exact .later reply hd
    · exact h.asks other (hlevels ▸ List.mem_cons_of_mem level hother) reply d hd
  started := by
    have hstarted := h.started
    rw [hlevels] at hstarted
    exact hstarted
  kept := h.kept
  older := h.older
  warnings := h.warnings_send level

theorem hit (h : Consistent s memo l) (reply : Value) :
    Consistent s memo { l with books := l.books.hit, reply } where
  stack_eq := h.stack_eq
  nodup := h.nodup
  mem_inProgress := h.mem_inProgress
  unknown := h.unknown
  linked := h.linked
  asks := h.asks
  started := h.started
  kept := h.kept
  older := h.older
  warnings := h.warnings

theorem warn {event : Log.Event} (h : Consistent s memo l) (hevent : TellsCircuit s c event) :
    Consistent s memo { l with events := l.events ++ [event] } where
  stack_eq := h.stack_eq
  nodup := h.nodup
  mem_inProgress := h.mem_inProgress
  unknown := h.unknown
  linked := h.linked
  asks := h.asks
  started := h.started
  kept := h.kept
  older := h.older
  warnings := h.warnings_append fun other hother _ => by
    cases List.mem_singleton.mp hother
    exact ⟨c, hevent⟩

/-- A cell that was asked for and is neither remembered nor under evaluation is entered. -/
theorem enter (h : Consistent s memo l) (hwaiting : ∀ level ∈ l.levels, level.generator ≠ .fresh)
    (hrefers : ∀ a ∈ l.books.stack.head?, Refers s a c) (hunknown : l.books.memo.find? c = none)
    (hidle : c ∉ l.books.stack) :
    Consistent s memo ⟨l.books.enter c, ⟨c, .fresh⟩ :: l.levels, .null, l.events⟩ where
  stack_eq := congrArg (c :: ·) h.stack_eq
  nodup := List.nodup_cons.mpr ⟨hidle, h.nodup⟩
  mem_inProgress d := by
    change d ∈ insert c l.books.inProgress ↔ d ∈ c :: l.books.stack
    rw [Finset.mem_insert, List.mem_cons, h.mem_inProgress]
  unknown d hd := by
    rcases List.mem_cons.mp hd with rfl | hd
    · exact hunknown
    · exact h.unknown d hd
  linked := h.linked.cons hrefers
  asks level hlevel reply d hd := by
    rcases List.mem_cons.mp hlevel with rfl | hlevel
    · exact refers_of_mentions hd
    · exact h.asks level hlevel reply d hd
  started := hwaiting
  kept := h.kept
  older := h.older
  warnings := h.warnings

/-- The cell of the last level has its value, and the stack does not lack it. -/
theorem finish (h : Consistent s memo l) (hlevels : l.levels = level :: below) (v : Value) :
    ∃ books, l.books.leave level.cell v = some books ∧
      books.memo = l.books.memo.keep level.cell v.single ∧
      Consistent s memo ⟨books, below, v.single, l.events ++ (level.send s l.reply).events⟩ := by
  have hstack : l.books.stack = level.cell :: below.map (·.cell) := by
    rw [h.stack_eq, hlevels, List.map_cons]
  have hnodup := h.nodup
  have hlinked := h.linked
  have hstarted := h.started
  rw [hstack] at hnodup hlinked
  rw [hlevels] at hstarted
  have hunknown : l.books.memo.find? level.cell = none := h.unknown level.cell (by simp [hstack])
  refine ⟨⟨l.books.memo.keep level.cell v.single, below.map (·.cell),
    l.books.inProgress.erase level.cell⟩, ?_, rfl, ?_⟩
  · unfold Books.leave
    rw [hstack]
  · exact {
      stack_eq := rfl
      nodup := hnodup.of_cons
      mem_inProgress := fun d => by
        rw [Finset.mem_erase, h.mem_inProgress, hstack, List.mem_cons]
        constructor
        · rintro ⟨hne, rfl | hd⟩
          · exact absurd rfl hne
          · exact hd
        · intro hd
          refine ⟨?_, .inr hd⟩
          rintro rfl
          exact (List.nodup_cons.mp hnodup).1 hd
      unknown := fun d hd => by
        have hne : d ≠ level.cell := by
          rintro rfl
          exact (List.nodup_cons.mp hnodup).1 hd
        rw [Memo.find?_keep, if_neg hne]
        exact h.unknown d (by rw [hstack]; exact List.mem_cons_of_mem _ hd)
      linked := hlinked.tail
      asks := fun other hother => h.asks other (hlevels ▸ List.mem_cons_of_mem level hother)
      started := fun other hother => hstarted other (List.mem_of_mem_tail hother)
      kept := fun d w hd => by
        have hold := h.kept d w hd
        have hne : d ≠ level.cell := by
          rintro rfl
          rw [hunknown] at hold
          cases hold
        rw [Memo.find?_keep, if_neg hne]
        exact hold
      older := h.older.trans (List.suffix_cons _ _)
      warnings := h.warnings_send level }

end Consistent

/-! ### Passes -/

/-- What a pass of a consistent loop does. -/
inductive Passed (s : Sheet) (l : Loop) : Pass → Prop
  | ended (hlevels : l.levels = []) :
      Passed s l (.over ⟨.idle l.books.memo, .ok l.reply, l.events⟩)
  | failed {level : Level} {below : List Level} {f : Fault} (hlevels : l.levels = level :: below)
      (hsteps : (level.send s l.reply).steps = .fault f) :
      Passed s l (.over ⟨.idle l.books.memo, .error f,
        l.events ++ (level.send s l.reply).events⟩)
  | finished {level : Level} {below : List Level} {v : Value} {books : Books}
      (hlevels : l.levels = level :: below) (hsteps : (level.send s l.reply).steps = .done v)
      (hbooks : l.books.leave level.cell v = some books)
      (hmemo : books.memo = l.books.memo.keep level.cell v.single) :
      Passed s l (.next ⟨books, below, v.single, l.events ++ (level.send s l.reply).events⟩)
  | known {level : Level} {below : List Level} {c : Coord} {next : Value → Steps} {v : Value}
      (hlevels : l.levels = level :: below) (hsteps : (level.send s l.reply).steps = .ask c next)
      (hknown : l.books.memo.find? c = some v) :
      Passed s l (.next ⟨l.books.hit, ⟨level.cell, .waiting next⟩ :: below, v,
        l.events ++ (level.send s l.reply).events⟩)
  | repeated {level : Level} {below : List Level} {c : Coord} {next : Value → Steps}
      (hlevels : l.levels = level :: below) (hsteps : (level.send s l.reply).steps = .ask c next)
      (hunknown : l.books.memo.find? c = none) (hc : c ∈ l.books.stack) :
      Passed s l (.next ⟨l.books, ⟨level.cell, .waiting next⟩ :: below, .error .cycle,
        l.events ++ (level.send s l.reply).events ++ [Machine.cycleWarning l.books.stack c]⟩)
  | entered {level : Level} {below : List Level} {c : Coord} {next : Value → Steps}
      (hlevels : l.levels = level :: below) (hsteps : (level.send s l.reply).steps = .ask c next)
      (hunknown : l.books.memo.find? c = none) (hc : c ∉ l.books.stack) :
      Passed s l (.next ⟨l.books.enter c, ⟨c, .fresh⟩ :: ⟨level.cell, .waiting next⟩ :: below,
        .null, l.events ++ (level.send s l.reply).events⟩)

namespace Consistent

variable {p : Pass}

theorem passed (h : Consistent s memo l) : Passed s l (l.pass s) := by
  unfold Loop.pass
  split
  · rename_i hlevels
    have hbooks := h.eq_idle hlevels
    rw [hbooks]
    exact .ended hlevels
  · rename_i level below hlevels
    dsimp only
    split
    · rename_i v hsteps
      obtain ⟨books, hbooks, hmemo, -⟩ := h.finish hlevels v
      rw [hbooks]
      exact .finished hlevels hsteps hbooks hmemo
    · rename_i f hsteps
      rw [h.release]
      exact .failed hlevels hsteps
    · rename_i c next hsteps
      split
      · rename_i v hknown
        exact .known hlevels hsteps hknown
      · rename_i hunknown
        by_cases hc : c ∈ l.books.stack
        · rw [if_pos ((h.mem_inProgress c).mpr hc), if_pos hc]
          exact .repeated hlevels hsteps hunknown hc
        · rw [if_neg fun hmem => hc ((h.mem_inProgress c).mp hmem)]
          exact .entered hlevels hsteps hunknown hc

/-- The last cell of the stack refers to the cell for which its level asks. -/
theorem refers (h : Consistent s memo l) {level : Level} {below : List Level}
    {next : Value → Steps} (hlevels : l.levels = level :: below)
    (hsteps : (level.send s l.reply).steps = .ask c next) : Refers s level.cell c := by
  refine h.asks level (hlevels ▸ List.mem_cons_self) l.reply c ?_
  rw [hsteps]
  exact .first c next

theorem tells (h : Consistent s memo l) {level : Level} {below : List Level}
    {next : Value → Steps} (hlevels : l.levels = level :: below)
    (hsteps : (level.send s l.reply).steps = .ask c next) (hc : c ∈ l.books.stack) :
    TellsCircuit s c (Machine.cycleWarning l.books.stack c) := by
  refine circuit_of_stack (h.linked.cons fun a ha => ?_) h.nodup hc
  rw [h.stack_eq, hlevels, List.map_cons, List.head?_cons, Option.mem_some_iff] at ha
  exact ha ▸ h.refers hlevels hsteps

/-- Every pass preserves consistency. -/
theorem next (h : Consistent s memo l) (hp : l.pass s = .next l') : Consistent s memo l' := by
  have hpassed := h.passed
  rw [hp] at hpassed
  cases hpassed with
  | finished hlevels hsteps hbooks hmemo =>
    obtain ⟨books', hbooks', -, hnext⟩ := h.finish hlevels _
    rw [hbooks] at hbooks'
    cases hbooks'
    exact hnext
  | known hlevels hsteps hknown => exact (h.wait hlevels hsteps .null).hit _
  | repeated hlevels hsteps hunknown hc =>
    exact (h.wait hlevels hsteps (.error .cycle)).warn (h.tells hlevels hsteps hc)
  | entered hlevels hsteps hunknown hc =>
    have hwait := h.wait hlevels hsteps .null
    refine hwait.enter (fun level hlevel => ?_) (fun a ha => ?_) hunknown hc
    · rcases List.mem_cons.mp hlevel with rfl | hlevel
      · exact nofun
      · exact hwait.started level hlevel
    · have hrefers := h.refers hlevels hsteps
      rw [hwait.stack_eq, List.map_cons, List.head?_cons, Option.mem_some_iff] at ha
      exact ha ▸ hrefers

/-- So does every run. -/
theorem leads (h : Consistent s memo l) (hl : l.Leads s l') : Consistent s memo l' := by
  induction hl with
  | refl => exact h
  | tail _ hp ih => exact ih.next hp

end Consistent

/-! ### The end of a loop -/

/-- A pass that is asked again for a cell under evaluation reports the circuit. -/
theorem Consistent.asksAgain (h : Consistent s memo l) (hc : l.AsksAgain s c) :
    c ∈ l.books.stack ∧ ∃ l' event, l.pass s = .next l' ∧ l'.events.getLast? = some event ∧
      TellsCircuit s c event := by
  obtain ⟨hrequest, hunknown, hactive⟩ := hc
  have hstack : c ∈ l.books.stack := (h.mem_inProgress c).mp hactive
  refine ⟨hstack, ?_⟩
  obtain ⟨level, hlevel, hquestion⟩ := Option.bind_eq_some_iff.mp hrequest
  obtain ⟨below, hlevels⟩ := List.head?_eq_some_iff.mp hlevel
  cases hsteps : (level.send s l.reply).steps with
  | done v =>
    rw [hsteps] at hquestion
    cases hquestion
  | fault f =>
    rw [hsteps] at hquestion
    cases hquestion
  | ask d next =>
    rw [hsteps] at hquestion
    cases hquestion
    have hp : l.pass s = .next ⟨l.books, ⟨level.cell, .waiting next⟩ :: below, .error .cycle,
        l.events ++ (level.send s l.reply).events ++
          [Machine.cycleWarning l.books.stack c]⟩ := by
      simp only [Loop.pass, hlevels, hsteps, hunknown, if_pos hactive, if_pos hstack]
    exact ⟨_, _, hp, List.getLast?_concat, h.tells hlevels hsteps hstack⟩

/-- A loop that is over leaves the memory that it had, and nothing under evaluation. -/
theorem Consistent.over (h : Consistent s memo l) {e : Ended} (hp : l.pass s = .over e) :
    e.books = .idle l.books.memo ∧
      ∀ event ∈ e.events, event.type = .formulaCycle → ∃ d, TellsCircuit s d event := by
  have hpassed := h.passed
  rw [hp] at hpassed
  cases hpassed with
  | ended hlevels => exact ⟨rfl, h.warnings⟩
  | failed hlevels hsteps => exact ⟨rfl, h.warnings_send _⟩

theorem Consistent.not_lost (h : Consistent s memo l) : l.pass s ≠ .lost := by
  intro hp
  have hpassed := h.passed
  rw [hp] at hpassed
  cases hpassed

end Worksheet.Session
