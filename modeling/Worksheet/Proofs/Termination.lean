import Mathlib.Data.Finset.Card
import Mathlib.Order.WellFounded
import Worksheet.Proofs.Unwinding

/-!
Termination of the loop. No counter is seen in it, but every pass uses something up: a formula cell
of the sheet that was neither under evaluation nor remembered, or else a level, or else a step of a
dialogue. A cell that is no formula is on top for one pass only and gives its value to the level
below, so the loop is looked at as if that level had the value already. Nothing is assumed of the
books with which the loop begins.

What has been entered is under evaluation or remembered ever after, so no cell is entered twice; and
the cells of the levels that wait are different formula cells of the sheet, which bounds the levels.
-/
namespace Worksheet.Session

open Formula Formula.Steps Relation

variable {s : Sheet} {b : Books} {l l' : Loop} {c d : Coord}

/-! ### Cells that were entered -/

/-- Finishing a cell takes it from those under evaluation, and it is remembered. -/
theorem leave_eq_some {books : Books} {v : Value} (h : b.leave c v = some books) :
    books.memo = b.memo.keep c v.single ∧ books.inProgress = b.inProgress.erase c := by
  unfold Books.leave at h
  split at h
  · cases h
  · cases h
    exact ⟨rfl, rfl⟩

/-- A cell is under evaluation or remembered. -/
def Books.Met (b : Books) (c : Coord) : Prop := c ∈ b.inProgress ∨ (b.memo.find? c).isSome = true

instance (b : Books) (c : Coord) : Decidable (b.Met c) :=
  inferInstanceAs (Decidable (_ ∨ _))

theorem Books.not_met (hunknown : b.memo.find? c = none) (hc : c ∉ b.inProgress) : ¬ b.Met c := by
  rintro (hmem | hknown)
  · exact hc hmem
  · rw [hunknown] at hknown
    cases hknown

theorem Books.Met.leave {books : Books} {v : Value} (h : b.Met d)
    (hbooks : b.leave c v = some books) : books.Met d := by
  obtain ⟨hmemo, hset⟩ := leave_eq_some hbooks
  unfold Met
  rw [hmemo, hset, Memo.find?_keep, Finset.mem_erase]
  by_cases hd : d = c
  · rw [if_pos hd]
    exact .inr rfl
  · rw [if_neg hd]
    exact h.imp_left fun hmem => ⟨hd, hmem⟩

theorem Books.Met.enter (h : b.Met d) (c : Coord) : (b.enter c).Met d :=
  h.imp_left Finset.mem_insert_of_mem

theorem Books.met_enter (b : Books) (c : Coord) : (b.enter c).Met c :=
  .inl (Finset.mem_insert_self c b.inProgress)

/-! ### Levels -/

/-- The levels are different cells under evaluation, and those that wait hold formulas. -/
structure Loop.Layered (s : Sheet) (l : Loop) : Prop where
  nodup : (l.levels.map (·.cell)).Nodup
  active : ∀ level ∈ l.levels, level.cell ∈ l.books.inProgress
  formula : ∀ level ∈ l.levels, level.generator ≠ .fresh → level.cell ∈ formulaCells s
  /-- Only the last level may not have started. -/
  started : ∀ level ∈ l.levels.tail, level.generator ≠ .fresh

theorem Loop.begin_layered (s : Sheet) (b : Books) (c : Coord) : (Loop.begin b c).Layered s where
  nodup := List.nodup_singleton c
  active level hlevel := by
    rw [List.mem_singleton.mp hlevel]
    exact Finset.mem_insert_self c b.inProgress
  formula level hlevel hstarted := by
    rw [List.mem_singleton.mp hlevel] at hstarted
    exact absurd rfl hstarted
  started level hlevel := absurd hlevel List.not_mem_nil

/-- There is at most one level more than there are formula cells. -/
theorem Loop.Layered.length_le (h : l.Layered s) :
    l.levels.length ≤ (formulaCells s).toFinset.card + 1 := by
  have hnodup := h.nodup
  have hstarted := h.started
  cases hlevels : l.levels with
  | nil => exact Nat.zero_le _
  | cons level below =>
    rw [hlevels] at hnodup hstarted
    have hsubset : (below.map (·.cell)).toFinset ⊆ (formulaCells s).toFinset := by
      intro c hc
      obtain ⟨other, hother, rfl⟩ := List.mem_map.mp (List.mem_toFinset.mp hc)
      refine List.mem_toFinset.mpr (h.formula other ?_ (hstarted other hother))
      exact hlevels ▸ List.mem_cons_of_mem level hother
    have hcard := Finset.card_le_card hsubset
    rw [List.toFinset_card_of_nodup hnodup.of_cons, List.length_map] at hcard
    exact Nat.succ_le_succ hcard

/-! ### Orders -/

namespace Loop

abbrev BelowRest : Nat × Steps × Nat → Nat × Steps × Nat → Prop :=
  Prod.Lex (· < ·) (Prod.Lex Later (· < ·))

abbrev Below : Nat × Nat × Steps × Nat → Nat × Nat × Steps × Nat → Prop :=
  Prod.Lex (· < ·) BelowRest

theorem below_wellFounded : WellFounded Below :=
  WellFounded.prod_lex Nat.lt_wfRel.wf (WellFounded.prod_lex Nat.lt_wfRel.wf
    (WellFounded.prod_lex later_wellFounded Nat.lt_wfRel.wf))

theorem lex_of_le {α : Type} {r : α → α → Prop} {m n : Nat} {x y : α} (hmn : m ≤ n) (h : r x y) :
    Prod.Lex (· < ·) r (m, x) (n, y) := by
  rcases Nat.lt_or_eq_of_le hmn with hlt | rfl
  · exact .left _ _ hlt
  · exact .right _ h

end Loop

section Frames
variable [CallStack]

/-! ### Passes that go on -/

/-- What a pass does that does not end the loop: the cell on top is finished, or its level has a
reply to its question, or the cell for which it asks is entered. -/
inductive Loop.Goes (s : Sheet) (l : Loop) : Loop → Prop
  | finished {level : Level} {below : List Level} {v : Value} {books : Books}
      {events : List Log.Event} (hlevels : l.levels = level :: below)
      (hsteps : (level.send s l.reply).steps = .done v)
      (hbooks : l.books.leave level.cell v = some books) :
      Goes s l ⟨books, below, v.single, events⟩
  | answered {level : Level} {below : List Level} {c : Coord} {next : Value → Steps}
      {books : Books} {reply : Value} {events : List Log.Event}
      (hlevels : l.levels = level :: below) (hsteps : (level.send s l.reply).steps = .ask c next)
      (hfind : ∀ d, books.memo.find? d = l.books.memo.find? d)
      (hset : books.inProgress = l.books.inProgress) :
      Goes s l ⟨books, ⟨level.cell, .waiting next⟩ :: below, reply, events⟩
  | entered {level : Level} {below : List Level} {c : Coord} {next : Value → Steps}
      {events : List Log.Event} (hlevels : l.levels = level :: below)
      (hsteps : (level.send s l.reply).steps = .ask c next)
      (hunknown : l.books.memo.find? c = none) (hc : c ∉ l.books.inProgress) :
      Goes s l ⟨l.books.enter c, ⟨c, .fresh⟩ :: ⟨level.cell, .waiting next⟩ :: below, .null,
        events⟩

theorem goes_of_pass (h : l.pass s = .next l') : l.Goes s l' := by
  unfold Loop.pass at h
  split at h
  · cases h
  · rename_i level below hlevels
    dsimp only at h
    split at h
    · rename_i v hsteps
      split at h
      · cases h
      · rename_i books hbooks
        cases h
        exact .finished hlevels hsteps hbooks
    · cases h
    · rename_i c next hsteps
      split at h
      · cases h
        exact .answered hlevels hsteps (fun d => rfl) rfl
      · rename_i hunknown
        split at h
        · split at h
          · cases h
            exact .answered hlevels hsteps (fun d => rfl) rfl
          · cases h
        · rename_i hc
          cases h
          exact .entered hlevels hsteps hunknown hc

/-! ### Cells that a loop enters -/

/-- What has been met stays so. -/
theorem Books.Met.next (h : l.books.Met d) (hp : l.pass s = .next l') : l'.books.Met d := by
  cases goes_of_pass hp with
  | finished hlevels hsteps hbooks => exact h.leave hbooks
  | answered hlevels hsteps hfind hset =>
    unfold Met
    rw [hfind, hset]
    exact h
  | entered hlevels hsteps hunknown hc => exact h.enter _

theorem Books.Met.leads (h : l.books.Met d) (hl : l.Leads s l') : l'.books.Met d := by
  induction hl with
  | refl => exact h
  | tail _ hp ih => exact ih.next hp

/-- A pass enters a cell, which is on top then and has not started. -/
def Loop.Enters (s : Sheet) (l : Loop) (c : Coord) : Prop :=
  ∃ levels events, l.pass s = .next ⟨l.books.enter c, ⟨c, .fresh⟩ :: levels, .null, events⟩

theorem enters_of_request? (h : l.request? s = some c) (hunknown : l.books.memo.find? c = none)
    (hc : c ∉ l.books.inProgress) : l.Enters s c := by
  obtain ⟨level, hlevel, hquestion⟩ := Option.bind_eq_some_iff.mp h
  obtain ⟨below, hlevels⟩ := List.head?_eq_some_iff.mp hlevel
  unfold Loop.Enters Loop.pass
  rw [hlevels]
  cases hsteps : (level.send s l.reply).steps with
  | done v =>
    rw [hsteps] at hquestion
    cases hquestion
  | fault f =>
    rw [hsteps] at hquestion
    cases hquestion
  | ask d next =>
    rw [hsteps] at hquestion
    cases hquestion
    refine ⟨⟨level.cell, .waiting next⟩ :: below, l.events ++ (level.send s l.reply).events, ?_⟩
    simp only [hsteps, hunknown, if_neg hc]

/-- A cell that is entered was neither under evaluation nor remembered. -/
theorem Loop.Enters.not_met (h : l.Enters s c) : ¬ l.books.Met c := by
  obtain ⟨levels, events, hp⟩ := h
  generalize hbooks : l.books.enter c = books at hp
  generalize hreply : Value.null = reply at hp
  cases goes_of_pass hp with
  | finished hlevels hsteps hleft =>
    -- the memory does not grow when a cell is entered
    have hentries := congrArg (fun b : Books => b.memo.entries.length) hbooks
    rw [(leave_eq_some hleft).1] at hentries
    exact absurd hentries (Nat.ne_of_lt (Nat.lt_succ_self _))
  | entered hlevels hsteps hunknown hc => exact Books.not_met hunknown hc

/-- Once a cell was met it is not entered any more. -/
theorem Books.Met.not_enters (h : l.books.Met d) (hl : l.Leads s l') : ¬ l'.Enters s d :=
  fun henters => henters.not_met (h.leads hl)

/-- A cell that was entered is not entered again. -/
theorem Loop.Enters.not_again {l₁ l₂ : Loop} (h : l.Enters s d) (hp : l.pass s = .next l₁)
    (hl : l₁.Leads s l₂) : ¬ l₂.Enters s d := by
  obtain ⟨levels, events, hentered⟩ := h
  rw [hp] at hentered
  cases hentered
  exact (Books.met_enter l.books d).not_enters hl

/-! ### Levels of a loop -/

/-- A cell that asks for others holds a formula. -/
theorem mem_formulaCells_of_asks {next : Value → Steps}
    (hsteps : (openCell s c).steps = .ask d next) : c ∈ formulaCells s := by
  refine mem_formulaCells ?_
  cases hformula : formula? (s.rawCell c) with
  | some formula => rfl
  | none =>
    rw [openCell_steps_of_not_formula hformula] at hsteps
    cases hsteps

/-- The level on top holds a formula when it asks for a cell. -/
theorem Loop.Layered.asks_formula (h : l.Layered s) {level : Level} {below : List Level}
    {next : Value → Steps} (hlevels : l.levels = level :: below)
    (hsteps : (level.send s l.reply).steps = .ask c next) : level.cell ∈ formulaCells s := by
  cases hgenerator : level.generator with
  | fresh =>
    unfold Level.send at hsteps
    rw [hgenerator] at hsteps
    exact mem_formulaCells_of_asks hsteps
  | waiting next =>
    refine h.formula level (hlevels ▸ List.mem_cons_self) ?_
    rw [hgenerator]
    exact nofun

/-- The level on top may wait after it asked for a cell. -/
theorem Loop.Layered.wait (h : l.Layered s) {level : Level} {below : List Level}
    {next : Value → Steps} (hlevels : l.levels = level :: below)
    (hsteps : (level.send s l.reply).steps = .ask c next) {books : Books}
    (hset : books.inProgress = l.books.inProgress) (reply : Value) (events : List Log.Event) :
    Loop.Layered s ⟨books, ⟨level.cell, .waiting next⟩ :: below, reply, events⟩ := by
  have hnodup := h.nodup
  have hstarted := h.started
  have hactive := h.active
  have hformula := h.formula
  rw [hlevels] at hnodup hstarted hactive hformula
  rw [List.forall_mem_cons] at hactive hformula
  have hasks := h.asks_formula hlevels hsteps
  refine ⟨hnodup, ?_, List.forall_mem_cons.mpr ⟨fun _ => hasks, hformula.2⟩, hstarted⟩
  rw [hset]
  exact List.forall_mem_cons.mpr hactive

/-- Every pass preserves how the levels lie. -/
theorem Loop.Layered.next (h : l.Layered s) (hp : l.pass s = .next l') : l'.Layered s := by
  cases goes_of_pass hp with
  | @finished level below v books events hlevels hsteps hbooks =>
    have hnodup := h.nodup
    have hstarted := h.started
    rw [hlevels] at hnodup hstarted
    have hmem {other : Level} (hother : other ∈ below) : other ∈ l.levels :=
      hlevels ▸ List.mem_cons_of_mem level hother
    refine ⟨hnodup.of_cons, fun other hother => ?_,
      fun other hother => h.formula other (hmem hother),
      fun other hother => hstarted other (List.mem_of_mem_tail hother)⟩
    have hne : other.cell ≠ level.cell := by
      intro heq
      have hmap : other.cell ∈ below.map (·.cell) := List.mem_map_of_mem hother
      rw [heq] at hmap
      exact (List.nodup_cons.mp hnodup).1 hmap
    rw [(leave_eq_some hbooks).2]
    exact Finset.mem_erase.mpr ⟨hne, h.active other (hmem hother)⟩
  | answered hlevels hsteps hfind hset => exact h.wait hlevels hsteps hset _ _
  | @entered level below c next events hlevels hsteps hunknown hc =>
    have hwait := h.wait hlevels hsteps rfl .null events
    refine ⟨?_, ?_, ?_, ?_⟩
    · refine List.nodup_cons.mpr ⟨fun hmem => ?_, hwait.nodup⟩
      obtain ⟨other, hother, hcell⟩ := List.mem_map.mp hmem
      have hactive := hwait.active other hother
      rw [hcell] at hactive
      exact hc hactive
    · refine List.forall_mem_cons.mpr ⟨Finset.mem_insert_self c _, fun other hother => ?_⟩
      exact Finset.mem_insert_of_mem (hwait.active other hother)
    · exact List.forall_mem_cons.mpr ⟨fun hstarted => absurd rfl hstarted, hwait.formula⟩
    · refine List.forall_mem_cons.mpr ⟨nofun, hwait.started⟩

theorem Loop.Layered.leads (h : l.Layered s) (hl : l.Leads s l') : l'.Layered s := by
  induction hl with
  | refl => exact h
  | tail _ hp ih => exact ih.next hp

/-! ### What a pass uses up -/

namespace Loop

/-- How many formula cells are neither under evaluation nor remembered. -/
def freshCount (s : Sheet) (l : Loop) : Nat := (formulaCells s).countP fun c => ¬ l.books.Met c

/-- What is left to say of the level on top. -/
def dialogue (s : Sheet) (levels : List Level) (reply : Value) : Steps :=
  match levels with
  | [] => .done .null
  | level :: _ => (level.send s reply).steps

theorem dialogue_of_levels {levels : List Level} {level : Level} {below : List Level}
    (h : levels = level :: below) (s : Sheet) (reply : Value) :
    dialogue s levels reply = (level.send s reply).steps := by
  rw [h]
  rfl

/-- What is left of the levels. One that is about to finish counts as gone already, and only the
last number tells that it is not. -/
def rest (s : Sheet) (levels : List Level) (reply : Value) : Nat × Steps × Nat :=
  match dialogue s levels reply with
  | .done v => (levels.tail.length, dialogue s levels.tail v.single, levels.length)
  | steps => (levels.length, steps, levels.length)

/-- What every pass makes smaller. -/
def rank (s : Sheet) (l : Loop) : Nat × Nat × Steps × Nat :=
  (l.freshCount s, rest s l.levels l.reply)

section Rest
variable {levels : List Level} {reply : Value} {k : Nat}

theorem rest_of_done {v : Value} (h : dialogue s levels reply = .done v) :
    rest s levels reply = (levels.tail.length, dialogue s levels.tail v.single, levels.length) := by
  unfold rest
  rw [h]

theorem rest_of_ask {next : Value → Steps} (h : dialogue s levels reply = .ask c next) :
    rest s levels reply = (levels.length, .ask c next, levels.length) := by
  unfold rest
  rw [h]

theorem rest_of_fault {f : Fault} (h : dialogue s levels reply = .fault f) :
    rest s levels reply = (levels.length, .fault f, levels.length) := by
  unfold rest
  rw [h]

/-- Less is left of levels with a reply than of as many whose dialogue is not so far yet. -/
theorem rest_of_later {level : Level} {below : List Level} {steps : Steps}
    (h : Later (level.send s reply).steps steps) :
    BelowRest (rest s (level :: below) reply) (below.length + 1, steps, k) := by
  cases hdialogue : dialogue s (level :: below) reply with
  | done v =>
    rw [rest_of_done hdialogue]
    exact .left _ _ (Nat.lt_succ_self _)
  | fault f =>
    rw [rest_of_fault hdialogue, ← hdialogue]
    exact .right _ (.left _ _ h)
  | ask c next =>
    rw [rest_of_ask hdialogue, ← hdialogue]
    exact .right _ (.left _ _ h)

/-- Less is left of levels with a reply than of these levels and one that is to give it. -/
theorem rest_of_left (hk : levels.length < k) :
    BelowRest (rest s levels reply) (levels.length, dialogue s levels reply, k) := by
  cases hdialogue : dialogue s levels reply with
  | done v =>
    rw [rest_of_done hdialogue]
    cases levels with
    | nil =>
      -- nothing waits for the value, so the loop is over and only the level itself is gone
      cases hdialogue
      exact .right _ (.right _ hk)
    | cons level below => exact .left _ _ (Nat.lt_succ_self _)
  | fault f =>
    rw [rest_of_fault hdialogue]
    exact .right _ (.right _ hk)
  | ask c next =>
    rw [rest_of_ask hdialogue]
    exact .right _ (.right _ hk)

end Rest

theorem freshCount_le (hp : l.pass s = .next l') : l'.freshCount s ≤ l.freshCount s := by
  refine List.countP_mono_left fun d _ hd => ?_
  rw [decide_eq_true_eq] at hd ⊢
  exact fun hmet => hd (hmet.next hp)

/-- A formula cell that is entered is used up. -/
theorem freshCount_lt (hp : l.pass s = .next l') (hc : c ∈ formulaCells s)
    (hfresh : ¬ l.books.Met c) (hmet : l'.books.Met c) : l'.freshCount s < l.freshCount s := by
  refine Machine.countP_lt_countP (fun d _ hd => ?_) hc ?_ ?_
  · rw [decide_eq_true_eq] at hd ⊢
    exact fun hmet => hd (hmet.next hp)
  · simpa using hmet
  · simpa using hfresh

/-- Every pass makes the rank smaller. -/
theorem rank_of_pass (hp : l.pass s = .next l') : Below (l'.rank s) (l.rank s) := by
  have hfresh := freshCount_le hp
  unfold rank
  cases goes_of_pass hp with
  | @finished level below v books events hlevels hsteps hbooks =>
    have hdialogue := dialogue_of_levels hlevels s l.reply
    rw [rest_of_done (hdialogue.trans hsteps), hlevels]
    exact lex_of_le hfresh (rest_of_left (Nat.lt_succ_self _))
  | @answered level below c next books reply events hlevels hsteps hfind hset =>
    have hdialogue := dialogue_of_levels hlevels s l.reply
    rw [rest_of_ask (hdialogue.trans hsteps), hlevels]
    exact lex_of_le hfresh (rest_of_later (.answered c next reply))
  | @entered level below c next events hlevels hsteps hunknown hc =>
    by_cases hformula : (formula? (s.rawCell c)).isSome
    · exact .left _ _ (freshCount_lt hp (mem_formulaCells hformula) (Books.not_met hunknown hc)
        (Books.met_enter l.books c))
    · -- the cell stands for its value, which the level below has in the pass after
      have hvalue : dialogue s (⟨c, .fresh⟩ :: ⟨level.cell, .waiting next⟩ :: below) .null =
          .done (s.rawCell c) :=
        openCell_steps_of_not_formula (Option.not_isSome_iff_eq_none.mp hformula)
      have hdialogue := dialogue_of_levels hlevels s l.reply
      rw [rest_of_ask (hdialogue.trans hsteps), rest_of_done hvalue, hlevels]
      exact lex_of_le hfresh (.right _ (.left _ _ (.answered c next _)))

/-- No loop goes on without end, with whatever books and levels. -/
theorem pass_wellFounded (s : Sheet) : WellFounded fun l' l : Loop => l.pass s = .next l' :=
  Subrelation.wf rank_of_pass (InvImage.wf (rank s) below_wellFounded)

/-- Every loop comes to a pass that does not go on. -/
theorem exists_last (s : Sheet) (l : Loop) : ∃ l', l.Leads s l' ∧ ∀ l'', l'.pass s ≠ .next l'' := by
  induction l using (pass_wellFounded s).induction with
  | _ l ih =>
    by_cases hnext : ∃ l', l.pass s = .next l'
    · obtain ⟨l', hp⟩ := hnext
      obtain ⟨last, hl, hlast⟩ := ih l' hp
      exact ⟨last, hl.head hp, hlast⟩
    · exact ⟨l, .refl, not_exists.mp hnext⟩

end Loop

/-- A loop that does not go on is where the loops before it come to. -/
theorem eq_of_leads_of_last {last : Loop} (hl : l.Leads s l') (hlast : ∀ l'', l'.pass s ≠ .next l'')
    (hother : l.Leads s last) (h : ∀ l'', last.pass s ≠ .next l'') : l' = last := by
  have hstays {l₁ l₂ : Loop} (h : ∀ l'', l₁.pass s ≠ .next l'') (hl : l₁.Leads s l₂) : l₁ = l₂ := by
    rcases ReflTransGen.cases_head hl with heq | ⟨l'', hp, -⟩
    · exact heq
    · exact absurd hp (h l'')
  rcases ReflTransGen.total_of_right_unique pass_rightUnique hl hother with hleads | hleads
  · exact hstays hlast hleads
  · exact (hstays h hleads).symm

/-- A cell is resolved after finitely many passes, whatever refers to whatever, and whatever is
under evaluation or remembered: no loop goes on for ever, and one that begins with the books that a
session has between resolutions ends with the outcome of the resolution, a value or a fault. No cell
is entered twice on the way, and there is never more than one level more than there are formula
cells. -/
theorem resolution_ends (s : Sheet) (b : Books) (c : Coord) :
    (WellFounded fun l' l : Loop => l.pass s = .next l') ∧
    (∃ l, (Loop.begin b c).Leads s l ∧ (∀ l', l.pass s ≠ .next l') ∧
      (b.Served → b.memo.find? c = none →
        l.pass s = .over (.ofOutcome (resolve s b.memo c)))) ∧
    (∀ l d, (Loop.begin b c).Leads s l → l.Enters s d →
      d ≠ c ∧ ∀ l₁ l₂, l.pass s = .next l₁ → l₁.Leads s l₂ → ¬ l₂.Enters s d) ∧
    ∀ l, (Loop.begin b c).Leads s l →
      l.levels.length ≤ (formulaCells s).toFinset.card + 1 := by
  refine ⟨Loop.pass_wellFounded s, ?_, fun l d hl hd => ⟨?_, fun l₁ l₂ => hd.not_again⟩,
    fun l hl => ((Loop.begin_layered s b c).leads hl).length_le⟩
  · obtain ⟨l, hl, hlast⟩ := Loop.exists_last s (.begin b c)
    refine ⟨l, hl, hlast, fun hb hunknown => ?_⟩
    obtain ⟨l', hruns, hover⟩ := hb.exists_over (s := s) hunknown
    have hlast' : ∀ l'', l'.pass s ≠ .next l'' := by
      intro l'' hp
      rw [hover] at hp
      cases hp
    rw [eq_of_leads_of_last hl hlast hruns.2.2 hlast']
    exact hover
  · rintro rfl
    exact (Books.met_enter b d).not_enters hl hd

end Frames

attribute [local instance] CallStack.usual

/-- Of two cells that name each other the second is entered once for the first, and there are never
more than three levels. -/
theorem resolution_ends_ring :
    let first := Loop.begin (.idle {}) ⟨0, 0⟩
    (∃ l, first.Leads ring l ∧ l.pass ring = .over (.ofOutcome (resolve ring {} ⟨0, 0⟩))) ∧
      first.Enters ring ⟨0, 1⟩ ∧
      (∀ l₁ l₂, first.pass ring = .next l₁ → l₁.Leads ring l₂ → ¬ l₂.Enters ring ⟨0, 1⟩) ∧
      ∀ l, first.Leads ring l → l.levels.length ≤ 3 := by
  intro first
  obtain ⟨-, ⟨last, hlast, -, hover⟩, honce, hlevels⟩ := resolution_ends ring (.idle {}) ⟨0, 0⟩
  have hrequest : first.request? ring = some ⟨0, 1⟩ := by decide +kernel
  have henters : first.Enters ring ⟨0, 1⟩ := enters_of_request? hrequest rfl (by decide)
  have hformulas : (formulaCells ring).toFinset.card = 2 := by decide +kernel
  rw [hformulas] at hlevels
  exact ⟨⟨last, hlast, hover .fresh rfl⟩, henters, (honce first _ .refl henters).2, hlevels⟩

end Worksheet.Session
