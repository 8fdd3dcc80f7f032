import Worksheet.Proofs.Lookups
import Worksheet.Proofs.Termination

/-!
The statistics of a session. A lookup that is answered from memory is a hit, one that enters a cell
is a miss, and one that meets a cell under evaluation is neither; the counts are kept apart from the
memory and from the levels of the loop, and every pass keeps them in step. So after any calls all
lookups are accounted for, and every cell that was entered is remembered, once, or was given up
because a step failed.
-/
namespace Worksheet.Session

open Formula Formula.Steps Relation

variable {s : Sheet} {memo memo' : Memo} {l l' : Loop} {c : Coord}

theorem find?_eq_none_iff : memo.find? c = none ↔ c ∉ memo.entries.map (·.1) := by
  unfold Memo.find?
  rw [List.lookup_eq_none_iff]
  constructor
  · intro h hc
    obtain ⟨entry, hentry, rfl⟩ := List.mem_map.mp hc
    exact bne_iff_ne.mp (h entry hentry) rfl
  · intro h entry hentry
    apply bne_iff_ne.mpr
    rintro rfl
    exact h (List.mem_map_of_mem hentry)

namespace Loop

/-- How many of some events warn of a circuit. -/
def warned (events : List Log.Event) : Nat := events.countP (·.type == .formulaCycle)

theorem warned_append (events more : List Log.Event) :
    warned (events ++ more) = warned events + warned more := List.countP_append

end Loop

section Frames
variable [CallStack]

/-! ### The loops of a resolution -/

namespace Loop

/-- A loop and those after it, pass after pass, to the last. -/
def trail (s : Sheet) (l : Loop) : List Loop :=
  match _pass : l.pass s with
  | .next l' => l :: l'.trail s
  | .over _ => [l]
  | .lost => [l]
termination_by l.rank s
decreasing_by exact rank_of_pass _pass

/-- The cell that a pass is asked for although it is being evaluated. -/
def again? (s : Sheet) (l : Loop) : Option Coord :=
  (l.request? s).filter fun c => (l.books.memo.find? c).isNone && decide (c ∈ l.books.inProgress)

/-- The cell that a pass enters. -/
def enters? (s : Sheet) (l : Loop) : Option Coord :=
  (l.request? s).filter fun c => (l.books.memo.find? c).isNone && decide (c ∉ l.books.inProgress)

/-- The cell that a pass reads from the sheet, and whose formula it parses. -/
def opens? (l : Loop) : Option Coord :=
  l.levels.head?.bind fun level => match level.generator with
    | .fresh => some level.cell
    | .waiting _ => none

/-- The cells that have been entered, as far as they are remembered or under evaluation. -/
def met (l : Loop) : List Coord := l.books.memo.entries.map (·.1) ++ l.levels.map (·.cell)

theorem warned_send (level : Level) (events : List Log.Event) (reply : Value) :
    warned (events ++ (level.send s reply).events) = warned events := by
  have hquiet : Quiet (level.send s reply).events := level.send_events_type s reply
  rw [warned_append, warned, warned, hquiet.countP_eq_zero, Nat.add_zero]

theorem trail_of_next (hp : l.pass s = .next l') : l.trail s = l :: l'.trail s := by
  rw [trail]
  split
  · rename_i other hother
    cases hp.symm.trans hother
    rfl
  · rename_i e hover
    cases hp.symm.trans hover
  · rename_i hlost
    cases hp.symm.trans hlost

theorem trail_of_last (hlast : ∀ l', l.pass s ≠ .next l') : l.trail s = [l] := by
  rw [trail]
  split
  · rename_i l' hp
    exact absurd hp (hlast l')
  · rfl
  · rfl

/-- A trail ends with a loop that does not go on. -/
theorem exists_getLast?_trail (s : Sheet) (l : Loop) :
    ∃ last, (l.trail s).getLast? = some last ∧ l.Leads s last ∧
      ∀ l', last.pass s ≠ .next l' := by
  induction l using (pass_wellFounded s).induction with
  | _ l ih =>
    by_cases hnext : ∃ l', l.pass s = .next l'
    · obtain ⟨l', hp⟩ := hnext
      obtain ⟨last, htrail, hl, hlast⟩ := ih l' hp
      refine ⟨last, ?_, hl.head hp, hlast⟩
      rw [trail_of_next hp, List.getLast?_cons, htrail]
      rfl
    · have hlast := not_exists.mp hnext
      refine ⟨l, ?_, .refl, hlast⟩
      rw [trail_of_last hlast]
      rfl

/-! ### Passes -/

/-- What a pass of a loop is asked for, again or not, and what it enters. -/
structure Observed (s : Sheet) (l : Loop) (request again enters : Option Coord) : Prop where
  request?_eq : l.request? s = request
  again?_eq : l.again? s = again
  enters?_eq : l.enters? s = enters

theorem request?_of_question? {level : Level} {below : List Level} {d : Option Coord}
    (hlevels : l.levels = level :: below) (h : (level.send s l.reply).steps.question? = d) :
    l.request? s = d := by
  unfold request?
  rw [hlevels]
  exact h

theorem observed_of_quiet (h : l.request? s = none) : l.Observed s none none none := by
  refine ⟨h, ?_, ?_⟩
  · simp only [again?, h, Option.filter_none]
  · simp only [enters?, h, Option.filter_none]

theorem observed_of_known {v : Value} (h : l.request? s = some c)
    (hknown : l.books.memo.find? c = some v) : l.Observed s (some c) none none := by
  refine ⟨h, ?_, ?_⟩
  · simp [again?, h, hknown]
  · simp [enters?, h, hknown]

theorem observed_of_repeated (h : l.request? s = some c) (hunknown : l.books.memo.find? c = none)
    (hc : c ∈ l.books.inProgress) : l.Observed s (some c) (some c) none := by
  refine ⟨h, ?_, ?_⟩
  · simp [again?, h, hunknown, hc]
  · simp [enters?, h, hc]

theorem observed_of_entered (h : l.request? s = some c) (hunknown : l.books.memo.find? c = none)
    (hc : c ∉ l.books.inProgress) : l.Observed s (some c) none (some c) := by
  refine ⟨h, ?_, ?_⟩
  · simp [again?, h, hc]
  · simp [enters?, h, hunknown, hc]

/-- What the passes on the way from one loop to another account for. -/
structure Accounts (s : Sheet) (way : List Loop) (l l' : Loop) : Prop where
  lookups : l'.books.memo.hits + l'.books.memo.misses + (way.filterMap (again? s)).length =
    l.books.memo.hits + l.books.memo.misses + (way.filterMap (request? s)).length
  misses : l'.books.memo.misses = l.books.memo.misses + (way.filterMap (enters? s)).length
  met : l'.met.Perm (way.filterMap (enters? s) ++ l.met)
  warnings : warned l'.events = warned l.events + (way.filterMap (again? s)).length

theorem Accounts.trans {l₁ l₂ l₃ : Loop} {way way' : List Loop} (h : Accounts s way l₁ l₂)
    (h' : Accounts s way' l₂ l₃) : Accounts s (way ++ way') l₁ l₃ := by
  have hlookups := h.lookups
  have hlookups' := h'.lookups
  have hmisses := h.misses
  have hmisses' := h'.misses
  have hwarnings := h.warnings
  have hwarnings' := h'.warnings
  refine ⟨?_, ?_, ?_, ?_⟩
  · simp only [List.filterMap_append, List.length_append]
    omega
  · simp only [List.filterMap_append, List.length_append]
    omega
  · apply List.perm_iff_count.mpr
    intro c
    have hmet := h.met.count_eq c
    have hmet' := h'.met.count_eq c
    simp only [List.filterMap_append, List.count_append] at hmet hmet' ⊢
    omega
  · simp only [List.filterMap_append, List.length_append]
    omega

/-- What a single pass accounts for. -/
theorem Observed.accounts {request again enters : Option Coord}
    (h : l.Observed s request again enters)
    (hlookups : l'.books.memo.hits + l'.books.memo.misses + again.toList.length =
      l.books.memo.hits + l.books.memo.misses + request.toList.length)
    (hmisses : l'.books.memo.misses = l.books.memo.misses + enters.toList.length)
    (hmet : l'.met.Perm (enters.toList ++ l.met))
    (hwarnings : warned l'.events = warned l.events + again.toList.length) :
    Accounts s [l] l l' := by
  have hsingle (f : Loop → Option Coord) : [l].filterMap f = (f l).toList := by
    cases hf : f l <;> simp [hf]
  refine ⟨?_, ?_, ?_, ?_⟩
  · rw [hsingle, hsingle, h.again?_eq, h.request?_eq]
    exact hlookups
  · rw [hsingle, h.enters?_eq]
    exact hmisses
  · rw [hsingle, h.enters?_eq]
    exact hmet
  · rw [hsingle, h.again?_eq]
    exact hwarnings

end Loop

namespace Consistent

open Loop

theorem accounts_next (h : Consistent s memo l) (hp : l.pass s = .next l') :
    Accounts s [l] l l' := by
  have hpassed := h.passed
  rw [hp] at hpassed
  cases hpassed with
  | @finished level below v books hlevels hsteps hbooks hmemo =>
    have hrequest : l.request? s = none :=
      request?_of_question? hlevels (congrArg Steps.question? hsteps)
    apply (observed_of_quiet hrequest).accounts
    · rw [hmemo]
      rfl
    · rw [hmemo]
      rfl
    · unfold met
      rw [hmemo, hlevels]
      exact List.perm_middle.symm
    · exact warned_send level l.events l.reply
  | @known level below c next v hlevels hsteps hknown =>
    have hrequest : l.request? s = some c :=
      request?_of_question? hlevels (congrArg Steps.question? hsteps)
    apply (observed_of_known hrequest hknown).accounts
    · exact Nat.add_right_comm _ 1 _
    · rfl
    · unfold met
      rw [hlevels]
      exact .refl _
    · exact warned_send level l.events l.reply
  | @repeated level below c next hlevels hsteps hunknown hc =>
    have hrequest : l.request? s = some c :=
      request?_of_question? hlevels (congrArg Steps.question? hsteps)
    apply (observed_of_repeated hrequest hunknown ((h.mem_inProgress c).mpr hc)).accounts
    · rfl
    · rfl
    · unfold met
      rw [hlevels]
      exact .refl _
    · rw [warned_append, warned_send]
      rfl
  | @entered level below c next hlevels hsteps hunknown hc =>
    have hrequest : l.request? s = some c :=
      request?_of_question? hlevels (congrArg Steps.question? hsteps)
    have hidle : c ∉ l.books.inProgress := fun hmem => hc ((h.mem_inProgress c).mp hmem)
    apply (observed_of_entered hrequest hunknown hidle).accounts
    · rfl
    · rfl
    · unfold met
      rw [hlevels]
      exact List.perm_middle
    · exact warned_send level l.events l.reply

/-- A pass that ends the loop is asked for nothing. -/
theorem request?_last (h : Consistent s memo l) (hlast : ∀ l', l.pass s ≠ .next l') :
    l.request? s = none := by
  have hpassed := h.passed
  generalize hp : l.pass s = p at hpassed
  cases hpassed with
  | ended hlevels =>
    unfold request?
    rw [hlevels]
    rfl
  | failed hlevels hsteps => exact request?_of_question? hlevels (congrArg Steps.question? hsteps)
  | finished => exact absurd hp (hlast _)
  | known => exact absurd hp (hlast _)
  | repeated => exact absurd hp (hlast _)
  | entered => exact absurd hp (hlast _)

theorem accounts_last (h : Consistent s memo l) (hlast : ∀ l', l.pass s ≠ .next l') :
    Accounts s [l] l l := by
  apply (observed_of_quiet (h.request?_last hlast)).accounts
  · rfl
  · rfl
  · exact .refl _
  · rfl

theorem accounts_trail {last : Loop} (h : Consistent s memo l)
    (hlast : (l.trail s).getLast? = some last) : Accounts s (l.trail s) l last := by
  induction l using (pass_wellFounded s).induction with
  | _ l ih =>
    by_cases hnext : ∃ l', l.pass s = .next l'
    · obtain ⟨l', hp⟩ := hnext
      obtain ⟨other, hother, -⟩ := exists_getLast?_trail s l'
      rw [trail_of_next hp, List.getLast?_cons, hother] at hlast
      cases hlast
      rw [trail_of_next hp]
      exact (h.accounts_next hp).trans (ih l' hp (h.next hp) hother)
    · have hends := not_exists.mp hnext
      rw [trail_of_last hends] at hlast ⊢
      cases hlast
      exact h.accounts_last hends

theorem not_mem_met (h : Consistent s memo l) (hc : l.enters? s = some c) : c ∉ l.met := by
  unfold enters? at hc
  rw [Option.filter_eq_some_iff, Bool.and_eq_true, Option.isNone_iff_eq_none,
    decide_eq_true_eq] at hc
  obtain ⟨-, hunknown, hidle⟩ := hc
  intro hmet
  rcases List.mem_append.mp hmet with hknown | hactive
  · exact find?_eq_none_iff.mp hunknown hknown
  · rw [← h.stack_eq, ← h.mem_inProgress] at hactive
    exact hidle hactive

/-- No pass lets a cell be met twice. -/
theorem nodup_met_next (h : Consistent s memo l) (hp : l.pass s = .next l') (hmet : l.met.Nodup) :
    l'.met.Nodup := by
  apply (h.accounts_next hp).met.nodup_iff.mpr
  cases henters : l.enters? s with
  | none =>
    rw [List.filterMap_cons_none henters]
    exact hmet
  | some c =>
    rw [List.filterMap_cons_some henters]
    exact List.nodup_cons.mpr ⟨h.not_mem_met henters, hmet⟩

theorem nodup_met_leads (h : Consistent s memo l) (hl : l.Leads s l') (hmet : l.met.Nodup) :
    l'.met.Nodup := by
  induction hl with
  | refl => exact hmet
  | tail hl hp ih => exact (h.leads hl).nodup_met_next hp ih

/-- The cell that a pass enters is the one that the next pass reads. -/
theorem opens?_next (h : Consistent s memo l) (hp : l.pass s = .next l') :
    l'.opens? = l.enters? s := by
  have hpassed := h.passed
  rw [hp] at hpassed
  cases hpassed with
  | @finished level below v books hlevels hsteps =>
    have hrequest : l.request? s = none :=
      request?_of_question? hlevels (congrArg Steps.question? hsteps)
    -- the level below has asked before, so it is not read again
    have hstarted := h.started
    rw [hlevels] at hstarted
    rw [(observed_of_quiet hrequest).enters?_eq]
    cases below with
    | nil => rfl
    | cons under rest =>
      have hwaits : under.generator ≠ .fresh := hstarted under List.mem_cons_self
      change (match under.generator with
        | .fresh => some under.cell
        | .waiting _ => none) = none
      cases hgenerator : under.generator with
      | fresh => exact absurd hgenerator hwaits
      | waiting next => rfl
  | known hlevels hsteps hknown =>
    have hrequest := request?_of_question? (s := s) hlevels (congrArg Steps.question? hsteps)
    exact (observed_of_known hrequest hknown).enters?_eq.symm
  | repeated hlevels hsteps hunknown hc =>
    have hrequest := request?_of_question? (s := s) hlevels (congrArg Steps.question? hsteps)
    exact (observed_of_repeated hrequest hunknown ((h.mem_inProgress _).mpr hc)).enters?_eq.symm
  | entered hlevels hsteps hunknown hc =>
    have hrequest := request?_of_question? (s := s) hlevels (congrArg Steps.question? hsteps)
    have hidle := fun hmem => hc ((h.mem_inProgress _).mp hmem)
    exact (observed_of_entered hrequest hunknown hidle).enters?_eq.symm

/-- Nothing is warned of by the pass that ends the loop. -/
theorem warned_over (h : Consistent s memo l) {e : Ended} (hp : l.pass s = .over e) :
    warned e.events = warned l.events := by
  have hpassed := h.passed
  rw [hp] at hpassed
  cases hpassed with
  | ended => rfl
  | failed => exact warned_send _ l.events l.reply

/-- On the way of a loop every cell that is entered is read, once and in that order. -/
theorem opens_trail (h : Consistent s memo l) :
    (l.trail s).filterMap opens? = l.opens?.toList ++ (l.trail s).filterMap (enters? s) := by
  induction l using (pass_wellFounded s).induction with
  | _ l ih =>
    by_cases hnext : ∃ l', l.pass s = .next l'
    · obtain ⟨l', hp⟩ := hnext
      rw [trail_of_next hp, List.filterMap_cons, List.filterMap_cons, ih l' hp (h.next hp),
        h.opens?_next hp]
      cases l.opens? <;> cases l.enters? s <;> rfl
    · have hends := not_exists.mp hnext
      have hquiet := observed_of_quiet (h.request?_last hends)
      rw [trail_of_last hends, List.filterMap_cons_none hquiet.enters?_eq, List.filterMap_nil,
        List.append_nil]
      cases hopens : l.opens? with
      | none => exact List.filterMap_cons_none hopens
      | some c => exact List.filterMap_cons_some hopens

end Consistent

/-! ### Lookups -/

namespace Lookup

/-- The loops of a lookup, none if the cell is remembered. -/
def loops (k : Lookup) : List Loop :=
  match k.memo.find? k.cell with
  | some _ => []
  | none => (Loop.begin (.idle k.memo) k.cell).trail k.sheet

/-- The cells that formulas ask for. -/
def requested (k : Lookup) : List Coord := k.loops.filterMap (Loop.request? k.sheet)

/-- The cells that formulas ask for while they are evaluated; a circuit is the answer. -/
def repeated (k : Lookup) : List Coord := k.loops.filterMap (Loop.again? k.sheet)

/-- The cells that are entered: the one that is looked up, and those that formulas ask for. -/
def entered (k : Lookup) : List Coord :=
  match k.memo.find? k.cell with
  | some _ => []
  | none => k.cell :: k.loops.filterMap (Loop.enters? k.sheet)

/-- The cells that are read from the sheet and evaluated. -/
def opened (k : Lookup) : List Coord := k.loops.filterMap Loop.opens?

/-- The cells that are given up when a step fails: those still under evaluation in the end. -/
def abandoned (k : Lookup) : List Coord :=
  k.loops.getLast?.toList.flatMap fun l => l.levels.map (·.cell)

end Lookup

/-- What some lookups account for, from one memory to another. -/
structure Accounted (ks : List Lookup) (memo memo' : Memo) : Prop where
  lookups : memo'.hits + memo'.misses + (ks.flatMap Lookup.repeated).length =
    memo.hits + memo.misses + ks.length + (ks.flatMap Lookup.requested).length
  misses : memo'.misses = memo.misses + (ks.flatMap Lookup.entered).length
  entered : (memo'.entries.map (·.1) ++ ks.flatMap Lookup.abandoned).Perm
    (ks.flatMap Lookup.entered ++ memo.entries.map (·.1))
  opened : ks.flatMap Lookup.opened = ks.flatMap Lookup.entered
  warnings : Loop.warned (ks.flatMap fun k => k.outcome.events) =
    (ks.flatMap Lookup.repeated).length

theorem accounted_nil (memo : Memo) : Accounted [] memo memo where
  lookups := rfl
  misses := rfl
  entered := by simp
  opened := rfl
  warnings := rfl

theorem Accounted.append {ks ks' : List Lookup} {memo₁ memo₂ memo₃ : Memo}
    (h : Accounted ks memo₁ memo₂) (h' : Accounted ks' memo₂ memo₃) :
    Accounted (ks ++ ks') memo₁ memo₃ := by
  have hlookups := h.lookups
  have hlookups' := h'.lookups
  have hmisses := h.misses
  have hmisses' := h'.misses
  refine ⟨?_, ?_, ?_, ?_, ?_⟩
  · simp only [List.flatMap_append, List.length_append]
    omega
  · simp only [List.flatMap_append, List.length_append]
    omega
  · apply List.perm_iff_count.mpr
    intro c
    have hentered := h.entered.count_eq c
    have hentered' := h'.entered.count_eq c
    simp only [List.flatMap_append, List.count_append] at hentered hentered' ⊢
    omega
  · rw [List.flatMap_append, List.flatMap_append, h.opened, h'.opened]
  · rw [List.flatMap_append, List.flatMap_append, List.length_append, Loop.warned_append,
      h.warnings, h'.warnings]

namespace Lookup

/-- The last loop of a lookup leaves what the lookup leaves. -/
theorem exists_last (k : Lookup) (hunknown : k.memo.find? k.cell = none) :
    ∃ last, k.loops.getLast? = some last ∧
      (Loop.begin (.idle k.memo) k.cell).Leads k.sheet last ∧
      last.pass k.sheet = .over (.ofOutcome k.outcome) ∧
      k.outcome.memo = last.books.memo := by
  obtain ⟨last, hgetLast, hl, hlast⟩ :=
    Loop.exists_getLast?_trail k.sheet (Loop.begin (.idle k.memo) k.cell)
  obtain ⟨l, hruns, hover⟩ := yields_run (Machine.start k.sheet k.memo k.cell)
    (Consistent.begin hunknown) rfl rfl
  have hends : ∀ l', l.pass k.sheet ≠ .next l' := by
    intro l' hp
    rw [hover] at hp
    cases hp
  have hsame : last = l := eq_of_leads_of_last hl hlast hruns hends
  have houtcome : k.outcome = (Machine.start k.sheet k.memo k.cell).run k.sheet := by
    unfold outcome resolve
    rw [hunknown]
  have hpass : last.pass k.sheet = .over (.ofOutcome k.outcome) := by
    rw [hsame, houtcome]
    exact hover
  refine ⟨last, ?_, hl, hpass, ?_⟩
  · unfold loops
    rw [hunknown]
    exact hgetLast
  · exact congrArg Books.memo (((Consistent.begin hunknown).leads hl).over hpass).1

/-- A lookup leaves what was remembered, with one more hit, or what its last loop remembers. -/
theorem memo_outcome (k : Lookup) :
    k.outcome.memo = k.memo.hit ∨
      k.memo.find? k.cell = none ∧ ∃ last,
        (Loop.begin (.idle k.memo) k.cell).Leads k.sheet last ∧
        k.outcome.memo = last.books.memo := by
  cases hfind : k.memo.find? k.cell with
  | some v =>
    apply Or.inl
    unfold outcome resolve
    rw [hfind]
  | none =>
    obtain ⟨last, -, hl, -, hmemo⟩ := k.exists_last hfind
    exact .inr ⟨rfl, last, hl, hmemo⟩

theorem accounted_of_known (k : Lookup) {v : Value} (hknown : k.memo.find? k.cell = some v) :
    Accounted [k] k.memo k.outcome.memo := by
  have hloops : k.loops = [] := by
    unfold loops
    rw [hknown]
  have hentered : k.entered = [] := by
    unfold entered
    rw [hknown]
  have houtcome : k.outcome = ⟨k.memo.hit, .ok v, []⟩ := by
    unfold outcome resolve
    rw [hknown]
  refine ⟨?_, ?_, ?_, ?_, ?_⟩
  · simp only [List.flatMap_singleton, repeated, requested, hloops, houtcome, Memo.hit]
    exact Nat.add_right_comm _ 1 _
  · rw [List.flatMap_singleton, hentered, houtcome]
    rfl
  · rw [List.flatMap_singleton, List.flatMap_singleton, hentered, houtcome, abandoned, hloops]
    exact .of_eq (List.append_nil _)
  · rw [List.flatMap_singleton, List.flatMap_singleton, hentered, opened, hloops]
    rfl
  · rw [List.flatMap_singleton, List.flatMap_singleton, houtcome, repeated, hloops]
    rfl

theorem accounted_of_unknown (k : Lookup) (hunknown : k.memo.find? k.cell = none) :
    Accounted [k] k.memo k.outcome.memo := by
  have hbegin := Consistent.begin (s := k.sheet) hunknown
  obtain ⟨last, hlast, hl, hover, hmemo⟩ := k.exists_last hunknown
  have hloops : k.loops = (Loop.begin (.idle k.memo) k.cell).trail k.sheet := by
    unfold loops
    rw [hunknown]
  have hentered : k.entered = k.cell :: k.loops.filterMap (Loop.enters? k.sheet) := by
    unfold entered
    rw [hunknown]
  have habandoned : k.abandoned = last.levels.map (·.cell) := by
    unfold abandoned
    rw [hlast]
    exact List.flatMap_singleton _ last
  have hwarned : Loop.warned k.outcome.events = Loop.warned last.events :=
    (hbegin.leads hl).warned_over hover
  have hopens := hbegin.opens_trail
  rw [hloops] at hlast
  have haccounts := hbegin.accounts_trail hlast
  rw [← hloops] at haccounts hopens
  refine ⟨?_, ?_, ?_, ?_, ?_⟩
  · have hlookups : last.books.memo.hits + last.books.memo.misses + k.repeated.length =
        k.memo.hits + (k.memo.misses + 1) + k.requested.length := haccounts.lookups
    rw [List.flatMap_singleton, List.flatMap_singleton, hmemo, List.length_singleton]
    omega
  · have hmisses : last.books.memo.misses =
        k.memo.misses + 1 + (k.loops.filterMap (Loop.enters? k.sheet)).length := haccounts.misses
    rw [List.flatMap_singleton, hmemo, hentered, List.length_cons]
    omega
  · rw [List.flatMap_singleton, List.flatMap_singleton, hmemo, habandoned, hentered]
    apply haccounts.met.trans
    rw [Loop.met, ← List.append_assoc]
    exact List.perm_append_singleton k.cell _
  · rw [List.flatMap_singleton, List.flatMap_singleton, hentered]
    exact hopens
  · rw [List.flatMap_singleton, List.flatMap_singleton, hwarned, haccounts.warnings]
    exact Nat.zero_add _

/-- Every lookup keeps account of itself. -/
theorem accounted (k : Lookup) : Accounted [k] k.memo k.outcome.memo := by
  cases hfind : k.memo.find? k.cell with
  | some v => exact k.accounted_of_known hfind
  | none => exact k.accounted_of_unknown hfind

/-- No cell is remembered twice. -/
theorem nodup_keys (k : Lookup) (h : (k.memo.entries.map (·.1)).Nodup) :
    (k.outcome.memo.entries.map (·.1)).Nodup := by
  rcases k.memo_outcome with hhit | ⟨hunknown, last, hl, hmemo⟩
  · rw [hhit]
    exact h
  · have hmet : (Loop.begin (.idle k.memo) k.cell).met.Nodup := by
      apply (List.perm_append_singleton k.cell _).nodup_iff.mpr
      exact List.nodup_cons.mpr ⟨find?_eq_none_iff.mp hunknown, h⟩
    rw [hmemo]
    exact (List.nodup_append.mp ((Consistent.begin hunknown).nodup_met_leads hl hmet)).1

/-- A lookup that returns gives nothing up. -/
theorem abandoned_of_returned (k : Lookup) (h : Returned k.outcome.result) : k.abandoned = [] := by
  cases hfind : k.memo.find? k.cell with
  | some v =>
    unfold abandoned loops
    rw [hfind]
    rfl
  | none =>
    obtain ⟨last, hlast, hl, hover, -⟩ := k.exists_last hfind
    obtain ⟨v, hv⟩ := returned_iff.mp h
    have hpassed := ((Consistent.begin hfind).leads hl).passed
    rw [hover] at hpassed
    unfold abandoned
    rw [hlast]
    generalize he : Ended.ofOutcome k.outcome = e at hpassed
    cases hpassed with
    | ended hlevels => simp [hlevels]
    | failed hlevels hsteps =>
      have hresult := congrArg Ended.result he
      rw [Ended.ofOutcome, hv] at hresult
      cases hresult

end Lookup

namespace Lookup.Chained

variable {ks : List Lookup}

theorem accounted (h : Chained memo ks memo') : Accounted ks memo memo' := by
  induction h with
  | nil memo => exact accounted_nil memo
  | cons k h ih => exact k.accounted.append ih

theorem nodup_keys (h : Chained memo ks memo') (hmemo : (memo.entries.map (·.1)).Nodup) :
    (memo'.entries.map (·.1)).Nodup :=
  h.preserves (P := fun memo => (memo.entries.map (·.1)).Nodup) (fun k _ => k.nodup_keys) hmemo

end Lookup.Chained

/-! ### Calls -/

/-- A call to a session, with the sheet as it is then. -/
structure Call where
  sheet : Sheet
  request : Request

/-- The session after calls made one after the other, whether they returned or not. -/
def after (ses : Session) (calls : List Call) : Session :=
  calls.foldl (fun ses call => serve call.sheet ses call.request) ses

/-- The lookups of calls made one after the other. -/
def made : Session → List Call → List Lookup
  | _, [] => []
  | ses, call :: rest =>
    lookups call.sheet ses call.request ++ made (serve call.sheet ses call.request) rest

/-- Whether calls made one after the other all return. -/
def allReturn : Session → List Call → Bool
  | _, [] => true
  | ses, call :: rest =>
    returns call.sheet ses call.request && allReturn (serve call.sheet ses call.request) rest

theorem chained_made (ses : Session) (calls : List Call) :
    Lookup.Chained ses.memo (made ses calls) (after ses calls).memo := by
  induction calls generalizing ses with
  | nil => exact .nil _
  | cons call rest ih =>
    exact (chained_lookups call.sheet ses call.request).append (ih _)

theorem returned_made {ses : Session} {calls : List Call} (h : allReturn ses calls = true) :
    ∀ k ∈ made ses calls, Returned k.outcome.result := by
  induction calls generalizing ses with
  | nil => exact List.forall_mem_nil _
  | cons call rest ih =>
    obtain ⟨hcall, hrest⟩ := Bool.and_eq_true_iff.mp h
    exact List.forall_mem_append.mpr ⟨returned_lookups hcall, ih hrest⟩

/-- After any calls to a session, whatever they returned and whatever became of its sheet, every
lookup was a hit, a miss, or answered with a circuit, of which it was warned; and the misses are the
cells that are remembered and those that were given up, each of which was read once when it was
entered. If all calls returned, nothing was given up, and no cell was ever entered twice. -/
theorem statistics_of_calls (sheet : Nat) (s : Sheet) (settings : Display.Settings)
    (calls : List Call) :
    let begun := Session.begin sheet s settings
    let memo := (after begun calls).memo
    let remembered := memo.entries.map (·.1)
    let ks := made begun calls
    let circuits := (ks.flatMap Lookup.repeated).length
    let entered := ks.flatMap Lookup.entered
    let abandoned := ks.flatMap Lookup.abandoned
    memo.hits + memo.misses + circuits = ks.length + (ks.flatMap Lookup.requested).length ∧
    circuits = (ks.flatMap fun k => k.outcome.events).countP (·.type == .formulaCycle) ∧
    memo.misses = remembered.length + abandoned.length ∧ remembered.Nodup ∧
    entered.Perm (remembered ++ abandoned) ∧ ks.flatMap Lookup.opened = entered ∧
    (allReturn begun calls = true →
      abandoned = [] ∧ memo.misses = remembered.length ∧ entered.Nodup) := by
  intro begun memo remembered ks circuits entered abandoned
  have hchained : Lookup.Chained {} ks memo := chained_made begun calls
  have haccounted := hchained.accounted
  have hentered : entered.Perm (remembered ++ abandoned) := by
    have hperm := haccounted.entered
    rw [List.map_nil, List.append_nil] at hperm
    exact hperm.symm
  have hremembered : remembered.Nodup := hchained.nodup_keys List.nodup_nil
  have hmisses : memo.misses = remembered.length + abandoned.length := by
    rw [haccounted.misses, hentered.length_eq, List.length_append]
    exact Nat.zero_add _
  refine ⟨?_, haccounted.warnings.symm, hmisses, hremembered, hentered, haccounted.opened, ?_⟩
  · rw [haccounted.lookups]
    exact congrArg (· + _) (Nat.zero_add _)
  · intro hreturn
    have hnone : abandoned = [] := by
      apply List.flatMap_eq_nil_iff.mpr
      intro k hk
      exact k.abandoned_of_returned (returned_made hreturn k hk)
    rw [hnone] at hmisses hentered
    rw [List.append_nil] at hentered
    exact ⟨hnone, hmisses, hentered.nodup_iff.mpr hremembered⟩

end Frames

attribute [local instance] CallStack.usual

/-- Of three cells, two of which name each other, each is entered once, however often they are
looked up. -/
theorem statistics_of_calls_ring :
    let begun := Session.begin 0 ring plainSettings
    let calls := [⟨ring, .value ⟨0, 1⟩⟩, ⟨ring, .all⟩]
    let memo := (after begun calls).memo
    allReturn begun calls = true ∧ memo.misses = 3 ∧ memo.entries.length = 3 ∧
      ((made begun calls).flatMap Lookup.entered).Nodup := by
  intro begun calls memo
  have hrange : List.range ring.rowCount = [0] := by decide
  have hrow : gridRow ring 0 = [⟨0, 0⟩, ⟨0, 1⟩, ⟨0, 2⟩] := by decide
  have hrun : allReturn begun calls = true ∧ memo.misses = 3 := by
    simp only [memo, begun, calls, allReturn, returns, after, List.foldl, serve, evaluateAll,
      hrange, displayRows, hrow, displayAll, displayValue, value, resolve_eq_retrieve,
      Session.begin]
    decide +kernel
  obtain ⟨-, -, -, -, -, -, hreturned⟩ := statistics_of_calls 0 ring plainSettings calls
  obtain ⟨-, hlength, hnodup⟩ := hreturned hrun.1
  rw [List.length_map] at hlength
  exact ⟨hrun.1, hrun.2, hlength.symm.trans hrun.2, hnodup⟩

end Worksheet.Session
