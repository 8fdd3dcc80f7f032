import Mathlib.Data.Fintype.Pigeonhole
import Mathlib.Data.Set.Finite.Basic
import Worksheet.Proofs.Occurrences
import Worksheet.Proofs.Requests
import Worksheet.Proofs.StoredCells

/-!
Cycles of references. A cell refers to the cells that its formula lists, whether or not evaluation
comes to ask for them. Evaluation asks only for cells that are referred to, so it meets a cycle only
where there is one; a value that is no error has asked for all of them, so no cycle was in reach;
and a cycle error is handed on from cell to cell along references, which leads around a cycle
because a sheet has finitely many formulas.
-/
namespace Worksheet.Session

open Formula Formula.Steps Relation Remembering

/-! ### Relations with cycles -/

section Cycles
variable {α : Type} {R : α → α → Prop} {a b : α}

/-- Some way from a point leads around a cycle. -/
def Cyclic (R : α → α → Prop) (a : α) : Prop := ∃ b, ReflTransGen R a b ∧ TransGen R b b

theorem Cyclic.head (hab : R a b) (hb : Cyclic R b) : Cyclic R a := by
  obtain ⟨c, hbc, hc⟩ := hb
  exact ⟨c, .head hab hbc, hc⟩

theorem Cyclic.mono {R' : α → α → Prop} (h : ∀ a b, R a b → R' a b) (ha : Cyclic R a) :
    Cyclic R' a := by
  obtain ⟨b, hab, hb⟩ := ha
  exact ⟨b, ReflTransGen.mono h a b hab, TransGen.mono h b b hb⟩

theorem acc_of_reflTransGen (ha : Acc (fun b a => R a b) a) (hab : ReflTransGen R a b) :
    Acc (fun b a => R a b) b := by
  induction hab with
  | refl => exact ha
  | tail _ hstep ih => exact ih.inv hstep

theorem not_cyclic_of_acc (ha : Acc (fun b a => R a b) a) : ¬ Cyclic R a := by
  rintro ⟨b, hab, hb⟩
  exact not_transGen_self_of_acc (acc_of_reflTransGen ha hab) (transGen_swap.mpr hb)

/-- Going on and on among finitely many points leads around a cycle. -/
theorem cyclic_of_serial {P : α → Prop} (hfinite : Finite {a // P a})
    (hnext : ∀ a, P a → ∃ b, P b ∧ R a b) (ha : P a) : Cyclic R a := by
  choose! next hP hR using hnext
  have hpoint : ∀ n, P (next^[n] a) := by
    intro n
    induction n with
    | zero => exact ha
    | succ n ih =>
      rw [Function.iterate_succ_apply']
      exact hP _ ih
  have hway : ∀ m n, ReflTransGen R (next^[m] a) (next^[m + n] a) := by
    intro m n
    induction n with
    | zero => exact .refl
    | succ n ih =>
      rw [← Nat.add_assoc, Function.iterate_succ_apply']
      exact ih.tail (hR _ (hpoint _))
  have hcycle : ∀ m n, m < n → next^[m] a = next^[n] a → Cyclic R a := by
    intro m n hlt heq
    have hfirst : R (next^[m] a) (next^[m + 1] a) := by
      rw [Function.iterate_succ_apply']
      exact hR _ (hpoint m)
    have hrest : ReflTransGen R (next^[m + 1] a) (next^[m] a) := by
      have hlength : m + 1 + (n - (m + 1)) = n := by omega
      rw [heq]
      exact hlength ▸ hway (m + 1) (n - (m + 1))
    have hreach := hway 0 m
    rw [Nat.zero_add] at hreach
    exact ⟨next^[m] a, hreach, .head' hfirst hrest⟩
  obtain ⟨m, n, hne, heq⟩ := Finite.exists_ne_map_eq_of_infinite
    fun n : Nat => (⟨next^[n] a, hpoint n⟩ : {a // P a})
  have heq' : next^[m] a = next^[n] a := congrArg Subtype.val heq
  rcases Nat.lt_or_gt_of_ne hne with hlt | hlt
  · exact hcycle m n hlt heq'
  · exact hcycle n m hlt heq'.symm

end Cycles

/-! ### Values -/

/-- A number, a text, a truth value or nothing. -/
def IsScalar : Value → Prop
  | .null | .bool _ | .int _ | .float _ | .text _ => True
  | .error _ | .list _ | .record _ => False

theorem isGood_of_isGood_map_single {r : Except Fault Value}
    (h : IsGood (r.map Value.single)) : IsGood r := by
  obtain ⟨v, hv, hgood⟩ := h
  obtain ⟨w, rfl, rfl⟩ := map_eq_ok.mp hv
  cases w with
  | error code => cases hgood
  | _ => exact ⟨_, rfl, rfl⟩

/-! ### Reports -/

/-- Whatever the memory, only events of a kind are reported. -/
def Reports {α : Type} (P : Log.Event → Prop) (x : Remembering α) : Prop :=
  ∀ memo, ∀ event ∈ (x.run memo).events, P event

theorem reports_bind {P : Log.Event → Prop} {α β : Type} {x : Remembering α}
    {k : α → Remembering β} (hx : Reports P x) (hk : ∀ a, Reports P (k a)) :
    Reports P (x >>= k) := by
  intro memo event hevent
  cases hresult : (x.run memo).result with
  | error f =>
    rw [run_bind_of_error _ _ hresult] at hevent
    exact hx memo event hevent
  | ok a =>
    rw [run_bind_of_ok _ _ hresult] at hevent
    rcases List.mem_append.mp hevent with hevent | hevent
    · exact hx memo event hevent
    · exact hk a _ event hevent

theorem reports_run {lookup : Coord → Remembering Value} {steps : Steps}
    (h : ∀ d, steps.Mentions d → Reports P (lookup d)) : Reports P (steps.run lookup fail) := by
  induction steps with
  | done v => exact fun memo event hevent => absurd hevent List.not_mem_nil
  | fault f => exact fun memo event hevent => absurd hevent List.not_mem_nil
  | ask c next ih =>
    exact reports_bind (h c (.first c next)) fun v => ih v fun d hd => h d (.later v hd)

/-! ### References -/

section Frames
variable [CallStack]

/-- A cell refers to the cells of the texts that its formula lists. -/
def Refers (s : Sheet) (c d : Coord) : Prop :=
  ∃ formula node, formula? (s.rawCell c) = some formula ∧ Text.allBlank (body formula) = false ∧
    parseFormula formula = .ok (.ok node) ∧
    ∃ name ∈ node.listed, d ∈ (Reference.ofText name).coords

/-- Every cell holds a scalar. -/
def Ordinary (s : Sheet) : Prop := ∀ c, IsScalar (s.rawCell c)

variable {s : Sheet} {c d : Coord}

theorem isSome_formula?_of_refers (h : Refers s c d) : (formula? (s.rawCell c)).isSome := by
  obtain ⟨formula, node, hformula, -⟩ := h
  rw [hformula]
  rfl

/-- A cell asks only for cells to which it refers. -/
theorem refers_of_mentions (h : (openCell s c).steps.Mentions d) : Refers s c d := by
  cases hformula : formula? (s.rawCell c) with
  | none =>
    rw [openCell_steps_of_not_formula hformula] at h
    cases h
  | some formula =>
    rw [openCell_steps_of_formula hformula] at h
    unfold openFormula at h
    split at h
    · cases h
    · rename_i hbody
      split at h
      · rename_i node hnode
        exact ⟨formula, node, hformula, by simpa using hbody, hnode,
          (exists_listed_iff (parseFormula_written hnode)).mpr (evaluate_mentions h)⟩
      · cases h
      · cases h
      · cases h

theorem steps_of_refers (h : Refers s c d) :
    ∃ node : Node, (openCell s c).steps = node.steps ∧
      ∃ ref ∈ node.occurrences, d ∈ ref.coords := by
  obtain ⟨formula, node, hformula, hbody, hnode, hlisted⟩ := h
  refine ⟨node, ?_, (exists_listed_iff (parseFormula_written hnode)).mp hlisted⟩
  rw [openCell_steps_of_formula hformula]
  simp only [openFormula, hbody, hnode]
  rfl

/-! ### Values that are no errors -/

/-- A cell that means no error depends on every cell to which it refers, and none of them means an
error. -/
theorem dependsOn_of_refers (hc : IsGood (meaning s c)) (h : Refers s c d) :
    DependsOn s c d ∧ IsGood (meaning s d) := by
  rw [meaning_eq_conclude] at hc
  have hgood := isGood_of_isGood_map_single hc
  obtain ⟨node, hsteps, ref, href, hd⟩ := steps_of_refers h
  have hasks : DependsOn s c d := by
    rw [hsteps] at hgood
    rw [DependsOn, hsteps]
    exact evaluate_asks hgood ref href hd
  exact ⟨hasks, isGood_of_asks (openCell_stopsAtErrors s c) hgood hasks⟩

theorem settles_of_isGood (h : IsGood (meaning s c)) : Settles s c := by
  by_contra hc
  rw [meaning_of_not_settles hc] at h
  obtain ⟨v, hv, hgood⟩ := h
  cases hv
  cases hgood

/-- No cycle of references is in reach of a cell that means no error. -/
theorem not_cyclic_of_isGood (h : IsGood (meaning s c)) : ¬ Cyclic (Refers s) c := by
  have hacc : Acc (fun d c => DependsOn s c d) c := acc_of_settles (settles_of_isGood h)
  refine not_cyclic_of_acc ?_
  induction hacc with
  | intro c _ ih =>
    refine ⟨c, fun d hd => ?_⟩
    obtain ⟨hdepends, hgood⟩ := dependsOn_of_refers h hd
    exact ih d hdepends hgood

/-! ### Cycle errors -/

/-- What every raw value has, and every value that is made by an operation or from a list, is kept
by the dialogue of every cell. -/
theorem openCell_keeps {P : Value → Prop} (hmade : ∀ v, Made v → P v) (hlist : ∀ vs, P (.list vs))
    (htext : P (.text "")) (hraw : ∀ c, P (s.rawCell c)) (c : Coord) :
    (openCell s c).steps.Keeps P := by
  cases hformula : formula? (s.rawCell c) with
  | none =>
    rw [openCell_steps_of_not_formula hformula]
    exact hraw c
  | some formula =>
    rw [openCell_steps_of_formula hformula]
    unfold openFormula
    split
    · exact htext
    · split
      · rename_i node hnode
        exact evaluate_keeps hmade hlist (parseFormula_written hnode)
      · exact hmade _ (.error nofun)
      · exact hmade _ (.error nofun)
      · trivial

theorem openCell_relaysCycles (hs : Ordinary s) (c : Coord) :
    (openCell s c).steps.RelaysCycles := by
  refine relaysCycles_iff.mpr (openCell_keeps (fun v hv => hv.ne_cycle) (fun vs => nofun) nofun
    (fun d hraw => ?_) c)
  have hscalar := hs d
  rw [hraw] at hscalar
  exact hscalar

/-- A cell that means a cycle error refers to another one. -/
theorem exists_refers_of_cycle (hs : Ordinary s) (h : meaning s c = .ok (.error .cycle)) :
    ∃ d, meaning s d = .ok (.error .cycle) ∧ Refers s c d := by
  rw [meaning_eq_conclude] at h
  obtain ⟨v, hv, hsingle⟩ := map_eq_ok.mp h
  have hcycle : v = .error .cycle := by
    cases v with
    | list items => cases hsingle
    | _ => exact hsingle
  rw [hcycle] at hv
  obtain ⟨d, hd, hmeaning⟩ := (openCell_relaysCycles hs c).exists_asks hv
  exact ⟨d, hmeaning, refers_of_mentions hd.mentions⟩

theorem finite_cycle_cells (hs : Ordinary s) :
    Finite {c // meaning s c = .ok (.error .cycle)} := by
  have hsubset : {c | meaning s c = .ok (.error .cycle)} ⊆ {c | c ∈ formulaCells s} := by
    intro c hc
    obtain ⟨d, -, hd⟩ := exists_refers_of_cycle hs hc
    exact mem_formulaCells (isSome_formula?_of_refers hd)
  exact ((formulaCells s).finite_toSet.subset hsubset).to_subtype

/-- References between cells that mean a cycle error. -/
def RefersInCycle (s : Sheet) (c d : Coord) : Prop :=
  Refers s c d ∧ meaning s c = .ok (.error .cycle) ∧ meaning s d = .ok (.error .cycle)

theorem cyclic_of_cycle (hs : Ordinary s) (h : meaning s c = .ok (.error .cycle)) :
    Cyclic (RefersInCycle s) c := by
  refine cyclic_of_serial (finite_cycle_cells hs) (fun a ha => ?_) h
  obtain ⟨b, hb, hab⟩ := exists_refers_of_cycle hs ha
  exact ⟨b, hb, hab, ha, hb⟩

/-! ### Warnings about cycles -/

/-- Opening a cell gives no warning about a cycle. -/
theorem openCell_events_type (s : Sheet) (c : Coord) :
    ∀ event ∈ (openCell s c).events, event.type ≠ .formulaCycle := by
  intro event hevent
  rcases List.mem_append.mp hevent with hevent | hevent
  · unfold Sheet.readEvents at hevent
    dsimp only at hevent
    split at hevent
    · cases hevent
    · cases List.mem_singleton.mp hevent
      exact nofun
  · split at hevent
    · unfold openFormula at hevent
      split at hevent
      · cases hevent
      · split at hevent
        · cases hevent
        · cases List.mem_singleton.mp hevent
          exact nofun
        · cases List.mem_singleton.mp hevent
          exact nofun
        · cases hevent
    · cases hevent

/-- Without a cycle of references in reach, no cell is met while it is under evaluation. -/
theorem retrieve_reports {active : List Coord} (hc : ¬ Cyclic (Refers s) c)
    (hactive : ∀ a ∈ active, TransGen (Refers s) a c) :
    Reports (fun event => event.type ≠ .formulaCycle) (retrieve s active c) := by
  induction hn : idleCount s active using Nat.strongRecOn generalizing active c with
  | ind n ih =>
  intro memo event hevent
  have hidle : c ∉ active := fun hmem => hc ⟨c, .refl, hactive c hmem⟩
  cases hmemo : memo.find? c with
  | some v =>
    rw [retrieve_of_known hmemo] at hevent
    cases hevent
  | none =>
    rw [retrieve_of_fresh hmemo hidle] at hevent
    rcases List.mem_append.mp hevent with hevent | hevent
    · exact openCell_events_type s c event hevent
    · have hrun : Reports (fun event => event.type ≠ .formulaCycle)
          ((openCell s c).steps.run (retrieve s (c :: active)) fail) := by
        refine reports_run fun d hd => ?_
        have hrefers : Refers s c d := refers_of_mentions hd
        have hlt : idleCount s (c :: active) < n :=
          hn ▸ idleCount_cons_lt hidle (isSome_formula?_of_refers hrefers)
        refine ih _ hlt (fun hcyclic => hc (hcyclic.head hrefers)) (fun a ha => ?_) rfl
        rcases List.mem_cons.mp ha with rfl | ha
        · exact .single hrefers
        · exact (hactive a ha).tail hrefers
      have hfinish : ∀ v, Reports (fun event => event.type ≠ .formulaCycle) (finish c v) :=
        fun v memo event hevent => absurd hevent List.not_mem_nil
      exact reports_bind hrun hfinish _ event hevent

/-! ### Values and cycles -/

/-- Reference cycles and cycle errors, for a session that has served any requests: without a cycle
in reach there is neither error nor warning, with one there is some error, and a cycle error has a
cycle of such errors in reach. -/
theorem value_of_references (sheet : Nat) (s : Sheet) (settings : Display.Settings)
    (requests : List Request) (c : Coord) (v : Value) (hs : Ordinary s)
    (h : ((serveAll s (Session.begin sheet s settings) requests).value s c).result = .ok v) :
    let ses := serveAll s (Session.begin sheet s settings) requests
    let isCycle := fun d => (ses.value s d).result = .ok (.error .cycle)
    (¬ Cyclic (Refers s) c →
      v ≠ .error .cycle ∧ ∀ event ∈ (ses.value s c).events, event.type ≠ .formulaCycle) ∧
    (Cyclic (Refers s) c → v.isError = true) ∧
    (v = .error .cycle → Cyclic (fun a b => Refers s a b ∧ isCycle a ∧ isCycle b) c) := by
  intro ses isCycle
  have hses : Sound s settings ses := (serveAll_continues requests _).sound (begin_sound sheet)
  have hresult : ∀ d, (ses.value s d).result = meaning s d := fun d => value_result hses.2 d
  have hmeaning : meaning s c = .ok v := (hresult c).symm.trans h
  refine ⟨fun hacyclic => ⟨?_, ?_⟩, fun hcyclic => ?_, fun hv => ?_⟩
  · rintro rfl
    exact hacyclic ((cyclic_of_cycle hs hmeaning).mono fun a b hab => hab.1)
  · have hevents : (ses.value s c).events = ((retrieve s [] c).run ses.memo).events := by
      rw [← resolve_eq_retrieve]
      rfl
    rw [hevents]
    exact retrieve_reports hacyclic (fun a ha => absurd ha List.not_mem_nil) ses.memo
  · by_contra hgood
    have hisGood : IsGood (meaning s c) := ⟨v, hmeaning, by simpa using hgood⟩
    exact not_cyclic_of_isGood hisGood hcyclic
  · have hsame : (fun a b => Refers s a b ∧ isCycle a ∧ isCycle b) = RefersInCycle s := by
      funext a b
      simp only [isCycle, hresult, RefersInCycle]
    rw [hsame]
    exact cyclic_of_cycle hs (hv ▸ hmeaning)

end Frames

theorem ordinary_of_stored (h : ∀ row ∈ s.rows, ∀ v ∈ row, IsScalar v) : Ordinary s := by
  intro c
  have hstored : IsScalar ((s.cell? c).getD .null) := by
    cases hcell : s.cell? c with
    | none => trivial
    | some v =>
      obtain ⟨row, hrow, hv⟩ := Sheet.exists_row_of_cell? hcell
      exact h row hrow v hv
  unfold Sheet.rawCell Sheet.cellData
  cases hv : (s.cell? c).getD .null with
  | error code | list items | record fields =>
    rw [hv] at hstored
    exact hstored.elim
  | _ => trivial

attribute [local instance] CallStack.usual

theorem value_ring :
    ((serveAll ring (Session.begin 0 ring plainSettings) []).value ring ⟨0, 0⟩).result
      = .ok (.error .cycle) := by
  have hcode : ((retrieve ring [] ⟨0, 0⟩).run {}).result.toOption.bind Value.error? =
      some .cycle := by decide +kernel
  change (resolve ring {} ⟨0, 0⟩).result = _
  rw [resolve_eq_retrieve]
  cases hresult : ((retrieve ring [] ⟨0, 0⟩).run {}).result with
  | error f =>
    rw [hresult] at hcode
    cases hcode
  | ok v =>
    rw [hresult] at hcode
    cases v with
    | error code =>
      cases hcode
      rfl
    | _ => cases hcode

theorem value_of_references_ring :
    Ordinary ring ∧ Cyclic (fun a b => Refers ring a b ∧
      ((Session.begin 0 ring plainSettings).value ring a).result = .ok (.error .cycle) ∧
      ((Session.begin 0 ring plainSettings).value ring b).result = .ok (.error .cycle)) ⟨0, 0⟩ := by
  have hordinary : Ordinary ring := ordinary_of_stored (by simp [ring, IsScalar])
  exact ⟨hordinary,
    (value_of_references 0 ring plainSettings [] ⟨0, 0⟩ _ hordinary value_ring).2.2 rfl⟩

end Worksheet.Session
