import Worksheet.Proofs.Meaning
import Worksheet.Proofs.Recursion

/-!
Memory is transparent. Every value that a session remembers is the meaning of its cell, so a lookup
gives the meaning whatever the session was asked before, and so does the recursion that remembers
nothing. A value found under one stack of active cells holds under every other because each active
cell depends on the cells entered after it: whoever meets it again is on a cycle of dependencies.
-/
namespace Worksheet.Session

open Formula Formula.Steps Relation Remembering

variable [CallStack]

variable {s : Sheet}

/-! ### The active cells depend on the cell that is looked up -/

theorem isSome_formula?_of_dependsOn {c d : Coord} (h : DependsOn s c d) :
    (formula? (s.rawCell c)).isSome := by
  cases hf : formula? (s.rawCell c) with
  | some formula => rfl
  | none =>
    rw [DependsOn, openCell_steps_of_not_formula hf] at h
    exact absurd h not_asks_done

theorem transGen_of_mem_cons {active : List Coord} {c d : Coord}
    (hactive : ∀ a ∈ active, TransGen (DependsOn s) a c) (hd : DependsOn s c d) :
    ∀ a ∈ c :: active, TransGen (DependsOn s) a d := by
  intro a ha
  rcases List.mem_cons.mp ha with rfl | ha
  · exact .single hd
  · exact (hactive a ha).tail hd

/-! ### Evaluation without memory -/

/-- Every remembered value is the meaning of its cell. -/
def Truthful (s : Sheet) (memo : Memo) : Prop :=
  ∀ c v, memo.find? c = some v → meaning s c = .ok v

theorem truthful_empty : Truthful s {} := nofun

theorem Truthful.keep {memo : Memo} {c : Coord} {v : Value} (h : Truthful s memo)
    (hv : meaning s c = .ok v) : Truthful s (memo.keep c v) := by
  intro d w hw
  rw [Memo.find?_keep] at hw
  by_cases hd : d = c
  · rw [if_pos hd] at hw
    cases hw
    exact hd ▸ hv
  · rw [if_neg hd] at hw
    exact h d w hw

/-- An outcome with a given result that leaves a truthful memory. -/
structure Means (s : Sheet) (o : Outcome Value) (r : Except Fault Value) : Prop where
  result_eq : o.result = r
  truthful : Truthful s o.memo

theorem Means.after {o : Outcome Value} {r : Except Fault Value} (h : Means s o r)
    (events : List Log.Event) : Means s (o.after events) r := ⟨h.result_eq, h.truthful⟩

/-- A dialogue whose lookups give meanings gives the result to which meanings lead. -/
theorem means_run {lookup : Coord → Remembering Value} {steps : Steps} {memo : Memo}
    (hlookup : ∀ d memo, steps.Asks (meaning s) d → Truthful s memo →
      Means s ((lookup d).run memo) (meaning s d)) (hmemo : Truthful s memo) :
    Means s ((steps.run lookup fail).run memo) (steps.conclude (meaning s)) := by
  induction steps generalizing memo with
  | done v => exact ⟨rfl, hmemo⟩
  | fault f => exact ⟨rfl, hmemo⟩
  | ask c next ih =>
    have hc : Means s ((lookup c).run memo) (meaning s c) :=
      hlookup c memo (.first c next) hmemo
    cases hm : meaning s c with
    | error f =>
      rw [hm] at hc
      rw [Steps.run, run_bind_of_error _ _ hc.result_eq, conclude_ask_of_error next hm]
      exact ⟨rfl, hc.truthful⟩
    | ok v =>
      rw [hm] at hc
      rw [Steps.run, run_bind_of_ok _ _ hc.result_eq, conclude_ask_of_ok next hm]
      exact (ih v (fun d memo hd => hlookup d memo (.later hm hd)) hc.truthful).after _

/-- A finished cell is remembered with its meaning. -/
theorem means_finish {c : Coord} {x : Remembering Value} {memo : Memo}
    (h : Means s (x.run memo) ((openCell s c).steps.conclude (meaning s))) :
    Means s ((x >>= finish c).run memo) (meaning s c) := by
  have hmeaning := meaning_eq_conclude s c
  cases hx : (x.run memo).result with
  | error f =>
    rw [← h.result_eq, hx] at hmeaning
    rw [run_bind_of_error _ _ hx]
    exact ⟨hmeaning.symm, h.truthful⟩
  | ok v =>
    rw [← h.result_eq, hx] at hmeaning
    rw [run_bind_of_ok _ _ hx]
    exact ⟨hmeaning.symm, h.truthful.keep hmeaning⟩

theorem retrieve_means {active : List Coord} {c : Coord} {memo : Memo}
    (hactive : ∀ a ∈ active, TransGen (DependsOn s) a c) (hmemo : Truthful s memo) :
    Means s ((retrieve s active c).run memo) (meaning s c) := by
  induction hn : idleCount s active using Nat.strongRecOn generalizing active c memo with
  | ind n ih =>
  cases hm : memo.find? c with
  | some v =>
    rw [retrieve_of_known hm]
    exact ⟨(hmemo c v hm).symm, hmemo⟩
  | none =>
    by_cases hc : c ∈ active
    · rw [retrieve_of_active hm hc]
      exact ⟨(meaning_of_dependsOn_self (hactive c hc)).symm, hmemo⟩
    · rw [retrieve_of_fresh hm hc]
      have hmiss : Truthful s memo.miss := hmemo
      refine (means_finish (means_run (fun d memo hd hmemo => ?_) hmiss)).after _
      have hlt : idleCount s (c :: active) < n :=
        hn ▸ idleCount_cons_lt hc (isSome_formula?_of_dependsOn hd)
      exact ih _ hlt (transGen_of_mem_cons hactive hd) hmemo rfl

theorem resolve_means {memo : Memo} (c : Coord) (hmemo : Truthful s memo) :
    Means s (resolve s memo c) (meaning s c) := by
  rw [resolve_eq_retrieve]
  exact retrieve_means (fun a ha => absurd ha List.not_mem_nil) hmemo

end Worksheet.Session
