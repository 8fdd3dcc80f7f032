import Worksheet.Formula.Evaluation
import Worksheet.Proofs.DoubleRange
import Worksheet.Proofs.ParsedTrees

/-!
Operations that need a double for an integer beyond the range of doubles. Integers stay exact among
themselves, so a sum is such an integer only when integers among its numbers add up to one; an
aggregate looks at its values one by one before it adds them. Operations have no other faults.
-/
namespace Worksheet.Number

open Formula

/-! ### Numbers -/

/-- An integer beyond the range of doubles. -/
def IsHuge (n : Number) : Prop := ∃ m : Int, n = .int m ∧ doubleBound ≤ m.natAbs

theorem not_isHuge_zero : ¬ IsHuge (.int 0) := by
  rintro ⟨m, hm, hbound⟩
  cases hm
  exact Nat.not_le.mpr doubleBound_pos hbound

theorem toFloat_eq_error {n : Number} {f : Fault} (h : n.toFloat = .error f) :
    f = .beyondDouble ∧ n.IsHuge := by
  cases n with
  | int m =>
    dsimp only [toFloat] at h
    split at h
    · cases h
    · rename_i hnone
      cases h
      exact ⟨rfl, m, rfl, (nearest?_eq_none_iff m).mp hnone⟩
  | float x => cases h

/-- An operation that goes by way of doubles, as both operands are not integers. -/
theorem bind_toFloat_eq_error {α : Type} {a b : Number} {k : Float → Float → α} {f : Fault}
    (h : (do
      let x ← a.toFloat
      let y ← b.toFloat
      return k x y) = Except.error f) : f = .beyondDouble ∧ (a.IsHuge ∨ b.IsHuge) := by
  rcases bind_eq_error.mp h with ha | ⟨x, -, h⟩
  · obtain ⟨hf, hhuge⟩ := toFloat_eq_error ha
    exact ⟨hf, .inl hhuge⟩
  · rcases bind_eq_error.mp h with hb | ⟨y, -, h⟩
    · obtain ⟨hf, hhuge⟩ := toFloat_eq_error hb
      exact ⟨hf, .inr hhuge⟩
    · cases h

theorem combine_eq_error {exact : Int → Int → Int} {rounded : Float → Float → Float}
    {a b : Number} {f : Fault} (h : combine exact rounded a b = .error f) :
    f = .beyondDouble ∧ (a.IsHuge ∨ b.IsHuge) := by
  unfold combine at h
  split at h
  · cases h
  · exact bind_toFloat_eq_error h

theorem quotient_eq_error {m n : Int} {f : Fault} (hn : n ≠ 0) (h : quotient m n = .error f) :
    f = .quotientBeyondDouble ∧ doubleBound ≤ m.natAbs := by
  unfold quotient at h
  dsimp only at h
  split at h
  · rename_i hinf
    cases h
    refine ⟨rfl, Nat.le_trans ?_ (le_of_isInf_nearestQuotient hinf)⟩
    exact Nat.le_mul_of_pos_right _ (Int.natAbs_pos.mpr hn)
  · cases h

/-- The faults of operations on integers beyond the range of doubles. -/
def IsRangeFault (f : Fault) : Prop := f = .beyondDouble ∨ f = .quotientBeyondDouble

theorem div_eq_error {a b : Number} {f : Fault} (hb : b.isNought = false)
    (h : a.div b = .error f) : IsRangeFault f ∧ (a.IsHuge ∨ b.IsHuge) := by
  unfold div at h
  split at h
  · rename_i m n
    have hn : n ≠ 0 := by
      rintro rfl
      cases hb
    obtain ⟨hf, hm⟩ := quotient_eq_error hn (map_eq_error.mp h)
    exact ⟨.inr hf, .inl ⟨m, rfl, hm⟩⟩
  · obtain ⟨hf, hhuge⟩ := bind_toFloat_eq_error h
    exact ⟨.inl hf, hhuge⟩

/-! ### Sums -/

/-- Some of the integers of a list add up to one beyond the range of doubles. -/
def AddsBeyond {α : Type} (ofInt : Int → α) (xs : List α) : Prop :=
  ∃ ms : List Int, (ms.map ofInt).Sublist xs ∧ doubleBound ≤ ms.sum.natAbs

theorem add_eq_int {a b : Number} {k : Int} (h : a.add b = .ok (.int k)) :
    ∃ m n, a = .int m ∧ b = .int n ∧ k = m + n := by
  unfold add combine at h
  split at h
  · rename_i m n
    cases h
    exact ⟨m, n, rfl, rfl, rfl⟩
  · obtain ⟨x, -, h⟩ := bind_eq_ok.mp h
    obtain ⟨y, -, h⟩ := bind_eq_ok.mp h
    cases h

/-- A sum is an integer only of integers. -/
theorem foldlM_add_eq_int {ns : List Number} {acc : Number} {t : Int}
    (h : ns.foldlM add acc = .ok (.int t)) :
    ∃ (a : Int) (ms : List Int), acc = .int a ∧ ns = ms.map .int ∧ t = a + ms.sum := by
  induction ns generalizing acc with
  | nil =>
    cases h
    exact ⟨t, [], rfl, rfl, (Int.add_zero t).symm⟩
  | cons n rest ih =>
    rw [List.foldlM_cons] at h
    obtain ⟨total, htotal, hrest⟩ := bind_eq_ok.mp h
    obtain ⟨b, ms, rfl, rfl, rfl⟩ := ih hrest
    obtain ⟨a, m, rfl, rfl, rfl⟩ := add_eq_int htotal
    exact ⟨a, m :: ms, rfl, rfl, by rw [List.sum_cons, Int.add_assoc]⟩

/-- A sum fails where integers among its numbers add up to one beyond the range of doubles, together
with what was added before when that is an integer, too. -/
theorem foldlM_add_eq_error {ns : List Number} {acc : Number} {f : Fault}
    (h : ns.foldlM add acc = .error f) :
    f = .beyondDouble ∧ ∃ ms : List Int, (ms.map Number.int).Sublist ns ∧
      (doubleBound ≤ ms.sum.natAbs ∨ ∃ a, acc = .int a ∧ doubleBound ≤ (a + ms.sum).natAbs) := by
  induction ns generalizing acc with
  | nil => cases h
  | cons n rest ih =>
    rw [List.foldlM_cons] at h
    rcases bind_eq_error.mp h with h | ⟨total, htotal, hrest⟩
    · obtain ⟨hf, ⟨a, rfl, ha⟩ | ⟨m, rfl, hm⟩⟩ := combine_eq_error h
      · exact ⟨hf, [], List.nil_sublist _, .inr ⟨a, rfl, by rwa [List.sum_nil, Int.add_zero]⟩⟩
      · refine ⟨hf, [m], List.singleton_sublist.mpr List.mem_cons_self, .inl ?_⟩
        rwa [List.sum_singleton]
    · obtain ⟨hf, ms, hms, hsum | ⟨b, rfl, hsum⟩⟩ := ih hrest
      · exact ⟨hf, ms, hms.cons n, .inl hsum⟩
      · obtain ⟨a, m, rfl, rfl, rfl⟩ := add_eq_int htotal
        refine ⟨hf, m :: ms, hms.cons_cons (Number.int m), .inr ⟨a, rfl, ?_⟩⟩
        rwa [List.sum_cons, ← Int.add_assoc]

theorem sum_eq_error {ns : List Number} {f : Fault} (h : sum ns = .error f) :
    f = .beyondDouble ∧ AddsBeyond Number.int ns := by
  obtain ⟨hf, ms, hms, hsum | ⟨a, ha, hsum⟩⟩ := foldlM_add_eq_error h
  · exact ⟨hf, ms, hms, hsum⟩
  · cases ha
    rw [Int.zero_add] at hsum
    exact ⟨hf, ms, hms, hsum⟩

theorem average_eq_error {ns : List Number} {f : Fault} (h : average ns = .error f) :
    IsRangeFault f ∧ (doubleBound ≤ ns.length ∨ AddsBeyond Number.int ns) := by
  cases ns with
  | nil => cases h
  | cons n rest =>
    rcases bind_eq_error.mp h with h | ⟨total, htotal, h⟩
    · obtain ⟨hf, hsum⟩ := sum_eq_error h
      exact ⟨.inl hf, .inr hsum⟩
    · have hlength : isNought (.int ((n :: rest).length : Int)) = false := by
        rw [isNought, beq_eq_false_iff_ne]
        exact Int.natCast_ne_zero.mpr (Nat.succ_ne_zero _)
      obtain ⟨hf, ⟨t, rfl, ht⟩ | ⟨k, hk, hbound⟩⟩ := div_eq_error hlength h
      -- A total that is an integer is the sum of all the numbers, a double was never met.
      · obtain ⟨a, ms, ha, hms, rfl⟩ := foldlM_add_eq_int htotal
        cases ha
        rw [Int.zero_add] at ht
        exact ⟨hf, .inr ⟨ms, hms ▸ List.Sublist.refl _, ht⟩⟩
      · cases hk
        exact ⟨hf, .inl hbound⟩

end Worksheet.Number

namespace Worksheet.Formula

open Number

/-! ### Operations on values -/

/-- Some of the integers among values, or all the values counted, come to a number beyond the range
of doubles. -/
def Exceeds (vs : List Value) : Prop := doubleBound ≤ vs.length ∨ AddsBeyond Value.int vs

theorem exceeds_of_mem {vs : List Value} {m : Int} (hm : Value.int m ∈ vs)
    (hbound : doubleBound ≤ m.natAbs) : Exceeds vs :=
  .inr ⟨[m], List.singleton_sublist.mpr hm, by rwa [List.sum_singleton]⟩

theorem toNumber_isHuge {v : Value} {n : Number} (h : v.toNumber = .ok n) (hn : n.IsHuge) :
    ∃ m, v = .int m ∧ doubleBound ≤ m.natAbs := by
  cases v with
  | int m =>
    cases h
    obtain ⟨k, hk, hbound⟩ := hn
    cases hk
    exact ⟨m, rfl, hbound⟩
  | float x =>
    cases h
    obtain ⟨k, hk, -⟩ := hn
    cases hk
  | text s =>
    dsimp only [Value.toNumber] at h
    split at h
    · cases h
      obtain ⟨k, hk, -⟩ := hn
      cases hk
    · cases h
      exact absurd hn not_isHuge_zero
  | error code => cases h
  | list items => cases h
  | _ =>
    cases h
    exact absurd hn not_isHuge_zero

theorem operate_eq_error {op : Operator} {a b : Number} {f : Fault}
    (h : operate op a b = .error f) : IsRangeFault f ∧ (a.IsHuge ∨ b.IsHuge) := by
  have hexact {r : Except Fault Number} (hr : r = .error f → f = .beyondDouble ∧
      (a.IsHuge ∨ b.IsHuge)) (hmap : r.map Number.toValue = .error f) :
      IsRangeFault f ∧ (a.IsHuge ∨ b.IsHuge) := by
    obtain ⟨hf, hhuge⟩ := hr (map_eq_error.mp hmap)
    exact ⟨.inl hf, hhuge⟩
  cases op with
  | add => exact hexact combine_eq_error h
  | sub => exact hexact combine_eq_error h
  | mul => exact hexact combine_eq_error h
  | div =>
    dsimp only [operate] at h
    split at h
    · cases h
    · rename_i hnought
      exact div_eq_error (by simpa using hnought) (map_eq_error.mp h)
  | unknown => cases h

theorem combined_eq_error {op : Operator} {a b : Value} {f : Fault}
    (h : combined op a b = .error f) : IsRangeFault f ∧ Exceeds [a, b] := by
  unfold combined at h
  split at h
  · rename_i m n hm hn
    obtain ⟨hf, hhuge | hhuge⟩ := operate_eq_error h
    · obtain ⟨k, rfl, hk⟩ := toNumber_isHuge hm hhuge
      exact ⟨hf, exceeds_of_mem List.mem_cons_self hk⟩
    · obtain ⟨k, rfl, hk⟩ := toNumber_isHuge hn hhuge
      exact ⟨hf, exceeds_of_mem (List.mem_cons_of_mem a List.mem_cons_self) hk⟩
  · cases h
  · cases h

theorem isNumeric_eq_error {v : Value} {f : Fault} (h : v.isNumeric = .error f) :
    f = .beyondDouble ∧ ∃ m, v = .int m ∧ doubleBound ≤ m.natAbs := by
  cases v with
  | int m =>
    obtain ⟨hf, k, hk, hbound⟩ := toFloat_eq_error (map_eq_error.mp h)
    cases hk
    exact ⟨hf, m, rfl, hbound⟩
  | _ => cases h

/-- An integer that an aggregate counts stands among its values; a text is counted as a double. -/
theorem eq_int_of_isNumeric {v : Value} {m : Int} (hcounts : v.isNumeric = .ok true)
    (h : v.toNumber = .ok (.int m)) : v = .int m := by
  cases v with
  | int n =>
    cases h
    rfl
  | text s =>
    have hsome : (Number.readFinite (Text.trim s.toList)).isSome = true := Except.ok.inj hcounts
    dsimp only [Value.toNumber] at h
    split at h
    · cases h
    · rename_i hnone
      rw [hnone] at hsome
      cases hsome
  | float x => cases h
  | _ => cases hcounts

theorem numbersAmong_eq_error {vs : List Value} {f : Fault} (h : numbersAmong vs = .error f) :
    f = .beyondDouble ∧ ∃ m, Value.int m ∈ vs ∧ doubleBound ≤ m.natAbs := by
  induction vs with
  | nil => cases h
  | cons v rest ih =>
    rcases bind_eq_error.mp h with h | ⟨counts, -, h⟩
    · obtain ⟨hf, m, rfl, hm⟩ := isNumeric_eq_error h
      exact ⟨hf, m, List.mem_cons_self, hm⟩
    · rcases bind_eq_error.mp h with h | ⟨ns, -, h⟩
      · obtain ⟨hf, m, hmem, hm⟩ := ih h
        exact ⟨hf, m, List.mem_cons_of_mem v hmem, hm⟩
      · cases h

/-- The numbers among values are no more than the values, and the integers among them stand there in
the same order. -/
theorem numbersAmong_eq_ok {vs : List Value} {ns : List Number} (h : numbersAmong vs = .ok ns) :
    ns.length ≤ vs.length ∧ ∀ ms : List Int, (ms.map Number.int).Sublist ns →
      (ms.map Value.int).Sublist vs := by
  induction vs generalizing ns with
  | nil =>
    cases h
    refine ⟨Nat.le_refl 0, fun ms hms => ?_⟩
    rw [List.map_eq_nil_iff.mp (List.sublist_nil.mp hms)]
    exact List.Sublist.refl _
  | cons v rest ih =>
    obtain ⟨counts, hcounts, h⟩ := bind_eq_ok.mp h
    obtain ⟨others, hothers, h⟩ := bind_eq_ok.mp h
    obtain ⟨hlength, hsublist⟩ := ih hothers
    have hskip : others.length ≤ (v :: rest).length ∧ ∀ ms : List Int,
        (ms.map Number.int).Sublist others → (ms.map Value.int).Sublist (v :: rest) :=
      ⟨Nat.le_succ_of_le hlength, fun ms hms => (hsublist ms hms).cons v⟩
    cases counts with
    | false =>
      cases h
      exact hskip
    | true =>
      cases hn : v.toNumber with
      | error code =>
        simp only [hn] at h
        cases h
        exact hskip
      | ok n =>
        simp only [hn] at h
        cases h
        refine ⟨Nat.succ_le_succ hlength, fun ms hms => ?_⟩
        rcases List.sublist_cons_iff.mp hms with hms | ⟨front, hfront, hms⟩
        · exact hskip.2 ms hms
        · obtain ⟨m, ms, rfl, rfl, rfl⟩ := List.map_eq_cons_iff.mp hfront
          rw [eq_int_of_isNumeric hcounts hn]
          exact (hsublist ms hms).cons_cons (Value.int m)

theorem apply_eq_error {g : Aggregate} {ns : List Number} {f : Fault}
    (h : g.apply ns = .error f) : IsRangeFault f ∧
      (doubleBound ≤ ns.length ∨ AddsBeyond Number.int ns) := by
  cases g with
  | sum =>
    obtain ⟨hf, hsum⟩ := sum_eq_error h
    exact ⟨.inl hf, .inr hsum⟩
  | average => exact average_eq_error h
  | _ => cases h

theorem applyNamed_eq_error {name : String} {vs : List Value} {f : Fault}
    (h : applyNamed name vs = .error f) : IsRangeFault f ∧ Exceeds (flatten vs) := by
  unfold applyNamed at h
  split at h
  · cases h
  · rcases bind_eq_error.mp h with h | ⟨ns, hns, h⟩
    · obtain ⟨hf, m, hmem, hm⟩ := numbersAmong_eq_error h
      exact ⟨.inl hf, exceeds_of_mem hmem hm⟩
    · obtain ⟨hlength, hsublist⟩ := numbersAmong_eq_ok hns
      rcases bind_eq_error.mp h with h | ⟨n, -, h⟩
      · obtain ⟨hf, hbound | ⟨ms, hms, hsum⟩⟩ := apply_eq_error h
        · exact ⟨hf, .inl (Nat.le_trans hbound hlength)⟩
        · exact ⟨hf, .inr ⟨ms, hsublist ms hms, hsum⟩⟩
      · cases h

end Worksheet.Formula
