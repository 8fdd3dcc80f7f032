import Worksheet.Proofs.Dialogue
import Worksheet.Proofs.ListedReferences

/-!
What the dialogue of a formula has to do with the references that stand in it. It asks for the cells
to which they refer, in their order and for no others; if its result is no error it has asked for
all of them, and none of them is an error; and a cycle error is its result only when one of them was
answered with a cycle error.
-/
namespace Worksheet.Formula.Steps

/-- The cells for which a dialogue may ask, whatever the answers are. -/
inductive Mentions : Steps → Coord → Prop
  | first (c : Coord) (next : Value → Steps) : Mentions (.ask c next) c
  | later {c : Coord} {next : Value → Steps} (v : Value) {d : Coord} (hd : Mentions (next v) d) :
      Mentions (.ask c next) d

/-- A dialogue that asks for cells in the given order, whatever the answers are. Only an error or a
fault ends it before it has asked for all of them. -/
def Follows : Steps → List Coord → Prop
  | .done v, cs => v.isError = false → cs = []
  | .fault _, _ => True
  | .ask c next, cs => ∃ rest, cs = c :: rest ∧ ∀ v, (next v).Follows rest

/-- A value, and not an error. -/
def IsGood (r : Except Fault Value) : Prop := ∃ v, r = .ok v ∧ v.isError = false

/-- A dialogue whose result has a property that all its answers have. -/
def Keeps (P : Value → Prop) : Steps → Prop
  | .done v => P v
  | .fault _ => True
  | .ask _ next => ∀ v, P v → (next v).Keeps P

/-- A dialogue that has a cycle error for its result only when it was answered with one. -/
def RelaysCycles : Steps → Prop
  | .done v => v ≠ .error .cycle
  | .fault _ => True
  | .ask _ next => ∀ v, v ≠ .error .cycle → (next v).RelaysCycles

variable {answer : Coord → Except Fault Value} {steps : Steps} {k : Value → Steps} {d : Coord}
  {cs : List Coord}

theorem Asks.mentions (h : steps.Asks answer d) : steps.Mentions d := by
  induction h with
  | first c next => exact .first c next
  | later _ _ ih => exact .later _ ih

theorem exists_code_of_isError {v : Value} (h : v.isError = true) : ∃ code, v = .error code := by
  cases v with
  | error code => exact ⟨code, rfl⟩
  | _ => cases h

/-- A dialogue with a good result had good answers only. -/
theorem isGood_of_asks (hs : steps.StopsAtErrors) (h : IsGood (steps.conclude answer))
    (hd : steps.Asks answer d) : IsGood (answer d) := by
  induction steps with
  | done v => exact absurd hd not_asks_done
  | fault f => exact absurd hd not_asks_fault
  | ask c next ih =>
    cases hd with
    | later hv hd =>
      rw [conclude_ask_of_ok next hv] at h
      exact ih _ (hs.2 _) h hd
    | first =>
      cases hc : answer d with
      | error f =>
        rw [conclude_ask_of_error next hc] at h
        obtain ⟨v, hv, -⟩ := h
        cases hv
      | ok v =>
        cases hv : v.isError with
        | false => exact ⟨v, rfl, hv⟩
        | true =>
          obtain ⟨code, rfl⟩ := exists_code_of_isError hv
          rw [conclude_ask_of_ok next hc, hs.1] at h
          exact h

/-! ### Order -/

theorem Follows.mem_of_mentions (h : steps.Follows cs) (hd : steps.Mentions d) : d ∈ cs := by
  induction hd generalizing cs with
  | first c next =>
    obtain ⟨rest, rfl, -⟩ := h
    exact List.mem_cons_self
  | later v _ ih =>
    obtain ⟨rest, rfl, hnext⟩ := h
    exact List.mem_cons_of_mem _ (ih (hnext v))

/-- A dialogue with a good result has asked for all of its cells. -/
theorem Follows.asks (h : steps.Follows cs) (hgood : IsGood (steps.conclude answer))
    (hd : d ∈ cs) : steps.Asks answer d := by
  induction steps generalizing cs with
  | done v =>
    obtain ⟨w, hw, hgood⟩ := hgood
    cases hw
    rw [h hgood] at hd
    cases hd
  | fault f =>
    obtain ⟨w, hw, -⟩ := hgood
    cases hw
  | ask c next ih =>
    obtain ⟨rest, rfl, hnext⟩ := h
    rcases List.mem_cons.mp hd with rfl | hd
    · exact .first d next
    · cases hc : answer c with
      | error f =>
        rw [conclude_ask_of_error next hc] at hgood
        obtain ⟨w, hw, -⟩ := hgood
        cases hw
      | ok v =>
        rw [conclude_ask_of_ok next hc] at hgood
        exact .later hc (ih v (hnext v) hgood hd)

theorem follows_of_isError {v : Value} (h : v.isError = true) (cs : List Coord) :
    (done v).Follows cs := by
  intro hgood
  rw [h] at hgood
  cases hgood

theorem follows_bindGood {ds : List Coord} (hs : steps.Follows cs)
    (hk : ∀ v, v.isError = false → (k v).Follows ds) : (steps.bindGood k).Follows (cs ++ ds) := by
  unfold bindGood
  induction steps generalizing cs with
  | done v =>
    change (if v.isError then done v else k v).Follows (cs ++ ds)
    split
    · rename_i hv
      exact follows_of_isError hv _
    · rename_i hv
      have hgood : v.isError = false := by simpa using hv
      rw [hs hgood]
      exact hk v hgood
  | fault f => trivial
  | ask c next ih =>
    obtain ⟨rest, rfl, hnext⟩ := hs
    exact ⟨rest ++ ds, rfl, fun v => ih v (hnext v)⟩

theorem follows_ofExcept (r : Except Fault Value) : (ofExcept r).Follows [] := by
  cases r with
  | ok v => exact fun _ => rfl
  | error f => trivial

theorem follows_within (hs : steps.Follows cs) (room wanted : Nat) :
    (steps.within room wanted).Follows cs :=
  within_of (P := (·.Follows cs)) hs trivial room wanted

/-! ### Kept properties -/

section Keeps
variable {P : Value → Prop}

theorem keeps_bindGood (hs : steps.Keeps P) (hk : ∀ v, v.isError = false → (k v).Keeps P) :
    (steps.bindGood k).Keeps P := by
  unfold bindGood
  induction steps with
  | done v =>
    change (if v.isError then done v else k v).Keeps P
    split
    · exact hs
    · rename_i hv
      exact hk v (by simpa using hv)
  | fault f => trivial
  | ask c next ih => exact fun v hv => ih v (hs v hv)

theorem keeps_ofExcept {r : Except Fault Value} (h : ∀ v, r = .ok v → P v) :
    (ofExcept r).Keeps P := by
  cases r with
  | ok v => exact h v rfl
  | error f => trivial

theorem keeps_within (hs : steps.Keeps P) (room wanted : Nat) :
    (steps.within room wanted).Keeps P :=
  within_of (P := (·.Keeps P)) hs trivial room wanted

end Keeps

theorem relaysCycles_iff : steps.RelaysCycles ↔ steps.Keeps (· ≠ .error .cycle) := by
  induction steps with
  | done v => exact Iff.rfl
  | fault f => exact Iff.rfl
  | ask c next ih => exact forall_congr' fun v => imp_congr_right fun _ => ih v

/-- A cycle error comes from a cell that was answered with one. -/
theorem RelaysCycles.exists_asks (hs : steps.RelaysCycles)
    (h : steps.conclude answer = .ok (.error .cycle)) :
    ∃ d, steps.Asks answer d ∧ answer d = .ok (.error .cycle) := by
  induction steps with
  | done v =>
    cases h
    exact absurd rfl hs
  | fault f => cases h
  | ask c next ih =>
    cases hc : answer c with
    | error f =>
      rw [conclude_ask_of_error next hc] at h
      cases h
    | ok v =>
      by_cases hv : v = .error .cycle
      · exact ⟨c, .first c next, hv ▸ hc⟩
      · rw [conclude_ask_of_ok next hc] at h
        obtain ⟨d, hd, hcycle⟩ := ih v (hs v hv) h
        exact ⟨d, .later hc hd, hcycle⟩

end Worksheet.Formula.Steps

namespace Worksheet.Formula

open Steps

variable {answer : Coord → Except Fault Value} {d : Coord}

/-! ### Ranges -/

theorem range_mul {α : Type} (f : Nat → Nat → α) (m n : Nat) :
    ((List.range m).flatMap fun i => (List.range n).map (f i)) =
      (List.range (m * n)).map fun k => f (k / n) (k % n) := by
  induction m with
  | zero => rw [Nat.zero_mul, List.range_zero, List.flatMap_nil, List.map_nil]
  | succ m ih =>
    have hlast : (List.range n).map (f m) =
        (List.range n).map ((fun k => f (k / n) (k % n)) ∘ (m * n + ·)) := by
      refine List.map_congr_left fun j hj => ?_
      have hlt : j < n := List.mem_range.mp hj
      have hpos : 0 < n := by omega
      rw [Function.comp_apply, Nat.mul_comm m n, Nat.mul_add_div hpos, Nat.div_eq_of_lt hlt,
        Nat.mul_add_mod, Nat.mod_eq_of_lt hlt, Nat.add_zero]
    rw [List.range_succ, List.flatMap_append, ih, List.flatMap_singleton, Nat.succ_mul,
      List.range_add, List.map_append, List.map_map, hlast]

/-- The coordinates of a range are those at its places, in their order. -/
theorem coords_eq_map (r : Range) : r.coords = (List.range r.size).map r.nth :=
  range_mul (fun i j => (⟨r.rowStart + i, r.colStart + j⟩ : Coord)) r.height r.width

theorem gather_follows (r : Range) (count i : Nat) (seen : List Value) :
    (gather r count i seen).Follows ((List.range' i count).map r.nth) := by
  induction count generalizing i seen with
  | zero => exact fun _ => rfl
  | succ count ih =>
    refine ⟨(List.range' (i + 1) count).map r.nth, rfl, fun v => ?_⟩
    dsimp only
    split
    · rename_i hv
      exact follows_of_isError hv _
    · exact ih (i + 1) (v :: seen)

theorem gather_keeps {P : Value → Prop} (hlist : ∀ vs, P (.list vs)) (r : Range) (count i : Nat)
    (seen : List Value) : (gather r count i seen).Keeps P := by
  induction count generalizing i seen with
  | zero => exact hlist seen.reverse
  | succ count ih =>
    intro v hv
    dsimp only
    split
    · exact hv
    · exact ih (i + 1) (v :: seen)

/-! ### Operations -/

theorem toNumber_ne_cycle {v : Value} (h : v.isError = false) : v.toNumber ≠ .error .cycle := by
  cases v with
  | error code => cases h
  | text s =>
    dsimp only [Value.toNumber]
    split
    · exact nofun
    · exact nofun
  | _ => exact nofun

/-- What operations make of values that are no errors: numbers, and errors other than that of a
cycle. -/
inductive Made : Value → Prop
  | number (n : Number) : Made n.toValue
  | error {code : ErrorCode} (h : code ≠ .cycle) : Made (.error code)

theorem Made.ne_cycle {v : Value} (h : Made v) : v ≠ .error .cycle := by
  cases h with
  | number n => cases n <;> exact nofun
  | error h => exact fun hv => h (Value.error.inj hv)

theorem made_of_toNumber {v : Value} {code : ErrorCode} (hv : v.isError = false)
    (h : v.toNumber = .error code) : Made (.error code) :=
  .error fun hcode => toNumber_ne_cycle hv (h.trans (congrArg _ hcode))

theorem negated_made {v : Value} (h : v.isError = false) : Made (negated v) := by
  unfold negated
  split
  · rename_i code hcode
    exact made_of_toNumber h hcode
  · exact .number _

theorem made_of_map_toValue {r : Except Fault Number} {v : Value}
    (h : r.map Number.toValue = .ok v) : Made v := by
  obtain ⟨n, -, rfl⟩ := map_eq_ok.mp h
  exact .number n

theorem operate_made {op : Operator} {a b : Number} {v : Value} (h : operate op a b = .ok v) :
    Made v := by
  cases op with
  | add => exact made_of_map_toValue h
  | sub => exact made_of_map_toValue h
  | mul => exact made_of_map_toValue h
  | div =>
    dsimp only [operate] at h
    split at h
    · cases h
      exact .error nofun
    · exact made_of_map_toValue h
  | unknown =>
    cases h
    exact .error nofun

theorem combined_made {op : Operator} {a b v : Value} (ha : a.isError = false)
    (hb : b.isError = false) (h : combined op a b = .ok v) : Made v := by
  unfold combined at h
  split at h
  · exact operate_made h
  · rename_i code hcode
    cases h
    exact made_of_toNumber ha hcode
  · rename_i code hcode _
    cases h
    exact made_of_toNumber hb hcode

theorem applyNamed_made {name : String} {args : List Value} {v : Value}
    (h : applyNamed name args = .ok v) : Made v := by
  unfold applyNamed at h
  split at h
  · cases h
    exact .error nofun
  · obtain ⟨ns, -, h⟩ := bind_eq_ok.mp h
    obtain ⟨n, -, h⟩ := bind_eq_ok.mp h
    cases h
    exact .number n

/-! ### Formulas -/

/-- The cells to which the references of a formula refer, from left to right. -/
def Node.coords (node : Node) : List Coord := node.occurrences.flatMap Reference.coords

theorem cellSteps_follows (ref : String) :
    (cellSteps ref).Follows (Reference.cell ref).coords := by
  unfold cellSteps
  dsimp only [Reference.coords]
  cases Coord.read ref with
  | error f => trivial
  | ok found =>
    cases found with
    | none => exact follows_of_isError rfl []
    | some c => exact ⟨[], rfl, fun v _ => rfl⟩

theorem rangeSteps_follows (start stop : String) :
    (rangeSteps start stop).Follows (Reference.range start stop).coords := by
  unfold rangeSteps
  dsimp only [Reference.coords]
  cases Range.read start stop with
  | error f => trivial
  | ok found =>
    cases found with
    | none => exact follows_of_isError rfl []
    | some r =>
      dsimp only
      rw [coords_eq_map, List.range_eq_range']
      exact gather_follows r r.size 0 []

theorem evaluateArgs_follows {evaluate : Node → Steps} {k : List Value → Steps}
    (hevaluate : ∀ n, (evaluate n).Follows n.coords) (hk : ∀ vs, (k vs).Follows [])
    (args : List Node) (seen : List Value) :
    (evaluateArgs evaluate k args seen).Follows
      ((Node.occurrencesAll args).flatMap Reference.coords) := by
  induction args generalizing seen with
  | nil => exact hk seen.reverse
  | cons n rest ih =>
    rw [Node.occurrencesAll, List.flatMap_append]
    exact follows_bindGood (hevaluate n) fun v _ => ih (v :: seen)

theorem evaluateArgs_keeps {P : Value → Prop} {evaluate : Node → Steps} {k : List Value → Steps}
    (hk : ∀ vs, (k vs).Keeps P) {args : List Node} {seen : List Value}
    (hargs : ∀ arg ∈ args, (evaluate arg).Keeps P) :
    (evaluateArgs evaluate k args seen).Keeps P := by
  induction args generalizing seen with
  | nil => exact hk seen.reverse
  | cons n rest ih =>
    exact keeps_bindGood (hargs n List.mem_cons_self) fun v hv =>
      ih fun arg harg => hargs arg (List.mem_cons_of_mem n harg)

section Frames
variable [CallStack]

/-- A formula asks for the cells to which its references refer, from left to right. -/
theorem evaluate_follows (room : Nat) (node : Node) : (evaluate room node).Follows node.coords := by
  induction room using Nat.strong_induction_on generalizing node with
  | h room ih =>
  unfold Node.coords at ih ⊢
  cases room with
  | zero => trivial
  | succ room =>
    cases node with
    | constant v => exact fun _ => rfl
    | cell ref =>
      rw [Node.occurrences, List.flatMap_singleton]
      exact follows_within (cellSteps_follows ref) _ _
    | range start stop =>
      rw [Node.occurrences, List.flatMap_singleton]
      exact follows_within (rangeSteps_follows start stop) _ _
    | negate operand =>
      rw [Node.occurrences, ← List.append_nil (List.flatMap _ _)]
      refine follows_bindGood (ih room (Nat.lt_succ_self room) operand) fun v _ => ?_
      have hdone : (done (negated v)).Follows [] := fun _ => rfl
      exact follows_within hdone _ _
    | binary op left right =>
      have hinner := ih (room - 1) (by omega)
      rw [Node.occurrences, List.flatMap_append, evaluate_binary]
      refine follows_bindGood (hinner left) fun a _ => ?_
      split
      · exact follows_of_isError rfl _
      · rw [← List.append_nil (List.flatMap _ _)]
        refine follows_bindGood (hinner right) fun b _ => ?_
        split
        · exact follows_of_isError rfl []
        · exact follows_within (follows_ofExcept _) _ _
    | call name args =>
      have hinner := ih (room - 1) (by omega)
      rw [evaluate_call]
      refine follows_within ?_ _ _
      exact evaluateArgs_follows hinner (fun vs => follows_within (follows_ofExcept _) _ _) args []
    | foreign => exact follows_of_isError rfl []

/-- A formula asks only for cells to which its references refer. -/
theorem evaluate_mentions {room : Nat} {node : Node} (h : (evaluate room node).Mentions d) :
    ∃ ref ∈ node.occurrences, d ∈ ref.coords :=
  List.mem_flatMap.mp ((evaluate_follows room node).mem_of_mentions h)

/-- A formula whose result is no error has asked for every cell to which its references refer. -/
theorem evaluate_asks {room : Nat} {node : Node}
    (h : IsGood ((evaluate room node).conclude answer)) :
    ∀ ref ∈ node.occurrences, d ∈ ref.coords → (evaluate room node).Asks answer d :=
  fun ref href hd => (evaluate_follows room node).asks h (List.mem_flatMap.mpr ⟨ref, href, hd⟩)

/-- The result of a written formula is an answer, made by an operation, or a list of answers. -/
theorem evaluate_keeps {P : Value → Prop} (hmade : ∀ v, Made v → P v)
    (hlist : ∀ vs, P (.list vs)) {room : Nat} {node : Node} (h : node.Written) :
    (evaluate room node).Keeps P := by
  have herror {code : ErrorCode} (hcode : code ≠ .cycle) : P (.error code) := hmade _ (.error hcode)
  induction room using Nat.strong_induction_on generalizing node with
  | h room ih =>
  cases room with
  | zero => trivial
  | succ room =>
    cases h with
    | constant x => exact hmade _ (.number (.float x))
    | cell _ =>
      refine keeps_within ?_ _ _
      unfold cellSteps
      split
      · trivial
      · exact herror nofun
      · exact fun v hv => hv
    | range _ _ =>
      refine keeps_within ?_ _ _
      unfold rangeSteps
      split
      · trivial
      · exact herror nofun
      · exact gather_keeps hlist _ _ _ _
    | negate hoperand =>
      refine keeps_bindGood (ih room (Nat.lt_succ_self room) hoperand) fun v hv => ?_
      have hdone : (done (negated v)).Keeps P := hmade _ (negated_made hv)
      exact keeps_within hdone _ _
    | binary hleft hright =>
      rw [evaluate_binary]
      refine keeps_bindGood (ih (room - 1) (by omega) hleft) fun a ha => ?_
      split
      · exact herror nofun
      · refine keeps_bindGood (ih (room - 1) (by omega) hright) fun b hb => ?_
        split
        · exact herror nofun
        · exact keeps_within (keeps_ofExcept fun v hv => hmade v (combined_made ha hb hv)) _ _
    | call hargs =>
      rw [evaluate_call]
      refine keeps_within (evaluateArgs_keeps (fun vs => keeps_within ?_ _ _) fun arg harg => ?_) _ _
      · exact keeps_ofExcept fun v hv => hmade v (applyNamed_made hv)
      · exact ih (room - 1) (by omega) (hargs arg harg)

end Frames

end Worksheet.Formula
