import Worksheet.Proofs.Circuits
import Worksheet.Proofs.RequestOrder

/-!
Ranges among the arguments of a function. A function looks at the values of its arguments one after
the other, those of a range among them, so a range may as well be written as its cells. The two
calls are different dialogues, as one of them collects its answers in a list; but they ask the same
questions and come to the same end under all answers that are no lists themselves.
-/
namespace Worksheet.Formula

namespace Steps

/-- Dialogues that ask the same questions and come to the same end, as long as no answer is a
list. -/
inductive Alike : Steps → Steps → Prop
  | done (v : Value) : Alike (.done v) (.done v)
  | fault (f : Fault) : Alike (.fault f) (.fault f)
  | ask (c : Coord) {next next' : Value → Steps}
      (h : ∀ v, isList v = false → Alike (next v) (next' v)) : Alike (.ask c next) (.ask c next')

/-- Where a dialogue has come to its end. -/
def result? : Steps → Option (Except Fault Value)
  | .done v => some (.ok v)
  | .fault f => some (.error f)
  | .ask _ _ => none

variable {steps steps' : Steps} {k k' : Value → Steps}

theorem Alike.refl (steps : Steps) : steps.Alike steps := by
  induction steps with
  | done v => exact .done v
  | fault f => exact .fault f
  | ask c next ih => exact .ask c fun v _ => ih v

theorem Alike.bindGood (h : steps.Alike steps') (hk : ∀ v, (k v).Alike (k' v)) :
    (steps.bindGood k).Alike (steps'.bindGood k') := by
  unfold Steps.bindGood
  induction h with
  | done v =>
    show (if v.isError then Steps.done v else k v).Alike (if v.isError then .done v else k' v)
    split
    · exact .done v
    · exact hk v
  | fault f => exact .fault f
  | ask c _ ih => exact .ask c ih

/-- Whoever answers, with whatever effects, sees no difference. -/
theorem Alike.run_eq (h : steps.Alike steps') {m : Type → Type} [Monad m] [LawfulMonad m]
    (lookup : Coord → m {v : Value // isList v = false}) (fail : Fault → m Value) :
    steps.run (fun c => Subtype.val <$> lookup c) fail =
      steps'.run (fun c => Subtype.val <$> lookup c) fail := by
  induction h with
  | done v => rfl
  | fault f => rfl
  | ask c _ ih =>
    unfold Steps.run
    rw [bind_map_left, bind_map_left]
    refine bind_congr fun v => ?_
    exact ih v.1 v.2

/-- So it is when the answers are given one after the other. -/
theorem Alike.converse_eq (h : steps.Alike steps') {replies : List Value}
    (hreplies : ∀ v ∈ replies, isList v = false) :
    (steps.converse replies).log = (steps'.converse replies).log ∧
      (steps.converse replies).requests = (steps'.converse replies).requests ∧
      (steps.converse replies).state.result? = (steps'.converse replies).state.result? := by
  induction h generalizing replies with
  | done v => exact ⟨rfl, rfl, rfl⟩
  | fault f => exact ⟨rfl, rfl, rfl⟩
  | ask c h ih =>
    cases replies with
    | nil => exact ⟨rfl, rfl, rfl⟩
    | cons v replies =>
      obtain ⟨hlog, hrequests, hresult⟩ := ih v (hreplies v List.mem_cons_self)
        (fun w hw => hreplies w (List.mem_cons_of_mem v hw))
      refine ⟨congrArg ((c, v) :: ·) hlog, ?_, hresult⟩
      rw [requests_ask_cons, requests_ask_cons, hrequests]

end Steps

open Steps

/-- Texts that name cells, one by one. -/
def Names (names : List String) (cells : List Coord) : Prop :=
  List.Forall₂ (fun name c => Coord.read name = .ok (some c)) names cells

section Arguments
variable {evaluate : Node → Steps} {k k' : List Value → Steps} {front behind : List Node}
  {seen seen' found : List Value}

/-- A function that looks at its values one by one does not see in which lists they came. -/
theorem evaluateArgs_congr (hk : ∀ vs ws, flatten vs = flatten ws → k vs = k ws)
    (h : flatten seen.reverse = flatten seen'.reverse) (args : List Node) :
    evaluateArgs evaluate k args seen = evaluateArgs evaluate k args seen' := by
  induction args generalizing seen seen' with
  | nil => exact hk _ _ h
  | cons n rest ih =>
    have hnext : ∀ v, evaluateArgs evaluate k rest (v :: seen) =
        evaluateArgs evaluate k rest (v :: seen') := by
      intro v
      apply ih
      rw [List.reverse_cons, List.reverse_cons, flatten_append, flatten_append, h]
    unfold evaluateArgs
    rw [funext hnext]

/-- Arguments are evaluated in front of the others. -/
theorem evaluateArgs_append (front behind : List Node) (seen : List Value) :
    evaluateArgs evaluate k (front ++ behind) seen =
      evaluateArgs evaluate (fun vs => evaluateArgs evaluate k behind vs.reverse) front seen := by
  induction front generalizing seen with
  | nil =>
    show _ = evaluateArgs evaluate k behind seen.reverse.reverse
    rw [List.reverse_reverse, List.nil_append]
  | cons n rest ih =>
    rw [List.cons_append]
    unfold evaluateArgs
    rw [funext fun v => ih (v :: seen)]

theorem evaluateArgs_alike (hk : ∀ vs, (k vs).Alike (k' vs)) (args : List Node)
    (seen : List Value) :
    (evaluateArgs evaluate k args seen).Alike (evaluateArgs evaluate k' args seen) := by
  induction args generalizing seen with
  | nil => exact hk seen.reverse
  | cons n rest ih => exact (Alike.refl _).bindGood fun v => ih (v :: seen)

/-- The cells of a range, asked for one after the other and collected, and the same cells as
arguments of their own: `found` are the answers so far, the last one first. -/
theorem gather_alike (hcell : ∀ ref, evaluate (.cell ref) = cellSteps ref)
    (hk : ∀ vs ws, flatten vs = flatten ws → k vs = k ws) (r : Range) {count i : Nat}
    {names : List String} (hnames : Names names ((List.range' i count).map r.nth))
    (hfound : ∀ v ∈ found, isList v = false) :
    ((gather r count i found).bindGood fun v => evaluateArgs evaluate k behind (v :: seen)).Alike
      (evaluateArgs evaluate k (names.map .cell ++ behind) (found ++ seen)) := by
  induction count generalizing i names found with
  | zero =>
    cases hnames
    have hvalues : flatten ((Value.list found.reverse :: seen).reverse) =
        flatten ((found ++ seen).reverse) := by
      have hsingles : flatten found.reverse = found.reverse :=
        flatten_of_singles fun v hv => hfound v (List.mem_reverse.mp hv)
      have hlist : flatten [Value.list found.reverse] = found.reverse := List.append_nil _
      rw [List.reverse_cons, List.reverse_append, flatten_append, flatten_append, hsingles, hlist]
    show (evaluateArgs evaluate k behind (.list found.reverse :: seen)).Alike
      (evaluateArgs evaluate k behind (found ++ seen))
    rw [evaluateArgs_congr hk hvalues]
    exact .refl _
  | succ count ih =>
    cases hnames with
    | @cons name _ names _ hname hnames =>
      have hfirst : cellSteps name = .ask (r.nth i) .done := by
        unfold cellSteps
        rw [hname]
      show Alike (.ask (r.nth i) _) ((evaluate (.cell name)).bindGood _)
      rw [hcell, hfirst]
      refine .ask (r.nth i) fun v hv => ?_
      show Alike ((if v.isError then .done v else gather r count (i + 1) (v :: found)).bindGood _)
        (if v.isError then .done v
          else evaluateArgs evaluate k (names.map .cell ++ behind) (v :: found ++ seen))
      by_cases herror : v.isError = true
      · -- An error is the end of the range and of the call.
        rw [if_pos herror, if_pos herror]
        show (if v.isError then Steps.done v else _).Alike (.done v)
        rw [if_pos herror]
        exact .done v
      · rw [if_neg herror, if_neg herror]
        apply ih hnames
        intro w hw
        rcases List.mem_cons.mp hw with rfl | hw
        · exact hv
        · exact hfound w hw

/-- A range among arguments and the cells of it in its place. -/
theorem evaluateArgs_range_alike (hcell : ∀ ref, evaluate (.cell ref) = cellSteps ref)
    (hrange : ∀ start stop, evaluate (.range start stop) = rangeSteps start stop)
    (hk : ∀ vs ws, flatten vs = flatten ws → k vs = k ws) {start stop : String} {r : Range}
    (hread : Range.read start stop = .ok (some r)) {names : List String}
    (hnames : Names names r.coords) :
    (evaluateArgs evaluate k (front ++ .range start stop :: behind) seen).Alike
      (evaluateArgs evaluate k (front ++ names.map .cell ++ behind) seen) := by
  rw [List.append_assoc, evaluateArgs_append, evaluateArgs_append]
  apply evaluateArgs_alike
  intro vs
  rw [coords_eq_map, List.range_eq_range'] at hnames
  have hsteps : rangeSteps start stop = gather r r.size 0 [] := by
    unfold rangeSteps
    rw [hread]
  show ((evaluate (.range start stop)).bindGood _).Alike _
  rw [hrange, hsteps]
  exact gather_alike hcell hk r hnames fun v hv => absurd hv List.not_mem_nil

end Arguments

/-- A function is applied to values and not to the lists in which they came. -/
theorem applyNamed_congr (name : String) {vs ws : List Value} (h : flatten vs = flatten ws) :
    applyNamed name vs = applyNamed name ws := by
  unfold applyNamed
  rw [h]

/-- The addresses of cells name them. -/
theorem exists_names {cells : List Coord} (h : ∀ c ∈ cells, c.Addressable) :
    ∃ names, cells.mapM Coord.address = .ok names ∧ Names names cells := by
  refine ⟨_, Session.mapM_address h, ?_⟩
  apply List.forall₂_map_left_iff.mpr
  apply List.forall₂_same.mpr
  intro c hc
  have haddress := Session.addressText_of_addressable (h c hc)
  rw [Coord.address_of_addressable (h c hc)] at haddress
  rw [← Except.ok.inj haddress]
  exact Coord.read_spelling (h c hc)

/-- A range among the arguments of a function means its cells. The cells have addresses, and
whatever texts name them in their order, a call with these texts in the place of the range asks for
the same cells in the same order and comes to the same end, be it a value, an error or a fault: for
whoever answers with values that are no lists, and for any such answers one after the other. -/
theorem call_of_range_argument [CallStack] (name : String) (front behind : List Node)
    {start stop : String} {a b : Coord} (ha : Coord.read start = .ok (some a))
    (hb : Coord.read stop = .ok (some b)) :
    let cells := (Range.between a b).coords
    let whole := Node.call name (front ++ .range start stop :: behind)
    (∃ names, cells.mapM Coord.address = .ok names ∧ Names names cells) ∧
    ∀ names, Names names cells →
      let spread := Node.call name (front ++ names.map .cell ++ behind)
      (∀ (m : Type → Type) [Monad m] [LawfulMonad m]
        (lookup : Coord → m {v : Value // isList v = false}) (fail : Fault → m Value),
        whole.steps.run (fun c => Subtype.val <$> lookup c) fail =
          spread.steps.run (fun c => Subtype.val <$> lookup c) fail) ∧
      ∀ replies, (∀ v ∈ replies, isList v = false) →
        (whole.steps.converse replies).log = (spread.steps.converse replies).log ∧
        (whole.steps.converse replies).requests = (spread.steps.converse replies).requests ∧
        (whole.steps.converse replies).state.result? =
          (spread.steps.converse replies).state.result? := by
  intro cells whole
  have hread : Range.read start stop = .ok (some (.between a b)) := by
    unfold Range.read
    rw [ha, hb]
    rfl
  refine ⟨exists_names fun c hc => ?_, fun names hnames => ?_⟩
  · have hmem : c ∈ (Reference.range start stop).coords := by
      simp only [Reference.coords, hread]
      exact hc
    exact Reference.addressable_of_mem_coords hmem
  · intro spread
    have hroom : CallStack.evaluating ≤ CallStack.evaluating - 2 + 2 := by omega
    have halike : whole.steps.Alike spread.steps := by
      rw [Node.steps_call, Node.steps_call]
      exact evaluateArgs_range_alike (evaluate_cell hroom) (evaluate_range hroom)
        (fun vs ws h => by rw [applyNamed_congr name h]) hread hnames
    exact ⟨fun m _ _ lookup fail => halike.run_eq lookup fail,
      fun replies hreplies => halike.converse_eq hreplies⟩

attribute [local instance] CallStack.usual

/-- A square between its lower right and upper left corner, behind a cell and in front of a number.
The answer to its third cell is an error, and so the end of both calls. -/
theorem call_of_range_argument_square :
    let whole := Node.call "sum" ([.cell "C1"] ++ .range "b2" "A1" :: [.constant (.int 5)])
    let spread := Node.call "sum"
      ([.cell "C1"] ++ ["A1", "B1", "A2", "B2"].map .cell ++ [.constant (.int 5)])
    let replies := [.int 1, .int 2, .text "3", .error .division, .int 4]
    Coord.read "b2" = .ok (some ⟨1, 1⟩) ∧ Coord.read "A1" = .ok (some ⟨0, 0⟩) ∧
    Names ["A1", "B1", "A2", "B2"] (Range.between ⟨1, 1⟩ ⟨0, 0⟩).coords ∧
    (whole.steps.converse replies).requests = (spread.steps.converse replies).requests ∧
    (whole.steps.converse replies).state.result? =
      (spread.steps.converse replies).state.result? ∧
    (spread.steps.converse replies).state.result? = some (.ok (.error .division)) := by
  intro whole spread replies
  have hb2 : Coord.read "b2" = .ok (some ⟨1, 1⟩) := by rfl
  have ha1 : Coord.read "A1" = .ok (some ⟨0, 0⟩) := by rfl
  have hnames : Names ["A1", "B1", "A2", "B2"] (Range.between ⟨1, 1⟩ ⟨0, 0⟩).coords :=
    .cons rfl (.cons rfl (.cons rfl (.cons rfl .nil)))
  have hreplies : ∀ v ∈ replies, isList v = false := by
    intro v hv
    simp only [replies, List.mem_cons, List.not_mem_nil, or_false] at hv
    rcases hv with rfl | rfl | rfl | rfl | rfl <;> rfl
  obtain ⟨-, hspread⟩ := call_of_range_argument "sum" [.cell "C1"] [.constant (.int 5)] hb2 ha1
  obtain ⟨-, hrequests, hresult⟩ := (hspread _ hnames).2 replies hreplies
  exact ⟨hb2, ha1, hnames, hrequests, hresult, rfl⟩

end Worksheet.Formula
