import Worksheet.Session.Cell
import Worksheet.Session.Memo

/-!
Resolution of a cell on an explicit stack of suspended cells, so that chains of any length resolve.
A cell that is asked for is answered from the memory of the session, or with a cycle error if it is
itself being evaluated, or else it is entered; when it has finished, the cell that asked goes on.
`step_rank` says why this ends: each turn enters one of the finitely many formula cells of the
sheet for the first time, or finishes a suspended cell, or brings the dialogue of a cell forward.
-/
namespace Worksheet.Formula.Steps

/-- A dialogue that an answer leads to. -/
inductive Later : Steps → Steps → Prop where
  | answered (c : Coord) (next : Value → Steps) (v : Value) : Later (next v) (.ask c next)

theorem later_wellFounded : WellFounded Later :=
  ⟨fun s => by
    induction s with
    | done v => exact ⟨_, fun _ h => nomatch h⟩
    | fault f => exact ⟨_, fun _ h => nomatch h⟩
    | ask c next ih => exact ⟨_, fun _ h => by cases h with | answered _ _ v => exact ih v⟩⟩

instance : WellFoundedRelation Steps := ⟨Later, later_wellFounded⟩

end Worksheet.Formula.Steps

namespace Worksheet.Session

open Formula

/-- A suspended cell and how it goes on. -/
structure Frame where
  cell : Coord
  resume : Value → Steps

/-- A resolution under way: one cell in dialogue, and the cells that wait for it, the one that asked
last in front. -/
structure Machine where
  memo : Memo
  cell : Coord
  steps : Steps
  waiting : List Frame
  events : List Log.Event

/-- What is left of a resolution: the memory is kept whether it returned or not. -/
structure Outcome (α : Type) where
  memo : Memo
  result : Except Fault α
  events : List Log.Event

inductive Turn where
  | next (m : Machine)
  | over (o : Outcome Value)

namespace Machine

/-- The cells under evaluation, the last one entered in front. -/
def active (m : Machine) : List Coord := m.cell :: m.waiting.map (·.cell)

/-- The warning about a cell that is asked for while it is being evaluated. Its path leads from the
cell back to it. -/
def cycleWarning (active : List Coord) (c : Coord) : Log.Event :=
  let path := (active.reverse.dropWhile (· ≠ c) ++ [c]).map Sheet.addressText
  { level := .warning
    type := .formulaCycle
    message := "Circular cell reference: " ++ " -> ".intercalate path
    context := [("cell", .text (Sheet.addressText c)), ("path", .list (path.map .text))]
    errorCode := some "circular_reference" }

/-- Whether a cell was neither entered nor finished. -/
def isFresh (m : Machine) (c : Coord) : Bool := !m.active.contains c && (m.memo.find? c).isNone

/-- How many formula cells have not been entered. -/
def freshCount (s : Sheet) (m : Machine) : Nat := (formulaCells s).countP m.isFresh

theorem countP_lt_countP {α : Type} {p q : α → Bool} {xs : List α}
    (h : ∀ x ∈ xs, p x = true → q x = true) {a : α} (ha : a ∈ xs) (hp : p a = false)
    (hq : q a = true) : xs.countP p < xs.countP q := by
  obtain ⟨front, behind, rfl⟩ := List.append_of_mem ha
  have hfront : front.countP p ≤ front.countP q :=
    List.countP_mono_left fun x hx => h x (List.mem_append_left _ hx)
  have hbehind : behind.countP p ≤ behind.countP q :=
    List.countP_mono_left fun x hx => h x (List.mem_append_right _ (List.mem_cons_of_mem _ hx))
  simp only [List.countP_append, List.countP_cons, hp, hq, if_true, Bool.false_eq_true, if_false]
  omega

/-- What every turn makes smaller. -/
def rank (s : Sheet) (m : Machine) : Nat × Nat × Steps :=
  (m.freshCount s, m.waiting.length, m.steps)

abbrev Below : Nat × Nat × Steps → Nat × Nat × Steps → Prop :=
  Prod.Lex (· < ·) (Prod.Lex (· < ·) Steps.Later)

theorem below_of_le {a b : Nat} {x y : Nat × Steps} (hab : a ≤ b)
    (h : Prod.Lex (· < ·) Steps.Later x y) : Below (a, x) (b, y) := by
  cases Nat.lt_or_eq_of_le hab with
  | inl hlt => exact .left _ _ hlt
  | inr heq => exact heq ▸ .right _ h

variable [CallStack]

/-- Enter a cell; one that asks nothing answers at once. -/
def enter (s : Sheet) (m : Machine) (c : Coord) (resume : Value → Steps) : Machine :=
  let opened := openCell s c
  let events := m.events ++ opened.events
  match opened.steps with
  | .done v =>
    { m with memo := m.memo.miss.keep c v.single, steps := resume v.single, events }
  | steps => ⟨m.memo.miss, c, steps, ⟨m.cell, resume⟩ :: m.waiting, events⟩

/-- Finish the current cell and go on with the one that asked for it. -/
def leave (m : Machine) (v : Value) : Turn :=
  let memo := m.memo.keep m.cell v.single
  match m.waiting with
  | [] => .over ⟨memo, .ok v.single, m.events⟩
  | f :: rest => .next { m with memo, cell := f.cell, steps := f.resume v.single, waiting := rest }

def step (s : Sheet) (m : Machine) : Turn :=
  match m.steps with
  | .done v => m.leave v
  | .fault f => .over ⟨m.memo, .error f, m.events⟩
  | .ask c resume =>
    match m.memo.find? c with
    | some v => .next { m with memo := m.memo.hit, steps := resume v }
    | none =>
      if c ∈ m.active then
        .next { m with
          steps := resume (.error .cycle)
          events := m.events ++ [cycleWarning m.active c] }
      else .next (enter s m c resume)

theorem enter_rank (s : Sheet) (m : Machine) (c : Coord) (resume : Value → Steps)
    (hs : m.steps = .ask c resume) (hc : c ∉ m.active) (hm : m.memo.find? c = none) :
    Below ((enter s m c resume).rank s) (m.rank s) := by
  cases hv : (openCell s c).steps with
  | done v =>
    simp only [enter, hv, rank, hs]
    refine below_of_le (List.countP_mono_left fun d _ => ?_)
      (.right _ (.answered c resume v.single))
    simp only [isFresh, active, Memo.find?_keep, Memo.find?_miss, Bool.and_eq_true]
    intro h
    refine ⟨h.1, ?_⟩
    split at h
    · simp at h
    · exact h.2
  | fault f =>
    simp only [enter, hv, rank]
    exact .left _ _ (fresh_lt hv nofun)
  | ask d next =>
    simp only [enter, hv, rank]
    exact .left _ _ (fresh_lt hv nofun)
where
  fresh_lt {steps : Steps} {events : List Log.Event} (hv : (openCell s c).steps = steps)
      (hn : ∀ v, steps ≠ .done v) :
      freshCount s ⟨m.memo.miss, c, steps, ⟨m.cell, resume⟩ :: m.waiting, events⟩ <
        m.freshCount s := by
    have hf : c ∈ formulaCells s := by
      refine mem_formulaCells ?_
      cases hf : formula? (s.rawCell c) with
      | some _ => rfl
      | none => exact absurd (hv ▸ openCell_steps_of_not_formula hf) (hn _)
    refine countP_lt_countP (fun d _ => ?_) hf ?_ ?_
    · simp only [isFresh, active, List.map_cons, Memo.find?_miss, Bool.and_eq_true,
        Bool.not_eq_true', List.contains_cons, Bool.or_eq_false_iff]
      exact fun h => ⟨h.1.2, h.2⟩
    · simp [isFresh, active]
    · simp [isFresh, hc, hm]

/-- Every turn makes the rank smaller. -/
theorem step_rank {s : Sheet} {m m' : Machine} (h : m.step s = .next m') :
    Below (m'.rank s) (m.rank s) := by
  unfold step at h
  split at h
  · rename_i v hs
    unfold leave at h
    split at h
    · cases h
    · rename_i f rest hw
      cases h
      simp only [rank, hw, List.length_cons]
      refine below_of_le (List.countP_mono_left fun d _ => ?_) (.left _ _ (Nat.lt_succ_self _))
      simp only [isFresh, active, Memo.find?_keep, hw, List.map_cons, Bool.and_eq_true,
        Bool.not_eq_true', List.contains_cons, Bool.or_eq_false_iff]
      intro ⟨h, hd⟩
      split at hd
      · simp at hd
      · rename_i hne
        exact ⟨⟨beq_eq_false_iff_ne.mpr hne, h⟩, hd⟩
  · cases h
  · rename_i c resume hs
    split at h
    · cases h
      simp only [rank, hs]
      exact below_of_le (Nat.le_refl _) (.right _ (.answered c resume _))
    · rename_i hm
      split at h
      · cases h
        simp only [rank, hs]
        exact below_of_le (Nat.le_refl _) (.right _ (.answered c resume _))
      · rename_i hc
        cases h
        exact enter_rank s m c resume hs hc hm

/-- Turn after turn, to the end. -/
def run (s : Sheet) (m : Machine) : Outcome Value :=
  match _turn : m.step s with
  | .over o => o
  | .next m' => m'.run s
termination_by m.rank s
decreasing_by exact step_rank _turn

/-- The first turn of a resolution: a cell is entered with nothing waiting for it. -/
def start (s : Sheet) (memo : Memo) (c : Coord) : Machine :=
  let opened := openCell s c
  ⟨memo.miss, c, opened.steps, [], opened.events⟩

end Machine

/-- The value of a cell. -/
def resolve [CallStack] (s : Sheet) (memo : Memo) (c : Coord) : Outcome Value :=
  match memo.find? c with
  | some v => ⟨memo.hit, .ok v, []⟩
  | none => (Machine.start s memo c).run s

end Worksheet.Session
