import Worksheet.Session.Basic

/-!
Resolution by recursion. A lookup is answered from memory, or with a cycle error if its cell is
under evaluation; otherwise the cell is entered, its dialogue is held with every question put to the
same recursion one cell deeper, and its value is kept. The explicit stack of suspended cells gives
the same result, memory, counts and events: a suspended cell is a recursive call that has not
returned. `idleCount` bounds the depth, as every call but the last enters another formula cell.
-/
namespace Worksheet.Session

open Formula

/-- An outcome with what was reported before it. -/
def Outcome.after {α : Type} (o : Outcome α) (events : List Log.Event) : Outcome α :=
  { o with events := events ++ o.events }

theorem Outcome.after_after {α : Type} (o : Outcome α) (events events' : List Log.Event) :
    (o.after events).after events' = o.after (events' ++ events) := by
  simp only [Outcome.after, List.append_assoc]

/-- What reads and changes the memory of a session, reports events and may stop with a fault. -/
structure Remembering (α : Type) where
  run : Memo → Outcome α

namespace Remembering

instance : Monad Remembering where
  pure a := ⟨fun memo => ⟨memo, .ok a, []⟩⟩
  bind x k := ⟨fun memo =>
    let o := x.run memo
    match o.result with
    | .ok a => ((k a).run o.memo).after o.events
    | .error f => ⟨o.memo, .error f, o.events⟩⟩

def find? (c : Coord) : Remembering (Option Value) := ⟨fun memo => ⟨memo, .ok (memo.find? c), []⟩⟩

def change (f : Memo → Memo) : Remembering Unit := ⟨fun memo => ⟨f memo, .ok (), []⟩⟩

def report (events : List Log.Event) : Remembering Unit := ⟨fun memo => ⟨memo, .ok (), events⟩⟩

def fail (f : Fault) : Remembering Value := ⟨fun memo => ⟨memo, .error f, []⟩⟩

/-- Finish a cell: a list is no value of its own, and the value that remains is kept. -/
def finish (c : Coord) (v : Value) : Remembering Value := do
  change (·.keep c v.single)
  return v.single

variable {α β : Type} (memo : Memo)

theorem run_pure (a : α) : (pure a : Remembering α).run memo = ⟨memo, .ok a, []⟩ := rfl

theorem run_bind_of_ok {x : Remembering α} (k : α → Remembering β) {a : α}
    (h : (x.run memo).result = .ok a) :
    (x >>= k).run memo = ((k a).run (x.run memo).memo).after (x.run memo).events := by
  simp only [bind, h]

theorem run_bind_of_error {x : Remembering α} (k : α → Remembering β) {f : Fault}
    (h : (x.run memo).result = .error f) :
    (x >>= k).run memo = ⟨(x.run memo).memo, .error f, (x.run memo).events⟩ := by
  simp only [bind, h]

theorem run_find?_bind (c : Coord) (k : Option Value → Remembering β) :
    (find? c >>= k).run memo = (k (memo.find? c)).run memo := rfl

theorem run_change_bind (f : Memo → Memo) (k : Unit → Remembering β) :
    (change f >>= k).run memo = (k ()).run (f memo) := rfl

theorem run_report_bind (events : List Log.Event) (k : Unit → Remembering β) :
    (report events >>= k).run memo = ((k ()).run memo).after events := rfl

theorem run_finish (c : Coord) (v : Value) :
    (finish c v).run memo = ⟨memo.keep c v.single, .ok v.single, []⟩ := rfl

end Remembering

open Remembering

/-- How many formula cells of a sheet are not under evaluation. -/
def idleCount (s : Sheet) (active : List Coord) : Nat :=
  (formulaCells s).countP fun c => !active.contains c

theorem idleCount_cons_lt {s : Sheet} {active : List Coord} {c : Coord} (hc : c ∉ active)
    (hf : (formula? (s.rawCell c)).isSome) : idleCount s (c :: active) < idleCount s active := by
  refine Machine.countP_lt_countP (fun d _ => ?_) (mem_formulaCells hf) ?_ ?_
  · simp only [List.contains_cons, Bool.not_or, Bool.and_eq_true]
    exact fun h => h.2
  · simp
  · simpa using hc

variable [CallStack]

/-- Look a cell up while the cells of `active` are under evaluation, the last one entered in
front. -/
def retrieve (s : Sheet) (active : List Coord) (c : Coord) : Remembering Value := do
  match ← find? c with
  | some v =>
    change Memo.hit
    return v
  | none =>
    if _idle : c ∈ active then
      report [Machine.cycleWarning active c]
      return .error .cycle
    else
      change Memo.miss
      report (s.readEvents c)
      match _asks : formula? (s.rawCell c) with
      | none => finish c (s.rawCell c)
      | some formula =>
        report (openFormula c formula).events
        let v ← (openFormula c formula).steps.run (retrieve s (c :: active)) fail
        finish c v
termination_by idleCount s active
decreasing_by exact idleCount_cons_lt _idle (by simp [_asks])

variable {s : Sheet} {active : List Coord} {c : Coord} {memo : Memo}

theorem retrieve_of_known {v : Value} (h : memo.find? c = some v) :
    (retrieve s active c).run memo = ⟨memo.hit, .ok v, []⟩ := by
  rw [retrieve, run_find?_bind, h]
  rfl

theorem retrieve_of_active (h : memo.find? c = none) (ha : c ∈ active) :
    (retrieve s active c).run memo =
      ⟨memo, .ok (.error .cycle), [Machine.cycleWarning active c]⟩ := by
  rw [retrieve, run_find?_bind, h]
  simp only [ha, dite_true]
  rfl

/-- An entered cell holds its dialogue one cell deeper, whether it is a formula or not. -/
theorem retrieve_of_fresh (h : memo.find? c = none) (ha : c ∉ active) :
    (retrieve s active c).run memo =
      (((openCell s c).steps.run (retrieve s (c :: active)) fail >>= finish c).run memo.miss).after
        (openCell s c).events := by
  rw [retrieve, run_find?_bind, h]
  simp only [ha, dite_false, run_change_bind, run_report_bind]
  unfold openCell
  cases hf : formula? (s.rawCell c) with
  | none =>
    simp only [List.append_nil]
    rfl
  | some formula => simp only [run_report_bind, Outcome.after_after]

namespace Machine

theorem run_of_next {m m' : Machine} (h : m.step s = .next m') : m.run s = m'.run s := by
  rw [run]
  split
  · rename_i o hturn
    rw [h] at hturn
    cases hturn
  · rename_i n hturn
    rw [h] at hturn
    cases hturn
    rfl

theorem run_of_over {m : Machine} {o : Outcome Value} (h : m.step s = .over o) : m.run s = o := by
  rw [run]
  split
  · rename_i o' hturn
    rw [h] at hturn
    cases hturn
    rfl
  · rename_i n hturn
    rw [h] at hturn
    cases hturn

/-- How a machine goes on once something that was done for its cell has an outcome. -/
def proceed (s : Sheet) (m : Machine) (o : Outcome Value) (k : Value → Steps) : Outcome Value :=
  match o.result with
  | .ok v => run s { m with memo := o.memo, steps := k v, events := m.events ++ o.events }
  | .error f => ⟨o.memo, .error f, m.events ++ o.events⟩

/-- The machine that has entered a cell and holds its dialogue. -/
def suspend (s : Sheet) (m : Machine) (c : Coord) (resume : Value → Steps) : Machine :=
  ⟨m.memo.miss, c, (openCell s c).steps, ⟨m.cell, resume⟩ :: m.waiting,
    m.events ++ (openCell s c).events⟩

/-- A cell that answers at once may as well be suspended and finished in the next turn. -/
theorem run_enter (m : Machine) (c : Coord) (resume : Value → Steps) :
    (enter s m c resume).run s = (suspend s m c resume).run s := by
  cases hv : (openCell s c).steps with
  | done v =>
    have hstep : (suspend s m c resume).step s = .next (enter s m c resume) := by
      simp only [step, suspend, hv, leave, enter]
    exact (run_of_next hstep).symm
  | fault f => simp only [enter, suspend, hv]
  | ask d next => simp only [enter, suspend, hv]

/-- Finishing an entered cell leads back to the cell that asked for it. -/
theorem proceed_suspend (m : Machine) (c : Coord) (resume : Value → Steps)
    (x : Remembering Value) :
    (suspend s m c resume).proceed s (x.run m.memo.miss) .done =
      m.proceed s (((x >>= finish c).run m.memo.miss).after (openCell s c).events) resume := by
  cases hx : (x.run m.memo.miss).result with
  | error f =>
    rw [run_bind_of_error _ _ hx]
    simp [proceed, hx, suspend, Outcome.after]
  | ok v =>
    rw [run_bind_of_ok _ _ hx, run_finish]
    simp only [proceed, hx, suspend, Outcome.after]
    rw [run_of_next rfl]
    simp

/-- A question is answered as by a recursive call, provided that the cells entered for it are. -/
theorem run_ask {m : Machine} {resume : Value → Steps} (hsteps : m.steps = .ask c resume)
    (hdeep : m.memo.find? c = none → c ∉ m.active →
      (suspend s m c resume).run s = (suspend s m c resume).proceed s
        (((openCell s c).steps.run (retrieve s (c :: m.active)) fail).run m.memo.miss) .done) :
    m.run s = m.proceed s ((retrieve s m.active c).run m.memo) resume := by
  cases hm : m.memo.find? c with
  | some v =>
    have hstep : m.step s = .next { m with memo := m.memo.hit, steps := resume v } := by
      simp only [step, hsteps, hm]
    rw [run_of_next hstep, retrieve_of_known hm]
    simp [proceed]
  | none =>
    by_cases ha : c ∈ m.active
    · have hstep : m.step s = .next { m with
          steps := resume (.error .cycle)
          events := m.events ++ [cycleWarning m.active c] } := by
        simp only [step, hsteps, hm, if_pos ha]
      rw [run_of_next hstep, retrieve_of_active hm ha]
      simp [proceed]
    · have hstep : m.step s = .next (enter s m c resume) := by
        simp only [step, hsteps, hm, if_neg ha]
      rw [run_of_next hstep, run_enter, hdeep hm ha, proceed_suspend, retrieve_of_fresh hm ha]

/-- The turns of a machine hold the dialogue of its cell by recursion, whatever waits for it. -/
theorem run_eq_proceed (m : Machine) :
    m.run s = m.proceed s ((m.steps.run (retrieve s m.active) fail).run m.memo) .done := by
  induction hn : idleCount s m.active using Nat.strongRecOn generalizing m with
  | ind n outer =>
  -- Questions of the same cell leave `active` as it is, so they need only the dialogue to shrink.
  induction hs : m.steps generalizing m with
  | done v =>
    obtain ⟨memo, cell, steps, waiting, events⟩ := m
    obtain rfl : steps = .done v := hs
    simp [Steps.run, run_pure, proceed]
  | fault f =>
    obtain ⟨memo, cell, steps, waiting, events⟩ := m
    obtain rfl : steps = .fault f := hs
    rw [run_of_over (o := ⟨memo, .error f, events⟩) rfl]
    simp [Steps.run, fail, proceed]
  | ask c resume inner =>
    rw [run_ask hs]
    · cases hc : ((retrieve s m.active c).run m.memo).result with
      | error f => simp [proceed, Steps.run, run_bind_of_error _ _ hc, hc]
      | ok v =>
        have hnext := inner v
          { m with
            memo := ((retrieve s m.active c).run m.memo).memo
            steps := resume v
            events := m.events ++ ((retrieve s m.active c).run m.memo).events } hn rfl
        simp only [Steps.run, run_bind_of_ok _ _ hc]
        simp only [proceed, hc]
        rw [hnext]
        simp only [proceed, Outcome.after, active, List.append_assoc]
    · intro hm ha
      cases hf : formula? (s.rawCell c) with
      | none =>
        have hdone := openCell_steps_of_not_formula hf
        simp [suspend, proceed, Steps.run, run_pure, hdone]
      | some formula =>
        have hcell : (formula? (s.rawCell c)).isSome := by rw [hf]; rfl
        have hlt : idleCount s (suspend s m c resume).active < n :=
          hn ▸ idleCount_cons_lt ha hcell
        exact outer _ hlt (suspend s m c resume) rfl

/-- A machine with nothing waiting ends with the value of its cell. -/
theorem proceed_start (c : Coord) (x : Remembering Value) :
    (start s memo c).proceed s (x.run memo.miss) .done =
      ((x >>= finish c).run memo.miss).after (openCell s c).events := by
  cases hx : (x.run memo.miss).result with
  | error f =>
    rw [run_bind_of_error _ _ hx]
    simp [proceed, hx, start, Outcome.after]
  | ok v =>
    rw [run_bind_of_ok _ _ hx, run_finish]
    simp only [proceed, hx, start, Outcome.after]
    rw [run_of_over rfl]
    simp

end Machine

theorem resolve_eq_retrieve (s : Sheet) (memo : Memo) (c : Coord) :
    resolve s memo c = (retrieve s [] c).run memo := by
  unfold resolve
  cases hm : memo.find? c with
  | some v => exact (retrieve_of_known hm).symm
  | none =>
    rw [retrieve_of_fresh hm (List.not_mem_nil), ← Machine.proceed_start]
    exact Machine.run_eq_proceed (Machine.start s memo c)

/-- A session that looks a cell up ends as the recursion from the memory that it had: same result,
same memory with its counts, same events. -/
theorem value_eq_retrieve (ses : Session) (s : Sheet) (c : Coord) :
    ses.value s c =
      let o := (retrieve s [] c).run ses.memo
      ⟨{ ses with memo := o.memo }, o.result, o.events⟩ := by
  simp only [value, resolve_eq_retrieve]

end Worksheet.Session
