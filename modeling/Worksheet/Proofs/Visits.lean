import Worksheet.Proofs.RequestOrder
import Worksheet.Proofs.Requests
import Worksheet.Proofs.StoredCells

/-!
The cells that a resolution enters. Which they are comes out as it goes, from the values that it
reads. Two sheets that hold the same values in the cells that a resolution on one of them enters
lead it through the same turns on the other, whatever else they hold; only the warnings about
formats may differ. So a cell that is not entered has no part in a value, and a format has none in
any, though the text that a cell shows depends on its own.
-/
namespace Worksheet.Session

open Formula Formula.Steps

/-- The warnings about circuits and about formulas that cannot be read. -/
def told (events : List Log.Event) : List Log.Event :=
  events.filter fun event => event.type == .formulaCycle || event.type == .formulaParseError

theorem told_append (events events' : List Log.Event) :
    told (events ++ events') = told events ++ told events' := List.filter_append events events'

theorem told_readEvents (s : Sheet) (c : Coord) : told (s.readEvents c) = [] := by
  unfold Sheet.readEvents
  dsimp only
  split
  · rfl
  · rfl

variable {s s' : Sheet} {m m' : Machine} {memo : Memo} {c d : Coord}

/-! ### Entered cells -/

namespace Machine

/-- The cell that the next turn enters, if it enters one. -/
def entering? (m : Machine) : Option Coord := m.steps.question?.filter m.isFresh

theorem entering?_of_fresh {resume : Value → Steps} (hsteps : m.steps = .ask c resume)
    (hfind : m.memo.find? c = none) (hc : c ∉ m.active) : m.entering? = some c := by
  simp [entering?, hsteps, question?, isFresh, hfind, hc]

theorem entering?_of_known {resume : Value → Steps} {v : Value} (hsteps : m.steps = .ask c resume)
    (hfind : m.memo.find? c = some v) : m.entering? = none := by
  simp [entering?, hsteps, question?, isFresh, hfind]

theorem entering?_of_active {resume : Value → Steps} (hsteps : m.steps = .ask c resume)
    (hc : c ∈ m.active) : m.entering? = none := by
  simp [entering?, hsteps, question?, isFresh, hc]

theorem entering?_of_done {v : Value} (hsteps : m.steps = .done v) : m.entering? = none := by
  simp [entering?, hsteps, question?]

end Machine

/-! ### Machines in step -/

/-- Machines that differ at most in their warnings about formats. -/
structure Machine.Alike (m m' : Machine) : Prop where
  memo_eq : m'.memo = m.memo
  cell_eq : m'.cell = m.cell
  steps_eq : m'.steps = m.steps
  waiting_eq : m'.waiting = m.waiting
  told_eq : told m'.events = told m.events

structure Outcome.Alike (o o' : Outcome Value) : Prop where
  memo_eq : o'.memo = o.memo
  result_eq : o'.result = o.result
  told_eq : told o'.events = told o.events

inductive Turn.Alike : Turn → Turn → Prop where
  | next {n n' : Machine} (h : n.Alike n') : Alike (.next n) (.next n')
  | ended {o o' : Outcome Value} (h : o.Alike o') : Alike (.over o) (.over o')

namespace Machine

theorem Alike.active_eq (h : m.Alike m') : m'.active = m.active := by
  unfold active
  rw [h.cell_eq, h.waiting_eq]

theorem Alike.entering?_eq (h : m.Alike m') : m'.entering? = m.entering? := by
  unfold entering? isFresh
  rw [h.steps_eq, h.active_eq, h.memo_eq]

theorem Alike.told_append_eq (h : m.Alike m') {events events' : List Log.Event}
    (hevents : told events' = told events) :
    told (m'.events ++ events') = told (m.events ++ events) := by
  rw [told_append, told_append, h.told_eq, hevents]

theorem Alike.leave (h : m.Alike m') (v : Value) : (m.leave v).Alike (m'.leave v) := by
  have hmemo : m'.memo.keep m'.cell v.single = m.memo.keep m.cell v.single := by
    rw [h.memo_eq, h.cell_eq]
  unfold Machine.leave
  rw [h.waiting_eq]
  cases m.waiting with
  | nil => exact .ended ⟨hmemo, rfl, h.told_eq⟩
  | cons frame rest => exact .next ⟨hmemo, rfl, rfl, rfl, h.told_eq⟩

end Machine

/-! ### Turns -/

section Frames
variable [CallStack]

namespace Machine

/-- The cells that are entered turn after turn, the first one first. -/
def visits (s : Sheet) (m : Machine) : List Coord :=
  match _turn : m.step s with
  | .over _ => []
  | .next m' => m.entering?.toList ++ m'.visits s
termination_by m.rank s
decreasing_by exact step_rank _turn

end Machine

/-- The cells that a resolution enters, the first one first. -/
def visits (s : Sheet) (memo : Memo) (c : Coord) : List Coord :=
  match memo.find? c with
  | some _ => []
  | none => c :: (Machine.start s memo c).visits s

namespace Machine

theorem visits_of_over {o : Outcome Value} (h : m.step s = .over o) : m.visits s = [] := by
  rw [visits]
  split
  · rfl
  · rename_i n hturn
    rw [h] at hturn
    cases hturn

theorem visits_of_next (h : m.step s = .next m') :
    m.visits s = m.entering?.toList ++ m'.visits s := by
  rw [visits]
  split
  · rename_i o hturn
    rw [h] at hturn
    cases hturn
  · rename_i n hturn
    rw [h] at hturn
    cases hturn
    rfl

end Machine

/-! ### Entered cells are counted and finished -/

/-- The cells that a machine evaluates or remembers. -/
def Machine.met (m : Machine) : List Coord := m.active ++ m.memo.entries.map Prod.fst

/-- What a turn or a run does to counts and cells when it enters some cells. -/
structure Machine.Enters (m : Machine) (cells : List Coord) (misses : Nat) (met : List Coord) :
    Prop where
  misses_eq : misses = m.memo.misses + cells.length
  met_perm : met.Perm (cells ++ m.met)

namespace Machine

theorem enter_enters (c : Coord) (resume : Value → Steps) :
    m.Enters [c] (enter s m c resume).memo.misses (enter s m c resume).met := by
  unfold enter
  dsimp only
  split
  · exact ⟨rfl, List.perm_middle⟩
  · exact ⟨rfl, .refl _⟩

/-- A turn that goes on counts the cell that it enters, and no cell is lost. -/
theorem step_enters (h : m.step s = .next m') :
    m.Enters m.entering?.toList m'.memo.misses m'.met := by
  unfold step at h
  split at h
  · rename_i v hsteps
    rw [entering?_of_done hsteps]
    unfold leave at h
    split at h
    · cases h
    · rename_i frame rest hwaiting
      cases h
      refine ⟨rfl, ?_⟩
      unfold met active
      rw [hwaiting]
      change ((frame.cell :: rest.map (·.cell)) ++ m.cell :: m.memo.entries.map Prod.fst).Perm
        (m.cell :: ((frame.cell :: rest.map (·.cell)) ++ m.memo.entries.map Prod.fst))
      exact List.perm_middle
  · cases h
  · rename_i c resume hsteps
    split at h
    · rename_i v hfind
      rw [entering?_of_known hsteps hfind]
      cases h
      exact ⟨rfl, .refl _⟩
    · rename_i hfind
      split at h
      · rename_i hc
        rw [entering?_of_active hsteps hc]
        cases h
        exact ⟨rfl, .refl _⟩
      · rename_i hc
        rw [entering?_of_fresh hsteps hfind hc]
        cases h
        exact enter_enters c resume

/-- A machine ends when its cell has finished, with nothing waiting for it, or has a fault. -/
theorem step_over {o : Outcome Value} (h : m.step s = .over o) :
    m.entering? = none ∧ o.memo.misses = m.memo.misses ∧
      ∀ v, o.result = .ok v → o.memo.entries.map Prod.fst = m.met := by
  unfold step at h
  split at h
  · rename_i v hsteps
    refine ⟨entering?_of_done hsteps, ?_⟩
    unfold leave at h
    split at h
    · rename_i hwaiting
      cases h
      refine ⟨rfl, fun _ _ => ?_⟩
      unfold met active
      rw [hwaiting]
      rfl
    · cases h
  · rename_i f hsteps
    cases h
    exact ⟨by simp [entering?, hsteps, question?], rfl, nofun⟩
  · split at h
    · cases h
    · split at h
      · cases h
      · cases h

/-- A run counts the cells that it enters, and finishes all of them when it returns a value. -/
theorem run_enters (m : Machine) : (m.run s).memo.misses = m.memo.misses + (m.visits s).length ∧
    ∀ v, (m.run s).result = .ok v →
      ((m.run s).memo.entries.map Prod.fst).Perm (m.visits s ++ m.met) := by
  induction m using run.induct s with
  | case1 m o hturn =>
    obtain ⟨-, hmisses, hmet⟩ := step_over hturn
    rw [run_of_over hturn, visits_of_over hturn]
    exact ⟨hmisses, fun v hv => .of_eq (hmet v hv)⟩
  | case2 m m' hturn ih =>
    obtain ⟨hmisses, hmet⟩ := step_enters hturn
    rw [run_of_next hturn, visits_of_next hturn, List.length_append]
    refine ⟨?_, fun v hv => ?_⟩
    · rw [ih.1, hmisses, Nat.add_assoc]
    · refine (ih.2 v hv).trans ((hmet.append_left (m'.visits s)).trans ?_)
      rw [← List.append_assoc]
      exact List.perm_append_comm.append_right _

end Machine

theorem resolve_enters (s : Sheet) (memo : Memo) (c : Coord) :
    (resolve s memo c).memo.misses = memo.misses + (visits s memo c).length ∧
    ∀ v, (resolve s memo c).result = .ok v → ((resolve s memo c).memo.entries.map Prod.fst).Perm
      (visits s memo c ++ memo.entries.map Prod.fst) := by
  unfold resolve visits
  cases memo.find? c with
  | some v => exact ⟨rfl, fun _ _ => .refl _⟩
  | none =>
    obtain ⟨hmisses, hmet⟩ := (Machine.start s memo c).run_enters (s := s)
    refine ⟨?_, fun v hv => (hmet v hv).trans List.perm_middle⟩
    rw [hmisses, List.length_cons]
    change memo.misses + 1 + _ = _
    omega

/-! ### Turns in step -/

/-- A cell is opened alike when it has the same value. -/
theorem openCell_alike (h : s'.rawCell c = s.rawCell c) :
    (openCell s' c).steps = (openCell s c).steps ∧
      told (openCell s' c).events = told (openCell s c).events := by
  unfold openCell
  rw [h]
  refine ⟨rfl, ?_⟩
  dsimp only
  rw [told_append, told_append, told_readEvents, told_readEvents]

namespace Machine

theorem Alike.enter (h : m.Alike m') (hread : s'.rawCell c = s.rawCell c)
    (resume : Value → Steps) : (enter s m c resume).Alike (enter s' m' c resume) := by
  obtain ⟨hsteps, htold⟩ := openCell_alike hread
  have hevents := h.told_append_eq htold
  have hwaiting : (⟨m'.cell, resume⟩ :: m'.waiting : List Frame) =
      ⟨m.cell, resume⟩ :: m.waiting := by
    rw [h.cell_eq, h.waiting_eq]
  unfold Machine.enter
  dsimp only
  rw [hsteps]
  cases (openCell s c).steps with
  | done v =>
    exact ⟨congrArg (fun memo => memo.miss.keep c v.single) h.memo_eq, h.cell_eq, rfl,
      h.waiting_eq, hevents⟩
  | fault f => exact ⟨congrArg Memo.miss h.memo_eq, rfl, rfl, hwaiting, hevents⟩
  | ask d next => exact ⟨congrArg Memo.miss h.memo_eq, rfl, rfl, hwaiting, hevents⟩

/-- A turn reads only the cell that it enters. -/
theorem Alike.step (h : m.Alike m') (hread : ∀ d ∈ m.entering?, s'.rawCell d = s.rawCell d) :
    (m.step s).Alike (m'.step s') := by
  unfold Machine.step
  rw [h.steps_eq, h.memo_eq, h.active_eq]
  cases hsteps : m.steps with
  | done v => exact h.leave v
  | fault f => exact .ended ⟨rfl, rfl, h.told_eq⟩
  | ask d resume =>
    dsimp only
    cases hfind : m.memo.find? d with
    | some v => exact .next ⟨rfl, h.cell_eq, rfl, h.waiting_eq, h.told_eq⟩
    | none =>
      dsimp only
      by_cases hd : d ∈ m.active
      · rw [if_pos hd, if_pos hd]
        exact .next ⟨rfl, h.cell_eq, rfl, h.waiting_eq, h.told_append_eq rfl⟩
      · rw [if_neg hd, if_neg hd]
        exact .next (h.enter (hread d (entering?_of_fresh hsteps hfind hd)) resume)

/-- Turn after turn machines stay alike as long as the cells that one of them enters are the same on
both sheets; so both enter the same cells. -/
theorem Alike.run (h : m.Alike m') (hread : ∀ d ∈ m.visits s, s'.rawCell d = s.rawCell d) :
    (m.run s).Alike (m'.run s') ∧ m'.visits s' = m.visits s := by
  induction m using run.induct s generalizing m' with
  | case1 m o hturn =>
    have hnone : ∀ d ∈ m.entering?, s'.rawCell d = s.rawCell d := by
      rw [(step_over hturn).1]
      exact nofun
    have hstep := h.step hnone
    rw [hturn] at hstep
    generalize hturn' : m'.step s' = turn at hstep
    cases hstep with
    | ended hover =>
      rw [run_of_over hturn, run_of_over hturn', visits_of_over hturn, visits_of_over hturn']
      exact ⟨hover, rfl⟩
  | case2 m n hturn ih =>
    rw [visits_of_next hturn] at hread ⊢
    have hstep := h.step fun d hd =>
      hread d (List.mem_append_left _ (Option.mem_toList.mpr hd))
    rw [hturn] at hstep
    generalize hturn' : m'.step s' = turn at hstep
    cases hstep with
    | next hnext =>
      obtain ⟨hrun, hvisits⟩ := ih hnext fun d hd => hread d (List.mem_append_right _ hd)
      rw [run_of_next hturn, run_of_next hturn', visits_of_next hturn', hvisits, h.entering?_eq]
      exact ⟨hrun, rfl⟩

end Machine

/-! ### Resolutions -/

theorem mem_visits (h : memo.find? c = none) : c ∈ visits s memo c := by
  unfold visits
  rw [h]
  exact List.mem_cons_self

/-- Resolutions are alike when the cells that one of them enters are the same on both sheets. -/
theorem resolve_alike (memo : Memo) (c : Coord)
    (hread : ∀ d ∈ visits s memo c, s'.rawCell d = s.rawCell d) :
    (resolve s memo c).Alike (resolve s' memo c) ∧ visits s' memo c = visits s memo c := by
  unfold resolve visits at *
  cases hfind : memo.find? c with
  | some v => exact ⟨⟨rfl, rfl, rfl⟩, rfl⟩
  | none =>
    rw [hfind] at hread
    obtain ⟨hsteps, htold⟩ := openCell_alike (hread c List.mem_cons_self)
    have hstart : (Machine.start s memo c).Alike (Machine.start s' memo c) :=
      ⟨rfl, rfl, hsteps, rfl, htold⟩
    obtain ⟨hrun, hvisits⟩ := hstart.run fun d hd => hread d (List.mem_cons_of_mem c hd)
    exact ⟨hrun, congrArg (c :: ·) hvisits⟩

/-- The text of a cell depends on its value and its own format. -/
theorem displayValue_result_congr {ses ses' : Session}
    (hsettings : ses'.settings = ses.settings)
    (hvalue : (ses'.value s' c).result = (ses.value s c).result)
    (hformat : s'.cellFormat c = s.cellFormat c) :
    (ses'.displayValue s' c).result = (ses.displayValue s c).result := by
  cases h : (ses.value s c).result with
  | error f => rw [displayValue_of_error h, displayValue_of_error (hvalue.trans h)]
  | ok v => rw [displayValue_of_ok h, displayValue_of_ok (hvalue.trans h), hsettings, hformat]

/-- What a fresh session gives for a cell depends only on the values of the cells that it enters: a
sheet that has the same values there leads it to the same cells in the same order, and to the same
result, memory, counts and warnings about circuits and formulas. The cells that it enters are
counted as misses and, if it returns a value, they are the ones that it remembers. So writing to a
cell that is not entered changes neither the value nor its text, and giving a format to any cell
changes no value, and no text but its own. A record that stands as the value within another one is
no cell of a sheet: without a format around it, it would be read as a structured cell itself. -/
theorem value_of_visited (sheet : Nat) (settings : Display.Settings) (s : Sheet) (c : Coord) :
    let fresh := fun s => Session.begin sheet s settings
    let called := fun s => (fresh s).value s c
    let text := fun s => ((fresh s).displayValue s c).result
    let visited := visits s {} c
    c ∈ visited ∧ (called s).session.memo.misses = visited.length ∧
    (∀ v, (called s).result = .ok v →
      ((called s).session.memo.entries.map Prod.fst).Perm visited) ∧
    (∀ s', (∀ d ∈ visited, s'.rawCell d = s.rawCell d) →
      (called s').result = (called s).result ∧ visits s' {} c = visited ∧
      (called s').session.memo = (called s).session.memo ∧
      told (called s').events = told (called s).events ∧
      (s'.cellFormat c = s.cellFormat c → text s' = text s)) ∧
    (∀ d ∉ visited, ∀ value,
      (called (s.setValue d value).sheet).result = (called s).result ∧
      text (s.setValue d value).sheet = text s) ∧
    ∀ d, Cell.isStructured (s.rawCell d) = false → ∀ format,
      (called (s.setFormat d format).sheet).result = (called s).result ∧
      (d ≠ c → text (s.setFormat d format).sheet = text s) := by
  intro fresh called text visited
  have hc : c ∈ visited := mem_visits rfl
  have htext {s' : Sheet} (hvalue : (called s').result = (called s).result)
      (hformat : s'.cellFormat c = s.cellFormat c) : text s' = text s :=
    displayValue_result_congr rfl hvalue hformat
  have halike {s' : Sheet} (hread : ∀ d ∈ visited, s'.rawCell d = s.rawCell d) :
      (resolve s {} c).Alike (resolve s' {} c) ∧ visits s' {} c = visited :=
    resolve_alike {} c hread
  obtain ⟨hmisses, hcells⟩ := resolve_enters s {} c
  refine ⟨hc, hmisses.trans (Nat.zero_add _), fun v hv => ?_, fun s' hread => ?_,
    fun d hd value => ?_, fun d hbare format => ?_⟩
  · have hperm := hcells v hv
    rw [List.map_nil, List.append_nil] at hperm
    exact hperm
  · obtain ⟨houtcome, hvisits⟩ := halike hread
    exact ⟨houtcome.result_eq, hvisits, houtcome.memo_eq, houtcome.told_eq,
      htext houtcome.result_eq⟩
  · have hsame : ∀ e ∈ visited, (s.setValue d value).sheet.cellData e = s.cellData e := by
      intro e he
      refine Sheet.cellData_setValue ?_
      rintro rfl
      exact hd he
    have hvalue := (halike fun e he => congrArg CellData.value (hsame e he)).1.result_eq
    exact ⟨hvalue, htext hvalue (congrArg CellData.format (hsame c hc))⟩
  · have hread : ∀ e ∈ visited, (s.setFormat d format).sheet.rawCell e = s.rawCell e :=
      fun e _ => Sheet.rawCell_setFormat hbare e
    have hvalue := (halike hread).1.result_eq
    exact ⟨hvalue, fun hne =>
      htext hvalue (congrArg CellData.format (Sheet.cellData_setFormat hne.symm))⟩

end Frames

/-- The two cells of `ring` that name each other, beside another formula. -/
def ringBeside : Sheet := ⟨[[.text "=B1", .text "=A1"], [.text "=C1"]], 3, 9⟩

attribute [local instance] CallStack.usual

/-- On both sheets the same cells are entered and the same circuit is met, and neither another
formula in the third cell nor a format of the second one is seen in the first. -/
theorem value_of_visited_ring :
    let called := fun s => (Session.begin 0 s plainSettings).value s ⟨0, 0⟩
    let text := fun s => ((Session.begin 0 s plainSettings).displayValue s ⟨0, 0⟩).result
    List.Perm [⟨0, 0⟩, ⟨0, 1⟩] (visits ring {} ⟨0, 0⟩) ∧
    visits ringBeside {} ⟨0, 0⟩ = visits ring {} ⟨0, 0⟩ ∧
    told (called ringBeside).events = told (called ring).events ∧
    text (ring.setValue ⟨0, 2⟩ (.text "=A1")).sheet = text ring ∧
    text (ring.setFormat ⟨0, 1⟩ (.record [("bold", .bool true)])).sheet = text ring := by
  intro called text
  obtain ⟨-, -, hcells, hbeside, hwritten, hbold⟩ := value_of_visited 0 plainSettings ring ⟨0, 0⟩
  have hkept : (called ring).session.memo.entries.map Prod.fst = [⟨0, 0⟩, ⟨0, 1⟩] := by
    simp only [called, value, resolve_eq_retrieve]
    decide +kernel
  have hreturned : (called ring).result.isOk = true := by
    simp only [called, value, resolve_eq_retrieve]
    decide +kernel
  have hvisited : List.Perm [⟨0, 0⟩, ⟨0, 1⟩] (visits ring {} ⟨0, 0⟩) := by
    cases hresult : (called ring).result with
    | error f =>
      rw [hresult] at hreturned
      cases hreturned
    | ok v => exact hkept ▸ hcells v hresult
  have hread : ∀ d ∈ visits ring {} ⟨0, 0⟩, ringBeside.rawCell d = ring.rawCell d := by
    intro d hd
    have hmem : d = ⟨0, 0⟩ ∨ d = ⟨0, 1⟩ := by simpa using hvisited.mem_iff.mpr hd
    rcases hmem with rfl | rfl
    · rfl
    · rfl
  have hthird : ⟨0, 2⟩ ∉ visits ring {} ⟨0, 0⟩ := by
    rw [← hvisited.mem_iff]
    decide
  obtain ⟨-, hsame, -, htold, -⟩ := hbeside ringBeside hread
  exact ⟨hvisited, hsame, htold, (hwritten ⟨0, 2⟩ hthird _).2,
    (hbold ⟨0, 1⟩ (by rfl) _).2 (by decide)⟩

end Worksheet.Session
