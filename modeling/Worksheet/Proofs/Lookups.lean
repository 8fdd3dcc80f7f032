import Worksheet.Proofs.Requests

/-!
The lookups of calls. Whatever a host asks of a session comes down to lookups of single cells, each
with what the session remembers when it is made: a call for a cell makes one, and a call for the
whole grid makes one for each cell, up to the first fault. So what every lookup preserves of a
memory, calls preserve as well.
-/
namespace Worksheet.Session

/-- A lookup: on a sheet as it is then, with what is remembered then. -/
structure Lookup where
  sheet : Sheet
  memo : Memo
  cell : Coord

/-- Whether a result is no fault. -/
abbrev Returned {α : Type} (r : Except Fault α) : Prop := r.isOk = true

theorem returned_iff {α : Type} {r : Except Fault α} : Returned r ↔ ∃ a, r = .ok a := by
  cases r with
  | ok a => exact ⟨fun _ => ⟨a, rfl⟩, fun _ => rfl⟩
  | error f => exact ⟨nofun, nofun⟩

section InTurn
variable {α β : Type} {call : Session → α → Called β} {single : Session → α → List Lookup}

/-- The lookups of calls made one after the other, up to the first fault. -/
def lookupsInTurn (call : Session → α → Called β) (single : Session → α → List Lookup) :
    List α → Session → List Lookup
  | [], _ => []
  | a :: rest, ses =>
    single ses a ++ match (call ses a).result with
      | .error _ => []
      | .ok _ => lookupsInTurn call single rest (call ses a).session

theorem forall_lookupsInTurn {P : Lookup → Prop} (hsingle : ∀ ses a, ∀ k ∈ single ses a, P k)
    (as : List α) (ses : Session) : ∀ k ∈ lookupsInTurn call single as ses, P k := by
  induction as generalizing ses with
  | nil => exact List.forall_mem_nil P
  | cons a rest ih =>
    unfold lookupsInTurn
    cases (call ses a).result with
    | error f =>
      rw [List.append_nil]
      exact hsingle ses a
    | ok b => exact List.forall_mem_append.mpr ⟨hsingle ses a, ih _⟩

end InTurn

variable [Formula.CallStack]

def Lookup.outcome (k : Lookup) : Outcome Value := resolve k.sheet k.memo k.cell

/-- Lookups made one after the other, each with the memory that the one before it left. -/
inductive Lookup.Chained : Memo → List Lookup → Memo → Prop
  | nil (memo : Memo) : Chained memo [] memo
  | cons (k : Lookup) {rest : List Lookup} {memo : Memo} (h : Chained k.outcome.memo rest memo) :
    Chained k.memo (k :: rest) memo

variable {s : Sheet} {memo memo' memo'' : Memo} {c : Coord} {k : Lookup} {ks ks' : List Lookup}

namespace Lookup.Chained

theorem single (s : Sheet) (memo : Memo) (c : Coord) :
    Chained memo [⟨s, memo, c⟩] (resolve s memo c).memo := .cons ⟨s, memo, c⟩ (.nil _)

theorem append (h : Chained memo ks memo') (h' : Chained memo' ks' memo'') :
    Chained memo (ks ++ ks') memo'' := by
  induction h with
  | nil memo => exact h'
  | cons k h ih => exact .cons k (ih h')

/-- What every lookup preserves of a memory is preserved by lookups made one after the other. -/
theorem preserves {P : Memo → Prop} (hstep : ∀ k ∈ ks, P k.memo → P k.outcome.memo)
    (h : Chained memo ks memo') (hmemo : P memo) : P memo' := by
  induction h with
  | nil memo => exact hmemo
  | cons k h ih =>
    apply ih
    · intro other hother
      exact hstep other (List.mem_cons_of_mem k hother)
    · exact hstep k List.mem_cons_self hmemo

end Lookup.Chained

/-! ### Calls in turn -/

section InTurn
variable {α β : Type} {call : Session → α → Called β} {single : Session → α → List Lookup}

theorem chained_inTurn
    (hsingle : ∀ ses a, Lookup.Chained ses.memo (single ses a) (call ses a).session.memo)
    (as : List α) (ses : Session) :
    Lookup.Chained ses.memo (lookupsInTurn call single as ses)
      (inTurn call as ses).session.memo := by
  induction as generalizing ses with
  | nil => exact .nil _
  | cons a rest ih =>
    unfold lookupsInTurn inTurn
    cases (call ses a).result with
    | error f =>
      rw [List.append_nil]
      exact hsingle ses a
    | ok b => exact (hsingle ses a).append (ih _)

/-- Calls in turn return only if each of them does. -/
theorem returned_lookupsInTurn
    (hsingle : ∀ ses a, Returned (call ses a).result →
      ∀ k ∈ single ses a, Returned k.outcome.result)
    {as : List α} {ses : Session} (h : Returned (inTurn call as ses).result) :
    ∀ k ∈ lookupsInTurn call single as ses, Returned k.outcome.result := by
  induction as generalizing ses with
  | nil => exact List.forall_mem_nil _
  | cons a rest ih =>
    unfold inTurn at h
    unfold lookupsInTurn
    cases ha : (call ses a).result with
    | error f =>
      rw [ha] at h
      cases h
    | ok b =>
      rw [ha] at h
      have hothers : Returned (inTurn call rest (call ses a).session).result := by
        cases hrest : (inTurn call rest (call ses a).session).result with
        | error f =>
          simp only [hrest] at h
          cases h
        | ok others => rfl
      have hfirst := hsingle ses a (returned_iff.mpr ⟨b, ha⟩)
      exact List.forall_mem_append.mpr ⟨hfirst, ih hothers⟩

end InTurn

/-! ### Calls -/

/-- The lookups of cells that are shown one after the other. -/
def displayLookups (s : Sheet) : List Coord → Session → List Lookup :=
  lookupsInTurn (fun ses c => ses.displayValue s c) fun ses c => [⟨s, ses.memo, c⟩]

def rowLookups (s : Sheet) : List Nat → Session → List Lookup :=
  lookupsInTurn (fun ses r => displayAll s (gridRow s r) ses) fun ses r =>
    displayLookups s (gridRow s r) ses

/-- The lookups that a session makes for a call. -/
def lookups (s : Sheet) (ses : Session) : Request → List Lookup
  | .value c => [⟨s, ses.memo, c⟩]
  | .display c => [⟨s, ses.memo, c⟩]
  | .all => rowLookups s (List.range s.rowCount) ses

/-- Whether a call returns. -/
def returns (s : Sheet) (ses : Session) : Request → Bool
  | .value c => (ses.value s c).result.isOk
  | .display c => (ses.displayValue s c).result.isOk
  | .all => (ses.evaluateAll s).result.isOk

theorem value_memo (ses : Session) (s : Sheet) (c : Coord) :
    (ses.value s c).session.memo = (resolve s ses.memo c).memo := rfl

theorem displayValue_memo (ses : Session) (s : Sheet) (c : Coord) :
    (ses.displayValue s c).session.memo = (resolve s ses.memo c).memo := by
  cases h : (ses.value s c).result with
  | error f => rw [displayValue_of_error h, value_memo]
  | ok v => rw [displayValue_of_ok h, value_memo]

theorem evaluateAll_memo (ses : Session) (s : Sheet) :
    (ses.evaluateAll s).session.memo =
      (displayRows s (List.range s.rowCount) ses).session.memo := by
  unfold evaluateAll
  cases hresult : (displayRows s (List.range s.rowCount) ses).result with
  | error f => simp only [hresult]
  | ok grid => simp only [hresult]

theorem chained_display (s : Sheet) (cs : List Coord) (ses : Session) :
    Lookup.Chained ses.memo (displayLookups s cs ses) (displayAll s cs ses).session.memo := by
  rw [displayAll_eq_inTurn]
  apply chained_inTurn
  intro ses c
  rw [displayValue_memo]
  exact .single s ses.memo c

/-- A call leads from the memory that it finds, lookup by lookup, to the one that it leaves. -/
theorem chained_lookups (s : Sheet) (ses : Session) (request : Request) :
    Lookup.Chained ses.memo (lookups s ses request) (serve s ses request).memo := by
  cases request with
  | value c => exact .single s ses.memo c
  | display c =>
    unfold serve
    rw [displayValue_memo]
    exact .single s ses.memo c
  | all =>
    unfold serve
    rw [evaluateAll_memo, displayRows_eq_inTurn]
    apply chained_inTurn
    intro ses r
    exact chained_display s (gridRow s r) ses

theorem sheet_of_mem_lookups {request : Request} {ses : Session} :
    ∀ k ∈ lookups s ses request, k.sheet = s := by
  have hsingle (ses : Session) (c : Coord) :
      ∀ k ∈ [Lookup.mk s ses.memo c], k.sheet = s := List.forall_mem_singleton.mpr rfl
  cases request with
  | value c => exact hsingle ses c
  | display c => exact hsingle ses c
  | all =>
    apply forall_lookupsInTurn
    intro ses r
    exact forall_lookupsInTurn hsingle (gridRow s r) ses

theorem returned_value {ses : Session} {c : Coord}
    (h : Returned (ses.displayValue s c).result) : Returned (ses.value s c).result := by
  cases hvalue : (ses.value s c).result with
  | error f =>
    rw [displayValue_of_error hvalue] at h
    cases h
  | ok v => rfl

/-- The lookups of a call that returns return. -/
theorem returned_lookups {ses : Session} {request : Request} (h : returns s ses request = true) :
    ∀ k ∈ lookups s ses request, Returned k.outcome.result := by
  have hsingle (ses : Session) (c : Coord) (hc : Returned (ses.displayValue s c).result) :
      ∀ k ∈ [Lookup.mk s ses.memo c], Returned k.outcome.result :=
    List.forall_mem_singleton.mpr (returned_value hc)
  cases request with
  | value c => exact List.forall_mem_singleton.mpr h
  | display c => exact hsingle ses c h
  | all =>
    have hrows : Returned (ses.evaluateAll s).result := h
    rw [result_displayRows, displayRows_eq_inTurn] at hrows
    apply returned_lookupsInTurn _ hrows
    intro ses r hr
    rw [displayAll_eq_inTurn] at hr
    exact returned_lookupsInTurn hsingle hr

end Worksheet.Session
