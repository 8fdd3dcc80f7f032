import Mathlib.Logic.Relation
import Worksheet.Proofs.Requests
import Worksheet.Workbook

/-!
Lookups are never stale. An edit that returns leaves its sheet alone or counts once more in the
revision, so a session whose revision is that of its sheet was begun after the last change, and what
it remembers holds of the sheet as it is. Every other session is replaced before it is used.
-/
namespace Worksheet

/-! ### Edits -/

/-- The edits of a sheet. -/
inductive Mutation where
  | setValue (c : Coord) (value : Value)
  | setFormat (c : Coord) (format : Value)
  | insertRow (after : Option Int)
  | insertColumn (after : Option Int)
  | deleteRows (indices : List Int)
  | deleteColumns (indices : List Int)
  | paste (c : Coord) (text : String)

/-- An edit, what it returned left aside. -/
def Edited.forget {α : Type} (e : Edited α) : Edited Unit :=
  ⟨e.sheet, e.result.map fun _ => (), e.events⟩

def Mutation.edit : Mutation → Sheet → Edited Unit
  | .setValue c value, s => s.setValue c value
  | .setFormat c format, s => s.setFormat c format
  | .insertRow after, s => (s.insertRow after).forget
  | .insertColumn after, s => (s.insertColumn after).forget
  | .deleteRows indices, s => (s.deleteRows indices).forget
  | .deleteColumns indices, s => (s.deleteColumns indices).forget
  | .paste c text, s => (s.paste c text).forget

/-- A sheet that is as it was, or that counts one more edit. -/
def Succeeds (s s' : Sheet) : Prop := s' = s ∨ s'.revision = s.revision + 1

/-- An edit that counts if it returned and changed something. -/
def Edited.Counts {α : Type} (s : Sheet) (e : Edited α) : Prop :=
  ∀ a, e.result = .ok a → Succeeds s e.sheet

section Edits
variable {α : Type} {s : Sheet}

theorem counts_touched (rows : List (List Value)) (result : Except Fault α)
    (events : List Log.Event) : Edited.Counts s ⟨s.touched rows, result, events⟩ :=
  fun _ _ => .inr rfl

theorem counts_unchanged (result : Except Fault α) (events : List Log.Event) :
    Edited.Counts s ⟨s, result, events⟩ := fun _ _ => .inl rfl

theorem counts_refused (s' : Sheet) (f : Fault) (events : List Log.Event) :
    Edited.Counts s (⟨s', .error f, events⟩ : Edited α) := nofun

theorem Edited.Counts.forget {e : Edited α} (h : e.Counts s) : e.forget.Counts s := by
  intro a ha
  cases hresult : e.result with
  | error f =>
    simp only [Edited.forget, hresult] at ha
    cases ha
  | ok b => exact h b hresult

theorem setValue_counts (s : Sheet) (c : Coord) (value : Value) :
    (s.setValue c value).Counts s := by
  unfold Sheet.setValue
  split
  · exact counts_refused _ _ _
  · dsimp only
    split
    · exact counts_refused _ _ _
    · exact counts_touched _ _ _

theorem setFormat_counts (s : Sheet) (c : Coord) (format : Value) :
    (s.setFormat c format).Counts s := by
  unfold Sheet.setFormat
  split
  · exact counts_refused _ _ _
  · dsimp only
    split
    · exact counts_refused _ _ _
    · split
      · exact counts_refused _ _ _
      · exact counts_touched _ _ _

theorem deleteRows_counts (s : Sheet) (indices : List Int) : (s.deleteRows indices).Counts s := by
  unfold Sheet.deleteRows
  dsimp only
  split
  · exact counts_unchanged _ _
  · split
    · exact counts_refused _ _ _
    · exact counts_touched _ _ _

theorem deleteColumns_counts (s : Sheet) (indices : List Int) :
    (s.deleteColumns indices).Counts s := by
  unfold Sheet.deleteColumns
  dsimp only
  split
  · exact counts_unchanged _ _
  · split
    · exact counts_refused _ _ _
    · exact counts_touched _ _ _

theorem paste_counts (s : Sheet) (c : Coord) (text : String) : (s.paste c text).Counts s := by
  unfold Sheet.paste
  dsimp only
  split
  · exact counts_unchanged _ _
  · split
    · exact counts_refused _ _ _
    · split
      · exact counts_refused _ _ _
      · exact counts_touched _ _ _

/-- Every edit that returns leaves the sheet as it was or counts. -/
theorem Mutation.counts (m : Mutation) (s : Sheet) : (m.edit s).Counts s := by
  cases m with
  | setValue c value => exact setValue_counts s c value
  | setFormat c format => exact setFormat_counts s c format
  | insertRow after => exact (counts_touched _ _ _ : (s.insertRow after).Counts s).forget
  | insertColumn after => exact (counts_touched _ _ _ : (s.insertColumn after).Counts s).forget
  | deleteRows indices => exact (deleteRows_counts s indices).forget
  | deleteColumns indices => exact (deleteColumns_counts s indices).forget
  | paste c text => exact (paste_counts s c text).forget

end Edits

/-! ### Sessions beside their sheets -/

namespace Session

/-- A session that is not ahead of its sheet, and whose memory is truthful unless it is behind. -/
structure KeepsUp [Formula.CallStack] (s : Sheet) (ses : Session) : Prop where
  revision_le : ses.revision ≤ s.revision
  truthful : ses.revision = s.revision → Truthful s ses.memo

variable [Formula.CallStack] {s s' : Sheet} {ses ses' : Session}

theorem begin_keepsUp (sheet : Nat) (s : Sheet) (settings : Display.Settings) :
    KeepsUp s (Session.begin sheet s settings) := ⟨Nat.le_refl _, fun _ => truthful_empty⟩

theorem KeepsUp.continues (h : KeepsUp s ses) (hc : Continues s ses ses') : KeepsUp s ses' where
  revision_le := hc.revision_eq ▸ h.revision_le
  truthful heq := hc.truthful (h.truthful (hc.revision_eq ▸ heq))

theorem KeepsUp.succeeds (h : KeepsUp s ses) (hs : Succeeds s s') : KeepsUp s' ses := by
  rcases hs with rfl | hrevision
  · exact h
  · have hle := h.revision_le
    refine ⟨by omega, fun heq => ?_⟩
    omega

end Session

/-! ### Workbooks -/

namespace Workbook

open Session Relation

variable {w w' : Workbook}

theorem edit_succeeds {i : Nat} {m : Mutation} (h : (w.edit i m.edit).2 = .ok ()) (j : Nat) :
    Succeeds (w.sheet j) ((w.edit i m.edit).1.sheet j) := by
  have hcounts : Succeeds (w.sheet i) (m.edit (w.sheet i)).sheet := m.counts (w.sheet i) () h
  have hsheet : (w.edit i m.edit).1.sheet j =
      ((w.sheets.set i (m.edit (w.sheet i)).sheet)[j]?).getD ⟨[], 0, 0⟩ := rfl
  rw [hsheet]
  by_cases hij : i = j
  · subst hij
    by_cases hlt : i < w.sheets.length
    · rw [List.getElem?_set_self hlt]
      exact hcounts
    · rw [List.set_eq_of_length_le (Nat.le_of_not_lt hlt)]
      exact .inl rfl
  · rw [List.getElem?_set_ne hij]
    exact .inl rfl

section Frames
variable [Formula.CallStack]

/-- What a host does to a workbook: edits that return, sessions begun or chosen, and calls of any
session, current or not, directly or through a lookup. -/
inductive Leads (w : Workbook) : Workbook → Prop
  | edited (i : Nat) (m : Mutation) (h : (w.edit i m.edit).2 = .ok ()) :
      Leads w (w.edit i m.edit).1
  | began (i : Nat) (settings : Display.Settings) : Leads w (w.beginSession i settings).1
  | chose (i : Nat) (given : Option Nat) (settings : Display.Settings) :
      Leads w (w.sessionFor i given settings).1
  | called {α : Type} (n : Nat) {call : Session → Sheet → Called α} (hcall : IsCall call)
      {w' : Workbook} {result : Except Fault α} (h : w.call n call = some (w', result)) : Leads w w'
  | lookedUp {α : Type} (i : Nat) (given : Option Nat) (settings : Display.Settings)
      {call : Session → Sheet → Called α} (hcall : IsCall call) {w' : Workbook}
      {result : Except Fault α} (h : w.lookup i given settings call = some (w', result)) :
      Leads w w'

/-- Every session keeps up with its sheet. -/
def Consistent (w : Workbook) : Prop :=
  ∀ ses ∈ w.sessions, KeepsUp (w.sheet ses.sheet) ses

theorem Consistent.edit (hw : w.Consistent) {i : Nat} {m : Mutation}
    (h : (w.edit i m.edit).2 = .ok ()) : (w.edit i m.edit).1.Consistent :=
  fun ses hses => (hw ses hses).succeeds (edit_succeeds h ses.sheet)

theorem Consistent.beginSession (hw : w.Consistent) (i : Nat) (settings : Display.Settings) :
    (w.beginSession i settings).1.Consistent := by
  intro ses hses
  rcases List.mem_append.mp hses with hses | hses
  · exact hw ses hses
  · cases List.mem_singleton.mp hses
    exact begin_keepsUp i (w.sheet i) settings

theorem Consistent.sessionFor (hw : w.Consistent) (i : Nat) (given : Option Nat)
    (settings : Display.Settings) : (w.sessionFor i given settings).1.Consistent := by
  unfold Workbook.sessionFor
  split
  · exact hw.beginSession i settings
  · split
    · exact hw
    · exact hw.beginSession i _

theorem Consistent.call {α : Type} (hw : w.Consistent) {n : Nat} {f : Session → Sheet → Called α}
    (hf : IsCall f) {result : Except Fault α} (h : w.call n f = some (w', result)) :
    w'.Consistent := by
  obtain ⟨ses, hses, heq⟩ := Option.map_eq_some_iff.mp h
  cases heq
  have hkept : KeepsUp (w.sheet ses.sheet) (f ses (w.sheet ses.sheet)).session :=
    (hw ses (List.mem_of_getElem? hses)).continues (hf.continues ses)
  intro other hother
  rcases List.mem_or_eq_of_mem_set hother with hother | rfl
  · exact hw other hother
  · have hsheet : (f ses (w.sheet ses.sheet)).session.sheet = ses.sheet :=
      (hf.continues ses).sheet_eq
    rw [hsheet]
    exact hkept

theorem Consistent.leads (hw : w.Consistent) (h : Leads w w') : w'.Consistent := by
  cases h with
  | edited i m h => exact hw.edit h
  | began i settings => exact hw.beginSession i settings
  | chose i given settings => exact hw.sessionFor i given settings
  | called n hcall h => exact hw.call hcall h
  | lookedUp i given settings hcall h => exact (hw.sessionFor i given settings).call hcall h

end Frames

attribute [local instance] Formula.CallStack.usual

end Workbook
end Worksheet
