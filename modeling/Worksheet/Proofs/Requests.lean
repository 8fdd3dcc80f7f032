import Mathlib.Data.List.Forall2
import Worksheet.Display.Regions
import Worksheet.Proofs.Transparency

/-!
Sessions that serve requests. Every call leaves a session on the same sheet and revision with the
same settings, and keeps its memory truthful; so what a session gives for a cell is what a fresh
session gives, in whatever order cells were asked for, and whether the calls before returned or not.
-/
namespace Worksheet.Session

open Formula Formula.Steps Relation

/-! ### Calls in turn -/

section InTurn
variable {α β : Type} {call : Session → α → Called β}

/-- Calls made one after the other, up to the first fault. -/
def inTurn (call : Session → α → Called β) : List α → Session → Called (List β)
  | [], ses => ⟨ses, .ok [], []⟩
  | a :: rest, ses =>
    match (call ses a).result with
    | .error f => ⟨(call ses a).session, .error f, (call ses a).events⟩
    | .ok b =>
      let others := inTurn call rest (call ses a).session
      ⟨others.session, others.result.map (b :: ·), (call ses a).events ++ others.events⟩

/-- Calls whose results do not depend on the state of the session have the same results in turn. -/
theorem inTurn_result_eq {P : Session → Prop} (hkeep : ∀ ses a, P ses → P (call ses a).session)
    (hcall : ∀ ses ses' a, P ses → P ses' → (call ses a).result = (call ses' a).result)
    (as : List α) {ses ses' : Session} (hses : P ses) (hses' : P ses') :
    (inTurn call as ses).result = (inTurn call as ses').result := by
  induction as generalizing ses ses' with
  | nil => rfl
  | cons a rest ih =>
    have hfirst := hcall ses ses' a hses hses'
    unfold inTurn
    cases ha : (call ses a).result with
    | error f =>
      rw [ha] at hfirst
      rw [← hfirst]
    | ok b =>
      rw [ha] at hfirst
      rw [← hfirst]
      dsimp only
      rw [ih (hkeep ses a hses) (hkeep ses' a hses')]

end InTurn

/-! ### Requests -/

section Frames
variable [CallStack]

/-- A call to a session. -/
inductive Request where
  | value (c : Coord)
  | display (c : Coord)
  | all

/-- The session after a call, whether that returned or not. -/
def serve (s : Sheet) (ses : Session) : Request → Session
  | .value c => (ses.value s c).session
  | .display c => (ses.displayValue s c).session
  | .all => (ses.evaluateAll s).session

/-- The session after calls made one after the other. -/
def serveAll (s : Sheet) (ses : Session) (requests : List Request) : Session :=
  requests.foldl (serve s) ses

/-- The text of a cell that means something. -/
noncomputable def shown (s : Sheet) (settings : Display.Settings) (c : Coord) :
    Except Fault String :=
  match meaning s c with
  | .ok v => Display.display settings (.ofFields (s.cellFormat c)) v
  | .error f => .error f

/-- What every call leaves of a session: all but its memory, which stays truthful. -/
structure Continues (s : Sheet) (ses ses' : Session) : Prop where
  sheet_eq : ses'.sheet = ses.sheet
  revision_eq : ses'.revision = ses.revision
  settings_eq : ses'.settings = ses.settings
  truthful : Truthful s ses.memo → Truthful s ses'.memo

variable {s : Sheet}

theorem Continues.refl (ses : Session) : Continues s ses ses := ⟨rfl, rfl, rfl, id⟩

theorem Continues.trans {a b c : Session} (hab : Continues s a b) (hbc : Continues s b c) :
    Continues s a c where
  sheet_eq := hbc.sheet_eq.trans hab.sheet_eq
  revision_eq := hbc.revision_eq.trans hab.revision_eq
  settings_eq := hbc.settings_eq.trans hab.settings_eq
  truthful h := hbc.truthful (hab.truthful h)

theorem value_continues (ses : Session) (c : Coord) : Continues s ses (ses.value s c).session :=
  ⟨rfl, rfl, rfl, fun h => (resolve_means c h).truthful⟩

theorem value_result {ses : Session} (h : Truthful s ses.memo) (c : Coord) :
    (ses.value s c).result = meaning s c := (resolve_means c h).result_eq

theorem displayValue_of_error {ses : Session} {c : Coord} {f : Fault}
    (h : (ses.value s c).result = .error f) :
    ses.displayValue s c = ⟨(ses.value s c).session, .error f, (ses.value s c).events⟩ := by
  simp only [displayValue, h]

theorem displayValue_of_ok {ses : Session} {c : Coord} {v : Value}
    (h : (ses.value s c).result = .ok v) :
    ses.displayValue s c = ⟨(ses.value s c).session,
      Display.display ses.settings (.ofFields (s.cellFormat c)) v,
      (ses.value s c).events ++ s.readEvents c⟩ := by
  simp only [displayValue, h]

theorem displayValue_continues (ses : Session) (c : Coord) :
    Continues s ses (ses.displayValue s c).session := by
  cases h : (ses.value s c).result with
  | error f =>
    rw [displayValue_of_error h]
    exact value_continues ses c
  | ok v =>
    rw [displayValue_of_ok h]
    exact value_continues ses c

theorem displayValue_result {ses : Session} (h : Truthful s ses.memo) (c : Coord) :
    (ses.displayValue s c).result = shown s ses.settings c := by
  have hvalue := value_result h c
  unfold shown
  cases hm : meaning s c with
  | error f => rw [displayValue_of_error (hvalue.trans hm)]
  | ok v => rw [displayValue_of_ok (hvalue.trans hm)]

theorem displayAll_eq_inTurn (cs : List Coord) (ses : Session) :
    displayAll s cs ses = inTurn (fun ses c => ses.displayValue s c) cs ses := by
  induction cs generalizing ses with
  | nil => rfl
  | cons c rest ih =>
    unfold displayAll inTurn
    simp only [ih]
    cases (ses.displayValue s c).result with
    | error f => rfl
    | ok text => rfl

theorem displayRows_eq_inTurn (rows : List Nat) (ses : Session) :
    displayRows s rows ses = inTurn (fun ses r => displayAll s (gridRow s r) ses) rows ses := by
  induction rows generalizing ses with
  | nil => rfl
  | cons r rest ih =>
    unfold displayRows inTurn
    simp only [ih]
    cases (displayAll s (gridRow s r) ses).result with
    | error f => rfl
    | ok row => rfl

theorem inTurn_continues {α β : Type} {call : Session → α → Called β}
    (hcall : ∀ ses a, Continues s ses (call ses a).session) (as : List α) (ses : Session) :
    Continues s ses (inTurn call as ses).session := by
  induction as generalizing ses with
  | nil => exact .refl ses
  | cons a rest ih =>
    unfold inTurn
    cases (call ses a).result with
    | error f => exact hcall ses a
    | ok b => exact (hcall ses a).trans (ih _)

theorem displayAll_continues (cs : List Coord) (ses : Session) :
    Continues s ses (displayAll s cs ses).session := by
  rw [displayAll_eq_inTurn]
  exact inTurn_continues displayValue_continues cs ses

theorem displayRows_continues (rows : List Nat) (ses : Session) :
    Continues s ses (displayRows s rows ses).session := by
  rw [displayRows_eq_inTurn]
  exact inTurn_continues (fun ses r => displayAll_continues (gridRow s r) ses) rows ses

theorem evaluateAll_continues (ses : Session) : Continues s ses (ses.evaluateAll s).session := by
  have hrows := displayRows_continues (s := s) (List.range s.rowCount) ses
  unfold evaluateAll
  cases hr : (displayRows s (List.range s.rowCount) ses).result with
  | error f => simpa only [hr] using hrows
  | ok grid => simpa only [hr] using hrows

theorem serve_continues (ses : Session) (request : Request) :
    Continues s ses (serve s ses request) := by
  cases request with
  | value c => exact value_continues ses c
  | display c => exact displayValue_continues ses c
  | all => exact evaluateAll_continues ses

theorem serveAll_continues (requests : List Request) (ses : Session) :
    Continues s ses (serveAll s ses requests) := by
  induction requests generalizing ses with
  | nil => exact .refl ses
  | cons request rest ih => exact (serve_continues ses request).trans (ih _)

/-! ### Results -/

/-- A session with the given settings whose memory is truthful. -/
def Sound (s : Sheet) (settings : Display.Settings) (ses : Session) : Prop :=
  ses.settings = settings ∧ Truthful s ses.memo

variable {settings : Display.Settings}

theorem Continues.sound {ses ses' : Session} (h : Continues s ses ses')
    (hses : Sound s settings ses) : Sound s settings ses' :=
  ⟨h.settings_eq.trans hses.1, h.truthful hses.2⟩

theorem begin_sound (sheet : Nat) : Sound s settings (Session.begin sheet s settings) :=
  ⟨rfl, truthful_empty⟩

/-- The texts of a grid, each the one that its cell shows. -/
def ShowsGrid (s : Sheet) (textOf : Coord → Except Fault String) (grid : List (List String)) :
    Prop :=
  List.Forall₂ (fun r row => List.Forall₂ (fun c text => textOf c = .ok text) (gridRow s r) row)
    (List.range s.rowCount) grid

theorem result_displayRows (ses : Session) :
    (ses.evaluateAll s).result = (displayRows s (List.range s.rowCount) ses).result := by
  unfold evaluateAll
  cases hr : (displayRows s (List.range s.rowCount) ses).result with
  | error f => simp only [hr]
  | ok grid => simp only [hr]

/-- The calls that a host makes of a session. -/
inductive IsCall : {α : Type} → (Session → Sheet → Called α) → Prop
  | value (c : Coord) : IsCall fun ses s => ses.value s c
  | display (c : Coord) : IsCall fun ses s => ses.displayValue s c
  | all : IsCall evaluateAll

theorem IsCall.continues {α : Type} {call : Session → Sheet → Called α} (h : IsCall call)
    (ses : Session) : Continues s ses (call ses s).session := by
  cases h with
  | value c => exact value_continues ses c
  | display c => exact displayValue_continues ses c
  | all => exact evaluateAll_continues ses

/-- Sessions with truthful memories and the same settings give the same. -/
theorem IsCall.result_eq {α : Type} {call : Session → Sheet → Called α} (h : IsCall call)
    {ses ses' : Session} (hses : Sound s settings ses) (hses' : Sound s settings ses') :
    (call ses s).result = (call ses' s).result := by
  cases h with
  | value c => rw [value_result hses.2, value_result hses'.2]
  | display c =>
    rw [displayValue_result hses.2, displayValue_result hses'.2, hses.1, hses'.1]
  | all =>
    rw [result_displayRows, result_displayRows, displayRows_eq_inTurn, displayRows_eq_inTurn]
    refine inTurn_result_eq (P := Sound s settings)
      (fun ses r => (displayAll_continues _ ses).sound)
      (fun ses ses' r hses hses' => ?_) _ hses hses'
    rw [displayAll_eq_inTurn, displayAll_eq_inTurn]
    refine inTurn_result_eq (P := Sound s settings)
      (fun ses c => (displayValue_continues ses c).sound)
      (fun ses ses' c hses hses' => ?_) _ hses hses'
    rw [displayValue_result hses.2, displayValue_result hses'.2, hses.1, hses'.1]

end Frames

/-- Two cells that name each other, and one that names neither. -/
def ring : Sheet := ⟨[[.text "=B1", .text "=A1", .text "x"]], 8, 0⟩

def plainSettings : Display.Settings :=
  ⟨.text "en_US", .text "USD", ⟨2024, 5, 15⟩, Display.regional⟩

attribute [local instance] CallStack.usual

theorem evaluateAll_ring :
    ((serveAll ring (Session.begin 0 ring plainSettings) [.value ⟨0, 1⟩]).evaluateAll ring).result
      = .ok [["#CYCLE", "#CYCLE", "x"]] := by
  have hrange : List.range ring.rowCount = [0] := by decide
  have hrow : gridRow ring 0 = [⟨0, 0⟩, ⟨0, 1⟩, ⟨0, 2⟩] := by decide
  simp only [serveAll, serve, evaluateAll, hrange, displayRows, hrow, displayAll, displayValue,
    value, resolve_eq_retrieve, List.foldl, Session.begin]
  decide +kernel

end Worksheet.Session
