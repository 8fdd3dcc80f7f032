import Worksheet.Session.Basic
import Worksheet.Sheet.Edit

/-!
Sheets and the sessions on them, each known by a number, with all events so far. A lookup through a
session that is stale, or that belongs to another sheet, goes through a fresh session in its place.
-/
namespace Worksheet

open Display (Settings)

structure Workbook where
  sheets : List Sheet
  sessions : List Session := []
  events : List Log.Event := []

namespace Workbook

/-- A sheet by its number; a number without a sheet stands for one without cells. -/
def sheet (w : Workbook) (i : Nat) : Sheet := w.sheets[i]?.getD ⟨[], 0, 0⟩

/-- Report events. -/
def report (w : Workbook) (events : List Log.Event) : Workbook :=
  { w with events := w.events ++ events }

/-- Edit a sheet. -/
def edit {α : Type} (w : Workbook) (i : Nat) (f : Sheet → Edited α) : Workbook × Except Fault α :=
  let edited := f (w.sheet i)
  ({ w with sheets := w.sheets.set i edited.sheet }.report edited.events, edited.result)

/-- Begin a session on a sheet, and give its number. -/
def beginSession (w : Workbook) (i : Nat) (settings : Settings) : Workbook × Nat :=
  ({ w with sessions := w.sessions ++ [Session.begin i (w.sheet i) settings] }, w.sessions.length)

/-- Call a session on its own sheet, current or not; without one there is nothing to call. -/
def call {α : Type} (w : Workbook) (n : Nat) (f : Session → Sheet → Called α) :
    Option (Workbook × Except Fault α) :=
  (w.sessions[n]?).map fun ses =>
    let called := f ses (w.sheet ses.sheet)
    ({ w with sessions := w.sessions.set n called.session }.report called.events, called.result)

/-- The number of the session to use for a sheet: the given one if it is current, or a fresh one
with its settings. -/
def sessionFor (w : Workbook) (i : Nat) (given : Option Nat) (settings : Settings) :
    Workbook × Nat :=
  match given.bind fun n => (w.sessions[n]?).map fun ses => (n, ses) with
  | none => w.beginSession i settings
  | some (n, ses) =>
    if ses.owns i (w.sheet i) then (w, n) else w.beginSession i ses.settings

/-- Look something up on a sheet, through the given session if that is current. -/
def lookup {α : Type} (w : Workbook) (i : Nat) (given : Option Nat) (settings : Settings)
    (f : Session → Sheet → Called α) : Option (Workbook × Except Fault α) :=
  let (w, n) := w.sessionFor i given settings
  w.call n f

end Workbook
end Worksheet
