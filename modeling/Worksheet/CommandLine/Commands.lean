import Worksheet.CommandLine.Host
import Worksheet.Config
import Worksheet.Formula.References
import Worksheet.Log.Sink
import Worksheet.Session.Basic

/-!
The commands: one shows a sheet as text, one checks a formula, and one lists the events of a
journal. A command stops at the first thing that is wrong, and keeps what it has written by then.
-/
namespace Worksheet.CommandLine

open Log (Journal)

def version : String := "sheetcalc, version 0.1.0\n"

def helpOption : Parameter := ⟨"--help", .flag⟩

def renderCommand : Command where
  name := "render"
  options := [⟨"--config-dir", .directory true⟩, ⟨"--log-dir", .directory false⟩, ⟨"--raw", .flag⟩,
    helpOption]
  operand := ⟨"SHEET_FILE", .file⟩

def checkCommand : Command where
  name := "check"
  options := [⟨"--json", .flag⟩, helpOption]
  operand := ⟨"FORMULA", .text⟩

def eventsCommand : Command where
  name := "events"
  options := [⟨"--level", .choice (Log.Level.all.map Log.Level.name)⟩, ⟨"--type", .text⟩,
    ⟨"--limit", .integer⟩, helpOption]
  operand := ⟨"LOG_DIR", .directory true⟩

/-- The program's own options, before the command. -/
def group : Command where
  name := ""
  options := [⟨"--version", .flag⟩, helpOption]
  operand := ⟨"COMMAND", .text⟩

def commands : List Command := [renderCommand, checkCommand, eventsCommand]

variable {m : Type → Type} [Monad m] [Formula.CallStack]

/-- Go on with a result, or stop. -/
def orStop {α : Type} (r : Except Fault α) : ExceptT Exit m α :=
  match r with
  | .ok x => pure x
  | .error f => throw (.stopped f)

/-- A file as text, every line end being a line feed. -/
def readLines (h : Host m) (path : String) : m (List Char) := do
  return Text.unifyBreaks (← h.readText path).toList

/-! ### Showing a sheet -/

/-- The fields of the configuration in a directory, if it has one. -/
def readConfig (h : Host m) (directory : Option String) : m (Except Fault Config) := do
  match directory with
  | none => return .ok []
  | some directory =>
    let path := Path.join directory Config.fileName
    match ← h.kind? path with
    | none => return .ok []
    | some _ => return Config.ofText h.yamlDepth path (← h.readText path)

/-- The configuration of a run; a document that is none is complained about. -/
def loadConfig (h : Host m) (directory : Option String) : ExceptT Exit m Config := do
  let document ← ExceptT.lift (readConfig h directory)
  let set ← Config.overrides.mapM fun (name, _) => do
    return (name, (← h.setting? name).getD "")
  match Config.load document fun name => set.lookup name with
  | .ok config => return config
  | .error .nestedTooDeep => throw (.stopped .nestedTooDeep)
  | .error f => throw (.complaint f.message)

/-- Where the journal in a directory is. -/
def journalPath (directory : String) : String :=
  Path.join (Path.join directory "logs") "events.ndjson"

/-- Prepare the directory of a journal. -/
def openJournal (h : Host m) (directory : String) : m String := do
  h.makeDirectory (Path.join directory "logs")
  return journalPath directory

/-- The journal of a run, if one is wanted. -/
def openLog (h : Host m) (config : Config) (directory : Option String) :
    ExceptT Exit m (Option String) := do
  match directory with
  | none => return none
  | some directory =>
    if directory.isEmpty then return none
    else do
      let _ ← orStop (Log.SinkSettings.ofConfig (.record config))
      return some (← ExceptT.lift (openJournal h directory))

/-- Write events at the end of a journal. -/
def keepEvents (h : Host m) (journal : Option String) (events : List Log.Event) : m Unit :=
  match journal with
  | none => pure ()
  | some path => events.forM fun e => do
    match Journal.line e.sanitized (← h.time) with
    | .ok line => h.append path line
    | .error _ => pure ()

/-- The value of a file: JSON by its name, and YAML otherwise. -/
def readDocument (h : Host m) (path : String) (cs : List Char) : Except Exit Value :=
  let refused (reason : String) : Exit := .complaint ("Cannot parse " ++ path ++ ": " ++ reason)
  if Path.ending path == ".json" then
    match Json.document h.jsonDepth cs with
    | .ok v => .ok v
    | .error (.wrong reason unread) => .error (refused (Json.describe cs reason unread))
    | .error (.beyond f) => .error (.stopped f)
  else match Yaml.document h.yamlDepth cs with
    | .ok v => .ok v
    | .error (.notDocument _ text) => .error (refused text)
    | .error f => .error (.stopped f)

/-- The rows of a document; every row must be a list. -/
def rowsFrom (path : String) : (number : Nat) → List Value → Except Exit (List (List Value))
  | _, [] => .ok []
  | number, .list cells :: rest => (rowsFrom path (number + 1) rest).map (cells :: ·)
  | number, _ :: _ => .error (.complaint
      ("Row " ++ toString number ++ " in " ++ path ++ " is not a list"))

/-- The rows of a document, and the fields beside them. -/
def sheetFields (path : String) (v : Value) : Except Exit (List (List Value) × Value) :=
  match v.field? "rows" with
  | some (.list rows) => (rowsFrom path 1 rows).map fun rows => (rows, v)
  | _ => .error (.complaint (path ++ " must contain a 'rows' list"))

/-- One line of cells. -/
def tabbed (cells : List String) : String := "\t".intercalate cells ++ "\n"

def headLine (columns : Nat) : String :=
  tabbed ("" :: (List.range columns).map fun col => String.ofList (Address.columnLabel col))

/-- The whole grid under the labels of its columns. -/
def gridText (columns : Nat) (rows : List (List String)) : String :=
  headLine columns ++
    String.join ((rows.zipIdx 1).map fun (cells, number) => tabbed (toString number :: cells))

/-- The unevaluated texts of cells, and the warnings of reading them. -/
def rawTexts (s : Sheet) : List Coord → Except Fault (List String) × List Log.Event
  | [] => (.ok [], [])
  | c :: rest =>
    match s.rawText c with
    | .error f => (.error f, s.readEvents c)
    | .ok text =>
      let (others, events) := rawTexts s rest
      (others.map (text :: ·), s.readEvents c ++ events)

/-- The unevaluated texts of all rows. -/
def rawGrid (s : Sheet) : List Nat → Except Fault (List (List String)) × List Log.Event
  | [] => (.ok [], [])
  | r :: rest =>
    match rawTexts s (Session.gridRow s r) with
    | (.error f, events) => (.error f, events)
    | (.ok row, events) =>
      let (others, later) := rawGrid s rest
      (others.map (row :: ·), events ++ later)

def shownGrid (s : Sheet) (settings : Display.Settings) :
    Except Fault (List (List String)) × List Log.Event :=
  let called := (Session.begin 0 s settings).evaluateAll s
  (called.result, called.events)

def render (h : Host m) (p : Parsed) (file : String) : ExceptT Exit m Exit := do
  let config ← loadConfig h (p.last? "--config-dir")
  let journal ← openLog h config (p.last? "--log-dir")
  let path := Path.normal file
  let v ← ExceptT.mk (do return readDocument h path (← readLines h path))
  let (rows, v) ← ExceptT.mk (pure (sheetFields path v))
  let columns ← orStop
    (((v.field? "default_columns").getD (config.get "default_columns")).toInteger)
  let s : Sheet := { rows, defaultColumns := columns }
  let settings : Display.Settings :=
    ⟨config.get "locale", config.get "default_currency", ← h.today, h.library⟩
  let (grid, events) :=
    if p.hasFlag "--raw" then rawGrid s (List.range s.rowCount) else shownGrid s settings
  ExceptT.lift (keepEvents h journal events)
  let grid ← orStop grid
  return { out := gridText s.columnCount.toNat grid }

/-! ### Checking a formula -/

/-- Whether a formula can be read, and the cells that it names. -/
structure Verdict where
  complaint : Option String
  references : List String

def verdict (formula : String) : Except Fault Verdict := do
  match ← Formula.complaint? formula with
  | some text => return ⟨some text, []⟩
  | none => match ← Formula.parseFormula formula with
    | .ok node => return ⟨none, ← Formula.references node⟩
    | .error _ => return ⟨none, []⟩

/-- A verdict as a record. -/
def Verdict.toValue (v : Verdict) : Value :=
  .record (("valid", .bool v.complaint.isNone) ::
    (match v.complaint with
      | some text => [("message", .text text)]
      | none => []) ++ [("refs", .list (v.references.map .text))])

/-- A verdict as plain text. -/
def Verdict.exit (v : Verdict) : Exit :=
  match v.complaint with
  | some text => .complaint text
  | none =>
    { out := "OK\n" ++ if v.references.isEmpty then ""
        else "refs: " ++ ", ".intercalate v.references ++ "\n" }

def check (p : Parsed) (formula : String) : ExceptT Exit m Exit := do
  let v ← orStop (verdict formula)
  if p.hasFlag "--json" then
    let text ← orStop (Json.text .page v.toValue)
    return { code := if v.complaint.isNone then 0 else 1, out := text ++ "\n" }
  else return v.exit

/-! ### Listing events -/

/-- A text with blanks at its end, at least so long. -/
def padRight (n : Nat) (s : String) : String :=
  s ++ String.ofList (List.replicate (n - s.length) ' ')

/-- The line of a record of the journal. -/
def eventLine (v : Value) : Except Fault String := do
  let field (name : String) : Except Fault Value := do
    return (← v.lookup name).getD (.text "")
  let time ← field "ts"
  let level ← (← field "level").upper
  let type ← field "event_type"
  let message ← field "message"
  let code ← field "error_code"
  let shown ← code.toText
  return "[" ++ (← time.toText) ++ "] " ++ padRight 7 level ++ " " ++ (← type.toText) ++ ": "
    ++ (← message.toText) ++ (if code.isGiven then "  (" ++ shown ++ ")" else "") ++ "\n"

/-- The lines of records, up to the first that has none. -/
def eventLines : (out : String) → List Value → Exit
  | out, [] => { out }
  | out, v :: rest => match eventLine v with
    | .ok line => eventLines (out ++ line) rest
    | .error f => .stopped f out

def events (h : Host m) (p : Parsed) (directory : String) : ExceptT Exit m Exit := do
  let path ← ExceptT.lift (openJournal h directory)
  let journal ← match ← h.kind? path with
    | some _ => h.readBytes path
    | none => pure []
  let limit ← match p.last? "--limit" with
    | some text => orStop (Number.integerOfText text)
    | none => pure 50
  let query : Journal.Query := ⟨p.last? "--level", p.last? "--type", limit⟩
  let records ← orStop (Journal.read journal h.jsonDepth Journal.defaultTail query)
  return if records.isEmpty then { out := "No events found.\n" } else eventLines "" records

/-! ### Choosing a command -/

def usage (program : String) (c : Command) : String :=
  program ++ " " ++ c.name ++ " [OPTIONS] " ++ c.operand.name

def groupUsage (program : String) : String := program ++ " [OPTIONS] COMMAND [ARGS]..."

/-- Look at the values of options and of the operand, in their order. -/
def checkValues (h : Host m) : List Given → m (Except Misuse Unit)
  | [] => pure (.ok ())
  | g :: rest => do
    let found ← match g.parameter.form with
      | .directory _ | .file => h.kind? g.text
      | _ => pure none
    match g.check found with
    | .error misuse => return .error misuse
    | .ok () => checkValues h rest

/-- Options and operand when nothing is wrong with them. -/
def checked (h : Host m) (c : Command) (p : Parsed) : m (Except Misuse String) := do
  let operand := (p.operands.take 1).map (Given.mk ⟨c.operand.name, c.operand.form⟩)
  match ← checkValues h (p.effective ++ operand) with
  | .error misuse => return .error misuse
  | .ok () => match p.operands with
    | [] => return .error (.missing c.operand.name)
    | [operand] => return .ok operand
    | _ :: extra => return .error (.unexpected extra)

def perform (h : Host m) (c : Command) (p : Parsed) (operand : String) : ExceptT Exit m Exit :=
  if c.name == renderCommand.name then render h p operand
  else if c.name == checkCommand.name then check p operand
  else events h p operand

def runCommand (h : Host m) (program : String) (c : Command) (args : List String) : m Exit := do
  let help := program ++ " " ++ c.name
  let refuse (misuse : Misuse) : Exit := .misuse (usage program c) help misuse
  match c.read args {} with
  | .error misuse => return refuse misuse
  | .ok p =>
    if p.hasFlag helpOption.name then return { out := "Usage: " ++ usage program c ++ "\n" }
    else match ← checked h c p with
      | .error misuse => return refuse misuse
      | .ok operand =>
        match ← (perform h c p operand).run with
        | .ok exit => return exit
        | .error exit => return exit

/-- Find the command and run it. -/
def dispatch (h : Host m) (program : String) (args : List String) : m Exit :=
  let refuse (misuse : Misuse) : Exit := .misuse (groupUsage program) program misuse
  match args with
  | [] => pure { code := 2, err := "Usage: " ++ groupUsage program ++ "\n" }
  | name :: rest => match commands.find? fun c => c.name == name with
    | some c => runCommand h program c rest
    | none => pure (refuse (.unknownCommand name))

/-- Run the program: its own options stand before the command, and the first of them counts. -/
def run (h : Host m) (program : String) (args : List String) : m Exit :=
  let own := args.takeWhile fun s => s != "--" && Command.startsOption s
  let behind := args.drop own.length
  match group.read own {} with
  | .error misuse => pure (.misuse (groupUsage program) program misuse)
  | .ok p => match p.options with
    | g :: _ => pure { out :=
        if g.parameter.name == helpOption.name then "Usage: " ++ groupUsage program ++ "\n"
        else version }
    | [] => dispatch h program (if behind.head? == some "--" then behind.tail else behind)

end Worksheet.CommandLine
