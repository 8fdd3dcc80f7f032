import Worksheet.Value

/-!
Events of the engine. An event says how serious it is, what happened and where; before it is kept,
long texts of its context are clipped, and one that lacks the place it must name is marked and
becomes a warning.
-/
namespace Worksheet.Log

inductive Level where
  | info
  | warning
  | error
  deriving DecidableEq, Repr

inductive EventType where
  | formulaParseError
  | formulaCycle
  | formatInvalid
  | mutationRejected
  | sheetPaste
  | renderCompleted
  deriving DecidableEq, Repr

def Level.all : List Level := [.info, .warning, .error]

def Level.name : Level → String
  | .info => "info"
  | .warning => "warning"
  | .error => "error"

def Level.ofName? (s : String) : Option Level := Level.all.find? fun level => level.name == s

def EventType.all : List EventType :=
  [.formulaParseError, .formulaCycle, .formatInvalid, .mutationRejected, .sheetPaste,
    .renderCompleted]

def EventType.name : EventType → String
  | .formulaParseError => "formula_parse_error"
  | .formulaCycle => "formula_cycle"
  | .formatInvalid => "format_invalid"
  | .mutationRejected => "sheet_mutation_rejected"
  | .sheetPaste => "sheet_paste"
  | .renderCompleted => "render_completed"

def EventType.ofName? (s : String) : Option EventType :=
  EventType.all.find? fun type => type.name == s

/-- The fields of the context that say where an event happened. -/
def EventType.required : EventType → List String
  | .formulaParseError => ["cell"]
  | .formulaCycle => ["cell"]
  | .formatInvalid => ["cell"]
  | .mutationRejected => ["operation"]
  | .sheetPaste => ["cell"]
  | .renderCompleted => []

structure Event where
  schemaVersion : Int := 1
  level : Level
  type : EventType
  context : List (String × Value) := []
  message : String := ""
  errorCode : Option String := none

namespace Event

/-- The longest text of a context. -/
def clipLength : Nat := 256

def clipMark : String := "...[truncated]"

def clip : Value → Value
  | .text s =>
    if s.length > clipLength then .text (String.ofList (s.toList.take clipLength) ++ clipMark)
    else .text s
  | v => v

def missingField : String := "_missing_attribution"

/-- The required fields that a context lacks. -/
def missing (e : Event) : List String :=
  e.type.required.filter fun name => !e.context.any (·.1 == name)

/-- The event as it is kept. -/
def sanitized (e : Event) : Event :=
  let context := e.context.map fun (name, v) => (name, clip v)
  let missing := e.missing
  if missing.isEmpty then { e with context }
  else { e with
    context := Value.putField context missingField (.list (missing.map .text))
    level := .warning }

mutual
/-- A value of a context as it is shown: an error is a record of its code, and a double that is not
finite is nothing. -/
def shown : Value → Value
  | .error code => .record [("code", .text code.text)]
  | .float x => if x.isFinite then .float x else .null
  | .list items => .list (shownAll items)
  | .record fields => .record (shownFields fields)
  | v => v

def shownAll : List Value → List Value
  | [] => []
  | v :: rest => shown v :: shownAll rest

def shownFields : List (String × Value) → List (String × Value)
  | [] => []
  | (name, v) :: rest => (name, shown v) :: shownFields rest
end

/-- The fields of an event apart from its time. -/
def toFields (e : Event) : List (String × Value) :=
  [ ("schema_version", .int e.schemaVersion),
    ("level", .text e.level.name),
    ("event_type", .text e.type.name),
    ("context", .record (shownFields e.context)),
    ("message", .text e.message),
    ("error_code", match e.errorCode with | some code => .text code | none => .null) ]

/-- The fields of an event that happened at a given time. -/
def stamped (e : Event) (time : String) : Value := .record (("ts", .text time) :: e.toFields)

end Event
end Worksheet.Log
