import Worksheet.Record
import Worksheet.Log.Journal
import Worksheet.Number.Conversion

/-!
Events on their way into a journal. What a host reports need not fit an event, and a sink may fail;
neither stops the host, and only the first failure is reported.
-/
namespace Worksheet.Log

open Record Text

/-- The most characters of an integer text with its sign. -/
def versionLimit : Nat := 4300

/-- An integer in its plain spelling: a minus or nothing, and digits without a nought in front. That
there are too many digits is seen before what follows them. -/
def readPlain (cs : List Char) : Except FieldFault Int :=
  let (negative, body) := match cs with
    | '-' :: rest => (true, rest)
    | _ => (false, cs)
  let digits := body.takeWhile isAsciiDigit
  let length := if negative then digits.length + 1 else digits.length
  if digits.head? == some '0' then (if body == ['0'] then .ok 0 else .error .integerText)
  else if versionLimit < length then .error .integerSize
  else if digits.isEmpty || digits.length < body.length then .error .integerText
  else .ok (if negative then -(digitsValue digits : Int) else digitsValue digits)

/-- Behind noughts and underscores at the front, of which a nought is the first; of noughts alone,
or before a point, the last character stays. -/
def dropLeading : List Char → Option (List Char)
  | '0' :: rest =>
    let padding := rest.takeWhile fun c => c == '0' || c == '_'
    match rest.dropWhile fun c => c == '0' || c == '_' with
    | [] => some [padding.getLast?.getD '0']
    | '.' :: behind => some (padding.getLast?.getD '0' :: '.' :: behind)
    | c :: behind => if isAsciiDigit c then some (c :: behind) else none
  | c :: rest => if isAsciiDigit c then some (c :: rest) else none
  | [] => none

/-- Before a point with nothing but noughts behind it. -/
def dropFraction (cs : List Char) : List Char :=
  match cs.dropWhile (· != '.') with
  | '.' :: rest =>
    if !rest.isEmpty && rest.all (· == '0') then cs.takeWhile (· != '.') else cs
  | _ => cs

/-- Without underscores, each of which must stand alone between other characters. -/
def dropUnderscores (cs : List Char) : List Char :=
  if (splitAt '_' cs).any List.isEmpty then cs else cs.filter (· != '_')

/-- The plain spelling of an integer text. -/
def plainVersion (cs : List Char) : Option (List Char) :=
  let finish (cs : List Char) : Option (List Char) :=
    (dropLeading cs).map fun cs => dropUnderscores (dropFraction cs)
  match trimSpace cs with
  | '+' :: rest => finish rest
  | '-' :: rest => (finish rest).map ('-' :: ·)
  | cs => finish cs

/-- An integer from a text: in plain spelling, or with white space around it, a sign, noughts in
front, underscores between digits and a fraction of noughts. -/
def readVersionText (cs : List Char) : Except FieldFault Int :=
  match readPlain cs with
  | .error .integerText => match plainVersion cs with
    | some plain => readPlain plain
    | none => .error .integerText
  | r => r

/-- An integer, a whole double of 64 bits, or the text of an integer. -/
def readVersion : Value → Except FieldFault Int
  | .bool b => .ok (if b then 1 else 0)
  | .int n => .ok n
  | .float x => readWhole x
  | .text s => readVersionText s.toList
  | _ => .error .integerType

def readName {α : Type} (find : String → Option α) (v : Value) : Except FieldFault α :=
  match v.text?.bind find with
  | some x => .ok x
  | none => .error .level

def readContext : Value → Except FieldFault (List (String × Value))
  | .record fields => .ok fields
  | _ => .error .mapType

/-- An event that a host describes, and its time if that is given. -/
structure Described where
  event : Event
  time : Option String

/-- Read every field of an event; all problems are reported, in the order of the fields. -/
def Described.ofFields (fields : List (String × Value)) :
    Except (List FieldProblem) Described :=
  let version := optional fields "schema_version" readVersion 1
  let time := optional fields "ts" (fun v => (readText v).map some) none
  let level := required fields "level" (readName Level.ofName?)
  let type := required fields "event_type" (readName EventType.ofName?)
  let context := optional fields "context" readContext []
  let message := optional fields "message" readText ""
  let code := optional fields "error_code" readText? none
  match version, time, level, type, context, message, code with
  | .ok version, .ok time, .ok level, .ok type, .ok context, .ok message, .ok code =>
    .ok ⟨⟨version, level, type, context, message, code⟩, time⟩
  | _, _, _, _, _, _, _ =>
    .error (problem? version ++ problem? time ++ problem? level ++ problem? type ++
      problem? context ++ problem? message ++ problem? code)

/-- What a host reports: values that may or may not make an event. -/
structure Report where
  level : Level
  type : Value
  message : Value := .text ""
  context : Value := .null
  errorCode : Value := .null

/-- The event of a report; a context that is not given is empty. -/
def Report.event (r : Report) : Except (List FieldProblem) Event :=
  (Described.ofFields [("level", .text r.level.name), ("event_type", r.type),
    ("context", if r.context.isGiven then r.context else .record []), ("message", r.message),
    ("error_code", r.errorCode)]).map Described.event

inductive Sink where
  | off
  | file (j : Journal)
  | failing

/-- A sink with an event in it; none when the event cannot be written. -/
def Sink.put (s : Sink) (e : Event) (time : String) : Option Sink :=
  match s with
  | .off => some .off
  | .file j => (j.write e.sanitized time).toOption.map .file
  | .failing => none

/-- A sink, and whether a failure was reported. -/
structure Emitter where
  sink : Sink
  reported : Bool := false

/-- Write a report, and say whether it is the first to fail. -/
def Emitter.emit (e : Emitter) (r : Report) (time : String) : Emitter × Bool :=
  match r.event.toOption.bind fun event => e.sink.put event time with
  | some sink => ({ e with sink }, false)
  | none => ({ e with reported := true }, !e.reported)

/-- How a journal is written and read. -/
structure SinkSettings where
  /-- Whether every line is forced to the disk. -/
  forced : Bool := false
  tail : Int := Journal.defaultTail

/-- The settings in a configuration. -/
def SinkSettings.ofConfig (config : Value) : Except Fault SinkSettings :=
  if !config.isGiven then .ok {}
  else do
    let tail ← config.lookup "logging_tail_bytes"
    let forced ← config.lookup "logging_fsync"
    let tail ← match tail.getD .null with
      | .null => pure Journal.defaultTail
      | v => v.toInteger
    return ⟨(forced.getD .null).isGiven, tail⟩

end Worksheet.Log
