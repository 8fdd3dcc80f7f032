import Std.Time
import Worksheet.CommandLine.Commands
import Worksheet.Display.Regions

/-!
The program: the commands on the files, the environment and the clock of this machine.
-/
namespace Worksheet.CommandLine

/-- What stands at a path: a directory can be opened but not read. -/
def kindOnDisk (path : String) : IO (Option EntryKind) := do
  let opened ← (IO.FS.Handle.mk path .read).toBaseIO
  match opened with
  | .error _ => return none
  | .ok handle =>
    match ← (handle.read 1).toBaseIO with
    | .ok _ => return some .file
    | .error _ => return some .directory

/-- The day of a number of seconds since 1970. -/
def dayOfSeconds (seconds : Int) : Date :=
  (Date.ofDayNumber? (seconds.fdiv 86400)).getD ⟨1970, 1, 1⟩

def twoDigits (n : Int) : String := String.ofList (Display.padded 2 n.toNat)

/-- A time in nanoseconds since 1970, to the microsecond. -/
def timeText (nanoseconds : Int) : String :=
  let seconds := nanoseconds.fdiv 1000000000
  let day := dayOfSeconds seconds
  let rest := seconds.fmod 86400
  let micros := (nanoseconds.fmod 1000000000).fdiv 1000
  String.ofList (Display.padded 4 day.year) ++ "-" ++ twoDigits day.month ++ "-"
    ++ twoDigits day.day ++ "T" ++ twoDigits (rest / 3600) ++ ":" ++ twoDigits (rest / 60 % 60)
    ++ ":" ++ twoDigits (rest % 60) ++ "." ++ String.ofList (Display.padded 6 micros.toNat) ++ "Z"

def nanosecondsNow : IO Int := do
  let now ← Std.Time.Timestamp.now
  return now.toNanosecondsSinceUnixEpoch.val

instance : Formula.CallStack := .usual

/-- How deep JSON may be nested on this machine. -/
def jsonDepth : Nat := 990

/-- How deep YAML may be nested on it. -/
def yamlDepth : Nat := 300

/-- This machine. -/
def machine : Host IO where
  kind? := kindOnDisk
  readText path := IO.FS.readFile path
  readBytes path := do return (← IO.FS.readBinFile path).toList
  append path bytes := do
    let handle ← IO.FS.Handle.mk path .append
    handle.write ⟨bytes.toArray⟩
  makeDirectory path := IO.FS.createDirAll path
  setting? name := IO.getEnv name
  time := do return timeText (← nanosecondsNow)
  today := do return dayOfSeconds ((← nanosecondsNow).fdiv 1000000000)
  library := Display.regional
  jsonDepth := jsonDepth
  yamlDepth := yamlDepth

end Worksheet.CommandLine

/-- Run one command; a fault is reported on the error stream. -/
def main (args : List String) : IO UInt32 := do
  let exit ← Worksheet.CommandLine.run Worksheet.CommandLine.machine "sheetcalc" args
  IO.print exit.out
  IO.eprint exit.err
  match exit.fault with
  | some fault => IO.eprintln fault.message
  | none => pure ()
  return exit.code.toUInt32
