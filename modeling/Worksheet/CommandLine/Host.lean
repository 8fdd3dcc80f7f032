import Worksheet.CommandLine.Arguments
import Worksheet.Display.Locale
import Worksheet.Text.Split
import Worksheet.Text.Upper

/-!
What a command needs from the machine that it runs on, and what it leaves: texts for the two
streams, an exit code, and the fault that stopped it, if one did. Paths are written with slashes.
-/
namespace Worksheet.CommandLine

/-- Files, environment and clock, and what the machine leaves to libraries and room for. -/
structure Host (m : Type → Type) where
  kind? : String → m (Option EntryKind)
  readText : String → m String
  readBytes : String → m (List UInt8)
  append : String → List UInt8 → m Unit
  /-- Make a directory and those above it. -/
  makeDirectory : String → m Unit
  setting? : String → m (Option String)
  /-- The time of an event. -/
  time : m String
  today : m Date
  library : Display.Library
  /-- How deep JSON may be nested. -/
  jsonDepth : Nat
  /-- How deep YAML may be nested. -/
  yamlDepth : Nat

structure Exit where
  code : Nat := 0
  out : String := ""
  err : String := ""
  fault : Option Fault := none

namespace Exit

def complaint (text : String) : Exit := { code := 1, err := "Error: " ++ text ++ "\n" }

def stopped (f : Fault) (out : String := "") : Exit := { code := 1, out, fault := some f }

/-- The exit of a misuse, below the usage of the command. -/
def misuse (usage help : String) (m : Misuse) : Exit where
  code := 2
  err := "Usage: " ++ usage ++ "\nTry '" ++ help ++ " --help' for help.\n\nError: "
    ++ m.message ++ "\n"

end Exit

namespace Path

open Text

/-- A path without empty parts and parts that stay where they are. -/
def normal (s : String) : String :=
  let parts := (splitAt '/' s.toList).filter fun part => !part.isEmpty && part != ['.']
  let relative := "/".intercalate (parts.map String.ofList)
  if s.toList.head? == some '/' then "/" ++ relative
  else if relative.isEmpty then "."
  else relative

def join (directory name : String) : String :=
  let directory := normal directory
  if directory == "." then name
  else if directory == "/" then "/" ++ name
  else directory ++ "/" ++ name

/-- The last part of a path. -/
def baseName (s : String) : List Char := (splitAt '/' (normal s).toList).getLast?.getD []

/-- The ending of a name from its last point on, in lower case; a point at either end is none. -/
def ending (s : String) : String :=
  let name := baseName s
  let behind := (name.reverse.takeWhile (· != '.')).reverse
  if behind.isEmpty || name.length ≤ behind.length + 1 then ""
  else asciiLowerText (String.ofList ('.' :: behind))

end Path
end Worksheet.CommandLine
