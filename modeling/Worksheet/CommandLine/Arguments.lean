import Worksheet.CommandLine.Likeness
import Worksheet.Number.Conversion

/-!
The arguments of a command: options, which may stand anywhere, and operands. Short of a value that
is wrong, reading them does not stop; values are then looked at in the order in which they stand,
options first. Two dashes end the options.
-/
namespace Worksheet.CommandLine

open Text

/-- What an option takes. -/
inductive Form where
  | flag
  | text
  /-- One of a few words. -/
  | choice (words : List String)
  | integer
  /-- A directory; `present` says that it must be there. -/
  | directory (present : Bool)
  | file
  deriving DecidableEq

structure Parameter where
  name : String
  form : Form

/-- A command: its options, and the one operand that it needs. -/
structure Command where
  name : String
  options : List Parameter
  operand : Parameter

/-- Why arguments are refused. -/
inductive Misuse where
  /-- There is no such option; some that there are look like it. -/
  | unknownOption (name : String) (alike : List String)
  | unknownCommand (name : String)
  | lacksArgument (option : String)
  | takesNoValue (option : String)
  | missing (operand : String)
  | unexpected (operands : List String)
  | notChosen (option value : String) (words : List String)
  | notInteger (option value : String)
  | notThere (name : String) (kind value : String)
  | wrongKind (name : String) (kind value found : String)
  deriving DecidableEq

def invalidValue (name text : String) : String :=
  "Invalid value for " ++ quoted name ++ ": " ++ text

/-- What is added to a complaint about a name when others are like it. -/
def suggestionText : List String → String
  | [] => ""
  | [name] => " Did you mean " ++ name ++ "?"
  | names => " (Possible options: " ++ ", ".intercalate names ++ ")"

def Misuse.message : Misuse → String
  | .unknownOption name alike => "No such option: " ++ name ++ suggestionText alike
  | .unknownCommand name => "No such command " ++ quoted name ++ "."
  | .lacksArgument option => "Option " ++ quoted option ++ " requires an argument."
  | .takesNoValue option => "Option " ++ quoted option ++ " does not take a value."
  | .missing operand => "Missing argument " ++ quoted operand ++ "."
  | .unexpected operands =>
    (if operands.length = 1 then "Got unexpected extra argument ("
      else "Got unexpected extra arguments (") ++ " ".intercalate operands ++ ")"
  | .notChosen option value words => invalidValue option
      (quoted value ++ " is not one of " ++ ", ".intercalate (words.map quoted) ++ ".")
  | .notInteger option value => invalidValue option (quoted value ++ " is not a valid integer.")
  | .notThere name kind value =>
    invalidValue name (kind ++ " " ++ quoted value ++ " does not exist.")
  | .wrongKind name kind value found =>
    invalidValue name (kind ++ " " ++ quoted value ++ " is a " ++ found ++ ".")

/-- A parameter with the text that was given for it. -/
structure Given where
  parameter : Parameter
  text : String

/-- What was read: options in their order, and operands. -/
structure Parsed where
  options : List Given := []
  operands : List String := []

namespace Command

def option? (c : Command) (name : String) : Option Parameter :=
  c.options.find? fun p => p.name == name

/-- The name of a long option and the value behind an equals sign. -/
def splitLong (cs : List Char) : String × Option String :=
  let name := cs.takeWhile (· != '=')
  let behind := cs.drop name.length
  (String.ofList name, match behind with
    | _ :: value => some (String.ofList value)
    | [] => none)

def startsOption (s : String) : Bool := s.toList.head? == some '-' && s.length > 1

/-- An option that there is not: with two dashes its whole name is reported along with names like
it, and with one its first letter. -/
def unknown (c : Command) (cs : List Char) (name : String) : Misuse :=
  if cs.take 2 == ['-', '-'] then
    .unknownOption name (Likeness.suggestions name (c.options.map Parameter.name))
  else .unknownOption (String.ofList (cs.take 2)) []

/-- Read arguments from left to right; `seen` is reversed. -/
def read (c : Command) : List String → Parsed → Except Misuse Parsed
  | [], seen => .ok ⟨seen.options.reverse, seen.operands.reverse⟩
  | s :: rest, seen =>
    if s == "--" then .ok ⟨seen.options.reverse, seen.operands.reverse ++ rest⟩
    else if startsOption s then
      let (name, value) := splitLong s.toList
      match c.option? name with
      | none => .error (c.unknown s.toList name)
      | some p =>
        if p.form = .flag then
          match value with
          | some _ => .error (.takesNoValue name)
          | none => read c rest { seen with options := ⟨p, ""⟩ :: seen.options }
        else match value with
          | some v => read c rest { seen with options := ⟨p, v⟩ :: seen.options }
          | none => match rest with
            | v :: rest => read c rest { seen with options := ⟨p, v⟩ :: seen.options }
            | [] => .error (.lacksArgument name)
    else read c rest { seen with operands := s :: seen.operands }

end Command

namespace Parsed

/-- The text of the last option of a name. -/
def last? (p : Parsed) (name : String) : Option String :=
  (p.options.reverse.find? fun g => g.parameter.name == name).map Given.text

/-- The options that count, in the order of their first mention, with their last texts. -/
def effective (p : Parsed) : List Given :=
  p.options.foldl (fun seen g =>
    if seen.any fun h : Given => h.parameter.name == g.parameter.name then seen
    else seen ++ [⟨g.parameter, (p.last? g.parameter.name).getD g.text⟩]) []

def hasFlag (p : Parsed) (name : String) : Bool := (p.last? name).isSome

end Parsed

inductive EntryKind where
  | file
  | directory
  deriving DecidableEq

def EntryKind.name : EntryKind → String
  | .file => "file"
  | .directory => "directory"

def EntryKind.title : EntryKind → String
  | .file => "File"
  | .directory => "Directory"

/-- Look at a path that should be of a kind. -/
def checkPath (name value : String) (wanted : EntryKind) (present : Bool)
    (found : Option EntryKind) : Except Misuse Unit :=
  match found with
  | none => if present then .error (.notThere name wanted.title value) else .ok ()
  | some kind =>
    if kind = wanted then .ok () else .error (.wrongKind name wanted.title value kind.name)

/-- Look at a value that was given, knowing what is at its path. -/
def Given.check (g : Given) (found : Option EntryKind) : Except Misuse Unit :=
  match g.parameter.form with
  | .flag | .text => .ok ()
  | .choice words =>
    if words.contains g.text then .ok () else .error (.notChosen g.parameter.name g.text words)
  | .integer => match Number.integerOfText g.text with
    | .ok _ => .ok ()
    | .error _ => .error (.notInteger g.parameter.name g.text)
  | .directory present => checkPath g.parameter.name g.text .directory present found
  | .file => checkPath g.parameter.name g.text .file true found

end Worksheet.CommandLine
