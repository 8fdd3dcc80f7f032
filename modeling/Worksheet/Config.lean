import Worksheet.Text.Split
import Worksheet.Yaml.Document

/-!
The configuration of a host: defaults, over them the fields of a document, and over both two
variables of the environment. Fields that nothing here knows are kept.
-/
namespace Worksheet

abbrev Config := List (String × Value)

namespace Config

/-- The name of the document in its directory. -/
def fileName : String := "sheetcalc.yaml"

def defaults : Config :=
  [ ("default_rows", .int 12), ("default_columns", .int 8), ("locale", .text "tr_TR"),
    ("default_currency", .text "TRY"), ("logging_fsync", .bool false),
    ("logging_tail_bytes", .int (2 * 1024 * 1024)) ]

/-- The variables that override fields. -/
def overrides : List (String × String) :=
  [("SHEETCALC_LOCALE", "locale"), ("SHEETCALC_CURRENCY", "default_currency")]

/-- The fields of a document; one that says nothing has none. -/
def ofDocument (path : String) (v : Value) : Except Fault Config :=
  if !v.isGiven then .ok []
  else match v with
    | .record fields => .ok fields
    | _ => .error (.notMapping path)

/-- The fields of the text of a document. -/
def ofText (depth : Nat) (path text : String) : Except Fault Config :=
  Yaml.document depth (Text.unifyBreaks text.toList) >>= ofDocument path

/-- Fields put over others. -/
def update (c fields : Config) : Config :=
  fields.foldl (fun c field => Value.putField c field.1 field.2) c

/-- The variables that are set, as fields; an empty one is not set. -/
def ofVariables (setting? : String → Option String) : Config :=
  overrides.filterMap fun (name, field) => match setting? name with
    | some text => if text.isEmpty then none else some (field, .text text)
    | none => none

/-- The configuration of a document, if there is one, and of the environment. -/
def load (document : Except Fault Config) (setting? : String → Option String) :
    Except Fault Config :=
  document.map fun fields => (defaults.update fields).update (ofVariables setting?)

def get (c : Config) (name : String) : Value := (c.lookup name).getD .null

end Config
end Worksheet
