import Worksheet.Fault
import Worksheet.Number.Numeral
import Worksheet.Text.Upper

/-!
Values as a host stores and receives them: the scalars of a cell, evaluation errors, and the lists
and records in which cells, formats and events are kept. A record lists its fields in the order in
which they were written.
-/
namespace Worksheet

inductive ErrorCode where
  | cycle
  | reference
  | division
  | value
  deriving DecidableEq, Repr

def ErrorCode.text : ErrorCode → String
  | .cycle => "#CYCLE"
  | .reference => "#REF"
  | .division => "#DIV/0"
  | .value => "#ERR"

inductive Value where
  | null
  | bool (b : Bool)
  | int (n : Int)
  | float (x : Float)
  | text (s : String)
  | error (code : ErrorCode)
  | list (items : List Value)
  | record (fields : List (String × Value))
  deriving Inhabited

namespace Value

def error? : Value → Option ErrorCode
  | .error code => some code
  | _ => none

def isError (v : Value) : Bool := v.error?.isSome

def text? : Value → Option String
  | .text s => some s
  | _ => none

/-- The word for the kind of a value in messages. -/
def kind : Value → String
  | .null => "NoneType"
  | .bool _ => "bool"
  | .int _ => "int"
  | .float _ => "float"
  | .text _ => "str"
  | .error _ => "ErrorValue"
  | .list _ => "list"
  | .record _ => "dict"

/-- Empty values, noughts and `false` count as not given. -/
def isGiven : Value → Bool
  | .null => false
  | .bool b => b
  | .int n => n != 0
  | .float x => x != 0
  | .text s => !s.isEmpty
  | .error _ => true
  | .list items => !items.isEmpty
  | .record fields => !fields.isEmpty

/-- A field of a record; other values have none. -/
def field? (name : String) : Value → Option Value
  | .record fields => fields.lookup name
  | _ => none

/-- Where no name stands twice, what is looked up is what stands there. -/
theorem lookup_eq_some_iff_mem {α β : Type} [BEq α] [LawfulBEq α] {entries : List (α × β)} {a : α}
    {b : β} (h : (entries.map (·.1)).Nodup) : entries.lookup a = some b ↔ (a, b) ∈ entries := by
  rw [List.lookup_eq_some_iff]
  constructor
  · rintro ⟨front, behind, rfl, -⟩
    exact List.mem_append_right front List.mem_cons_self
  · intro hentry
    obtain ⟨front, behind, rfl⟩ := List.append_of_mem hentry
    refine ⟨front, behind, rfl, fun entry hfront => ?_⟩
    rw [List.map_append, List.map_cons] at h
    apply bne_iff_ne.mpr
    rintro rfl
    exact (List.nodup_append.mp h).2.2 _ (List.mem_map_of_mem hfront) _ List.mem_cons_self rfl

/-- Look a field up where only records have fields. -/
def lookup (name : String) : Value → Except Fault (Option Value)
  | .record fields => .ok (fields.lookup name)
  | v => .error (.noOperation v.kind "get")

theorem field?_of_lookup {name : String} {v : Value} {field : Option Value}
    (h : v.lookup name = .ok field) : v.field? name = field := by
  cases v with
  | record fields => exact Except.ok.inj h
  | _ => cases h

/-- What a value holds: the items of a list, the characters of a text, and the names of a record. -/
def items : Value → Except Fault (List Value)
  | .list vs => .ok vs
  | .text s => .ok (s.toList.map fun c => .text (String.singleton c))
  | .record fields => .ok (fields.map fun field => .text field.1)
  | v => .error (.noItems v.kind)

/-- Fields with one in its place, or behind the others. -/
def putField (fields : List (String × Value)) (name : String) (v : Value) :
    List (String × Value) :=
  if fields.any (·.1 == name) then
    fields.map fun field => if field.1 == name then (name, v) else field
  else fields ++ [(name, v)]

/-- A list has no value of its own in a single cell. -/
def single : Value → Value
  | .list _ => .error .value
  | v => v

def errorLiteral : ErrorCode → String
  | .cycle => "ErrorValue(code=<ErrorCode.CYCLE: '#CYCLE'>)"
  | .reference => "ErrorValue(code=<ErrorCode.REF: '#REF'>)"
  | .division => "ErrorValue(code=<ErrorCode.DIV0: '#DIV/0'>)"
  | .value => "ErrorValue(code=<ErrorCode.VALUE: '#ERR'>)"

mutual
/-- A value as it stands inside a list, with texts in quotes. -/
def literal : Value → Except Fault String
  | .null => .ok "None"
  | .bool b => .ok (if b then "True" else "False")
  | .int n => integerText n
  | .float x => .ok (Number.floatText x)
  | .text s => .ok (Text.quoted s)
  | .error code => .ok (errorLiteral code)
  | .list items => (literals items).map fun parts => "[" ++ ", ".intercalate parts ++ "]"
  | .record fields =>
    (fieldLiterals fields).map fun parts => "\x7b" ++ ", ".intercalate parts ++ "\x7d"

def literals : List Value → Except Fault (List String)
  | [] => .ok []
  | v :: rest => do
    let part ← literal v
    let parts ← literals rest
    return part :: parts

def fieldLiterals : List (String × Value) → Except Fault (List String)
  | [] => .ok []
  | (name, v) :: rest => do
    let part ← literal v
    let parts ← fieldLiterals rest
    return (Text.quoted name ++ ": " ++ part) :: parts
end

/-- A value as text on its own: texts stand for themselves and errors for their code. -/
def toText : Value → Except Fault String
  | .text s => .ok s
  | .error code => .ok code.text
  | v => v.literal

/-- A text in upper case; other values have no case. -/
def upper : Value → Except Fault String
  | .text s => .ok (Text.upperText s)
  | v => .error (.noOperation v.kind "upper")

end Value
end Worksheet
