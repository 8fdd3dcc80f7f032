import Worksheet.Value

/-!
Fields of records that come from a host. A field is read by its own rule, and the problems of all
fields are reported together.
-/
namespace Worksheet.Record

/-- A field of a record or, when it is absent, its default. -/
def optional {α : Type} (fields : List (String × Value)) (name : String)
    (read : Value → Except FieldFault α) (default : α) : Except FieldProblem α :=
  match fields.lookup name with
  | none => .ok default
  | some v => (read v).mapError fun fault => ⟨name, fault⟩

/-- A field that must be there. -/
def required {α : Type} (fields : List (String × Value)) (name : String)
    (read : Value → Except FieldFault α) : Except FieldProblem α :=
  match fields.lookup name with
  | none => .error ⟨name, .absent⟩
  | some v => (read v).mapError fun fault => ⟨name, fault⟩

def problem? {α : Type} : Except FieldProblem α → List FieldProblem
  | .ok _ => []
  | .error p => [p]

def readText : Value → Except FieldFault String
  | .text s => .ok s
  | _ => .error .textType

/-- The first integer beyond 64 bits. -/
def wordBound : Int := 0x8000000000000000

/-- A double that is a whole number of 64 bits. -/
def readWhole (x : Float) : Except FieldFault Int :=
  match Number.decode? x with
  | none => .error .integerFinite
  | some b =>
    if !Number.isWhole b then .error .integerFraction
    else if -wordBound < Number.wholePart b && Number.wholePart b < wordBound then
      .ok (Number.wholePart b)
    else .error .integerSize

/-- A text or nothing. -/
def readText? : Value → Except FieldFault (Option String)
  | .null => .ok none
  | .text s => .ok (some s)
  | _ => .error .textType

end Worksheet.Record
