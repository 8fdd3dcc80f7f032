import Worksheet.Formula.Evaluation
import Worksheet.Formula.Parser
import Worksheet.Sheet.Basic

/-!
One cell of a sheet as a dialogue. Only text that asks to be a formula leads to questions; all other
values stand for themselves. A formula without a body is empty text, and one that cannot be read is
an error and gives a warning.
-/
namespace Worksheet.Session

open Formula

/-- The dialogue of a cell and the warnings given by reading it. -/
structure Opened where
  steps : Steps
  events : List Log.Event := []

/-- The warning about a formula that cannot be read. -/
def parseWarning (c : Coord) (formula message code : String) : Log.Event where
  level := .warning
  type := .formulaParseError
  message := message
  context := [("cell", .text (Sheet.addressText c)), ("formula", .text formula)]
  errorCode := some code

def refusalCode : Refusal → String
  | .lexical _ => "formula_lex_error"
  | .grammatical _ => "formula_syntax_error"

/-- The formula of a value, if it is one. -/
def formula? : Value → Option String
  | .text s => if startsFormula s then some s else none
  | _ => none

section Frames
variable [CallStack]

/-- A formula that stands in a cell. -/
def openFormula (c : Coord) (formula : String) : Opened :=
  if Text.allBlank (body formula) then ⟨.done (.text ""), []⟩
  else match parseFormula formula with
    | .ok (.ok node) => ⟨node.steps, []⟩
    | .ok (.error refusal) =>
      ⟨.done (.error .value), [parseWarning c formula refusal.detail (refusalCode refusal)]⟩
    | .error .nestedTooDeep =>
      ⟨.done (.error .value),
        [parseWarning c formula Fault.nestedTooDeep.message "formula_too_deep"]⟩
    | .error fault => ⟨.fault fault, []⟩

/-- A cell as it is read from its sheet. -/
def openCell (s : Sheet) (c : Coord) : Opened :=
  let opened : Opened := match formula? (s.rawCell c) with
    | some formula => openFormula c formula
    | none => ⟨.done (s.rawCell c), []⟩
  { opened with events := s.readEvents c ++ opened.events }

/-- A cell that holds no formula stands for its value. -/
theorem openCell_steps_of_not_formula {s : Sheet} {c : Coord} (h : formula? (s.rawCell c) = none) :
    (openCell s c).steps = .done (s.rawCell c) := by
  simp [openCell, h]

theorem openCell_steps_of_formula {s : Sheet} {c : Coord} {formula : String}
    (h : formula? (s.rawCell c) = some formula) :
    (openCell s c).steps = (openFormula c formula).steps := by
  simp only [openCell, h]

end Frames

/-- The positions of a sheet that hold a formula, row by row. -/
def formulaCells (s : Sheet) : List Coord :=
  ((List.range s.rowCount).flatMap fun (r : Nat) =>
    (List.range s.widest).map fun (k : Nat) => (⟨r, k⟩ : Coord)).filter fun c =>
      (formula? (s.rawCell c)).isSome

theorem foldl_max_ge {α : Type} (f : α → Nat) (xs : List α) (n : Nat) :
    n ≤ xs.foldl (fun n x => max n (f x)) n := by
  induction xs generalizing n with
  | nil => exact Nat.le_refl n
  | cons x rest ih => exact Nat.le_trans (Nat.le_max_left n (f x)) (ih _)

theorem le_foldl_max {α : Type} (f : α → Nat) (xs : List α) (n : Nat) {x : α} (h : x ∈ xs) :
    f x ≤ xs.foldl (fun n x => max n (f x)) n := by
  induction xs generalizing n with
  | nil => cases h
  | cons y rest ih =>
    cases h with
    | head => exact Nat.le_trans (Nat.le_max_right n (f x)) (foldl_max_ge f rest _)
    | tail _ h => exact ih _ h

/-- A cell that is not there holds no formula. -/
theorem formula?_rawCell_of_cell?_eq_none {s : Sheet} {c : Coord} (h : s.cell? c = none) :
    formula? (s.rawCell c) = none := by
  simp only [Sheet.rawCell, Sheet.cellData, h, Option.getD_none, Cell.data, formula?]
  decide +kernel

theorem mem_formulaCells {s : Sheet} {c : Coord} (h : (formula? (s.rawCell c)).isSome) :
    c ∈ formulaCells s := by
  cases hc : s.cell? c with
  | none => rw [formula?_rawCell_of_cell?_eq_none hc] at h; cases h
  | some v =>
    unfold Sheet.cell? at hc
    split at hc
    · cases hc
    · rename_i hneg
      simp only [Bool.or_eq_true, decide_eq_true_eq, not_or, Int.not_lt] at hneg
      obtain ⟨row, hrow, hv⟩ := Option.bind_eq_some_iff.mp hc
      have hr : c.row.toNat < s.rows.length := (List.getElem?_eq_some_iff.mp hrow).1
      have hk : c.col.toNat < row.length := (List.getElem?_eq_some_iff.mp hv).1
      have hw : row.length ≤ s.widest :=
        le_foldl_max List.length s.rows 0 (List.mem_of_getElem? hrow)
      refine List.mem_filter.mpr ⟨List.mem_flatMap.mpr ⟨c.row.toNat, List.mem_range.mpr hr,
        List.mem_map.mpr ⟨c.col.toNat, List.mem_range.mpr (Nat.lt_of_lt_of_le hk hw), ?_⟩⟩, h⟩
      obtain ⟨row, col⟩ := c
      simp only [Coord.mk.injEq]
      exact ⟨Int.toNat_of_nonneg hneg.1, Int.toNat_of_nonneg hneg.2⟩

end Worksheet.Session
