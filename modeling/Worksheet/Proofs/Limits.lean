import Worksheet.Proofs.Faults
import Worksheet.Proofs.RangeFaults
import Worksheet.Proofs.Recognition

/-!
What stops an evaluation. A formula is stopped by a fault for one of three reasons: somewhere in it
the call stack has too few frames left, the row of one of its references has more digits than an
integer may have, or an operation needs a double where integers among its operands, or their sum,
are beyond the range of doubles. Everything else that goes wrong is an error and a value of the cell.
-/
namespace Worksheet.Formula

open Steps Number

/-- The texts of the corners of a reference. -/
def Reference.corners : Reference → List String
  | .cell ref => [ref]
  | .range start stop => [start, stop]

namespace Node

/-- The trees directly below a tree, in the order of their evaluation. -/
def parts : Node → List Node
  | .negate operand => [operand]
  | .binary _ left right => [left, right]
  | .call _ args => args
  | _ => []

/-- Operators with two operands, and calls. -/
def IsOperation : Node → Prop
  | .binary .. | .call .. => True
  | _ => False

/-- The frames that a tree takes while its parts are evaluated. -/
def frames : Node → Nat
  | .binary .. | .call .. => 2
  | _ => 1

theorem frames_pos (node : Node) : 0 < node.frames := by
  cases node <;> exact Nat.succ_pos _

theorem mem_occurrences_of_part {n node : Node} {ref : Reference} (hn : n ∈ node.parts)
    (href : ref ∈ n.occurrences) : ref ∈ node.occurrences := by
  cases node with
  | negate operand =>
    cases List.mem_singleton.mp hn
    exact href
  | binary op left right =>
    rcases List.mem_pair.mp hn with rfl | rfl
    · exact List.mem_append_left _ href
    · exact List.mem_append_right _ href
  | call name args => exact mem_occurrencesAll.mpr ⟨n, hn, href⟩
  | _ => cases hn

end Node

variable {answer : Coord → Except Fault Value} {f : Fault}

theorem read_eq_error {text : String} (h : Coord.read text = .error f) :
    ∃ letters row, Coord.split? (Text.trim text.toList) = some (letters, row) ∧
      digitLimit < row.length ∧ f = .tooManyDigits (some row.length) := by
  unfold Coord.read at h
  split at h
  · cases h
  · rename_i letters row hsplit
    rcases bind_eq_error.mp h with h | ⟨number, -, h⟩
    · obtain ⟨hlong, rfl⟩ := integerOfDigits_eq_error h
      exact ⟨letters, row, hsplit, hlong, rfl⟩
    · cases h

theorem cellSteps_stops {ref : String} (h : (cellSteps ref).Stops answer f) :
    Coord.read ref = .error f := by
  unfold cellSteps at h
  split at h
  · rename_i hread
    cases h
    exact hread
  · exact absurd h not_stops_done
  · cases h with
    | later _ h => exact absurd h not_stops_done

theorem rangeSteps_stops {start stop : String} (h : (rangeSteps start stop).Stops answer f) :
    ∃ text ∈ (Reference.range start stop).corners, Coord.read text = .error f := by
  unfold rangeSteps at h
  split at h
  · rename_i hread
    cases h
    rcases bind_eq_error.mp hread with hread | ⟨a, -, hread⟩
    · exact ⟨start, List.mem_cons_self, hread⟩
    · rcases bind_eq_error.mp hread with hread | ⟨b, -, hread⟩
      · exact ⟨stop, List.mem_cons_of_mem start List.mem_cons_self, hread⟩
      · cases hread
  · exact absurd h not_stops_done
  · exact absurd h (not_stops_gather _ _ _ _)

section Frames
variable [CallStack]

/-- A tree with so many frames left for it, and a tree in it with those that are left for that one:
each tree on the way down takes its own. -/
inductive Within : Nat → Node → Nat → Node → Prop
  | all (room : Nat) (node : Node) : Within room node room node
  | part {room room' : Nat} {node n node' : Node} (hn : n ∈ node.parts)
      (h : Within (room - node.frames) n room' node') : Within room node room' node'

/-- The values of the parts of a tree, each cell having a fixed answer. -/
def Operands (answer : Coord → Except Fault Value) (room : Nat) (node : Node) (vs : List Value) :
    Prop :=
  List.Forall₂ (fun n v => (evaluate (room - node.frames) n).conclude answer = .ok v) node.parts vs

/-- What a formula asks too much of, with the fault that stops it: frames for a tree in it or for
what is done there with the values of its parts, digits of a row, or the range of doubles, where an
operation is carried out on values with the cells of ranges among them. -/
inductive Overtaxes (answer : Coord → Except Fault Value) (room : Nat) (node : Node) : Fault → Prop
  | frames {room' : Nat} {n : Node} (hn : Within room node room' n) (h : room' < n.frames) :
      Overtaxes answer room node .nestedTooDeep
  | work {room' : Nat} {n : Node} {vs : List Value} (hn : Within room node room' n)
      (hvs : Operands answer room' n vs) (h : room' < n.frames + CallStack.work n vs) :
      Overtaxes answer room node .nestedTooDeep
  | digits {ref : Reference} {text : String} {letters : List Char} {row : List Nat}
      (href : ref ∈ node.occurrences) (htext : text ∈ ref.corners)
      (hsplit : Coord.split? (Text.trim text.toList) = some (letters, row))
      (h : digitLimit < row.length) :
      Overtaxes answer room node (.tooManyDigits (some row.length))
  | range {room' : Nat} {n : Node} {vs : List Value} {f : Fault} (hf : IsRangeFault f)
      (hn : Within room node room' n) (hoperation : n.IsOperation)
      (hvs : Operands answer room' n vs) (h : Exceeds (flatten vs)) : Overtaxes answer room node f

variable {room : Nat} {n node : Node}

theorem Overtaxes.of_part (hn : n ∈ node.parts)
    (h : Overtaxes answer (room - node.frames) n f) : Overtaxes answer room node f := by
  cases h with
  | frames hwithin h => exact .frames (.part hn hwithin) h
  | work hwithin hvs h => exact .work (.part hn hwithin) hvs h
  | digits href htext hsplit h =>
    exact .digits (Node.mem_occurrences_of_part hn href) htext hsplit h
  | range hf hwithin hoperation hvs h => exact .range hf (.part hn hwithin) hoperation hvs h

theorem overtaxes_of_read {ref : Reference} {text : String} (href : ref ∈ node.occurrences)
    (htext : text ∈ ref.corners) (h : Coord.read text = .error f) :
    Overtaxes answer room node f := by
  obtain ⟨letters, row, hsplit, hlong, rfl⟩ := read_eq_error h
  exact .digits href htext hsplit hlong

/-- A formula that is stopped asks too much. -/
theorem evaluate_overtaxes (h : (evaluate room node).Stops answer f) :
    Overtaxes answer room node f := by
  induction room using Nat.strong_induction_on generalizing node with
  | h room ih =>
  cases room with
  | zero =>
    cases h
    exact .frames (.all 0 node) node.frames_pos
  | succ room =>
    cases node with
    | constant v => exact absurd h not_stops_done
    | cell ref =>
      rcases stops_within h with ⟨hfew, rfl⟩ | h
      · exact .work (.all _ _) .nil (by simp only [Node.frames]; omega)
      · exact overtaxes_of_read List.mem_cons_self List.mem_cons_self (cellSteps_stops h)
    | range start stop =>
      rcases stops_within h with ⟨hfew, rfl⟩ | h
      · exact .work (.all _ _) .nil (by simp only [Node.frames]; omega)
      · obtain ⟨text, htext, hread⟩ := rangeSteps_stops h
        exact overtaxes_of_read List.mem_cons_self htext hread
    | negate operand =>
      rcases stops_bindGood h with h | ⟨v, hv, h⟩
      · exact (ih room (Nat.lt_succ_self room) h).of_part List.mem_cons_self
      · rcases stops_within h with ⟨hfew, rfl⟩ | h
        · exact .work (.all _ _) (.cons hv .nil) (by simp only [Node.frames]; omega)
        · exact absurd h not_stops_done
    | binary op left right =>
      have hleft : left ∈ (Node.binary op left right).parts := List.mem_cons_self
      have hright : right ∈ (Node.binary op left right).parts :=
        List.mem_cons_of_mem left List.mem_cons_self
      rw [evaluate_binary] at h
      rcases stops_bindGood h with h | ⟨a, ha, h⟩
      · exact (ih (room - 1) (by omega) h).of_part hleft
      · split at h
        · exact absurd h not_stops_done
        · rename_i hlista
          rcases stops_bindGood h with h | ⟨b, hb, h⟩
          · exact (ih (room - 1) (by omega) h).of_part hright
          · split at h
            · exact absurd h not_stops_done
            · rename_i hlistb
              have hvs : Operands answer (room + 1) (.binary op left right) [a, b] :=
                .cons ha (.cons hb .nil)
              rcases stops_within h with ⟨hfew, rfl⟩ | h
              · exact .work (.all _ _) hvs (by simp only [Node.frames]; omega)
              · obtain ⟨hf, hexceeds⟩ := combined_eq_error (stops_ofExcept h)
                refine .range hf (.all _ _) trivial hvs ?_
                rwa [flatten_of_singles fun v hv => ?_]
                rcases List.mem_pair.mp hv with rfl | rfl
                · simpa using hlista
                · simpa using hlistb
    | call name args =>
      rw [evaluate_call] at h
      rcases stops_within h with ⟨hfew, rfl⟩ | h
      · exact .frames (.all _ _) (by simp only [Node.frames]; omega)
      · rcases stops_evaluateArgs h with ⟨arg, harg, h⟩ | ⟨vs, hvs, h⟩
        · exact (ih (room - 1) (by omega) h).of_part harg
        · rw [List.reverse_nil, List.nil_append] at h
          rcases stops_within h with ⟨hfew, rfl⟩ | h
          · exact .work (.all _ _) hvs (by simp only [Node.frames]; omega)
          · obtain ⟨hf, hexceeds⟩ := applyNamed_eq_error (stops_ofExcept h)
            exact .range hf (.all _ _) trivial hvs hexceeds
    | foreign => exact absurd h not_stops_done

/-- Reading a formula gives a tree or a refusal, unless the formula is nested too deep. -/
theorem parseFormula_eq_error {formula : String} (h : parseFormula formula = .error f) :
    f = .nestedTooDeep := by
  unfold parseFormula at h
  split at h
  · cases h
  · rename_i ts hts
    rcases parse_recognises (tokens_isLexical hts) with ⟨hdeep, -⟩ | hread
    · rw [hdeep] at h
      cases h
      rfl
    · by_cases hderives : ∃ n, Derives .expression ts n
      · obtain ⟨n, hn⟩ := hderives
        rw [(hread.1 n).mpr hn] at h
        cases h
      · obtain ⟨refusal, hrefused, -⟩ := hread.2 (not_exists.mp hderives)
        rw [hrefused] at h
        cases h

end Frames

end Worksheet.Formula

namespace Worksheet.Session

open Formula Formula.Steps Relation

section Frames
variable [CallStack] {s : Sheet} {c d : Coord} {f : Fault}

/-- A cell whose own dialogue is stopped holds a formula that asks too much. -/
theorem openCell_overtaxes {answer : Coord → Except Fault Value}
    (h : (openCell s c).steps.Stops answer f) :
    ∃ formula node, formula? (s.rawCell c) = some formula ∧
      parseFormula formula = .ok (.ok node) ∧ Overtaxes answer CallStack.evaluating node f := by
  cases hformula : formula? (s.rawCell c) with
  | none =>
    rw [openCell_steps_of_not_formula hformula] at h
    exact absurd h not_stops_done
  | some formula =>
    rw [openCell_steps_of_formula hformula] at h
    unfold openFormula at h
    split at h
    · exact absurd h not_stops_done
    · split at h
      · rename_i node hnode
        exact ⟨formula, node, rfl, hnode, evaluate_overtaxes h⟩
      · exact absurd h not_stops_done
      · exact absurd h not_stops_done
      · rename_i fault hother hfault
        cases parseFormula_eq_error hfault
        exact absurd rfl hother

/-- A formula that has no tree means an error. -/
theorem meaning_of_unreadable {formula : String} (hformula : formula? (s.rawCell c) = some formula)
    (hbody : Text.allBlank (body formula) = false)
    (hnode : ∀ node, parseFormula formula ≠ .ok (.ok node)) :
    meaning s c = .ok (.error .value) := by
  have hsteps : (openCell s c).steps = .done (.error .value) := by
    rw [openCell_steps_of_formula hformula, openFormula, hbody]
    cases hread : parseFormula formula with
    | error fault =>
      cases parseFormula_eq_error hread
      rfl
    | ok read =>
      cases read with
      | ok node => exact absurd hread (hnode node)
      | error refusal => rfl
  rw [meaning_eq_conclude, hsteps]
  rfl

/-- What a session of any history gives for a cell of a sheet of scalars. A value is a scalar or an
error. A fault comes from a cell in reach whose own dialogue is stopped, and from every such cell;
and what stops a dialogue is that the call stack has too few frames somewhere in its formula, that a
row of it has too many digits, or that integers which meet in one of its operations are beyond the
range of doubles. A formula that cannot be read never is a fault. -/
theorem faults_of_resolution (sheet : Nat) (s : Sheet) (settings : Display.Settings)
    (requests : List Request) (c : Coord) (hs : Ordinary s) :
    let ses := serveAll s (Session.begin sheet s settings) requests
    let answer := fun d => (ses.value s d).result
    (∀ v, answer c = .ok v → IsScalar v ∨ v.isError = true) ∧
    (∀ f, answer c = .error f ↔
      ∃ d, ReflTransGen (fun a b => (openCell s a).steps.Asks answer b) c d ∧
        (openCell s d).steps.Stops answer f) ∧
    (∀ d f, (openCell s d).steps.Stops answer f →
      ∃ formula node, formula? (s.rawCell d) = some formula ∧
        parseFormula formula = .ok (.ok node) ∧
          Overtaxes answer CallStack.evaluating node f) ∧
    ∀ formula, formula? (s.rawCell c) = some formula → Text.allBlank (body formula) = false →
      (∀ node, parseFormula formula ≠ .ok (.ok node)) → answer c = .ok (.error .value) := by
  intro ses answer
  have hses : Sound s settings ses := (serveAll_continues requests _).sound (begin_sound sheet)
  have hanswer : answer = meaning s := funext fun d => value_result hses.2 d
  rw [hanswer]
  exact ⟨fun v => isScalar_or_isError_of_meaning hs, fun f => meaning_eq_error_iff,
    fun d f => openCell_overtaxes, fun formula => meaning_of_unreadable⟩

end Frames

/-- The first integer beyond the range of doubles, and a sum that needs it as a double. -/
def towering : Sheet := ⟨[[.int Number.doubleBound, .text "=A1+1"]], 8, 0⟩

attribute [local instance] CallStack.usual

theorem value_towering :
    ((Session.begin 0 towering plainSettings).value towering ⟨0, 1⟩).result =
      .error .beyondDouble := by
  have hfault : ((retrieve towering [] ⟨0, 1⟩).run {}).result.map (fun _ => ()) =
      .error .beyondDouble := by decide +kernel
  change (resolve towering {} ⟨0, 1⟩).result = _
  rw [resolve_eq_retrieve]
  exact map_eq_error.mp hfault

/-- A sum that needs an integer beyond the range of doubles is a fault, and no error. -/
theorem faults_of_resolution_towering : Ordinary towering ∧ ∃ d formula node,
    formula? (towering.rawCell d) = some formula ∧ parseFormula formula = .ok (.ok node) ∧
      Overtaxes (fun b => ((Session.begin 0 towering plainSettings).value towering b).result)
        CallStack.evaluating node .beyondDouble := by
  have hordinary : Ordinary towering := by
    refine ordinary_of_stored fun row hrow v hv => ?_
    cases List.mem_singleton.mp hrow
    rcases List.mem_pair.mp hv with rfl | rfl
    · trivial
    · trivial
  obtain ⟨-, hfaults, hstops, -⟩ :=
    faults_of_resolution 0 towering plainSettings [] ⟨0, 1⟩ hordinary
  obtain ⟨d, -, hd⟩ := (hfaults _).mp value_towering
  exact ⟨hordinary, d, hstops d _ hd⟩

end Worksheet.Session
