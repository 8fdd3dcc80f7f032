import Worksheet.Proofs.CellNames
import Worksheet.Proofs.ReferenceGraph

/-!
Circuits of references and the warning about one. When each cell of the stack refers to the one
above it and the last one refers to a cell that is on the stack already, the stack from that cell on
is a circuit. The warning tells it by the addresses of its cells.
-/
namespace Worksheet.Session

open Formula Formula.Steps Relation

variable {s : Sheet} {c d : Coord}

theorem addressText_of_addressable (h : c.Addressable) : c.address = .ok (Sheet.addressText c) := by
  unfold Sheet.addressText
  rw [Coord.address_of_addressable h]

theorem mapM_address {cs : List Coord} (h : ∀ c ∈ cs, c.Addressable) :
    cs.mapM Coord.address = .ok (cs.map Sheet.addressText) := by
  induction cs with
  | nil => rfl
  | cons c rest ih =>
    rw [List.mapM_cons, addressText_of_addressable (h c List.mem_cons_self),
      ih fun d hd => h d (List.mem_cons_of_mem c hd)]
    rfl

theorem exists_of_isChain {α : Type} {R : α → α → Prop} {a b : α} {as : List α}
    (h : (a :: as).IsChain R) (hb : b ∈ as) : ∃ x, R x b := by
  induction as generalizing a with
  | nil => cases hb
  | cons c rest ih =>
    rw [List.isChain_cons_cons] at h
    rcases List.mem_cons.mp hb with rfl | hb
    · exact ⟨a, h.1⟩
    · exact ih h.2 hb

variable [CallStack]

/-- The warning about a circuit from a cell with a name through cells with names. -/
def circuitWarning (name : String) (names : List String) : Log.Event :=
  let path := name :: names ++ [name]
  { level := .warning
    type := .formulaCycle
    message := "Circular cell reference: " ++ " -> ".intercalate path
    context := [("cell", .text name), ("path", .list (path.map .text))]
    errorCode := some "circular_reference" }

/-- A way along references from a cell back to it, through other cells that it meets once. -/
structure Circuit (s : Sheet) (c : Coord) (between : List Coord) : Prop where
  nodup : (c :: between).Nodup
  refers : (c :: between ++ [c]).IsChain (Refers s)

/-- An event that tells of a circuit by the addresses of its cells, which are all different. -/
def TellsCircuit (s : Sheet) (c : Coord) (event : Log.Event) : Prop :=
  ∃ between name names, Circuit s c between ∧ c.address = .ok name ∧
    between.mapM Coord.address = .ok names ∧ (name :: names).Nodup ∧
    event = circuitWarning name names

theorem addressable_of_refers (h : Refers s c d) : d.Addressable := by
  obtain ⟨node, -, ref, -, hd⟩ := steps_of_refers h
  exact ref.addressable_of_mem_coords hd

theorem Circuit.addressable {between : List Coord} (h : Circuit s c between) :
    ∀ d ∈ c :: between, d.Addressable := by
  intro d hd
  have hmem : d ∈ between ++ [c] := by
    rcases List.mem_cons.mp hd with rfl | hd
    · exact List.mem_append_right _ List.mem_cons_self
    · exact List.mem_append_left _ hd
  obtain ⟨b, hb⟩ := exists_of_isChain h.refers hmem
  exact addressable_of_refers hb

theorem Circuit.names_nodup {between : List Coord} (h : Circuit s c between) :
    ((c :: between).map Sheet.addressText).Nodup := by
  refine h.nodup.map_on fun a ha b hb hab => ?_
  have haddress : a.address = b.address := by
    rw [addressText_of_addressable (h.addressable a ha),
      addressText_of_addressable (h.addressable b hb), hab]
  exact Coord.eq_of_address_eq (h.addressable a ha) (h.addressable b hb) haddress

/-- The stack from a cell on, as the warning tells it. -/
theorem circuit_of_stack {stack : List Coord}
    (hchain : (c :: stack).IsChain fun a b => Refers s b a) (hnodup : stack.Nodup)
    (hc : c ∈ stack) : TellsCircuit s c (Machine.cycleWarning stack c) := by
  obtain ⟨above, below, rfl⟩ := List.mem_iff_append.mp hc
  have hbelow : ∀ d ∈ below.reverse, decide (d ≠ c) = true := by
    intro d hd
    rw [decide_eq_true_eq]
    rintro rfl
    exact (List.nodup_cons.mp hnodup.of_append_right).1 (List.mem_reverse.mp hd)
  have hpath : (above ++ c :: below).reverse.dropWhile (fun d => decide (d ≠ c)) =
      c :: above.reverse := by
    rw [List.reverse_append, List.reverse_cons, List.append_assoc,
      List.dropWhile_append_of_pos hbelow]
    simp
  have hcircuit : Circuit s c above.reverse := by
    constructor
    · have habove : c ∉ above :=
        fun hmem => (List.nodup_append.mp hnodup).2.2 c hmem c List.mem_cons_self rfl
      exact List.nodup_cons.mpr ⟨fun hmem => habove (List.mem_reverse.mp hmem),
        List.nodup_reverse.mpr hnodup.of_append_left⟩
    · have hwhole : ((c :: above) ++ c :: below).IsChain fun a b => Refers s b a := hchain
      have hfront := (List.isChain_split.mp hwhole).1
      have hreverse : ((c :: above) ++ [c]).reverse = c :: above.reverse ++ [c] := by simp
      rw [← hreverse, List.isChain_reverse]
      exact hfront
  refine ⟨above.reverse, Sheet.addressText c, above.reverse.map Sheet.addressText, hcircuit,
    addressText_of_addressable (hcircuit.addressable c List.mem_cons_self),
    mapM_address fun d hd => hcircuit.addressable d (List.mem_cons_of_mem c hd),
    hcircuit.names_nodup, ?_⟩
  unfold Machine.cycleWarning circuitWarning
  simp only [hpath, List.map_append, List.map_cons, List.map_nil]

end Worksheet.Session
