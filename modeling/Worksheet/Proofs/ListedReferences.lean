import Worksheet.Formula.References
import Worksheet.Proofs.ParsedTrees
import Worksheet.Proofs.Spelling

/-!
The listed references of a formula. They are listed as texts in upper case, which name the cells
that the formula names: a text that names a cell reads the same in any case, and it holds no colon,
so the colon in a listed text is the one between the corners of a range.
-/
namespace Worksheet.Formula

open Text

/-- The coordinates that a reference stands for, row by row; none when it cannot be read. -/
def Reference.coords : Reference → List Coord
  | .cell ref => match Coord.read ref with
    | .ok (some c) => [c]
    | _ => []
  | .range start stop => match Range.read start stop with
    | .ok (some r) => r.coords
    | _ => []

namespace Node

mutual
/-- Every occurrence of a reference, from left to right. -/
def occurrences : Node → List Reference
  | .cell ref => [.cell ref]
  | .range start stop => [.range start stop]
  | .negate operand => occurrences operand
  | .binary _ left right => occurrences left ++ occurrences right
  | .call _ args => occurrencesAll args
  | _ => []

def occurrencesAll : List Node → List Reference
  | [] => []
  | n :: rest => occurrences n ++ occurrencesAll rest
end

mutual
/-- How many nodes lie on the longest way down. -/
def depth : Node → Nat
  | .negate operand => depth operand + 1
  | .binary _ left right => max (depth left) (depth right) + 1
  | .call _ args => depthAll args + 1
  | _ => 1

def depthAll : List Node → Nat
  | [] => 0
  | n :: rest => max (depth n) (depthAll rest)
end

/-- The first occurrence of each text that the references of a tree have. -/
def listed (node : Node) : List String := (node.occurrences.map Reference.text).eraseDups

end Node

/-- What a listed text refers to: a colon stands between the corners of a range. -/
def Reference.ofText (name : String) : Reference :=
  match name.toList.dropWhile (· != ':') with
  | [] => .cell name
  | _ :: stop =>
    .range (String.ofList (name.toList.takeWhile (· != ':'))) (String.ofList stop)

/-- A reference with legible texts for its cells. -/
def Reference.Spelled : Reference → Prop
  | .cell ref => Legible ref.toList
  | .range start stop => Legible start.toList ∧ Legible stop.toList

theorem Node.depth_pos (node : Node) : 0 < node.depth := by
  cases node <;> exact Nat.succ_pos _

/-! ### What is listed -/

section Visits
variable {seen : List String} {room : Nat}

theorem foldl_noted (names seen : List String) :
    names.foldl noted seen = seen ++ (names.filter fun name => !seen.contains name).eraseDups := by
  induction names generalizing seen with
  | nil => simp
  | cons first rest ih =>
    rw [List.foldl_cons, ih, noted]
    by_cases hfirst : seen.contains first = true
    · rw [if_pos hfirst, List.filter_cons_of_neg (by simp only [hfirst]; decide)]
    · have hnew : ∀ name, (!(seen ++ [first]).contains name) =
          (!(name == first) && !seen.contains name) := by
        intro name
        rw [List.contains_append, List.contains_cons, List.contains_nil, Bool.or_false,
          Bool.not_or, Bool.and_comm]
      rw [if_neg hfirst, List.filter_cons_of_pos (by simpa using hfirst), List.eraseDups_cons,
        List.filter_filter, List.append_assoc]
      simp only [hnew, List.singleton_append]

theorem foldl_noted_nil (names : List String) : names.foldl noted [] = names.eraseDups := by
  have hall : (names.filter fun name => !([] : List String).contains name) = names :=
    List.filter_eq_self.mpr fun name _ => rfl
  rw [foldl_noted, List.nil_append, hall]

/-- What has been seen when the occurrences of some references have been noted as well, unless they
lie deeper than there is room. -/
def notedWithin (room depth : Nat) (seen : List String) (refs : List Reference) :
    Except Fault (List String) :=
  if room < depth then .error .nestedTooDeep else .ok ((refs.map Reference.text).foldl noted seen)

theorem notedWithin_succ (room depth : Nat) (seen : List String) (refs : List Reference) :
    notedWithin (room + 1) (depth + 1) seen refs = notedWithin room depth seen refs := by
  simp [notedWithin]

theorem foldlM_visit {args : List Node}
    (h : ∀ seen node, visit room seen node = notedWithin room node.depth seen node.occurrences) :
    args.foldlM (visit room) seen =
      notedWithin room (Node.depthAll args) seen (Node.occurrencesAll args) := by
  induction args generalizing seen with
  | nil => rfl
  | cons n rest ih =>
    rw [List.foldlM_cons, h, Node.depthAll, Node.occurrencesAll]
    unfold notedWithin at ih ⊢
    by_cases hn : room < n.depth
    · rw [if_pos hn, if_pos (by omega)]
      rfl
    · rw [if_neg hn]
      refine ih.trans ?_
      by_cases hrest : room < Node.depthAll rest
      · rw [if_pos hrest, if_pos (by omega)]
      · rw [if_neg hrest, if_neg (by omega), List.map_append, List.foldl_append]

/-- A visit notes the references of a tree from left to right, if the tree is not too deep. -/
theorem visit_eq (room : Nat) (seen : List String) (node : Node) :
    visit room seen node = notedWithin room node.depth seen node.occurrences := by
  induction room generalizing seen node with
  | zero => exact (if_pos node.depth_pos).symm
  | succ room ih =>
    cases node with
    | negate operand =>
      rw [Node.depth, Node.occurrences, notedWithin_succ]
      exact ih seen operand
    | binary op left right =>
      have hboth : [left, right].foldlM (visit room) seen = _ := foldlM_visit ih
      simp only [List.foldlM_cons, List.foldlM_nil, bind_pure, Node.depthAll, Node.occurrencesAll,
        Nat.max_zero, List.append_nil] at hboth
      rw [Node.depth, Node.occurrences, notedWithin_succ]
      exact hboth
    | call name args =>
      rw [Node.depth, Node.occurrences, notedWithin_succ]
      exact foldlM_visit ih
    | _ => rfl

/-- Every reference of a tree is listed once, if the tree is not too deep. -/
theorem references_eq [CallStack] (node : Node) : references node =
    if CallStack.listing < node.depth then .error .nestedTooDeep else .ok node.listed := by
  rw [references, visit_eq, notedWithin, foldl_noted_nil]
  rfl

end Visits

theorem mem_occurrencesAll {args : List Node} {ref : Reference} :
    ref ∈ Node.occurrencesAll args ↔ ∃ arg ∈ args, ref ∈ arg.occurrences := by
  induction args with
  | nil => simp [Node.occurrencesAll]
  | cons arg rest ih => simp [Node.occurrencesAll, ih]

theorem legible_of_isWord {cs : List Char} (h : IsWord cs) : Legible cs := by
  intro c hc
  rcases h c hc with hletter | hdigit
  · exact .inr (.inl hletter)
  · refine .inr (.inr ?_)
    simp only [isAsciiDigit, Bool.and_eq_true, decide_eq_true_eq] at hdigit
    rw [decimalDigit?, Option.isSome_map, List.find?_isSome]
    exact ⟨48, by decide, by simp only [Bool.and_eq_true, decide_eq_true_eq]; omega⟩

theorem Node.Written.spelled {node : Node} (h : node.Written) :
    ∀ ref ∈ node.occurrences, ref.Spelled := by
  induction h with
  | constant x => exact fun ref href => absurd href List.not_mem_nil
  | cell hword =>
    intro ref href
    cases List.mem_singleton.mp href
    exact legible_of_isWord hword
  | range hstart hstop =>
    intro ref href
    cases List.mem_singleton.mp href
    exact ⟨legible_of_isWord hstart, legible_of_isWord hstop⟩
  | negate _ ih => exact ih
  | binary _ _ ihleft ihright =>
    intro ref href
    rcases List.mem_append.mp href with href | href
    · exact ihleft ref href
    · exact ihright ref href
  | call _ ih =>
    intro ref href
    obtain ⟨arg, harg, href⟩ := mem_occurrencesAll.mp href
    exact ih arg harg ref href

/-- A listed text refers to the cells to which the reference itself refers. -/
theorem coords_ofText {ref : Reference} (h : ref.Spelled) :
    (Reference.ofText ref.text).coords = ref.coords := by
  cases ref with
  | cell ref =>
    have hdrop : (upperText ref).toList.dropWhile (· != ':') = [] := by
      rw [upperText, String.toList_ofList, List.dropWhile_eq_nil_iff]
      exact ne_colon_of_mem_upper h
    simp only [Reference.text, Reference.ofText, hdrop, Reference.coords, read_upperText h]
  | range start stop =>
    have htext : (upperText start ++ ":" ++ upperText stop).toList =
        upper start.toList ++ ':' :: upper stop.toList := by
      simp [upperText]
    have hcolon : ∀ c ∈ (':' :: upper stop.toList).head?, (c != ':') = false := by
      rintro c ⟨⟩
      decide
    obtain ⟨htake, hdrop⟩ := takeWhile_dropWhile_append (ne_colon_of_mem_upper h.1) hcolon
    have hread : Range.read (upperText start) (upperText stop) = Range.read start stop := by
      rw [Range.read, read_upperText h.1, read_upperText h.2]
      rfl
    simp only [Reference.text, Reference.ofText, htext, htake, hdrop, Reference.coords]
    rw [← upperText, ← upperText, hread]

theorem Range.read_eq_some {start stop : String} {r : Range}
    (h : Range.read start stop = .ok (some r)) :
    ∃ a b, Coord.read start = .ok (some a) ∧ Coord.read stop = .ok (some b) ∧
      r = Range.between a b := by
  obtain ⟨a, ha, h⟩ := bind_eq_ok.mp h
  obtain ⟨b, hb, h⟩ := bind_eq_ok.mp h
  cases a with
  | none => cases h
  | some a =>
    cases b with
    | none => cases h
    | some b =>
      cases h
      exact ⟨a, b, ha, hb, rfl⟩

theorem Reference.spelled_of_mem_coords {ref : Reference} {d : Coord} (h : d ∈ ref.coords) :
    ref.Spelled := by
  cases ref with
  | cell ref =>
    dsimp only [Reference.coords] at h
    split at h
    · rename_i c hread
      exact legible_of_read hread
    · cases h
  | range start stop =>
    dsimp only [Reference.coords] at h
    split at h
    · rename_i r hread
      obtain ⟨a, b, ha, hb, -⟩ := Range.read_eq_some hread
      exact ⟨legible_of_read ha, legible_of_read hb⟩
    · cases h

/-- What a reference refers to, its listed text refers to. -/
theorem mem_coords_ofText {ref : Reference} {d : Coord} (h : d ∈ ref.coords) :
    d ∈ (Reference.ofText ref.text).coords := by
  rw [coords_ofText (Reference.spelled_of_mem_coords h)]
  exact h

/-- The cells to which the listed texts of a formula refer are those to which its references do. -/
theorem exists_listed_iff {node : Node} (h : node.Written) {d : Coord} :
    (∃ name ∈ node.listed, d ∈ (Reference.ofText name).coords) ↔
      ∃ ref ∈ node.occurrences, d ∈ ref.coords := by
  constructor
  · rintro ⟨name, hname, hd⟩
    obtain ⟨ref, href, rfl⟩ := List.mem_map.mp (List.mem_eraseDups.mp hname)
    exact ⟨ref, href, coords_ofText (h.spelled ref href) ▸ hd⟩
  · rintro ⟨ref, href, hd⟩
    refine ⟨ref.text, List.mem_eraseDups.mpr (List.mem_map_of_mem href), ?_⟩
    rw [coords_ofText (h.spelled ref href)]
    exact hd

end Worksheet.Formula
