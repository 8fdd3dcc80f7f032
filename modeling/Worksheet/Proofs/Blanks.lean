import Mathlib.Data.List.TakeWhile
import Worksheet.Text.Blank

/-!
Text cut by a class of characters. The characters of a class are taken up to the first of another
one; so what is left without the blanks at both ends is the text that stands between them, which
neither begins nor ends with a blank.
-/
namespace Worksheet.Text

variable {cs front run behind : List Char}

theorem takeWhile_dropWhile_append {p : Char → Bool} (hfront : ∀ c ∈ front, p c = true)
    (hbehind : ∀ c ∈ behind.head?, p c = false) :
    (front ++ behind).takeWhile p = front ∧ (front ++ behind).dropWhile p = behind := by
  rw [List.takeWhile_append_of_pos hfront, List.dropWhile_append_of_pos hfront]
  cases behind with
  | nil => exact ⟨List.append_nil front, rfl⟩
  | cons c more =>
    have hc : ¬ p c = true := by simp [hbehind c rfl]
    rw [List.takeWhile_cons_of_neg hc, List.dropWhile_cons_of_neg hc, List.append_nil]
    exact ⟨rfl, rfl⟩

/-! ### Blanks at the ends -/

/-- The blanks around a text are dropped, and no others. -/
theorem trim_append (hfront : ∀ c ∈ front, isBlank c = true)
    (hfirst : ∀ c ∈ run.head?, isBlank c = false) (hlast : ∀ c ∈ run.getLast?, isBlank c = false)
    (hbehind : ∀ c ∈ behind, isBlank c = true) : trim (front ++ (run ++ behind)) = run := by
  have hreverse : ∀ c ∈ behind.reverse, isBlank c = true :=
    fun c hc => hbehind c (List.mem_reverse.mp hc)
  cases run with
  | nil =>
    have hall : ∀ c ∈ front ++ behind, isBlank c = true :=
      List.forall_mem_append.mpr ⟨hfront, hbehind⟩
    unfold trim trimLeft
    rw [List.nil_append, List.dropWhile_eq_nil_iff.mpr hall]
    rfl
  | cons c more =>
    have hhead : ∀ d ∈ (c :: more ++ behind).head?, isBlank d = false := hfirst
    have hback : ∀ d ∈ (c :: more).reverse.head?, isBlank d = false := by
      rwa [List.head?_reverse]
    unfold trim trimLeft trimRight
    rw [(takeWhile_dropWhile_append hfront hhead).2, List.reverse_append,
      (takeWhile_dropWhile_append hreverse hback).2, List.reverse_reverse]

theorem trim_eq_self (hfirst : ∀ c ∈ run.head?, isBlank c = false)
    (hlast : ∀ c ∈ run.getLast?, isBlank c = false) : trim run = run := by
  have h := trim_append (List.forall_mem_nil _) hfirst hlast (List.forall_mem_nil _)
  rwa [List.nil_append, List.append_nil] at h

theorem exists_trim (cs : List Char) : ∃ front behind, cs = front ++ (trim cs ++ behind) ∧
    (∀ c ∈ front, isBlank c = true) ∧ ∀ c ∈ behind, isBlank c = true := by
  have hleft := List.takeWhile_append_dropWhile (p := isBlank) (l := cs)
  have hright := List.takeWhile_append_dropWhile (p := isBlank) (l := (trimLeft cs).reverse)
  have htrim : trimLeft cs =
      trim cs ++ ((trimLeft cs).reverse.takeWhile isBlank).reverse := by
    have hreverse := congrArg List.reverse hright
    rw [List.reverse_append, List.reverse_reverse] at hreverse
    exact hreverse.symm
  refine ⟨cs.takeWhile isBlank, ((trimLeft cs).reverse.takeWhile isBlank).reverse, ?_, ?_, ?_⟩
  · rw [← htrim]
    exact hleft.symm
  · exact fun c hc => List.mem_takeWhile_imp hc
  · exact fun c hc => List.mem_takeWhile_imp (List.mem_reverse.mp hc)

theorem isBlank_or_mem_trim {c : Char} (h : c ∈ cs) : isBlank c = true ∨ c ∈ trim cs := by
  obtain ⟨front, behind, hcs, hfront, hbehind⟩ := exists_trim cs
  rw [hcs] at h
  rcases List.mem_append.mp h with h | h
  · exact .inl (hfront c h)
  · rcases List.mem_append.mp h with h | h
    · exact .inr h
    · exact .inl (hbehind c h)

theorem isInfix_trim (cs : List Char) : trim cs <:+: cs := by
  obtain ⟨front, behind, hcs, -, -⟩ := exists_trim cs
  exact ⟨front, behind, by rw [List.append_assoc, ← hcs]⟩

theorem allBlank_iff : allBlank cs = true ↔ trim cs = [] := by
  unfold allBlank
  rw [List.all_eq_true]
  constructor
  · intro h
    have hrun : trim (cs ++ ([] ++ [])) = [] := trim_append h nofun nofun (List.forall_mem_nil _)
    rwa [List.append_nil, List.append_nil] at hrun
  · intro h c hc
    rcases isBlank_or_mem_trim hc with hblank | hmem
    · exact hblank
    · rw [h] at hmem
      cases hmem

end Worksheet.Text
