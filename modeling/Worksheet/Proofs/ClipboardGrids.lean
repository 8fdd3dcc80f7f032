import Worksheet.Sheet.Clipboard

/-!
Grids written as clipboard text. The cells of a row are written with tabs between them and every row
with its end, in one of three conventions; any text that is written so is read back as its grid.
Without the end of the last row a grid is read back, too, unless its last row is one empty cell
below others: then nothing is left that tells of this row. Every text is read as a grid that can be
written.
-/
namespace Worksheet.Clipboard

open Text

/-- How the end of a row is marked. -/
inductive RowEnd where
  | feed
  | carriage
  | both
  deriving DecidableEq, Repr

def RowEnd.text : RowEnd → String
  | .feed => "\n"
  | .carriage => "\r"
  | .both => "\r\n"

/-- The cells of a row with tabs between them. -/
def rowText (row : List String) : String := "\t".intercalate row

/-- The rows of a grid, each with its end. -/
def closedText (ending : RowEnd) (grid : List (List String)) : String :=
  String.join (grid.map fun row => rowText row ++ ending.text)

/-- The rows of a grid with the end of a row between them, so that the last one has none. -/
def openText (ending : RowEnd) (grid : List (List String)) : String :=
  ending.text.intercalate (grid.map rowText)

/-- Characters among which none has a meaning of its own on a clipboard. -/
structure Plain (cs : List Char) : Prop where
  no_tab : '\t' ∉ cs
  no_feed : '\n' ∉ cs
  no_return : '\r' ∉ cs

/-- A grid of at least one row, of at least one cell each, in cells of plain text. Rows may differ
in length. -/
structure Writable (grid : List (List String)) : Prop where
  ne_nil : grid ≠ []
  row_ne_nil : ∀ row ∈ grid, row ≠ []
  plain : ∀ row ∈ grid, ∀ cell ∈ row, Plain cell.toList

/-! ### Parts between marks -/

section Parts
variable {mark c : Char} {cs part : List Char}

theorem splitAt_eq_splitOn (mark : Char) (cs : List Char) : splitAt mark cs = cs.splitOn mark := by
  induction cs with
  | nil => rfl
  | cons c rest ih =>
    rw [List.splitOn_cons_eq_if_modifyHead, splitAt, ih]
    split
    · rfl
    · obtain ⟨part, parts, hparts⟩ := List.exists_cons_of_ne_nil (List.splitOn_ne_nil mark rest)
      rw [hparts]
      rfl

theorem splitAt_ne_nil (mark : Char) (cs : List Char) : splitAt mark cs ≠ [] := by
  rw [splitAt_eq_splitOn]
  exact List.splitOn_ne_nil mark cs

/-- What is put together with marks is cut at them again. -/
theorem splitAt_intercalate {parts : List (List Char)} (hne : parts ≠ [])
    (h : ∀ part ∈ parts, mark ∉ part) : splitAt mark ([mark].intercalate parts) = parts := by
  rw [splitAt_eq_splitOn]
  exact List.splitOn_intercalate mark h hne

/-- No part holds the mark, and all its characters are characters of the whole. -/
theorem mem_splitAt (hpart : part ∈ splitAt mark cs) (hc : c ∈ part) : c ≠ mark ∧ c ∈ cs := by
  induction cs generalizing part with
  | nil =>
    rw [splitAt, List.mem_singleton] at hpart
    subst hpart
    exact absurd hc List.not_mem_nil
  | cons first rest ih =>
    rw [splitAt] at hpart
    by_cases hfirst : first = mark
    · rw [if_pos (beq_iff_eq.mpr hfirst)] at hpart
      rcases List.mem_cons.mp hpart with rfl | hpart
      · exact absurd hc List.not_mem_nil
      · exact ⟨(ih hpart hc).1, List.mem_cons_of_mem first (ih hpart hc).2⟩
    · rw [if_neg (by simpa using hfirst)] at hpart
      obtain ⟨front, others, hparts⟩ := List.exists_cons_of_ne_nil (splitAt_ne_nil mark rest)
      rw [hparts] at hpart ih
      rcases List.mem_cons.mp hpart with rfl | hpart
      · rcases List.mem_cons.mp hc with rfl | hc
        · exact ⟨hfirst, List.mem_cons_self⟩
        · have hfront := ih List.mem_cons_self hc
          exact ⟨hfront.1, List.mem_cons_of_mem first hfront.2⟩
      · have hother := ih (List.mem_cons_of_mem front hpart) hc
        exact ⟨hother.1, List.mem_cons_of_mem first hother.2⟩

end Parts

/-! ### Ends of rows -/

section Ends
variable {line rest : List Char} {lines : List (List Char)}

theorem not_mem_intercalate {mark c : Char} (hmark : c ≠ mark) (h : ∀ line ∈ lines, c ∉ line) :
    c ∉ [mark].intercalate lines := by
  induction lines with
  | nil => exact List.not_mem_nil
  | cons line rest ih =>
    obtain ⟨hline, hrest⟩ := List.forall_mem_cons.mp h
    by_cases hlast : rest = []
    · subst hlast
      rw [List.intercalate_singleton]
      exact hline
    · rw [List.intercalate_cons_of_ne_nil hlast]
      simp only [List.mem_append, List.mem_singleton, not_or]
      exact ⟨⟨hline, hmark⟩, ih hrest⟩

/-- Characters of a row are left as they are. -/
theorem unifyBreaks_append (hfeed : '\n' ∉ line) (hreturn : '\r' ∉ line) (rest : List Char) :
    unifyBreaks (line ++ rest) = line ++ unifyBreaks rest := by
  induction line with
  | nil => rfl
  | cons c behind ih =>
    simp only [List.mem_cons, not_or] at hfeed hreturn
    have hc : (c == '\r') = false := beq_eq_false_iff_ne.mpr (Ne.symm hreturn.1)
    rw [List.cons_append, unifyBreaks, hc, ih hfeed.2 hreturn.2]
    · rfl
    · intro _ heq
      exact absurd heq.symm hreturn.1

/-- A carriage return with no line feed behind it is the end of a row. -/
theorem unifyBreaks_carriage (h : '\n' ∉ rest) :
    unifyBreaks ('\r' :: rest) = '\n' :: unifyBreaks rest := by
  rw [unifyBreaks]
  · rfl
  · rintro behind - rfl
    exact h List.mem_cons_self

/-- All ends of rows are read as line feeds. -/
theorem unifyBreaks_intercalate (ending : RowEnd)
    (h : ∀ line ∈ lines, '\n' ∉ line ∧ '\r' ∉ line) :
    unifyBreaks (ending.text.toList.intercalate lines) = ['\n'].intercalate lines := by
  induction lines with
  | nil => rfl
  | cons line rest ih =>
    obtain ⟨⟨hfeed, hreturn⟩, hrest⟩ := List.forall_mem_cons.mp h
    by_cases hlast : rest = []
    · subst hlast
      have hline := unifyBreaks_append hfeed hreturn []
      rw [List.append_nil] at hline
      rw [List.intercalate_singleton, List.intercalate_singleton, hline]
      exact List.append_nil line
    · rw [List.intercalate_cons_of_ne_nil hlast, List.intercalate_cons_of_ne_nil hlast,
        List.append_assoc, List.append_assoc, unifyBreaks_append hfeed hreturn, ← ih hrest]
      apply congrArg (line ++ ·)
      cases ending with
      | feed => rfl
      | both => rfl
      | carriage =>
        -- nothing behind this end is a line feed, which would be taken for a part of it
        apply unifyBreaks_carriage
        exact not_mem_intercalate (by decide) fun next hnext => (hrest next hnext).1

theorem carriage_not_mem_unifyBreaks (cs : List Char) : '\r' ∉ unifyBreaks cs := by
  induction cs using unifyBreaks.induct with
  | case1 => exact List.not_mem_nil
  | case2 rest ih =>
    rw [unifyBreaks]
    simpa using ih
  | case3 c rest hboth ih =>
    rw [unifyBreaks]
    · split
      · simpa using ih
      · rename_i hc
        have hne : '\r' ≠ c := fun heq => hc (beq_iff_eq.mpr heq.symm)
        simp only [List.mem_cons, not_or]
        exact ⟨hne, ih⟩
    · exact hboth

end Ends

/-! ### The last line -/

section Last
variable {lines : List (List Char)}

theorem dropFinal_concat_nil (h : lines ≠ []) : dropFinal (lines ++ [[]]) = lines := by
  have hlength : 0 < lines.length := List.length_pos_iff.mpr h
  unfold dropFinal
  rw [if_pos, List.dropLast_concat]
  simp only [List.length_append, List.length_singleton, List.getLast?_concat, Bool.and_eq_true,
    decide_eq_true_eq, beq_self_eq_true, and_true]
  omega

/-- Lines are left as they are unless the last one is empty and not the only one. -/
theorem dropFinal_eq_self_iff :
    dropFinal lines = lines ↔ ¬ (1 < lines.length ∧ lines.getLast? = some []) := by
  unfold dropFinal
  by_cases h : 1 < lines.length ∧ lines.getLast? = some []
  · have hshort : lines.dropLast ≠ lines := by
      intro heq
      have hlength := congrArg List.length heq
      rw [List.length_dropLast] at hlength
      omega
    rw [if_pos (by simpa using h)]
    exact iff_of_false hshort (not_not_intro h)
  · rw [if_neg (by simpa using h)]
    exact iff_of_true rfl h

theorem dropFinal_subset (lines : List (List Char)) : dropFinal lines ⊆ lines := by
  unfold dropFinal
  split
  · exact List.dropLast_subset lines
  · exact List.Subset.refl lines

theorem dropFinal_ne_nil (h : lines ≠ []) : dropFinal lines ≠ [] := by
  unfold dropFinal
  split
  · rename_i hfinal
    simp only [Bool.and_eq_true, decide_eq_true_eq] at hfinal
    apply List.ne_nil_of_length_pos
    rw [List.length_dropLast]
    omega
  · exact h

end Last

/-! ### Reading what is written -/

/-- The characters of the cells of a row with tabs between them. -/
def rowChars (row : List String) : List Char := ['\t'].intercalate (row.map String.toList)

section Written
variable {grid : List (List String)} {row : List String} {lines : List (List Char)}

theorem toList_rowText (row : List String) : (rowText row).toList = rowChars row := by
  unfold rowText
  rw [String.toList_intercalate]
  rfl

/-- A text of rows with their ends is one of rows with ends between them, behind which an empty line
stands. -/
theorem toList_closedText (ending : RowEnd) (grid : List (List String)) :
    (closedText ending grid).toList =
      ending.text.toList.intercalate (grid.map rowChars ++ [[]]) := by
  unfold closedText
  rw [String.toList_join]
  induction grid with
  | nil => rfl
  | cons row rest ih =>
    rw [List.map_cons, List.flatMap_cons, ih, List.map_cons, List.cons_append,
      List.intercalate_cons_of_ne_nil (by simp), String.toList_append, toList_rowText]

theorem toList_openText (ending : RowEnd) (grid : List (List String)) :
    (openText ending grid).toList = ending.text.toList.intercalate (grid.map rowChars) := by
  have hrows : (String.toList ∘ rowText) = rowChars := funext toList_rowText
  unfold openText
  rw [String.toList_intercalate, List.map_map, hrows]

/-- The cells of a row are read back. -/
theorem splitAt_rowChars (hne : row ≠ []) (h : ∀ cell ∈ row, Plain cell.toList) :
    (splitAt '\t' (rowChars row)).map String.ofList = row := by
  have htab : ∀ part ∈ row.map String.toList, '\t' ∉ part := by
    intro part hpart
    obtain ⟨cell, hcell, rfl⟩ := List.mem_map.mp hpart
    exact (h cell hcell).no_tab
  unfold rowChars
  rw [splitAt_intercalate (by simpa using hne) htab, List.map_map]
  simp

theorem rowChars_eq_nil_iff (hne : row ≠ []) : rowChars row = [] ↔ row = [""] := by
  unfold rowChars
  obtain ⟨cell, rest, rfl⟩ := List.exists_cons_of_ne_nil hne
  by_cases hrest : rest = []
  · subst hrest
    simp
  · rw [List.map_cons, List.intercalate_cons_of_ne_nil (by simpa using hrest)]
    simp [hrest]

theorem Writable.no_breaks (h : Writable grid) :
    ∀ line ∈ grid.map rowChars, '\n' ∉ line ∧ '\r' ∉ line := by
  intro line hline
  obtain ⟨row, hrow, rfl⟩ := List.mem_map.mp hline
  constructor
  · apply not_mem_intercalate (by decide)
    intro part hpart
    obtain ⟨cell, hcell, rfl⟩ := List.mem_map.mp hpart
    exact (h.plain row hrow cell hcell).no_feed
  · apply not_mem_intercalate (by decide)
    intro part hpart
    obtain ⟨cell, hcell, rfl⟩ := List.mem_map.mp hpart
    exact (h.plain row hrow cell hcell).no_return

/-- Lines with an end of a row between them are read as these lines. -/
theorem parse_of_lines {text : String} {ending : RowEnd} (hne : lines ≠ [])
    (hlines : ∀ line ∈ lines, '\n' ∉ line ∧ '\r' ∉ line)
    (htext : text.toList = ending.text.toList.intercalate lines) :
    parse text = (dropFinal lines).map fun line => (splitAt '\t' line).map String.ofList := by
  unfold parse grid
  rw [htext, unifyBreaks_intercalate ending hlines,
    splitAt_intercalate hne fun line hline => (hlines line hline).1, List.map_map]
  rfl

/-- The rows of a grid are read back. -/
theorem Writable.map_rowChars (h : Writable grid) :
    ((grid.map rowChars).map fun line => (splitAt '\t' line).map String.ofList) = grid := by
  have hrows : ∀ row ∈ grid, (splitAt '\t' (rowChars row)).map String.ofList = row :=
    fun row hrow => splitAt_rowChars (h.row_ne_nil row hrow) (h.plain row hrow)
  rw [List.map_map]
  exact (List.map_congr_left hrows).trans (List.map_id' grid)

theorem Writable.getLast?_rowChars (h : Writable grid) :
    (grid.map rowChars).getLast? = some [] ↔ grid.getLast? = some [""] := by
  rw [List.getLast?_map, Option.map_eq_some_iff]
  constructor
  · rintro ⟨row, hrow, hnil⟩
    have hne := h.row_ne_nil row (List.mem_of_getLast? hrow)
    rw [hrow, (rowChars_eq_nil_iff hne).mp hnil]
  · intro hlast
    exact ⟨[""], hlast, rfl⟩

theorem parse_closedText (h : Writable grid) (ending : RowEnd) :
    parse (closedText ending grid) = grid := by
  have hrows : grid.map rowChars ≠ [] := by simpa using h.ne_nil
  have hlines : ∀ line ∈ grid.map rowChars ++ [[]], '\n' ∉ line ∧ '\r' ∉ line := by
    rw [List.forall_mem_append]
    exact ⟨h.no_breaks, by simp⟩
  rw [parse_of_lines (by simp) hlines (toList_closedText ending grid),
    dropFinal_concat_nil hrows, h.map_rowChars]

/-- Without the end of the last row a grid is read back, but for a last row of one empty cell that
is not the only row. -/
theorem parse_openText_iff (h : Writable grid) (ending : RowEnd) :
    parse (openText ending grid) = grid ↔ ¬ (1 < grid.length ∧ grid.getLast? = some [""]) := by
  have hrows : grid.map rowChars ≠ [] := by simpa using h.ne_nil
  have hparse := parse_of_lines hrows h.no_breaks (toList_openText ending grid)
  have hsame : dropFinal (grid.map rowChars) = grid.map rowChars ↔
      ¬ (1 < grid.length ∧ grid.getLast? = some [""]) := by
    rw [dropFinal_eq_self_iff, List.length_map, h.getLast?_rowChars]
  rw [hparse, ← hsame]
  constructor
  · intro hgrid
    -- a line that is left out would be missing from the grid
    have hlength := congrArg List.length hgrid
    rw [List.length_map] at hlength
    apply dropFinal_eq_self_iff.mpr
    rintro ⟨hmany, hlast⟩
    have hdrop : dropFinal (grid.map rowChars) = (grid.map rowChars).dropLast :=
      if_pos (Bool.and_eq_true_iff.mpr ⟨decide_eq_true hmany, beq_iff_eq.mpr hlast⟩)
    rw [hdrop, List.length_dropLast, List.length_map] at hlength
    rw [List.length_map] at hmany
    omega
  · intro hkept
    rw [hkept, h.map_rowChars]

end Written

/-! ### Grids that are read -/

section Read
variable {text : String} {row : List String}

theorem exists_line_of_mem_parse (h : row ∈ parse text) :
    ∃ line ∈ splitAt '\n' (unifyBreaks text.toList),
      row = (splitAt '\t' line).map String.ofList := by
  unfold parse grid at h
  obtain ⟨parts, hparts, rfl⟩ := List.mem_map.mp h
  obtain ⟨line, hline, rfl⟩ := List.mem_map.mp hparts
  exact ⟨line, dropFinal_subset _ hline, rfl⟩

theorem parse_ne_nil (text : String) : parse text ≠ [] := by
  unfold parse grid
  simp only [ne_eq, List.map_eq_nil_iff]
  exact dropFinal_ne_nil (splitAt_ne_nil _ _)

/-- A line from a clipboard has at least one cell. -/
theorem ne_nil_of_mem_parse (h : row ∈ parse text) : row ≠ [] := by
  obtain ⟨line, -, rfl⟩ := exists_line_of_mem_parse h
  rw [ne_eq, List.map_eq_nil_iff]
  exact splitAt_ne_nil _ _

/-- Whatever stands on a clipboard is read as a grid that can be written. -/
theorem writable_parse (text : String) : Writable (parse text) := by
  refine ⟨parse_ne_nil text, fun row hrow => ne_nil_of_mem_parse hrow, ?_⟩
  intro row hrow cell hcell
  obtain ⟨line, hline, rfl⟩ := exists_line_of_mem_parse hrow
  obtain ⟨part, hpart, rfl⟩ := List.mem_map.mp hcell
  rw [String.toList_ofList]
  refine ⟨fun htab => ?_, fun hfeed => ?_, fun hreturn => ?_⟩
  · exact (mem_splitAt hpart htab).1 rfl
  · have hmem := (mem_splitAt hpart hfeed).2
    exact (mem_splitAt hline hmem).1 rfl
  · have hmem := (mem_splitAt hpart hreturn).2
    exact carriage_not_mem_unifyBreaks _ (mem_splitAt hline hmem).2

end Read

/-- Reading undoes writing: a grid with at least one cell in every row, however long its rows are,
is read back from its text when every row has its end, whichever of the three this is. Without the
end of the last row it is read back just when that row is not one empty cell below others. And every
text is read as such a grid, which is read back from its text with line feeds. -/
theorem parse_of_written :
    (∀ (ending : RowEnd) (grid : List (List String)), Writable grid →
      parse (closedText ending grid) = grid ∧
      (parse (openText ending grid) = grid ↔
        ¬ (1 < grid.length ∧ grid.getLast? = some [""]))) ∧
    ∀ text, Writable (parse text) ∧ parse (closedText .feed (parse text)) = parse text :=
  ⟨fun ending _ h => ⟨parse_closedText h ending, parse_openText_iff h ending⟩,
    fun text => ⟨writable_parse text, parse_closedText (writable_parse text) .feed⟩⟩

/-- A row that ends with an empty cell above a row of nothing else, with both characters at the ends
of rows. The last end is all that tells of the last row. -/
theorem parse_of_written_ragged :
    Writable [["a", ""], [""]] ∧ closedText .both [["a", ""], [""]] = "a\t\r\n\r\n" ∧
      parse "a\t\r\n\r\n" = [["a", ""], [""]] ∧ parse "a\t\r\n" ≠ [["a", ""], [""]] ∧
      Writable (parse "a\t\r\n") := by
  have hgrid : Writable [["a", ""], [""]] := by
    refine ⟨by simp, by simp, ?_⟩
    simp only [List.forall_mem_cons]
    exact ⟨⟨⟨by decide, by decide, by decide⟩, ⟨by decide, by decide, by decide⟩, by simp⟩,
      ⟨⟨by decide, by decide, by decide⟩, by simp⟩, by simp⟩
  have hclosed : closedText .both [["a", ""], [""]] = "a\t\r\n\r\n" := by rfl
  have hopen : openText .both [["a", ""], [""]] = "a\t\r\n" := by rfl
  obtain ⟨hwritten, hread⟩ := parse_of_written
  obtain ⟨hparse, hshort⟩ := hwritten .both _ hgrid
  rw [hclosed] at hparse
  rw [hopen] at hshort
  refine ⟨hgrid, hclosed, hparse, fun h => hshort.mp h (by decide), (hread "a\t\r\n").1⟩

end Worksheet.Clipboard
