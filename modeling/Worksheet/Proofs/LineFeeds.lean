import Worksheet.Proofs.JsonLines

/-!
Bytes cut at a line feed. No sequence of bytes goes on with a line feed, so what stands in front of
one and what stands behind it are decoded apart, and the characters on both sides are cut into lines
apart. Only a carriage return in front of the line feed ends its line together with it; empty lines
aside, this makes no difference.
-/
namespace Worksheet.Text

/-! ### Characters -/

theorem Sequence.low_start? {b : Nat} {s : Sequence} (h : Sequence.start? b = some s) :
    0x80 ≤ s.low := by
  unfold Sequence.start? at h
  split_ifs at h
  all_goals simp [← Option.some.inj h]

theorem Sequence.low_extend (s : Sequence) (b : Nat) : (s.extend b).low = 0x80 := rfl

/-- An open sequence goes on with no ASCII character. -/
def RefusesAscii (open? : Option Sequence) : Prop := ∀ s ∈ open?, 0x80 ≤ s.low

theorem refusesAscii_none : RefusesAscii none := by
  intro s hs
  cases hs

theorem refusesAscii_startByte (b : Nat) (seen : List Char) :
    RefusesAscii (startByte b seen).1 := by
  unfold startByte
  split
  · exact refusesAscii_none
  · split
    · rename_i s hs
      intro s' hs'
      cases hs'
      exact Sequence.low_start? hs
    · exact refusesAscii_none

theorem refusesAscii_readByte (open? : Option Sequence) (b : Nat) (seen : List Char) :
    RefusesAscii (readByte open? b seen).1 := by
  cases open? with
  | none => exact refusesAscii_startByte b seen
  | some s =>
    unfold readByte
    dsimp only
    split
    · split
      · exact refusesAscii_none
      · intro s' hs'
        rw [← Option.mem_some.mp hs']
        exact (s.low_extend b).ge
    · exact refusesAscii_startByte b _

theorem startByte_append (b : Nat) (seen before : List Char) :
    startByte b (seen ++ before) = ((startByte b seen).1, (startByte b seen).2 ++ before) := by
  unfold startByte
  split
  · rfl
  · split
    · rfl
    · rfl

theorem readByte_append (open? : Option Sequence) (b : Nat) (seen before : List Char) :
    readByte open? b (seen ++ before) =
      ((readByte open? b seen).1, (readByte open? b seen).2 ++ before) := by
  unfold readByte
  split
  · exact startByte_append b seen before
  · split
    · split
      · rfl
      · rfl
    · exact startByte_append b (replacement :: seen) before

/-- The characters before a place stand in front of those behind it. -/
theorem decodeFrom_append (open? : Option Sequence) (seen before : List Char)
    (bytes : List UInt8) :
    decodeFrom open? (seen ++ before) bytes = before.reverse ++ decodeFrom open? seen bytes := by
  induction bytes generalizing open? seen with
  | nil =>
    have hreverse (seen : List Char) : (seen ++ before).reverse = before.reverse ++ seen.reverse :=
      List.reverse_append
    cases open? with
    | none => exact hreverse seen
    | some s => exact hreverse (replacement :: seen)
  | cons b rest ih =>
    rw [decodeFrom, decodeFrom, readByte_append]
    exact ih _ _

/-- A line feed ends the sequence before it, and is a character of its own. -/
theorem decodeFrom_lineFeed {open? : Option Sequence} (h : RefusesAscii open?) (seen : List Char)
    (front behind : List UInt8) :
    decodeFrom open? seen (front ++ 10 :: behind) =
      decodeFrom open? seen front ++ '\n' :: decodeUtf8 behind := by
  induction front generalizing open? seen with
  | nil =>
    have hbehind (closed : List Char) : decodeFrom none ('\n' :: closed) behind =
        closed.reverse ++ '\n' :: decodeUtf8 behind := by
      rw [← List.nil_append ('\n' :: closed), decodeFrom_append, List.reverse_cons,
        List.append_assoc]
      rfl
    cases open? with
    | none => exact hbehind seen
    | some s =>
      have hlow : 0x80 ≤ s.low := h s rfl
      have hread : readByte (some s) 10 seen = (none, '\n' :: replacement :: seen) := by
        have hends : ¬(decide (s.low ≤ 10) && decide (10 ≤ s.high)) = true := by
          simp
          omega
        unfold readByte
        dsimp only
        rw [if_neg hends]
        rfl
      rw [List.nil_append, decodeFrom]
      change decodeFrom (readByte (some s) 10 seen).1 (readByte (some s) 10 seen).2 behind = _
      rw [hread]
      exact hbehind (replacement :: seen)
  | cons b rest ih =>
    rw [List.cons_append, decodeFrom, decodeFrom]
    exact ih (refusesAscii_readByte open? b.toNat seen) _

/-- What stands in front of a line feed and behind it is decoded apart. -/
theorem decodeUtf8_lineFeed (front behind : List UInt8) :
    decodeUtf8 (front ++ 10 :: behind) = decodeUtf8 front ++ '\n' :: decodeUtf8 behind :=
  decodeFrom_lineFeed refusesAscii_none [] front behind

/-! ### Lines -/

theorem linesFrom_lineFeed (cs line : List Char) (seen : List (List Char)) :
    linesFrom ('\n' :: cs) line seen = linesFrom cs [] (line.reverse :: seen) := by
  rw [linesFrom, if_pos (by decide)]
  exact fun _ heq _ => absurd heq (by decide)

/-- The lines before a place stand in front of those behind it. -/
theorem linesFrom_append_seen (cs line : List Char) (seen before : List (List Char)) :
    linesFrom cs line (seen ++ before) = before.reverse ++ linesFrom cs line seen := by
  induction cs, line, seen using linesFrom.induct with
  | case1 line seen =>
    have hreverse (seen : List (List Char)) :
        (seen ++ before).reverse = before.reverse ++ seen.reverse := List.reverse_append
    unfold linesFrom
    split
    · exact hreverse seen
    · exact hreverse (line.reverse :: seen)
  | case2 rest line seen ih =>
    rw [linesFrom, linesFrom]
    exact ih
  | case3 c rest line seen hreturn hbreak ih =>
    rw [linesFrom, linesFrom, if_pos hbreak, if_pos hbreak]
    · exact ih
    · exact hreturn
    · exact hreturn
  | case4 c rest line seen hreturn hbreak ih =>
    rw [linesFrom, linesFrom, if_neg hbreak, if_neg hbreak]
    · exact ih
    · exact hreturn
    · exact hreturn

/-- The lines of a text without the empty ones. -/
def parts (cs : List Char) : List (List Char) := (lines cs).filter (!·.isEmpty)

/-- Behind an ended line stand the lines of what follows. -/
theorem filter_linesFrom_nil (cs : List Char) (seen : List (List Char)) :
    (linesFrom cs [] seen).filter (!·.isEmpty) = seen.reverse.filter (!·.isEmpty) ++ parts cs := by
  rw [← List.nil_append seen, linesFrom_append_seen, List.filter_append, List.nil_append]
  rfl

theorem filter_linesFrom_lineFeed (front behind line : List Char) (seen : List (List Char)) :
    (linesFrom (front ++ '\n' :: behind) line seen).filter (!·.isEmpty) =
      (linesFrom front line seen).filter (!·.isEmpty) ++ parts behind := by
  induction front, line, seen using linesFrom.induct with
  | case1 line seen =>
    rw [List.nil_append, linesFrom_lineFeed, filter_linesFrom_nil, List.reverse_cons,
      List.filter_append, linesFrom]
    cases line with
    | nil => simp
    | cons c rest => simp
  | case2 rest line seen ih =>
    rw [linesFrom]
    exact ih
  | case3 c rest line seen hreturn hbreak ih =>
    by_cases hlast : c = '\r' ∧ rest = []
    · -- the line feed goes with the carriage return
      obtain ⟨rfl, rfl⟩ := hlast
      have hboth : linesFrom ('\r' :: '\n' :: behind) line seen =
        linesFrom behind [] (line.reverse :: seen) := by rw [linesFrom]
      have hfront : linesFrom ['\r'] line seen = (line.reverse :: seen).reverse := rfl
      rw [List.cons_append, List.nil_append, hboth, hfront, filter_linesFrom_nil]
    · have hapart : ∀ cs, c = '\r' → rest ++ '\n' :: behind = '\n' :: cs → False := by
        intro cs hc hrest
        cases rest with
        | nil => exact hlast ⟨hc, rfl⟩
        | cons c' rest' => exact hreturn rest' hc (by rw [(List.cons.inj hrest).1])
      rw [List.cons_append, linesFrom, linesFrom, if_pos hbreak, if_pos hbreak]
      · exact ih
      · exact hreturn
      · exact hapart
  | case4 c rest line seen hreturn hbreak ih =>
    have hother : c ≠ '\r' := by
      rintro rfl
      exact hbreak (by decide)
    rw [List.cons_append, linesFrom, linesFrom, if_neg hbreak, if_neg hbreak]
    · exact ih
    · exact hreturn
    · exact fun _ hc => absurd hc hother

/-- The lines in front of a line feed and behind it, the empty ones aside. -/
theorem parts_lineFeed (front behind : List Char) :
    parts (front ++ '\n' :: behind) = parts front ++ parts behind :=
  filter_linesFrom_lineFeed front behind [] []

/-- A text without a line break is one line, unless it is empty. -/
theorem parts_of_whole {cs : List Char} (h : ∀ c ∈ cs, isLineBreak c = false) :
    parts cs = [cs].filter (!·.isEmpty) := by
  cases cs with
  | nil => rfl
  | cons c rest =>
    have hlast : linesFrom [] ((c :: rest).reverse ++ []) [] = [c :: rest] := by
      have hnone : ((c :: rest).reverse ++ []).isEmpty = false := by simp
      rw [linesFrom, hnone, List.append_nil, List.reverse_reverse]
      rfl
    have hlines : lines (c :: rest) = [c :: rest] := by
      rw [← hlast, ← linesFrom_append h, List.append_nil]
      rfl
    unfold parts
    rw [hlines]

/-- Empty texts do not matter to what finds nothing in them. -/
theorem filterMap_nonempty {α : Type} {g : List Char → Option α} (hempty : g [] = none)
    (texts : List (List Char)) : (texts.filter (!·.isEmpty)).filterMap g = texts.filterMap g := by
  rw [List.filterMap_filter]
  apply List.filterMap_congr
  intro text htext
  cases text with
  | nil => exact hempty.symm
  | cons c rest => rfl

/-- Nor do empty lines. -/
theorem filterMap_parts {α : Type} {g : List Char → Option α} (hempty : g [] = none)
    (cs : List Char) : (parts cs).filterMap g = (lines cs).filterMap g :=
  filterMap_nonempty hempty (lines cs)

end Worksheet.Text
