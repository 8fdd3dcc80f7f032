import Worksheet.Proofs.Grammar

/-!
How reading moves a cursor. A reader goes forward over some tokens and looks at one more at most, so
that it reads the same where these tokens are the same; or it stops at a place that it has come to,
and reports the next token or the one just read. Such readers are put together: one goes on behind
another one, behind a token, or where the next token decides between several.
-/
namespace Worksheet.Formula

/-- A token behind which there must be a factor. -/
inductive Token.WantsFactor : Token → Prop
  | operator {op : Operator} (h : op ≠ .unknown) : WantsFactor op.token
  | opening : WantsFactor (.mark "(")
  | comma : WantsFactor (.mark ",")

/-- Token lists that end in the middle of a phrase: where a factor must come, or in a range in front
of its second corner. -/
inductive BreaksOff : List Token → Prop
  | operand (front : List Token) {t : Token} (h : t.WantsFactor) : BreaksOff (front ++ [t])
  | corner (front : List Token) {cell : Token} (h : cell.kind = .cell) :
      BreaksOff (front ++ [cell, .mark ":"])

/-- Tokens at whose end a rule misses some: there are none at all, or they break off. -/
def Unfinished (ts : List Token) : Prop := ts = [] ∨ BreaksOff ts

theorem BreaksOff.append (front : List Token) {ts : List Token} (h : BreaksOff ts) :
    BreaksOff (front ++ ts) := by
  cases h with
  | operand behind ht =>
    rw [← List.append_assoc]
    exact .operand (front ++ behind) ht
  | corner behind hcell =>
    rw [← List.append_assoc]
    exact .corner (front ++ behind) hcell

theorem unfinished_append (front ts : List Token) (h : BreaksOff ts) : Unfinished (front ++ ts) :=
  .inr (h.append front)

theorem Unfinished.breaksOff {t : Token} {ts : List Token} (h : Unfinished ts)
    (ht : t.WantsFactor) : BreaksOff (t :: ts) := by
  rcases h with rfl | h
  · exact .operand [] ht
  · exact h.append [t]

end Worksheet.Formula

namespace Worksheet

/-! ### Faults of values -/

/-- The faults that the rules of the grammar find themselves, and not in the value of a token. -/
def Fault.isOfRules : Fault → Bool
  | .grammar .. | .nestedTooDeep => true
  | _ => false

namespace Value

mutual

theorem not_isOfRules_of_literal {f : Fault} :
    ∀ {v : Value}, literal v = .error f → f.isOfRules = false
  | .int n, h => by
    have hint : integerText n = .error f := h
    unfold integerText at hint
    by_cases hlong : (Text.natDigits n.natAbs).length > digitLimit
    · rw [if_pos hlong] at hint
      cases hint
      rfl
    · rw [if_neg hlong] at hint
      cases hint
  | .list items, h => not_isOfRules_of_literals (Formula.map_eq_error.mp h)
  | .record fields, h => not_isOfRules_of_fieldLiterals (Formula.map_eq_error.mp h)

theorem not_isOfRules_of_literals {f : Fault} :
    ∀ {items : List Value}, literals items = .error f → f.isOfRules = false
  | v :: rest, h => by
    rcases Formula.bind_eq_error.mp h with h | ⟨part, -, h⟩
    · exact not_isOfRules_of_literal h
    · rcases Formula.bind_eq_error.mp h with h | ⟨parts, -, h⟩
      · exact not_isOfRules_of_literals h
      · cases h

theorem not_isOfRules_of_fieldLiterals {f : Fault} :
    ∀ {fields : List (String × Value)}, fieldLiterals fields = .error f → f.isOfRules = false
  | (name, v) :: rest, h => by
    rcases Formula.bind_eq_error.mp h with h | ⟨part, -, h⟩
    · exact not_isOfRules_of_literal h
    · rcases Formula.bind_eq_error.mp h with h | ⟨parts, -, h⟩
      · exact not_isOfRules_of_fieldLiterals h
      · cases h

end

theorem not_isOfRules_of_toText {v : Value} {f : Fault} (h : v.toText = .error f) :
    f.isOfRules = false := by
  cases v with
  | text s => cases h
  | error code => cases h
  | _ => exact not_isOfRules_of_literal h

theorem not_isOfRules_of_toDouble {v : Value} {f : Fault} (h : v.toDouble = .error f) :
    f.isOfRules = false := by
  cases v with
  | bool b => cases h
  | float x => cases h
  | int n =>
    simp only [toDouble, Number.toFloat] at h
    split at h
    · cases h
    · cases h
      rfl
  | text s =>
    simp only [toDouble] at h
    split at h
    · cases h
    · cases h
      rfl
  | _ =>
    cases h
    rfl

end Value
end Worksheet

namespace Worksheet.Formula

/-! ### Readers -/

/-- Reading of anything from a cursor on. -/
abbrev Reader (α : Type) := Cursor → Except Stop (α × Cursor)

theorem length_of_unread {c : Cursor} {t : Token} {rest : List Token} (h : c.unread = t :: rest) :
    c.unread.length = c.next.unread.length + 1 := by
  rw [Cursor.next, h]
  rfl

theorem sees_congr {c d : Cursor} (h : d.unread.head? = c.unread.head?) (mark : String) :
    d.sees mark = c.sees mark := by
  have hhead (e : Cursor) :
      e.sees mark = e.unread.head?.elim false (·.spells .punctuation mark) := by
    unfold Cursor.sees
    cases e.unread with
    | nil => rfl
    | cons t ts => rfl
  rw [hhead, hhead, h]

section Frames
variable [CallStack]

/-- Where a reader stops that has started at `c` with so many frames left, and what it reports.
`ends` holds of the tokens at whose end it may miss some. -/
structure Stop.Within (s : Stop) (room : Nat) (ends : List Token → Prop) (c : Cursor) : Prop where
  start_le : c.position ≤ s.position
  le_end : s.position ≤ c.position + c.unread.length
  reported : ∀ cause k, s.fault = .grammar cause k →
    c.position ≤ k ∧ (k = s.position ∨ k + 1 = s.position)
  missed : ∀ k, s.fault = .grammar .unexpectedEnd k →
    k = c.position + c.unread.length ∧ s.position = k ∧ ends c.unread
  room_lt : s.fault = .nestedTooDeep → room < ample c.unread

/-- How a reader moves a cursor. It reads at least so many tokens, and where the same tokens have
the same one behind them, `deeper` reads the same; or it stops, and `deeper` stops in the same way
unless this is for the nesting. -/
structure Moves {α : Type} (least room : Nat) (ends : List Token → Prop) (reader deeper : Reader α)
    (c : Cursor) : Prop where
  reads : ∀ {a c'}, reader c = .ok (a, c') → ∃ front, least ≤ front.length ∧
    c.unread = front ++ c'.unread ∧ c'.position = c.position + front.length ∧
    ∀ rest, rest.head? = c'.unread.head? →
      deeper ⟨c.position, front ++ rest⟩ = .ok (a, ⟨c'.position, rest⟩)
  stops : ∀ {s}, reader c = .error s →
    s.Within room ends c ∧ (s.fault = .nestedTooDeep ∨ deeper c = .error s)

section Readers
variable {α β : Type} {least least' room room' : Nat} {ends ends' : List Token → Prop}
  {reader deeper reader' deeper' : Reader α} {c c' : Cursor} {t : Token} {rest front : List Token}
  {s : Stop}

/-- What the deeper reader gives where this one gives a result. -/
theorem Moves.deeper_eq {a : α} (h : Moves least room ends reader deeper c)
    (hread : reader c = .ok (a, c')) : deeper c = .ok (a, c') := by
  obtain ⟨front, -, hunread, -, hdeeper⟩ := h.reads hread
  have hsame := hdeeper c'.unread rfl
  rw [← hunread] at hsame
  exact hsame

theorem Stop.Within.of_later (h : s.Within room ends c') (hunread : c.unread = front ++ c'.unread)
    (hposition : c'.position = c.position + front.length)
    (hroom : room' ≤ room + 4 * front.length)
    (hends : ∀ ts, ends ts → ends' (front ++ ts)) : s.Within room' ends' c := by
  have hlength : c.unread.length = front.length + c'.unread.length := by
    rw [hunread, List.length_append]
  have hstart := h.start_le
  have hend := h.le_end
  refine ⟨by omega, by omega, fun cause k hk => ?_, fun k hk => ?_, fun hdeep => ?_⟩
  · obtain ⟨hle, hsame⟩ := h.reported cause k hk
    exact ⟨by omega, hsame⟩
  · obtain ⟨hlast, hsame, hmissed⟩ := h.missed k hk
    refine ⟨by omega, hsame, ?_⟩
    rw [hunread]
    exact hends _ hmissed
  · have hample := ample_append front c'.unread
    have hlater := h.room_lt hdeep
    rw [← hunread] at hample
    omega

theorem Moves.mono (h : Moves least room ends reader deeper c) (hleast : least' ≤ least)
    (hroom : room' ≤ room) (hends : ∀ ts, ends ts → ends' ts) :
    Moves least' room' ends' reader deeper c where
  reads hread := by
    obtain ⟨front, hfront, hmoved⟩ := h.reads hread
    exact ⟨front, Nat.le_trans hleast hfront, hmoved⟩
  stops hread := by
    obtain ⟨hs, hdeeper⟩ := h.stops hread
    exact ⟨hs.of_later (List.nil_append _).symm rfl hroom hends, hdeeper⟩

/-- A reader that decides by the next token is, in front of this token, one of its cases. -/
theorem Moves.of_head (h : Moves least room ends reader' deeper' c)
    (hreader : ∀ d : Cursor, d.unread.head? = c.unread.head? → reader d = reader' d)
    (hdeeper : ∀ d : Cursor, d.unread.head? = c.unread.head? → deeper d = deeper' d) :
    Moves least room ends reader deeper c where
  reads hread := by
    rw [hreader c rfl] at hread
    obtain ⟨front, hleast, hunread, hposition, hsame⟩ := h.reads hread
    refine ⟨front, hleast, hunread, hposition, fun rest hrest => ?_⟩
    rw [hdeeper ⟨_, front ++ rest⟩ (by simp only [hunread, List.head?_append, hrest])]
    exact hsame rest hrest
  stops hread := by
    rw [hreader c rfl] at hread
    rw [hdeeper c rfl]
    exact h.stops hread

/-- Go on behind a token. -/
theorem Moves.behind (h : Moves least room ends reader deeper c.next) (hc : c.unread = t :: rest)
    (hends : ∀ ts, ends ts → ends' (t :: ts)) :
    Moves (least + 1) (room + 4) ends' (fun d => reader d.next) (fun d => deeper d.next) c where
  reads hread := by
    obtain ⟨front, hleast, hunread, hposition, hsame⟩ := h.reads hread
    refine ⟨t :: front, Nat.succ_le_succ hleast, ?_, ?_, hsame⟩
    · rw [next_of_unread hc, hunread]
      rfl
    · rw [hposition, List.length_cons, Nat.add_comm front.length 1, ← Nat.add_assoc]
      rfl
  stops hread := by
    obtain ⟨hs, hsame⟩ := h.stops hread
    exact ⟨hs.of_later (next_of_unread hc) rfl (Nat.le_refl _) hends, hsame⟩

/-- Go on behind a token where no token can be missed. -/
theorem Moves.behind_complete (h : Moves least room (fun _ => False) reader deeper c.next)
    (hc : c.unread = t :: rest) :
    Moves (least + 1) room ends (fun d => reader d.next) (fun d => deeper d.next) c :=
  (h.behind hc fun _ => False.elim).mono (Nat.le_refl _) (Nat.le_add_right room 4)
    fun _ h => h

theorem Moves.behind_wanting (h : Moves least room Unfinished reader deeper c.next)
    (hc : c.unread = t :: rest) (ht : t.WantsFactor) :
    Moves (least + 1) (room + 4) BreaksOff (fun d => reader d.next) (fun d => deeper d.next) c :=
  h.behind hc fun _ hts => hts.breaksOff ht

/-- Read one thing and go on behind it. -/
theorem Moves.bind (h : Moves least room ends reader deeper c) (k k' : α → Reader β)
    (hk : ∀ a c', c'.unread.length + least ≤ c.unread.length →
      Moves least' room ends' (k a) (k' a) c')
    (hends : ∀ front ts, ends' ts → ends (front ++ ts)) :
    Moves (least + least') room ends (fun d => reader d >>= fun x => k x.1 x.2)
      (fun d => deeper d >>= fun x => k' x.1 x.2) c where
  reads hread := by
    obtain ⟨⟨a, c'⟩, hfirst, hlater⟩ := bind_eq_ok.mp hread
    obtain ⟨front, hleast, hunread, hposition, hsame⟩ := h.reads hfirst
    have hlength : c'.unread.length + least ≤ c.unread.length := by
      rw [hunread, List.length_append]
      omega
    obtain ⟨front', hleast', hunread', hposition', hsame'⟩ := (hk a c' hlength).reads hlater
    refine ⟨front ++ front', ?_, ?_, ?_, fun rest hrest => ?_⟩
    · rw [List.length_append]
      exact Nat.add_le_add hleast hleast'
    · rw [hunread, hunread', List.append_assoc]
    · rw [hposition', hposition, List.length_append, Nat.add_assoc]
    · have hhead : (front' ++ rest).head? = c'.unread.head? := by
        rw [hunread', List.head?_append, List.head?_append, hrest]
      rw [List.append_assoc, hsame (front' ++ rest) hhead]
      exact hsame' rest hrest
  stops hread := by
    rcases bind_eq_error.mp hread with hfirst | ⟨⟨a, c'⟩, hfirst, hlater⟩
    · obtain ⟨hs, hsame⟩ := h.stops hfirst
      refine ⟨hs, hsame.imp_right fun hsame => ?_⟩
      rw [hsame]
      rfl
    · obtain ⟨front, hleast, hunread, hposition, -⟩ := h.reads hfirst
      have hlength : c'.unread.length + least ≤ c.unread.length := by
        rw [hunread, List.length_append]
        omega
      obtain ⟨hs, hsame⟩ := (hk a c' hlength).stops hlater
      refine ⟨hs.of_later hunread hposition (Nat.le_add_right _ _) (hends front), ?_⟩
      rw [h.deeper_eq hfirst]
      exact hsame

theorem Moves.map (h : Moves least room ends reader deeper c) (f : α → β) :
    Moves least room ends (fun d => (reader d).map fun x => (f x.1, x.2))
      (fun d => (deeper d).map fun x => (f x.1, x.2)) c where
  reads hread := by
    obtain ⟨⟨a, c'⟩, hfirst, heq⟩ := map_eq_ok.mp hread
    cases heq
    obtain ⟨front, hleast, hunread, hposition, hsame⟩ := h.reads hfirst
    refine ⟨front, hleast, hunread, hposition, fun rest hrest => ?_⟩
    rw [hsame rest hrest]
    rfl
  stops hread := by
    obtain ⟨hs, hsame⟩ := h.stops (map_eq_error.mp hread)
    exact ⟨hs, hsame.imp_right fun hsame => map_eq_error.mpr hsame⟩

/-- A result that is ready. -/
theorem moves_here (a : α) :
    Moves 0 room ends (fun d => .ok (a, d)) (fun d => .ok (a, d)) c where
  reads hread := by
    cases hread
    exact ⟨[], Nat.le_refl 0, rfl, rfl, fun _ _ => rfl⟩
  stops hread := by cases hread

theorem moves_of_stop (hreader : reader c = .error s) (hdeeper : deeper c = .error s)
    (hs : s.Within room ends c) : Moves least room ends reader deeper c where
  reads hread := by
    rw [hreader] at hread
    cases hread
  stops hread := by
    rw [hreader] at hread
    cases hread
    exact ⟨hs, .inr hdeeper⟩

/-! ### Stops -/

/-- A reader that finds too few frames at its start. -/
theorem moves_of_tooDeep (hreader : reader c = c.tooDeep) (hroom : room < ample c.unread) :
    Moves least room ends reader deeper c where
  reads hread := by
    rw [hreader] at hread
    cases hread
  stops hread := by
    rw [hreader] at hread
    cases hread
    exact ⟨⟨Nat.le_refl _, Nat.le_add_right _ _, nofun, nofun, fun _ => hroom⟩, .inl rfl⟩

theorem within_stop {cause : GrammarFault} (h : cause ≠ .unexpectedEnd) :
    Stop.Within ⟨.grammar cause c.position, c.position⟩ room ends c := by
  refine ⟨Nat.le_refl _, Nat.le_add_right _ _, ?_, ?_, nofun⟩
  · rintro cause k ⟨⟩
    exact ⟨Nat.le_refl _, .inl rfl⟩
  · rintro k ⟨⟩
    exact absurd rfl h

theorem within_stopBehind {cause : GrammarFault} (hc : c.unread = t :: rest)
    (h : cause ≠ .unexpectedEnd) :
    Stop.Within ⟨.grammar cause c.position, c.position + 1⟩ room ends c := by
  refine ⟨Nat.le_succ _, ?_, ?_, ?_, nofun⟩
  · rw [hc, List.length_cons]
    exact Nat.add_le_add_left (Nat.le_add_left 1 _) _
  · rintro cause k ⟨⟩
    exact ⟨Nat.le_refl _, .inr rfl⟩
  · rintro k ⟨⟩
    exact absurd rfl h

theorem within_end (hc : c.unread = []) (hends : ends []) :
    Stop.Within ⟨.grammar .unexpectedEnd c.position, c.position⟩ room ends c := by
  refine ⟨Nat.le_refl _, Nat.le_add_right _ _, ?_, ?_, nofun⟩
  · rintro cause k ⟨⟩
    exact ⟨Nat.le_refl _, .inl rfl⟩
  · rintro k ⟨⟩
    rw [hc]
    exact ⟨rfl, rfl, hends⟩

theorem within_value {f : Fault} (hf : f.isOfRules = false) (hstart : c.position ≤ c'.position)
    (hend : c'.position ≤ c.position + c.unread.length) :
    Stop.Within ⟨f, c'.position⟩ room ends c := by
  refine ⟨hstart, hend, ?_, ?_, ?_⟩
  · rintro cause k rfl
    cases hf
  · rintro k rfl
    cases hf
  · rintro rfl
    cases hf

/-! ### Values and marks -/

/-- Convert the value of a token that has been read, and go on with it. -/
theorem Moves.check_bind {r : Except Fault β} (hr : ∀ f, r = .error f → f.isOfRules = false)
    {k k' : β → Reader α} (hk : ∀ b, Moves least room ends (k b) (k' b) c) :
    Moves least room ends (fun d => d.check r >>= fun b => k b d)
      (fun d => d.check r >>= fun b => k' b d) c := by
  cases r with
  | ok b => exact hk b
  | error f =>
    exact moves_of_stop rfl rfl (within_value (hr f rfl) (Nat.le_refl _) (Nat.le_add_right _ _))

theorem moves_check_map {r : Except Fault β} (hr : ∀ f, r = .error f → f.isOfRules = false)
    (g : β → α) :
    Moves 0 room ends (fun d => (d.check r).map fun b => (g b, d))
      (fun d => (d.check r).map fun b => (g b, d)) c := by
  cases r with
  | ok b => exact moves_here (g b)
  | error f =>
    exact moves_of_stop rfl rfl (within_value (hr f rfl) (Nat.le_refl _) (Nat.le_add_right _ _))

/-- Stop with the value of a token in the message, if it can be shown. -/
theorem moves_of_shown {v : Value} {stop : String → Stop}
    (hreader : reader c = c'.check v.literal >>= fun shown => .error (stop shown))
    (hdeeper : deeper c = c'.check v.literal >>= fun shown => .error (stop shown))
    (hstart : c.position ≤ c'.position) (hend : c'.position ≤ c.position + c.unread.length)
    (hstop : ∀ shown, (stop shown).Within room ends c) :
    Moves least room ends reader deeper c := by
  cases hshown : v.literal with
  | ok shown =>
    rw [hshown] at hreader hdeeper
    exact moves_of_stop hreader hdeeper (hstop shown)
  | error f =>
    rw [hshown] at hreader hdeeper
    exact moves_of_stop hreader hdeeper
      (within_value (Value.not_isOfRules_of_literal hshown) hstart hend)

/-- Choose by a mark: behind it one reader goes on, and without it another one. -/
theorem Moves.of_sees {mark : String} {seen seen' unseen unseen' : Reader α}
    (hseen : c.sees mark = true → Moves least room ends seen seen' c)
    (hunseen : c.sees mark = false → Moves least room ends unseen unseen' c) :
    Moves least room ends (fun d => if d.sees mark then seen d else unseen d)
      (fun d => if d.sees mark then seen' d else unseen' d) c := by
  cases hsees : c.sees mark with
  | true =>
    have hif (x y : Reader α) (d : Cursor) (hd : d.unread.head? = c.unread.head?) :
        (if d.sees mark then x d else y d) = x d := by
      rw [if_pos ((sees_congr hd mark).trans hsees)]
    exact (hseen hsees).of_head (hif _ _) (hif _ _)
  | false =>
    have hif (x y : Reader α) (d : Cursor) (hd : d.unread.head? = c.unread.head?) :
        (if d.sees mark then x d else y d) = y d := by
      rw [sees_congr hd mark, hsees]
      rfl
    exact (hunseen hsees).of_head (hif _ _) (hif _ _)

/-- A mark that must come next, and a result that is ready. -/
theorem moves_map_expect (mark : String) (a : α) :
    Moves 1 room ends (fun d => (d.expect mark).map fun d' => (a, d'))
      (fun d => (d.expect mark).map fun d' => (a, d')) c := by
  have hexpect (d : Cursor) : (d.expect mark).map (fun d' => (a, d')) =
      if d.sees mark then .ok (a, d.next) else d.stop (.expected mark) := by
    unfold Cursor.expect
    split
    · rfl
    · rfl
  simp only [hexpect]
  refine Moves.of_sees (fun hsees => ?_) (fun _ => moves_of_stop rfl rfl (within_stop nofun))
  obtain ⟨rest, hunread⟩ := sees_iff.mp hsees
  exact (moves_here a).behind_complete hunread

end Readers

end Frames

end Worksheet.Formula
