import Mathlib.Data.List.TakeWhile
import Worksheet.Formula.Parser

/-!
Trees that come from text. Whatever a formula says, its constants are numbers and its cells are
spelled with ASCII letters and digits: each rule of the grammar makes such a tree of tokens that the
lexer gives.
-/
namespace Worksheet.Formula

open Text

section Results
variable {ε α β : Type}

theorem bind_eq_ok {x : Except ε α} {f : α → Except ε β} {b : β} :
    x >>= f = .ok b ↔ ∃ a, x = .ok a ∧ f a = .ok b := by
  cases x with
  | error e => simp [Bind.bind, Except.bind]
  | ok a => simp [Bind.bind, Except.bind]

theorem map_eq_ok {x : Except ε α} {f : α → β} {b : β} :
    x.map f = .ok b ↔ ∃ a, x = .ok a ∧ f a = b := by
  cases x with
  | error e => simp [Except.map]
  | ok a => simp [Except.map]

theorem bind_eq_error {x : Except ε α} {f : α → Except ε β} {e : ε} :
    x >>= f = .error e ↔ x = .error e ∨ ∃ a, x = .ok a ∧ f a = .error e := by
  cases x with
  | error e => simp [Bind.bind, Except.bind]
  | ok a => simp [Bind.bind, Except.bind]

theorem map_eq_error {x : Except ε α} {f : α → β} {e : ε} :
    x.map f = .error e ↔ x = .error e := by
  cases x with
  | error e => simp [Except.map]
  | ok a => simp [Except.map]

end Results

/-! ### Tokens -/

/-- ASCII letters and digits only. -/
def IsWord (cs : List Char) : Prop := ∀ c ∈ cs, isAsciiLetter c = true ∨ isAsciiDigit c = true

/-- A token that is spelled with a word if it is a cell. -/
def Token.IsPlain (t : Token) : Prop :=
  t.kind = .cell → ∃ word, IsWord word ∧ t.value = .text (String.ofList word)

theorem isWord_append {cs ds : List Char} (hc : IsWord cs) (hd : IsWord ds) :
    IsWord (cs ++ ds) := by
  intro c h
  rcases List.mem_append.mp h with h | h
  · exact hc c h
  · exact hd c h

theorem isWord_takeWhile_letters (cs : List Char) : IsWord (cs.takeWhile isAsciiLetter) :=
  fun _ h => .inl (List.mem_takeWhile_imp h)

theorem isWord_takeWhile_digits (cs : List Char) : IsWord (cs.takeWhile isAsciiDigit) :=
  fun _ h => .inr (List.mem_takeWhile_imp h)

theorem isPlain_of_kind_ne {t : Token} (h : t.kind ≠ .cell) : t.IsPlain := fun hk => absurd hk h

theorem nameToken_isPlain {letters digits : List Char} (hl : IsWord letters) (hd : IsWord digits) :
    (nameToken letters digits).IsPlain := by
  unfold nameToken
  split
  · exact isPlain_of_kind_ne nofun
  · exact fun _ => ⟨letters ++ digits, isWord_append hl hd, rfl⟩

theorem numberToken_isPlain {run : List Char} {t : Token} (h : numberToken run = .ok t) :
    t.IsPlain := by
  unfold numberToken at h
  split at h
  · cases h
    exact isPlain_of_kind_ne nofun
  · cases h

theorem lexeme_isPlain {c : Char} {rest remaining : List Char} {t : Token}
    (h : lexeme c rest = .ok (t, remaining)) : t.IsPlain := by
  unfold lexeme at h
  split at h
  · obtain ⟨t', ht, heq⟩ := map_eq_ok.mp h
    cases heq
    exact numberToken_isPlain ht
  · split at h
    · rename_i hletter
      cases h
      refine nameToken_isPlain (fun d hd => ?_) (isWord_takeWhile_digits _)
      rcases List.mem_cons.mp hd with rfl | hd
      · exact .inl hletter
      · exact isWord_takeWhile_letters rest d hd
    · split at h
      · cases h
        exact isPlain_of_kind_ne nofun
      · split at h
        · cases h
          exact isPlain_of_kind_ne nofun
        · cases h

/-- What holds of every lexeme holds of every token of a text. -/
theorem tokens_forall {P : Token → Prop}
    (hP : ∀ {c : Char} {rest remaining : List Char} {t : Token},
      lexeme c rest = .ok (t, remaining) → P t)
    {cs : List Char} {ts : List Token} (h : tokens cs = .ok ts) : ∀ t ∈ ts, P t := by
  induction cs using tokens.induct generalizing ts with
  | case1 =>
    unfold tokens at h
    cases h
    exact fun t ht => absurd ht List.not_mem_nil
  | case2 c rest hblank ih =>
    unfold tokens at h
    rw [if_pos hblank] at h
    exact ih h
  | case3 c rest hblank f hf =>
    unfold tokens at h
    rw [if_neg hblank] at h
    split at h
    · cases h
    · rename_i hok
      rw [hf] at hok
      cases hok
  | case4 c rest hblank t remaining hok ih =>
    unfold tokens at h
    rw [if_neg hblank] at h
    split at h
    · cases h
    · rename_i hok'
      rw [hok] at hok'
      cases hok'
      obtain ⟨others, hothers, rfl⟩ := map_eq_ok.mp h
      intro u hu
      rcases List.mem_cons.mp hu with rfl | hu
      · exact hP hok
      · exact ih hothers u hu

theorem tokens_isPlain {cs : List Char} {ts : List Token} (h : tokens cs = .ok ts) :
    ∀ t ∈ ts, t.IsPlain := tokens_forall lexeme_isPlain h

/-! ### Rules -/

/-- A tree of numbers and words. -/
inductive Node.Written : Node → Prop
  | constant (x : Float) : Written (.constant (.float x))
  | cell {ref : String} (h : IsWord ref.toList) : Written (.cell ref)
  | range {start stop : String} (hstart : IsWord start.toList) (hstop : IsWord stop.toList) :
      Written (.range start stop)
  | negate {operand : Node} (h : Written operand) : Written (.negate operand)
  | binary {op : Operator} {left right : Node} (hleft : Written left) (hright : Written right) :
      Written (.binary op left right)
  | call {name : String} {args : List Node} (h : ∀ arg ∈ args, Written arg) :
      Written (.call name args)

def Cursor.IsPlain (c : Cursor) : Prop := ∀ t ∈ c.unread, t.IsPlain

/-- A rule that makes written trees of plain tokens. -/
def Writes (rule : Rule) : Prop :=
  ∀ ⦃c node c'⦄, c.IsPlain → rule c = .ok (node, c') → node.Written ∧ c'.IsPlain

theorem Cursor.IsPlain.next {c : Cursor} (h : c.IsPlain) : c.next.IsPlain :=
  fun t ht => h t (List.mem_of_mem_tail ht)

theorem Cursor.IsPlain.expect {c c' : Cursor} {mark : String} (h : c.IsPlain)
    (hc : c.expect mark = .ok c') : c'.IsPlain := by
  unfold Cursor.expect at hc
  split at hc
  · cases hc
    exact h.next
  · cases hc

theorem chainFrom_writes {op? : Token → Option Operator} {operand : Rule} (ho : Writes operand)
    {tries : Nat} {left node : Node} {c c' : Cursor} (hleft : left.Written) (hc : c.IsPlain)
    (h : chainFrom op? operand tries left c = .ok (node, c')) : node.Written ∧ c'.IsPlain := by
  induction tries generalizing left c with
  | zero =>
    cases h
    exact ⟨hleft, hc⟩
  | succ tries ih =>
    unfold chainFrom at h
    split at h
    · cases h
      exact ⟨hleft, hc⟩
    · split at h
      · cases h
      · rename_i right behind hright
        obtain ⟨hwritten, hbehind⟩ := ho hc.next hright
        exact ih (.binary hleft hwritten) hbehind h

theorem chain_writes {op? : Token → Option Operator} {operand : Rule} (ho : Writes operand) :
    Writes (chain op? operand) := by
  intro c node c' hc h
  unfold chain at h
  split at h
  · cases h
  · rename_i left behind hleft
    obtain ⟨hwritten, hbehind⟩ := ho hc hleft
    exact chainFrom_writes ho hwritten hbehind h

theorem expression_writes {factor : Rule} (hf : Writes factor) : Writes (expression factor) :=
  chain_writes (chain_writes hf)

theorem argumentsFrom_writes {factor : Rule} (hf : Writes factor) {tries : Nat}
    {seen args : List Node} {c c' : Cursor} (hseen : ∀ arg ∈ seen, arg.Written) (hc : c.IsPlain)
    (h : argumentsFrom factor tries seen c = .ok (args, c')) :
    (∀ arg ∈ args, arg.Written) ∧ c'.IsPlain := by
  induction tries generalizing seen c with
  | zero => cases h
  | succ tries ih =>
    unfold argumentsFrom at h
    split at h
    · cases h
    · rename_i arg behind harg
      obtain ⟨hwritten, hbehind⟩ := expression_writes hf hc harg
      have hcons : ∀ a ∈ arg :: seen, a.Written := by
        intro a ha
        rcases List.mem_cons.mp ha with rfl | ha
        · exact hwritten
        · exact hseen a ha
      split at h
      · exact ih hcons hbehind.next h
      · obtain ⟨last, hlast, heq⟩ := map_eq_ok.mp h
        cases heq
        exact ⟨fun a ha => hcons a (List.mem_reverse.mp ha), hbehind.expect hlast⟩

theorem arguments_writes {factor : Rule} (hf : Writes factor) {args : List Node} {c c' : Cursor}
    (hc : c.IsPlain) (h : arguments factor c = .ok (args, c')) :
    (∀ arg ∈ args, arg.Written) ∧ c'.IsPlain := by
  unfold arguments at h
  split at h
  · cases h
    exact ⟨fun arg ha => absurd ha List.not_mem_nil, hc.next⟩
  · exact argumentsFrom_writes hf (fun arg ha => absurd ha List.not_mem_nil) hc h

/-- What a plain cell token is read as. -/
theorem isWord_of_check {t : Token} {c : Cursor} {ref : String} (ht : t.IsPlain)
    (hk : t.kind = .cell) (h : c.check t.value.toText = .ok ref) : IsWord ref.toList := by
  obtain ⟨word, hword, hvalue⟩ := ht hk
  rw [hvalue] at h
  cases h
  rwa [String.toList_ofList]

theorem cellOrRange_writes {t : Token} {c c' : Cursor} {node : Node} (ht : t.IsPlain)
    (hk : t.kind = .cell) (hc : c.IsPlain) (h : cellOrRange t.value c = .ok (node, c')) :
    node.Written ∧ c'.IsPlain := by
  unfold cellOrRange at h
  split at h
  · dsimp only at h
    split at h
    · cases h
    · rename_i corner others hunread
      have hcorner : corner.IsPlain := hc.next corner (hunread ▸ List.mem_cons_self)
      split at h
      · rename_i hkind
        obtain ⟨start, hstart, h⟩ := bind_eq_ok.mp h
        obtain ⟨stop, hstop, h⟩ := bind_eq_ok.mp h
        cases h
        exact ⟨.range (isWord_of_check ht hk hstart)
          (isWord_of_check hcorner (eq_of_beq hkind) hstop), hc.next.next⟩
      · cases h
  · obtain ⟨ref, href, heq⟩ := map_eq_ok.mp h
    cases heq
    exact ⟨.cell (isWord_of_check ht hk href), hc⟩

section Frames
variable [CallStack]

/-- The arguments of a call, with `room` frames left behind its name. -/
def argumentsWithin (room : Nat) (c : Cursor) : Except Stop (List Node × Cursor) :=
  if room < 3 then c.tooDeep else arguments (factor (room - 3)) c

/-- A factor and the factors in it: behind a sign, in the arguments of a call, and in brackets. -/
theorem factor_succ (room : Nat) (c : Cursor) :
    factor (room + 1) c =
      if room < CallStack.look c.unread.head? then c.tooDeep
      else match c.unread with
        | [] => c.stop .unexpectedEnd
        | t :: _ =>
          if t.spells .operator "-" then
            (factor room c.next).map fun x => (.negate x.1, x.2)
          else match t.kind with
            | .number => (c.next.check t.value.toDouble).map fun x => (.constant (.float x), c.next)
            | .cell => cellOrRange t.value c.next
            | .identifier => call (argumentsWithin room) t.value c.next
            | _ =>
              if t.spells .punctuation "(" then
                expression (factor (room - 2)) c.next >>= fun x =>
                  (x.2.expect ")").map fun c' => (x.1, c')
              else c.check t.value.literal >>= fun shown => c.stop (.unexpectedToken shown) := by
  rw [factor.eq_def (room + 1) c]
  rcases room with _ | _ | _ | room
  all_goals rfl

/-- A factor in front of a token that there is room to look at. -/
theorem factor_of_head {room : Nat} {t : Token} {d : Cursor} (hd : d.unread.head? = some t)
    (hlook : CallStack.look (some t) ≤ room) :
    factor (room + 1) d =
      if t.spells .operator "-" then
        (factor room d.next).map fun x => (.negate x.1, x.2)
      else match t.kind with
        | .number => (d.next.check t.value.toDouble).map fun x => (.constant (.float x), d.next)
        | .cell => cellOrRange t.value d.next
        | .identifier => call (argumentsWithin room) t.value d.next
        | _ =>
          if t.spells .punctuation "(" then
            expression (factor (room - 2)) d.next >>= fun x =>
              (x.2.expect ")").map fun c' => (x.1, c')
          else d.check t.value.literal >>= fun shown => d.stop (.unexpectedToken shown) := by
  obtain ⟨rest, hunread⟩ := List.head?_eq_some_iff.mp hd
  rw [factor_succ, hd, if_neg (Nat.not_lt_of_le hlook), hunread]

theorem argumentsWithin_writes {room : Nat} (hf : Writes (factor (room - 3))) {args : List Node}
    {c c' : Cursor} (hc : c.IsPlain) (h : argumentsWithin room c = .ok (args, c')) :
    (∀ arg ∈ args, arg.Written) ∧ c'.IsPlain := by
  unfold argumentsWithin at h
  split at h
  · cases h
  · exact arguments_writes hf hc h

theorem call_writes {room : Nat} (hf : Writes (factor (room - 3))) {name : Value} {c c' : Cursor}
    {node : Node} (hc : c.IsPlain) (h : call (argumentsWithin room) name c = .ok (node, c')) :
    node.Written ∧ c'.IsPlain := by
  unfold call at h
  split at h
  · obtain ⟨text, htext, h⟩ := bind_eq_ok.mp h
    obtain ⟨⟨args, behind⟩, hargs, h⟩ := bind_eq_ok.mp h
    cases h
    obtain ⟨hwritten, hbehind⟩ := argumentsWithin_writes hf hc.next hargs
    exact ⟨.call hwritten, hbehind⟩
  · obtain ⟨shown, hshown, h⟩ := bind_eq_ok.mp h
    cases h

theorem factor_writes (room : Nat) : Writes (factor room) := by
  induction room using Nat.strong_induction_on with
  | h room ih =>
  cases room with
  | zero => exact fun c node c' hc h => nomatch h
  | succ room =>
    intro c node c' hc h
    rw [factor_succ] at h
    split at h
    · cases h
    split at h
    · cases h
    · rename_i t others hunread
      have ht : t.IsPlain := hc t (hunread ▸ List.mem_cons_self)
      split at h
      · obtain ⟨⟨operand, behind⟩, hoperand, heq⟩ := map_eq_ok.mp h
        cases heq
        obtain ⟨hwritten, hbehind⟩ := ih room (Nat.lt_succ_self room) hc.next hoperand
        exact ⟨.negate hwritten, hbehind⟩
      · split at h
        · obtain ⟨x, hx, heq⟩ := map_eq_ok.mp h
          cases heq
          exact ⟨.constant x, hc.next⟩
        · rename_i hkind
          exact cellOrRange_writes ht hkind hc.next h
        · exact call_writes (ih (room - 3) (by omega)) hc.next h
        · split at h
          · obtain ⟨⟨inner, behind⟩, hinner, h⟩ := bind_eq_ok.mp h
            obtain ⟨last, hlast, heq⟩ := map_eq_ok.mp h
            cases heq
            have hf := ih (room - 2) (by omega)
            obtain ⟨hwritten, hbehind⟩ := expression_writes hf hc.next hinner
            exact ⟨hwritten, hbehind.expect hlast⟩
          · obtain ⟨shown, hshown, h⟩ := bind_eq_ok.mp h
            cases h

theorem parseAll_writes {room : Nat} {ts : List Token} {node : Node} {c : Cursor}
    (hts : ∀ t ∈ ts, t.IsPlain) (h : parseAll room ts = .ok (node, c)) : node.Written := by
  unfold parseAll at h
  obtain ⟨⟨tree, behind⟩, htree, h⟩ := bind_eq_ok.mp h
  dsimp only at h
  split at h
  · cases h
    have hstart : Cursor.IsPlain ⟨0, ts⟩ := hts
    exact (expression_writes (factor_writes _) hstart htree).1
  · cases h

theorem parseFormula_written {formula : String} {node : Node}
    (h : parseFormula formula = .ok (.ok node)) : node.Written := by
  unfold parseFormula at h
  split at h
  · cases h
  · rename_i ts hts
    unfold parse at h
    split at h
    · rename_i tree behind htree
      cases h
      exact parseAll_writes (tokens_isPlain hts) htree
    · split at h
      · cases h
      · cases h

end Frames

end Worksheet.Formula
