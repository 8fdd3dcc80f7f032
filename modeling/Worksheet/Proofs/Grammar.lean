import Worksheet.Proofs.ParsedTrees

/-!
The grammar of formulas as a relation between token lists and trees. `Derives` has one case for each
way to build a phrase; sums and products group to the left, and a sign takes the one factor behind
it. Whatever a rule of the parser makes of tokens, the grammar derives from exactly the tokens that
the rule has read; and a rule refuses nesting only when it has fewer frames than the tokens that are
left might take.
-/
namespace Worksheet.Formula

def Token.mark (spelling : String) : Token := ⟨.punctuation, .text spelling⟩

/-- A token as the lexer gives them, with any spelling for signs. -/
inductive Token.IsLexical : Token → Prop
  | number (x : Float) : IsLexical (.number x)
  | cell (ref : String) : IsLexical (.cell ref)
  | identifier (name : String) : IsLexical (.identifier name)
  | operator (spelling : String) : IsLexical ⟨.operator, .text spelling⟩
  | punctuation (spelling : String) : IsLexical ⟨.punctuation, .text spelling⟩

inductive Phrase where
  | expression
  | term
  | factor

def Operator.token (op : Operator) : Token := ⟨.operator, .text op.sign⟩

/-- Token lists with a comma between neighbours. -/
def separated (parts : List (List Token)) : List Token := [Token.mark ","].intercalate parts

/-- A phrase with its tokens and its tree. -/
inductive Derives : Phrase → List Token → Node → Prop
  | single {ts : List Token} {n : Node} (h : Derives .term ts n) : Derives .expression ts n
  | sum {op : Operator} {ts us : List Token} {l r : Node} (hop : op = .add ∨ op = .sub)
      (hl : Derives .expression ts l) (hr : Derives .term us r) :
      Derives .expression (ts ++ op.token :: us) (.binary op l r)
  | factor {ts : List Token} {n : Node} (h : Derives .factor ts n) : Derives .term ts n
  | product {op : Operator} {ts us : List Token} {l r : Node} (hop : op = .mul ∨ op = .div)
      (hl : Derives .term ts l) (hr : Derives .factor us r) :
      Derives .term (ts ++ op.token :: us) (.binary op l r)
  | negate {ts : List Token} {n : Node} (h : Derives .factor ts n) :
      Derives .factor (Operator.sub.token :: ts) (.negate n)
  | number (x : Float) : Derives .factor [.number x] (.constant (.float x))
  | cell (ref : String) : Derives .factor [.cell ref] (.cell ref)
  | range (start stop : String) :
      Derives .factor [.cell start, .mark ":", .cell stop] (.range start stop)
  | call (name : String) {parts : List (List Token × Node)}
      (h : ∀ part ∈ parts, Derives .expression part.1 part.2) :
      Derives .factor
        (.identifier name :: .mark "(" ::
          (separated (parts.map (·.1)) ++ [.mark ")"]))
        (.call name (parts.map (·.2)))
  | brackets {ts : List Token} {n : Node} (h : Derives .expression ts n) :
      Derives .factor (.mark "(" :: (ts ++ [.mark ")"])) n

/-! ### Tokens -/

theorem lexeme_isLexical {c : Char} {rest remaining : List Char} {t : Token}
    (h : lexeme c rest = .ok (t, remaining)) : t.IsLexical := by
  unfold lexeme at h
  split at h
  · obtain ⟨t', ht, heq⟩ := map_eq_ok.mp h
    cases heq
    unfold numberToken at ht
    split at ht
    · cases ht
      exact .number _
    · cases ht
  · split at h
    · cases h
      unfold nameToken
      split
      · exact .identifier _
      · exact .cell _
    · split at h
      · cases h
        exact .operator _
      · split at h
        · cases h
          exact .punctuation _
        · cases h

theorem tokens_isLexical {cs : List Char} {ts : List Token} (h : tokens cs = .ok ts) :
    ∀ t ∈ ts, t.IsLexical := tokens_forall lexeme_isLexical h

theorem spells_iff {t : Token} {kind : TokenKind} {spelling : String} :
    t.spells kind spelling = true ↔ t = ⟨kind, .text spelling⟩ := by
  obtain ⟨k, v⟩ := t
  cases v with
  | text s => simp [Token.spells, Value.text?]
  | _ => simp [Token.spells, Value.text?]

theorem sumOperator?_eq_some {t : Token} {op : Operator} :
    sumOperator? t = some op ↔ (op = .add ∨ op = .sub) ∧ t = op.token := by
  unfold sumOperator?
  split
  · rename_i h
    cases spells_iff.mp h
    cases op <;> simp [Operator.token, Operator.sign]
  · rename_i hadd
    split
    · rename_i h
      cases spells_iff.mp h
      cases op <;> simp [Operator.token, Operator.sign]
    · rename_i hsub
      rw [spells_iff] at hadd hsub
      cases op <;> simp [Operator.token, Operator.sign, hadd, hsub]

theorem productOperator?_eq_some {t : Token} {op : Operator} :
    productOperator? t = some op ↔ (op = .mul ∨ op = .div) ∧ t = op.token := by
  unfold productOperator?
  split
  · rename_i h
    cases spells_iff.mp h
    cases op <;> simp [Operator.token, Operator.sign]
  · rename_i hmul
    split
    · rename_i h
      cases spells_iff.mp h
      cases op <;> simp [Operator.token, Operator.sign]
    · rename_i hdiv
      rw [spells_iff] at hmul hdiv
      cases op <;> simp [Operator.token, Operator.sign, hmul, hdiv]

/-! ### What rules give -/

def Cursor.IsLexical (c : Cursor) : Prop := ∀ t ∈ c.unread, t.IsLexical

section Cursors
variable {c c' : Cursor}

theorem Cursor.IsLexical.later {front : List Token} (h : c.IsLexical)
    (hc : c.unread = front ++ c'.unread) : c'.IsLexical :=
  fun t ht => h t (hc ▸ List.mem_append_right front ht)

theorem next_of_unread {t : Token} {rest : List Token} (h : c.unread = t :: rest) :
    c.unread = [t] ++ c.next.unread := by
  rw [Cursor.next, h]
  rfl

theorem sees_iff {mark : String} :
    c.sees mark = true ↔ ∃ rest, c.unread = Token.mark mark :: rest := by
  unfold Cursor.sees
  split
  · rename_i t rest hunread
    rw [hunread, spells_iff]
    constructor
    · rintro rfl
      exact ⟨rest, rfl⟩
    · rintro ⟨rest', heq⟩
      cases heq
      rfl
  · rename_i hunread
    simp [hunread]

theorem next_of_sees {mark : String} (h : c.sees mark = true) :
    c.unread = [Token.mark mark] ++ c.next.unread := by
  obtain ⟨rest, hunread⟩ := sees_iff.mp h
  exact next_of_unread hunread

end Cursors

section Room
variable [CallStack]

/-- Frames that are enough for a factor in front of these tokens, however they are nested: none of
them takes more than the four of a call. -/
def ample : List Token → Nat
  | [] => CallStack.look none + 1
  | t :: rest => max (CallStack.look (some t) + 1) (ample rest + 4)

theorem look_lt_ample (ts : List Token) : CallStack.look ts.head? < ample ts := by
  cases ts with
  | nil => exact Nat.lt_succ_self _
  | cons t rest => exact Nat.lt_of_lt_of_le (Nat.lt_succ_self _) (Nat.le_max_left _ _)

theorem ample_append (front rest : List Token) :
    ample rest + 4 * front.length ≤ ample (front ++ rest) := by
  induction front with
  | nil => exact Nat.le_refl _
  | cons t front ih =>
    have hcons : ample (front ++ rest) + 4 ≤ ample (t :: (front ++ rest)) := Nat.le_max_right _ _
    rw [List.cons_append, List.length_cons]
    omega

/-- What reading gives from a cursor on: something made of the tokens up to another cursor, or a
refusal of the text, or one of its nesting when `room` frames are not ample. -/
def Gives {α : Type} (room : Nat) (c : Cursor) (made : List Token → α → Prop) :
    Except Stop (α × Cursor) → Prop
  | .ok (a, c') => ∃ ts, c.unread = ts ++ c'.unread ∧ made ts a
  | .error s => s.fault.isTextual = true ∨ s.fault = .nestedTooDeep ∧ room < ample c.unread

/-- A rule that gives phrases of the grammar. -/
def Reads (room : Nat) (phrase : Phrase) (rule : Rule) : Prop :=
  ∀ c, c.IsLexical → Gives room c (Derives phrase) (rule c)

section Gives
variable {α : Type} {room : Nat} {c c' : Cursor}

theorem gives_stop {made : List Token → α → Prop} (cause : GrammarFault) :
    Gives room c made (c'.stop cause) := .inl rfl

theorem gives_stopBehind {made : List Token → α → Prop} (cause : GrammarFault) :
    Gives room c made (c'.stopBehind cause) := .inl rfl

/-- What is given behind some tokens is given in front of them, together with these tokens. -/
theorem Gives.of_later {room' : Nat} {front : List Token} {made made' : List Token → α → Prop}
    {x : Except Stop (α × Cursor)} (h : Gives room' c' made x) (hc : c.unread = front ++ c'.unread)
    (hroom : room ≤ room' + 4 * front.length)
    (hmade : ∀ ts a, made ts a → made' (front ++ ts) a) :
    Gives room c made' x := by
  cases x with
  | ok result =>
    obtain ⟨ts, hunread, ha⟩ := h
    exact ⟨front ++ ts, by rw [hc, hunread, List.append_assoc], hmade ts _ ha⟩
  | error s =>
    rcases h with htextual | ⟨hdeep, hlater⟩
    · exact .inl htextual
    · have hample := ample_append front c'.unread
      rw [← hc] at hample
      exact .inr ⟨hdeep, by omega⟩

theorem gives_here {made : List Token → α → Prop} {a : α} (h : made [] a) :
    Gives room c made (.ok (a, c)) := ⟨[], rfl, h⟩

theorem Gives.mono {made made' : List Token → α → Prop} {x : Except Stop (α × Cursor)}
    (h : Gives room c made x) (hmade : ∀ ts a, made ts a → made' ts a) : Gives room c made' x :=
  h.of_later (List.nil_append _).symm (Nat.le_add_right _ _) hmade

theorem Gives.map {β : Type} {made : List Token → α → Prop} {made' : List Token → β → Prop}
    {x : Except Stop (α × Cursor)} {f : α → β} (h : Gives room c made x)
    (hmade : ∀ ts a, made ts a → made' ts (f a)) :
    Gives room c made' (x.map fun (a, c') => (f a, c')) := by
  cases x with
  | ok result =>
    obtain ⟨ts, hunread, ha⟩ := h
    exact ⟨ts, hunread, hmade ts _ ha⟩
  | error s => exact h

/-- Read one thing and go on behind its tokens. -/
theorem Gives.bind {β : Type} {made : List Token → α → Prop} {made' : List Token → β → Prop}
    {x : Except Stop (α × Cursor)} {k : α × Cursor → Except Stop (β × Cursor)}
    (h : Gives room c made x)
    (hk : ∀ a c' ts, c.unread = ts ++ c'.unread → made ts a →
      Gives room c' (fun us b => made' (ts ++ us) b) (k (a, c'))) :
    Gives room c made' (x >>= k) := by
  cases x with
  | ok result =>
    obtain ⟨a, c'⟩ := result
    obtain ⟨ts, hunread, ha⟩ := h
    exact (hk a c' ts hunread ha).of_later hunread (Nat.le_add_right _ _) fun _ _ hb => hb
  | error s => exact h

end Gives

end Room

/-! ### Rules -/

/-- Read one thing and go on behind it. -/
theorem chain_eq (op? : Token → Option Operator) (operand : Rule) (c : Cursor) :
    chain op? operand c = operand c >>= fun (left, c') =>
      chainFrom op? operand c'.unread.length left c' := by
  unfold chain
  cases operand c with
  | error s => rfl
  | ok result => rfl

theorem chainFrom_of_operator {op? : Token → Option Operator} {op : Operator} {c : Cursor}
    (h : c.unread.head?.bind op? = some op) (operand : Rule) (tries : Nat) (left : Node) :
    chainFrom op? operand (tries + 1) left c = operand c.next >>= fun (right, c') =>
      chainFrom op? operand tries (.binary op left right) c' := by
  rw [chainFrom, h]
  cases operand c.next with
  | error s => rfl
  | ok result => rfl

theorem chainFrom_of_none {op? : Token → Option Operator} {c : Cursor}
    (h : c.unread.head?.bind op? = none) (operand : Rule) (tries : Nat) (left : Node) :
    chainFrom op? operand tries left c = .ok (left, c) := by
  cases tries with
  | zero => rfl
  | succ tries => rw [chainFrom, h]

theorem argumentsFrom_succ (factor : Rule) (tries : Nat) (seen : List Node) (c : Cursor) :
    argumentsFrom factor (tries + 1) seen c = expression factor c >>= fun (arg, c') =>
      if c'.sees "," then argumentsFrom factor tries (arg :: seen) c'.next
      else (c'.expect ")").map fun c'' => ((arg :: seen).reverse, c'') := by
  rw [argumentsFrom]
  cases expression factor c with
  | error s => rfl
  | ok result => rfl

section Chains
variable [CallStack] {op? : Token → Option Operator} {operand : Rule} {room : Nat}
  {part whole : Phrase}

theorem chainFrom_gives (ho : Reads room part operand)
    (hmore : ∀ {t op ts us l r}, op? t = some op → Derives whole ts l → Derives part us r →
      Derives whole (ts ++ t :: us) (.binary op l r))
    {tries : Nat} {left : Node} {c : Cursor} {front : List Token} (hc : c.IsLexical)
    (hleft : Derives whole front left) :
    Gives room c (fun ts n => Derives whole (front ++ ts) n)
      (chainFrom op? operand tries left c) := by
  induction tries generalizing left c front with
  | zero => exact gives_here ((List.append_nil front).symm ▸ hleft)
  | succ tries ih =>
    cases hop : c.unread.head?.bind op? with
    | none =>
      rw [chainFrom_of_none hop]
      exact gives_here ((List.append_nil front).symm ▸ hleft)
    | some op =>
      obtain ⟨t, ht, htop⟩ := Option.bind_eq_some_iff.mp hop
      obtain ⟨rest, hunread⟩ := List.head?_eq_some_iff.mp ht
      have hnext := next_of_unread hunread
      rw [chainFrom_of_operator hop]
      have hrest : Gives room c.next (fun ts n => Derives whole (front ++ t :: ts) n)
          (operand c.next >>= fun (right, c') =>
            chainFrom op? operand tries (.binary op left right) c') := by
        refine (ho c.next (hc.later hnext)).bind fun right c' us hus hright => ?_
        have hwhole := hmore htop hleft hright
        refine (ih ((hc.later hnext).later hus) hwhole).mono fun ts n hn => ?_
        rwa [List.append_assoc] at hn
      exact hrest.of_later hnext (Nat.le_add_right _ _) fun ts n hn => hn

theorem chain_reads (ho : Reads room part operand)
    (hone : ∀ {ts n}, Derives part ts n → Derives whole ts n)
    (hmore : ∀ {t op ts us l r}, op? t = some op → Derives whole ts l → Derives part us r →
      Derives whole (ts ++ t :: us) (.binary op l r)) :
    Reads room whole (chain op? operand) := by
  intro c hc
  rw [chain_eq]
  exact (ho c hc).bind fun left c' ts hts hleft =>
    chainFrom_gives ho hmore (hc.later hts) (hone hleft)

end Chains

theorem separated_cons (ts : List Token) {parts : List (List Token)} (h : parts ≠ []) :
    separated (ts :: parts) = ts ++ .mark "," :: separated parts := by
  cases parts with
  | nil => exact absurd rfl h
  | cons us rest => simp [separated, List.intercalate]

/-- Arguments with their commas and the closing bracket. -/
def Arguments (ts : List Token) (args : List Node) : Prop :=
  ∃ parts : List (List Token × Node), (∀ part ∈ parts, Derives .expression part.1 part.2) ∧
    ts = separated (parts.map (·.1)) ++ [.mark ")"] ∧ args = parts.map (·.2)

theorem arguments_single {ts : List Token} {arg : Node} (h : Derives .expression ts arg) :
    Arguments (ts ++ [.mark ")"]) [arg] := by
  refine ⟨[(ts, arg)], fun part hpart => ?_, by simp [separated, List.intercalate], rfl⟩
  cases List.mem_singleton.mp hpart
  exact h

theorem Arguments.cons {ts us : List Token} {arg : Node} {args : List Node}
    (h : Derives .expression ts arg) (hne : args ≠ []) (hargs : Arguments us args) :
    Arguments (ts ++ .mark "," :: us) (arg :: args) := by
  obtain ⟨parts, hparts, rfl, rfl⟩ := hargs
  refine ⟨(ts, arg) :: parts, fun part hpart => ?_, ?_, rfl⟩
  · rcases List.mem_cons.mp hpart with rfl | hpart
    · exact h
    · exact hparts part hpart
  · rw [List.map_cons, separated_cons _ (by simpa using hne)]
    simp

theorem expect_eq_ok {c c' : Cursor} {mark : String} (h : c.expect mark = .ok c') :
    c.unread = [Token.mark mark] ++ c'.unread := by
  unfold Cursor.expect at h
  split at h
  · rename_i hsees
    cases h
    exact next_of_sees hsees
  · cases h

section Rules
variable [CallStack] {room : Nat} {rule : Rule}

theorem term_reads (hf : Reads room .factor rule) : Reads room .term (term rule) := by
  refine chain_reads hf .factor fun hop hl hr => ?_
  obtain ⟨hproduct, rfl⟩ := productOperator?_eq_some.mp hop
  exact .product hproduct hl hr

theorem expression_reads (hf : Reads room .factor rule) :
    Reads room .expression (expression rule) := by
  refine chain_reads (term_reads hf) .single fun hop hl hr => ?_
  obtain ⟨hsum, rfl⟩ := sumOperator?_eq_some.mp hop
  exact .sum hsum hl hr

/-- A mark that must come next, and a result that is ready. -/
theorem gives_map_expect {α : Type} {c : Cursor} {mark : String} {a : α}
    {made : List Token → α → Prop} (h : made [Token.mark mark] a) :
    Gives room c made ((c.expect mark).map fun c' => (a, c')) := by
  cases hc : c.expect mark with
  | ok c' => exact ⟨_, expect_eq_ok hc, h⟩
  | error s =>
    unfold Cursor.expect at hc
    split at hc
    · cases hc
    · cases hc
      exact .inl rfl

theorem argumentsFrom_gives (hf : Reads room .factor rule) {tries : Nat} {seen : List Node}
    {c : Cursor} (hc : c.IsLexical) :
    Gives room c (fun ts args => ∃ rest, rest ≠ [] ∧ Arguments ts rest ∧
      args = seen.reverse ++ rest) (argumentsFrom rule tries seen c) := by
  induction tries generalizing seen c with
  | zero => exact gives_stop _
  | succ tries ih =>
    rw [argumentsFrom_succ]
    refine (expression_reads hf c hc).bind fun arg c' ts hts harg => ?_
    dsimp only
    split
    · rename_i hcomma
      have hnext := next_of_sees hcomma
      refine (ih ((hc.later hts).later hnext)).of_later hnext (Nat.le_add_right _ _) ?_
      rintro us args ⟨rest, hne, hrest, rfl⟩
      exact ⟨arg :: rest, nofun, hrest.cons harg hne, by simp⟩
    · exact gives_map_expect ⟨[arg], nofun, arguments_single harg, by simp⟩

theorem arguments_gives (hf : Reads room .factor rule) {c : Cursor} (hc : c.IsLexical) :
    Gives room c Arguments (arguments rule c) := by
  unfold arguments
  split
  · rename_i hclose
    exact ⟨_, next_of_sees hclose, [], nofun, rfl, rfl⟩
  · refine (argumentsFrom_gives hf hc).mono ?_
    rintro ts args ⟨rest, -, hrest, rfl⟩
    exact hrest

theorem cellOrRange_gives {ref : String} {c : Cursor} (hc : c.IsLexical) :
    Gives room c (fun ts n => Derives .factor (.cell ref :: ts) n)
      (cellOrRange (.text ref) c) := by
  unfold cellOrRange
  split
  · rename_i hcolon
    have hnext := next_of_sees hcolon
    dsimp only
    split
    · exact gives_stop _
    · rename_i corner rest hunread
      split
      · rename_i hkind
        have hcorner : corner.IsLexical := hc.later hnext corner (hunread ▸ List.mem_cons_self)
        cases hcorner with
        | cell stop =>
          refine ⟨[.mark ":", .cell stop], ?_, .range ref stop⟩
          rw [hnext, next_of_unread hunread]
          rfl
        | _ => cases hkind
      · exact gives_stopBehind _
  · exact gives_here (.cell ref)

theorem argumentsWithin_gives (hf : Reads (room - 3) .factor (factor (room - 3))) {c : Cursor}
    (hc : c.IsLexical) : Gives (room - 3) c Arguments (argumentsWithin room c) := by
  unfold argumentsWithin
  split
  · have hlook := look_lt_ample c.unread
    exact .inr ⟨rfl, by omega⟩
  · exact arguments_gives hf hc

theorem call_gives (hf : Reads (room - 3) .factor (factor (room - 3))) {name : String} {c : Cursor}
    (hc : c.IsLexical) :
    Gives (room - 3) c (fun ts n => Derives .factor (.identifier name :: ts) n)
      (call (argumentsWithin room) (.text name) c) := by
  unfold call
  split
  · rename_i hopen
    have hnext := next_of_sees hopen
    have hcall : Gives (room - 3) c.next
        (fun ts n => Derives .factor (.identifier name :: .mark "(" :: ts) n)
        (argumentsWithin room c.next >>= fun read => .ok (.call name read.1, read.2)) := by
      refine (argumentsWithin_gives hf (hc.later hnext)).bind fun args c' ts hts hargs => ?_
      obtain ⟨parts, hparts, rfl, rfl⟩ := hargs
      refine gives_here ?_
      rw [List.append_nil]
      exact .call name hparts
    exact hcall.of_later hnext (Nat.le_add_right _ _) fun ts n hn => hn
  · exact gives_stopBehind _

/-- A factor is read with any number of frames, unless they are not ample. -/
theorem factor_reads (room : Nat) : Reads room .factor (factor room) := by
  induction room using Nat.strong_induction_on with
  | h room ih =>
  cases room with
  | zero =>
    intro c hc
    exact .inr ⟨rfl, Nat.zero_lt_of_lt (look_lt_ample c.unread)⟩
  | succ room =>
    intro c hc
    rw [factor_succ]
    split
    · have hlook := look_lt_ample c.unread
      exact .inr ⟨rfl, by omega⟩
    split
    · exact gives_stop _
    · rename_i t rest hunread
      have ht : t.IsLexical := hc t (hunread ▸ List.mem_cons_self)
      have hnext := next_of_unread hunread
      have hlater := hc.later hnext
      split
      · rename_i hminus
        cases spells_iff.mp hminus
        have hnegated : Gives room c.next (fun ts n => Derives .factor (Operator.sub.token :: ts) n)
            ((factor room c.next).map fun x => (.negate x.1, x.2)) :=
          (ih room (Nat.lt_succ_self room) c.next hlater).map fun ts n hn => .negate hn
        exact hnegated.of_later hnext (by simp) fun ts n hn => hn
      · cases ht with
        | number x => exact ⟨_, hnext, .number x⟩
        | cell ref =>
          exact (cellOrRange_gives hlater).of_later hnext (Nat.le_add_right _ _) fun ts n hn => hn
        | identifier name =>
          have hf := ih (room - 3) (by omega)
          exact (call_gives hf hlater).of_later hnext (by simp; omega) fun ts n hn => hn
        | operator spelling =>
          dsimp only
          split
          · rename_i hopen
            cases spells_iff.mp hopen
          · exact gives_stop _
        | punctuation spelling =>
          dsimp only
          split
          · rename_i hopen
            cases spells_iff.mp hopen
            have hf := ih (room - 2) (by omega)
            have hbrackets : Gives (room - 2) c.next
                (fun ts n => Derives .factor (.mark "(" :: ts) n)
                (expression (factor (room - 2)) c.next >>= fun x =>
                  (x.2.expect ")").map fun c' => (x.1, c')) :=
              (expression_reads hf c.next hlater).bind fun node c' ts hts hnode =>
                gives_map_expect (.brackets hnode)
            exact hbrackets.of_later hnext (by simp; omega) fun ts n hn => hn
          · exact gives_stop _

/-- A tree of a whole token list is derived, and a refusal is one of the text, or one of nesting when
the frames behind an expression and a term are not ample. -/
theorem parseAll_gives (room : Nat) {ts : List Token} (hts : ∀ t ∈ ts, t.IsLexical) :
    (∃ n c, parseAll room ts = .ok (n, c) ∧ Derives .expression ts n) ∨
    ∃ s, parseAll room ts = .error s ∧
      (s.fault.isTextual = true ∨ s.fault = .nestedTooDeep ∧ room - 2 < ample ts) := by
  have htree := expression_reads (factor_reads (room - 2)) ⟨0, ts⟩ hts
  unfold parseAll
  cases hs : expression (factor (room - 2)) ⟨0, ts⟩ with
  | error s =>
    rw [hs] at htree
    exact .inr ⟨s, rfl, htree⟩
  | ok result =>
    obtain ⟨n, c⟩ := result
    rw [hs] at htree
    obtain ⟨us, hus, hderives⟩ := htree
    by_cases hend : c.unread.isEmpty = true
    · have hnil : c.unread = [] := List.isEmpty_iff.mp hend
      refine .inl ⟨n, c, by simp [Bind.bind, Except.bind, hend, pure, Except.pure], ?_⟩
      have hall : ts = us := by rw [hnil, List.append_nil] at hus; exact hus
      exact hall ▸ hderives
    · refine .inr ⟨⟨.grammar .trailingTokens c.position, c.position⟩, ?_, .inl rfl⟩
      simp [Bind.bind, Except.bind, hend, Cursor.stop]

end Rules

end Worksheet.Formula
