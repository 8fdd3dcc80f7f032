import Worksheet.Proofs.Grammar

/-!
What the grammar derives, the parser accepts. A rule settles each choice by its next token, and no
choice turns a derivable list away: what follows a phrase never continues it, a cell before a colon
is the corner of a range, and no argument begins with a closing bracket. With what the rules give,
this makes the parser and the grammar agree on every token list, and gives each list one tree at
most.
-/
namespace Worksheet.Formula

/-- Reading that has this result, unless it is refused as nested too deep. -/
def Yields {α : Type} (x : Except Stop α) (a : α) : Prop :=
  x = .ok a ∨ ∃ position, x = .error ⟨.nestedTooDeep, position⟩

theorem Yields.bind {α β : Type} {x : Except Stop α} {a : α} {k : α → Except Stop β} {b : β}
    (hx : Yields x a) (hk : Yields (k a) b) : Yields (x >>= k) b := by
  rcases hx with rfl | ⟨position, rfl⟩
  · exact hk
  · exact .inr ⟨position, rfl⟩

theorem Yields.map {α β : Type} {x : Except Stop α} {a : α} (hx : Yields x a) (f : α → β) :
    Yields (x.map f) (f a) := by
  rcases hx with rfl | ⟨position, rfl⟩
  · exact .inl rfl
  · exact .inr ⟨position, rfl⟩

/-- What may come behind a phrase: nothing that continues it. -/
def Follows : Phrase → List Token → Prop
  | .factor, rest => rest.head? ≠ some (.mark ":")
  | .term, rest => rest.head? ≠ some (.mark ":") ∧ rest.head?.bind productOperator? = none
  | .expression, rest => rest.head? ≠ some (.mark ":") ∧
      rest.head?.bind productOperator? = none ∧ rest.head?.bind sumOperator? = none

/-- A rule that reads these tokens as this tree, whatever may come behind them. -/
def Accepts (rule : Rule) (phrase : Phrase) (ts : List Token) (n : Node) : Prop :=
  ∀ position rest, Follows phrase rest →
    Yields (rule ⟨position, ts ++ rest⟩) (n, ⟨position + ts.length, rest⟩)

/-! ### Chains -/

section Chains
variable {op? : Token → Option Operator} {operand : Rule} {part whole : Phrase}
  {ts us : List Token} {l r n : Node}

/-- A chain that has read these tokens as this tree and goes on behind them. -/
def Heads (op? : Token → Option Operator) (operand : Rule) (part : Phrase) (ts : List Token)
    (n : Node) : Prop :=
  ∀ position rest, Follows part rest → ∃ tries, rest.length ≤ tries ∧
    ∀ result, Yields (chainFrom op? operand tries n ⟨position + ts.length, rest⟩) result →
      Yields (chain op? operand ⟨position, ts ++ rest⟩) result

theorem heads_of_accepts (h : Accepts operand part ts n) : Heads op? operand part ts n := by
  intro position rest hrest
  refine ⟨rest.length, Nat.le_refl _, fun result hresult => ?_⟩
  rw [chain_eq]
  exact (h position rest hrest).bind hresult

theorem Heads.more {t : Token} {op : Operator} (hop : op? t = some op)
    (hfollows : ∀ rest, Follows part (t :: rest)) (hl : Heads op? operand part ts l)
    (hr : Accepts operand part us r) :
    Heads op? operand part (ts ++ t :: us) (.binary op l r) := by
  intro position rest hrest
  obtain ⟨tries, htries, hgo⟩ := hl position (t :: (us ++ rest)) (hfollows _)
  obtain ⟨tries, rfl⟩ : ∃ k, tries = k + 1 := ⟨tries - 1, by simp at htries; omega⟩
  refine ⟨tries, by simp at htries; omega, fun result hresult => ?_⟩
  rw [List.append_assoc, List.cons_append]
  refine hgo result ?_
  have hhead : (t :: (us ++ rest)).head?.bind op? = some op := hop
  rw [chainFrom_of_operator hhead]
  refine (hr (position + ts.length + 1) rest hrest).bind ?_
  have hposition : position + ts.length + 1 + us.length = position + (ts ++ t :: us).length := by
    simp
    omega
  dsimp only
  rw [hposition]
  exact hresult

theorem Heads.accepts (h : Heads op? operand part ts n)
    (hwhole : ∀ rest, Follows whole rest → Follows part rest ∧ rest.head?.bind op? = none) :
    Accepts (chain op? operand) whole ts n := by
  intro position rest hrest
  obtain ⟨hpart, hnone⟩ := hwhole rest hrest
  obtain ⟨tries, -, hgo⟩ := h position rest hpart
  exact hgo _ (.inl (chainFrom_of_none hnone _ _ _))

end Chains

/-! ### Arguments -/

/-- No phrase begins with a closing bracket. -/
theorem Derives.head {phrase : Phrase} {ts : List Token} {n : Node} (h : Derives phrase ts n) :
    ∃ t rest, ts = t :: rest ∧ t ≠ .mark ")" := by
  induction h with
  | single _ ih => exact ih
  | factor _ ih => exact ih
  | sum _ _ _ ih _ =>
    obtain ⟨t, rest, rfl, ht⟩ := ih
    exact ⟨t, _, rfl, ht⟩
  | product _ _ _ ih _ =>
    obtain ⟨t, rest, rfl, ht⟩ := ih
    exact ⟨t, _, rfl, ht⟩
  | negate _ _ => exact ⟨_, _, rfl, nofun⟩
  | number x => exact ⟨_, _, rfl, nofun⟩
  | cell ref => exact ⟨_, _, rfl, nofun⟩
  | range start stop => exact ⟨_, _, rfl, nofun⟩
  | call name _ _ => exact ⟨_, _, rfl, nofun⟩
  | brackets _ _ => exact ⟨_, _, rfl, by simp [Token.mark]⟩

section Marks
variable {spelling : String}

theorem follows_mark (h : spelling ≠ ":") (rest : List Token) :
    Follows .expression (.mark spelling :: rest) :=
  ⟨by simpa [Token.mark] using h, rfl, rfl⟩

theorem sees_mark (position : Nat) (spelling : String) (rest : List Token) :
    Cursor.sees ⟨position, .mark spelling :: rest⟩ spelling = true := sees_iff.mpr ⟨rest, rfl⟩

theorem not_sees {position : Nat} {rest : List Token} (h : rest.head? ≠ some (.mark spelling)) :
    Cursor.sees ⟨position, rest⟩ spelling = false := by
  by_contra hsees
  obtain ⟨behind, hunread⟩ := sees_iff.mp (by simpa using hsees)
  have hhead : rest.head? = some (.mark spelling) := congrArg List.head? hunread
  exact h hhead

theorem expect_mark (position : Nat) (spelling : String) (rest : List Token) :
    Cursor.expect ⟨position, .mark spelling :: rest⟩ spelling = .ok ⟨position + 1, rest⟩ :=
  if_pos (sees_mark position spelling rest)

end Marks

section Arguments
variable {rule : Rule} {parts : List (List Token × Node)}

theorem argumentsFrom_accepts
    (hparts : ∀ part ∈ parts, Accepts (expression rule) .expression part.1 part.2)
    (hne : parts ≠ []) {tries : Nat} (htries : parts.length ≤ tries) (position : Nat)
    (seen : List Node) (rest : List Token) :
    Yields (argumentsFrom rule tries seen
        ⟨position, separated (parts.map (·.1)) ++ .mark ")" :: rest⟩)
      (seen.reverse ++ parts.map (·.2),
        ⟨position + (separated (parts.map (·.1))).length + 1, rest⟩) := by
  induction parts generalizing tries position seen with
  | nil => exact absurd rfl hne
  | cons part others ih =>
    obtain ⟨ts, arg⟩ := part
    obtain ⟨tries, rfl⟩ : ∃ k, tries = k + 1 := ⟨tries - 1, by simp at htries; omega⟩
    have harg : Accepts (expression rule) .expression ts arg := hparts _ List.mem_cons_self
    rw [argumentsFrom_succ]
    by_cases hothers : others = []
    · subst hothers
      have hone : separated ([(ts, arg)].map (·.1)) = ts := by simp [separated, List.intercalate]
      have hclose : (Token.mark ")" :: rest).head? ≠ some (.mark ",") := by simp [Token.mark]
      rw [hone]
      refine (harg position _ (follows_mark (by decide) rest)).bind (.inl ?_)
      dsimp only
      rw [not_sees hclose, expect_mark]
      simp [Except.map]
    · rw [List.map_cons, separated_cons _ (by simpa using hothers), List.append_assoc,
        List.cons_append]
      refine (harg position _ (follows_mark (by decide) _)).bind ?_
      dsimp only
      rw [sees_mark]
      have hlater := ih (fun part hpart => hparts part (List.mem_cons_of_mem _ hpart)) hothers
        (by simpa using htries) (position + ts.length + 1) (arg :: seen)
      have hposition : position + ts.length + 1 + (separated (others.map (·.1))).length + 1 =
          position + (ts ++ .mark "," :: separated (others.map (·.1))).length + 1 := by
        simp only [List.length_append, List.length_cons]
        omega
      rw [hposition] at hlater
      simpa [Cursor.next] using hlater

theorem length_le_separated (parts : List (List Token)) :
    parts.length ≤ (separated parts).length + 1 := by
  induction parts with
  | nil => exact Nat.zero_le _
  | cons ts rest ih =>
    by_cases hrest : rest = []
    · subst hrest
      simp
    · rw [separated_cons ts hrest]
      simp only [List.length_append, List.length_cons]
      omega

theorem arguments_accepts
    (hparts : ∀ part ∈ parts, Derives .expression part.1 part.2 ∧
      Accepts (expression rule) .expression part.1 part.2) (position : Nat) (rest : List Token) :
    Yields (arguments rule ⟨position, separated (parts.map (·.1)) ++ .mark ")" :: rest⟩)
      (parts.map (·.2), ⟨position + (separated (parts.map (·.1))).length + 1, rest⟩) := by
  unfold arguments
  by_cases hne : parts = []
  · subst hne
    exact .inl (if_pos (sees_mark position ")" rest))
  · obtain ⟨part, others, rfl⟩ := List.exists_cons_of_ne_nil hne
    obtain ⟨t, behind, ht, hclose⟩ := (hparts part List.mem_cons_self).1.head
    have hfirst : ∃ us, separated ((part :: others).map (·.1)) = t :: us := by
      rw [List.map_cons, ht]
      cases others with
      | nil => exact ⟨behind, by simp [separated, List.intercalate]⟩
      | cons other rest => exact ⟨_, separated_cons _ (by simp)⟩
    obtain ⟨us, hus⟩ := hfirst
    have hsees : Cursor.sees ⟨position, separated ((part :: others).map (·.1)) ++
        .mark ")" :: rest⟩ ")" = false := by
      rw [hus]
      exact not_sees (by simpa using hclose)
    rw [if_neg (by rw [hsees]; exact Bool.false_ne_true)]
    have hlength := length_le_separated ((part :: others).map (·.1))
    refine argumentsFrom_accepts (fun part hpart => (hparts part hpart).2) hne ?_ position [] rest
    simp only [List.length_map, List.length_append] at hlength ⊢
    omega

end Arguments

/-! ### Phrases -/

theorem follows_operator {op : Operator} (rest : List Token) :
    Follows .factor (op.token :: rest) := by
  simp [Follows, Operator.token, Token.mark]

section Frames
variable [CallStack]

/-- How a phrase with these tokens and this tree is read, whatever frames are left. -/
def Accepted : Phrase → List Token → Node → Prop
  | .factor, ts, n => ∀ room, Accepts (factor room) .factor ts n
  | .term, ts, n => ∀ room, Heads productOperator? (factor room) .factor ts n
  | .expression, ts, n => ∀ room, Heads sumOperator? (term (factor room)) .term ts n

theorem accepts_expression {ts : List Token} {n : Node} (h : Accepted .expression ts n)
    (room : Nat) : Accepts (expression (factor room)) .expression ts n :=
  (h room).accepts fun _ hrest => ⟨⟨hrest.1, hrest.2.1⟩, hrest.2.2⟩

theorem accepts_term {ts : List Token} {n : Node} (h : Accepted .term ts n)
    (room : Nat) : Accepts (term (factor room)) .term ts n :=
  (h room).accepts fun _ hrest => hrest

/-- A factor is read where there is room to look at its first token. -/
theorem accepts_factor {t : Token} {ts : List Token} {n : Node}
    (h : ∀ room position rest, CallStack.look (some t) ≤ room → Follows .factor rest →
      Yields (factor (room + 1) ⟨position, t :: ts ++ rest⟩)
        (n, ⟨position + (t :: ts).length, rest⟩)) :
    Accepted .factor (t :: ts) n := by
  intro room position rest hrest
  cases room with
  | zero => exact .inr ⟨position, rfl⟩
  | succ room =>
    by_cases hlook : room < CallStack.look (some t)
    · refine .inr ⟨position, ?_⟩
      rw [factor_succ]
      exact if_pos hlook
    · exact h room position rest (Nat.le_of_not_lt hlook) hrest

theorem argumentsWithin_accepts (room : Nat) {parts : List (List Token × Node)}
    (hparts : ∀ part ∈ parts, Derives .expression part.1 part.2 ∧
      Accepted .expression part.1 part.2) (position : Nat) (rest : List Token) :
    Yields (argumentsWithin room ⟨position, separated (parts.map (·.1)) ++ .mark ")" :: rest⟩)
      (parts.map (·.2), ⟨position + (separated (parts.map (·.1))).length + 1, rest⟩) := by
  unfold argumentsWithin
  split
  · exact .inr ⟨position, rfl⟩
  · exact arguments_accepts (fun part hpart =>
      ⟨(hparts part hpart).1, accepts_expression (hparts part hpart).2 _⟩) position rest

/-- Whatever the grammar derives is read as it is derived. -/
theorem accepted_of_derives {phrase : Phrase} {ts : List Token} {n : Node}
    (h : Derives phrase ts n) : Accepted phrase ts n := by
  induction h with
  | single _ ih => exact fun room => heads_of_accepts (accepts_term ih room)
  | factor _ ih => exact fun room => heads_of_accepts (ih room)
  | @sum op ts us l r hop _ _ ihl ihr =>
    refine fun room => (ihl room).more (sumOperator?_eq_some.mpr ⟨hop, rfl⟩) (fun rest => ?_)
      (accepts_term ihr room)
    refine ⟨follows_operator rest, ?_⟩
    rcases hop with rfl | rfl
    · rfl
    · rfl
  | @product op ts us l r hop _ _ ihl ihr =>
    exact fun room => (ihl room).more (productOperator?_eq_some.mpr ⟨hop, rfl⟩)
      follows_operator (ihr room)
  | @negate ts n _ ih =>
    refine accepts_factor fun room position rest hlook hrest => ?_
    have hstep : factor (room + 1) ⟨position, Operator.sub.token :: (ts ++ rest)⟩ =
        (factor room ⟨position + 1, ts ++ rest⟩).map fun read => (.negate read.1, read.2) :=
      factor_of_head rfl hlook
    rw [List.cons_append, hstep, List.length_cons, ← Nat.add_assoc, Nat.add_right_comm]
    exact (ih room (position + 1) rest hrest).map _
  | number x =>
    refine accepts_factor fun room position rest hlook hrest => .inl ?_
    exact factor_of_head rfl hlook
  | cell ref =>
    refine accepts_factor fun room position rest hlook hrest => .inl ?_
    have hcolon : Cursor.sees ⟨position + 1, rest⟩ ":" = false := not_sees hrest
    rw [factor_of_head rfl hlook]
    exact if_neg (fun hsees => Bool.false_ne_true (hcolon.symm.trans hsees))
  | range start stop =>
    refine accepts_factor fun room position rest hlook hrest => .inl ?_
    exact factor_of_head rfl hlook
  | @call name parts hparts ih =>
    refine accepts_factor fun room position rest hlook hrest => ?_
    have hargs := argumentsWithin_accepts room (fun part hpart =>
      ⟨hparts part hpart, ih part hpart⟩) (position + 2) rest
    have hstep : factor (room + 1) ⟨position, .identifier name :: .mark "(" ::
        (separated (parts.map (·.1)) ++ .mark ")" :: rest)⟩ =
        (argumentsWithin room ⟨position + 2, separated (parts.map (·.1)) ++
          .mark ")" :: rest⟩).map fun read => (.call name read.1, read.2) :=
      factor_of_head rfl hlook
    have htokens : (.identifier name :: .mark "(" :: (separated (parts.map (·.1)) ++
        [.mark ")"])) ++ rest = .identifier name :: .mark "(" ::
          (separated (parts.map (·.1)) ++ .mark ")" :: rest) := by simp
    have hposition : position + 2 + (separated (parts.map (·.1))).length + 1 = position +
        (.identifier name :: .mark "(" :: (separated (parts.map (·.1)) ++ [.mark ")"])).length := by
      simp only [List.length_cons, List.length_append, List.length_nil]
      omega
    rw [htokens, hstep, ← hposition]
    exact hargs.map _
  | @brackets ts n _ ih =>
    refine accepts_factor fun room position rest hlook hrest => ?_
    have hinner := accepts_expression ih (room - 2) (position + 1) (.mark ")" :: rest)
      (follows_mark (by decide) rest)
    have hstep : factor (room + 1) ⟨position, .mark "(" :: (ts ++ .mark ")" :: rest)⟩ =
        expression (factor (room - 2)) ⟨position + 1, ts ++ .mark ")" :: rest⟩ >>= fun read =>
          (read.2.expect ")").map fun c' => (read.1, c') :=
      factor_of_head rfl hlook
    have htokens : (.mark "(" :: (ts ++ [.mark ")"])) ++ rest =
        .mark "(" :: (ts ++ .mark ")" :: rest) := by simp
    have hposition : position + 1 + ts.length + 1 =
        position + (.mark "(" :: (ts ++ [.mark ")"])).length := by
      simp only [List.length_cons, List.length_append, List.length_nil]
      omega
    rw [htokens, hstep, ← hposition]
    refine hinner.bind ?_
    dsimp only
    rw [expect_mark]
    exact .inl rfl

/-! ### Token lists -/

section Lists
variable {ts : List Token} {n : Node} {room : Nat}

theorem parseAll_of_derives (h : Derives .expression ts n) (room : Nat) :
    Yields (parseAll room ts) (n, ⟨ts.length, []⟩) := by
  have hread := accepts_expression (accepted_of_derives h) (room - 2) 0 [] ⟨nofun, rfl, rfl⟩
  rw [List.append_nil, Nat.zero_add] at hread
  exact hread.bind (.inl rfl)

/-- With frames that are ample, what the grammar derives is read. -/
theorem parseAll_eq_of_derives (hts : ∀ t ∈ ts, t.IsLexical) (h : Derives .expression ts n)
    (hroom : ample ts + 2 ≤ room) : parseAll room ts = .ok (n, ⟨ts.length, []⟩) := by
  rcases parseAll_of_derives h room with hread | ⟨position, hdeep⟩
  · exact hread
  · rcases parseAll_gives room hts with ⟨m, c, hread, -⟩ | ⟨s, hread, hwhy⟩
    · rw [hdeep] at hread
      cases hread
    · rw [hdeep] at hread
      cases hread
      rcases hwhy with htextual | ⟨-, hfew⟩
      · cases htextual
      · omega

/-- Reading that gives the tree of an expression where there is one, and otherwise refuses the
tokens for their grammar. -/
def Recognises (read : Except Fault (Except Refusal Node)) (ts : List Token) : Prop :=
  (∀ n, read = .ok (.ok n) ↔ Derives .expression ts n) ∧
  ((∀ n, ¬ Derives .expression ts n) →
    ∃ refusal, read = .ok (.error refusal) ∧ refusal.tag = "parse")

theorem parse_recognises (hts : ∀ t ∈ ts, t.IsLexical) :
    (parse ts = .error .nestedTooDeep ∧ CallStack.reading - 2 < ample ts) ∨
      Recognises (parse ts) ts := by
  rcases parseAll_gives CallStack.reading hts with
    ⟨n, c, hread, hn⟩ | ⟨s, hread, htextual | ⟨hdeep, hfew⟩⟩
  · have hok : parse ts = .ok (.ok n) := by rw [parse, hread]
    refine .inr ⟨fun m => ?_, fun hnone => absurd hn (hnone n)⟩
    rw [hok]
    constructor
    · rintro ⟨⟩
      exact hn
    · intro hm
      rcases parseAll_of_derives hm CallStack.reading with hm | ⟨position, hm⟩
      · rw [hread] at hm
        cases hm
        rfl
      · rw [hread] at hm
        cases hm
  · have hrefused : parse ts = .ok (.error (.grammatical s.fault)) := by
      rw [parse, hread]
      exact if_pos htextual
    refine .inr ⟨fun m => ?_, fun _ => ⟨_, hrefused, rfl⟩⟩
    rw [hrefused]
    refine ⟨nofun, fun hm => ?_⟩
    rcases parseAll_of_derives hm CallStack.reading with hm | ⟨position, hm⟩
    · rw [hread] at hm
      cases hm
    · rw [hread] at hm
      cases hm
      cases htextual
  · refine .inl ⟨?_, hfew⟩
    rw [parse, hread]
    dsimp only
    rw [hdeep]
    rfl

/-- The parser reads a token list exactly as the grammar derives it, in one way at most; where the
grammar derives nothing, it says so. The call stack only ever makes it refuse, and never where its
frames are ample for the list. -/
theorem parse_iff_derives (hts : ∀ t ∈ ts, t.IsLexical) :
    (ample ts + 2 ≤ CallStack.reading → Recognises (parse ts) ts) ∧
    (parse ts = .error .nestedTooDeep ∨ Recognises (parse ts) ts) ∧
    ∀ n n', Derives .expression ts n → Derives .expression ts n' → n = n' := by
  refine ⟨fun hroom => ?_, ?_, fun n n' hn hn' => ?_⟩
  · rcases parse_recognises hts with ⟨-, hfew⟩ | hread
    · omega
    · exact hread
  · exact (parse_recognises hts).imp_left And.left
  · have hread := parseAll_eq_of_derives hts hn (Nat.le_refl _)
    rw [parseAll_eq_of_derives hts hn' (Nat.le_refl _)] at hread
    cases hread
    rfl

end Lists

end Frames

attribute [local instance] CallStack.usual

/-- Differences group to the left, and a sign takes the call behind it. -/
theorem parse_iff_derives_difference : ∃ ts, tokenize "A1-B1-C1*-SUM(D1:E2,(F1))" = .ok ts ∧
    (∀ t ∈ ts, t.IsLexical) ∧ ample ts + 2 ≤ CallStack.reading ∧
    parse ts = .ok (.ok (.binary .sub (.binary .sub (.cell "A1") (.cell "B1"))
      (.binary .mul (.cell "C1") (.negate (.call "SUM" [.range "D1" "E2", .cell "F1"]))))) ∧
    Derives .expression ts (.binary .sub (.binary .sub (.cell "A1") (.cell "B1"))
      (.binary .mul (.cell "C1") (.negate (.call "SUM" [.range "D1" "E2", .cell "F1"])))) := by
  have htokens : tokenize "A1-B1-C1*-SUM(D1:E2,(F1))" = .ok [.cell "A1", .operator '-',
      .cell "B1", .operator '-', .cell "C1", .operator '*', .operator '-', .identifier "SUM",
      .punctuation '(', .cell "D1", .punctuation ':', .cell "E2", .punctuation ',',
      .punctuation '(', .cell "F1", .punctuation ')', .punctuation ')'] := by
    simp only [tokenize]
    cbv
  have hlexical := tokens_isLexical htokens
  have hread := (parse_iff_derives hlexical).1 (by decide)
  exact ⟨_, htokens, hlexical, by decide, rfl, (hread.1 _).mp rfl⟩

end Worksheet.Formula
