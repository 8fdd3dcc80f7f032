import Worksheet.Proofs.CursorMoves

/-!
How far the rules of the grammar look. A rule that gives a tree has read at least one token and has
looked at one more at most, the one in front of which it leaves the cursor. A rule that stops has
not left the token list. Each loop ends because nothing continues it, and each rule because it goes
on with fewer tokens; so the tries of a loop never decide a reading, nor do the frames that are left
where they are ample.
-/
namespace Worksheet.Formula

/-! ### Loops -/

/-- A reader that leaves no more tokens than there were. -/
def Shrinks {α : Type} (reader : Reader α) : Prop :=
  ∀ c a c', reader c = .ok (a, c') → c'.unread.length ≤ c.unread.length

section Loops
variable {op? : Token → Option Operator} {operand : Rule} {c : Cursor}

theorem exists_cons_of_operator {op : Operator} (h : c.unread.head?.bind op? = some op) :
    ∃ t rest, c.unread = t :: rest ∧ op? t = some op := by
  obtain ⟨t, ht, hop⟩ := Option.bind_eq_some_iff.mp h
  obtain ⟨rest, hunread⟩ := List.head?_eq_some_iff.mp ht
  exact ⟨t, rest, hunread, hop⟩

/-- The number of tries does not matter where there are as many as tokens. -/
theorem chainFrom_tries (ho : Shrinks operand) {tries tries' : Nat} (h : c.unread.length ≤ tries)
    (h' : c.unread.length ≤ tries') (left : Node) :
    chainFrom op? operand tries left c = chainFrom op? operand tries' left c := by
  induction tries generalizing tries' left c with
  | zero =>
    have hnone : c.unread.head?.bind op? = none := by
      rw [List.length_eq_zero_iff.mp (Nat.le_zero.mp h)]
      rfl
    rw [chainFrom_of_none hnone, chainFrom_of_none hnone]
  | succ tries ih =>
    cases hop : c.unread.head?.bind op? with
    | none => rw [chainFrom_of_none hop, chainFrom_of_none hop]
    | some op =>
      obtain ⟨t, rest, hunread, -⟩ := exists_cons_of_operator hop
      have hlength := length_of_unread hunread
      obtain ⟨tries', rfl⟩ : ∃ k, tries' = k + 1 := ⟨tries' - 1, by omega⟩
      rw [chainFrom_of_operator hop, chainFrom_of_operator hop]
      cases hread : operand c.next with
      | error s => rfl
      | ok result =>
        obtain ⟨right, c'⟩ := result
        have hshrunk := ho _ _ _ hread
        exact ih (by omega) (by omega) (.binary op left right)

/-- A chain that goes on, with as many tries as there are tokens. -/
def chainOn (op? : Token → Option Operator) (operand : Rule) (left : Node) : Rule :=
  fun c => chainFrom op? operand c.unread.length left c

theorem chainOn_of_operator (ho : Shrinks operand) {op : Operator}
    (h : c.unread.head?.bind op? = some op) (left : Node) :
    chainOn op? operand left c =
      operand c.next >>= fun x => chainOn op? operand (.binary op left x.1) x.2 := by
  obtain ⟨t, rest, hunread, -⟩ := exists_cons_of_operator h
  unfold chainOn
  rw [length_of_unread hunread, chainFrom_of_operator h]
  cases hread : operand c.next with
  | error s => rfl
  | ok result => exact chainFrom_tries ho (ho _ _ _ hread) (Nat.le_refl _) _

theorem wantsFactor_of_sumOperator {t : Token} {op : Operator} (h : sumOperator? t = some op) :
    t.WantsFactor := by
  obtain ⟨rfl | rfl, rfl⟩ := sumOperator?_eq_some.mp h
  · exact .operator nofun
  · exact .operator nofun

theorem wantsFactor_of_productOperator {t : Token} {op : Operator}
    (h : productOperator? t = some op) : t.WantsFactor := by
  obtain ⟨rfl | rfl, rfl⟩ := productOperator?_eq_some.mp h
  · exact .operator nofun
  · exact .operator nofun

end Loops

section Arguments
variable {rule : Rule} {c : Cursor}

/-- The number of tries does not matter where there are more than tokens. -/
theorem argumentsFrom_tries (he : Shrinks (expression rule)) {tries tries' : Nat}
    (h : c.unread.length < tries) (h' : c.unread.length < tries') (seen : List Node) :
    argumentsFrom rule tries seen c = argumentsFrom rule tries' seen c := by
  induction tries generalizing tries' seen c with
  | zero => exact absurd h (Nat.not_lt_zero _)
  | succ tries ih =>
    obtain ⟨tries', rfl⟩ : ∃ k, tries' = k + 1 := ⟨tries' - 1, by omega⟩
    rw [argumentsFrom_succ, argumentsFrom_succ]
    cases hread : expression rule c with
    | error s => rfl
    | ok result =>
      obtain ⟨arg, c'⟩ := result
      have hshrunk := he _ _ _ hread
      show (if c'.sees "," then _ else _) = if c'.sees "," then _ else _
      split
      · rename_i hcomma
        obtain ⟨rest, hunread⟩ := sees_iff.mp hcomma
        have hlength := length_of_unread hunread
        exact ih (by omega) (by omega) (arg :: seen)
      · rfl

/-- Arguments that go on, with more tries than there are tokens. -/
def argumentsOn (rule : Rule) (seen : List Node) : Reader (List Node) :=
  fun c => argumentsFrom rule (c.unread.length + 1) seen c

/-- What comes behind an argument: a comma and further ones, or the closing bracket. -/
def behindArgument (rule : Rule) (seen : List Node) (arg : Node) : Reader (List Node) := fun c =>
  if c.sees "," then argumentsOn rule (arg :: seen) c.next
  else (c.expect ")").map fun c' => ((arg :: seen).reverse, c')

theorem argumentsOn_eq (he : Shrinks (expression rule)) (seen : List Node) (c : Cursor) :
    argumentsOn rule seen c =
      expression rule c >>= fun x => behindArgument rule seen x.1 x.2 := by
  unfold argumentsOn
  rw [argumentsFrom_succ]
  cases hread : expression rule c with
  | error s => rfl
  | ok result =>
    obtain ⟨arg, c'⟩ := result
    have hshrunk := he _ _ _ hread
    show (if c'.sees "," then _ else _) = behindArgument rule seen arg c'
    unfold behindArgument
    split
    · rename_i hcomma
      obtain ⟨rest, hunread⟩ := sees_iff.mp hcomma
      have hlength := length_of_unread hunread
      exact argumentsFrom_tries he (by omega) (by omega) (arg :: seen)
    · rfl

end Arguments

/-! ### Ranges -/

/-- The range between two corners that have been read. -/
def corners (start stop : Value) : Rule := fun c => do
  let start ← c.check start.toText
  let stop ← c.check stop.toText
  return (.range start stop, c)

/-- What comes behind the colon of a range. -/
def secondCorner (start : Value) : Rule := fun c =>
  match c.unread with
  | [] => c.stop .unexpectedEnd
  | stop :: _ =>
    if stop.kind == .cell then corners start stop.value c.next else c.next.stopBehind .rangeEnd

theorem cellOrRange_eq (ref : Value) (c : Cursor) :
    cellOrRange ref c =
      if c.sees ":" then secondCorner ref c.next
      else (c.check ref.toText).map fun ref => (.cell ref, c) := rfl

/-! ### Places -/

/-- The cursor in front of a token of a list. -/
def cursorAt (ts : List Token) (p : Nat) : Cursor := ⟨p, ts.drop p⟩

theorem length_cursorAt (ts : List Token) (p : Nat) :
    (cursorAt ts p).unread.length = ts.length - p := List.length_drop

/-! ### Moves -/

section Frames
variable [CallStack]

theorem shrinks_of_moves {α : Type} {least room : Nat} {ends : List Token → Prop}
    {reader deeper : Reader α} (h : ∀ c, Moves least room ends reader deeper c) :
    Shrinks reader := by
  intro c a c' hread
  obtain ⟨front, -, hunread, -⟩ := (h c).reads hread
  rw [hunread, List.length_append]
  exact Nat.le_add_left _ _

section Loops
variable {op? : Token → Option Operator} {operand operand' : Rule} {room : Nat} {c : Cursor}

theorem chainOn_moves (ho : ∀ c, Moves 1 room Unfinished operand operand' c)
    (ho' : Shrinks operand') (hop? : ∀ {t op}, op? t = some op → t.WantsFactor) (left : Node)
    (c : Cursor) :
    Moves 0 room BreaksOff (chainOn op? operand left) (chainOn op? operand' left) c := by
  induction hlength : c.unread.length using Nat.strong_induction_on generalizing left c with
  | h n ih =>
    cases hop : c.unread.head?.bind op? with
    | none =>
      have hnone (rule : Rule) (d : Cursor) (hd : d.unread.head? = c.unread.head?) :
          chainOn op? rule left d = .ok (left, d) := chainFrom_of_none (hd ▸ hop) rule _ left
      exact (moves_here left).of_head (hnone _) (hnone _)
    | some op =>
      obtain ⟨t, rest, hunread, ht⟩ := exists_cons_of_operator hop
      have hrest : Moves (1 + 0) room Unfinished
          (fun d => operand d >>= fun x => chainOn op? operand (.binary op left x.1) x.2)
          (fun d => operand' d >>= fun x => chainOn op? operand' (.binary op left x.1) x.2)
          c.next := by
        refine (ho c.next).bind (fun right => chainOn op? operand (.binary op left right))
          (fun right => chainOn op? operand' (.binary op left right)) (fun right c' hc' => ?_)
          unfinished_append
        have hshorter := length_of_unread hunread
        exact ih c'.unread.length (by omega) (.binary op left right) c' rfl
      refine ((hrest.behind_wanting hunread (hop? ht)).mono (Nat.zero_le _) (Nat.le_add_right room 4)
        fun _ h => h).of_head (fun d hd => ?_) (fun d hd => ?_)
      · exact chainOn_of_operator (shrinks_of_moves ho) (hd ▸ hop) left
      · exact chainOn_of_operator ho' (hd ▸ hop) left

theorem chain_moves (ho : ∀ c, Moves 1 room Unfinished operand operand' c)
    (ho' : Shrinks operand') (hop? : ∀ {t op}, op? t = some op → t.WantsFactor) (c : Cursor) :
    Moves 1 room Unfinished (chain op? operand) (chain op? operand') c := by
  have hchain : Moves 1 room Unfinished
      (fun d => operand d >>= fun x => chainOn op? operand x.1 x.2)
      (fun d => operand' d >>= fun x => chainOn op? operand' x.1 x.2) c :=
    (ho c).bind _ _ (fun left c' _ => chainOn_moves ho ho' hop? left c') unfinished_append
  exact hchain.of_head (fun d _ => chain_eq op? operand d) (fun d _ => chain_eq op? operand' d)

end Loops

/-! ### Rules -/

/-- A rule that reads at least one token wherever it succeeds, and `deeper` in the same way. -/
def RuleMoves (room : Nat) (rule deeper : Rule) : Prop :=
  ∀ c, Moves 1 room Unfinished rule deeper c

section Rules
variable {rule deeper : Rule} {room room' : Nat} (h : RuleMoves room rule deeper)
  (hdeeper : RuleMoves room' deeper deeper)
include h hdeeper

theorem term_moves : RuleMoves room (term rule) (term deeper) :=
  chain_moves h (shrinks_of_moves hdeeper) wantsFactor_of_productOperator

theorem expression_moves : RuleMoves room (expression rule) (expression deeper) :=
  chain_moves (term_moves h hdeeper) (shrinks_of_moves (term_moves hdeeper hdeeper))
    wantsFactor_of_sumOperator

end Rules

section Arguments
variable {rule deeper : Rule} {room room' : Nat} {c : Cursor}

theorem argumentsOn_moves (h : RuleMoves room rule deeper) (hdeeper : RuleMoves room' deeper deeper)
    (seen : List Node) (c : Cursor) :
    Moves 2 room Unfinished (argumentsOn rule seen) (argumentsOn deeper seen) c := by
  have he := expression_moves h hdeeper
  have he' := shrinks_of_moves (expression_moves hdeeper hdeeper)
  induction hlength : c.unread.length using Nat.strong_induction_on generalizing seen c with
  | h n ih =>
    have hread : Moves (1 + 1) room Unfinished
        (fun d => expression rule d >>= fun x => behindArgument rule seen x.1 x.2)
        (fun d => expression deeper d >>= fun x => behindArgument deeper seen x.1 x.2) c := by
      refine (he c).bind _ _ (fun arg c' hc' => ?_) unfinished_append
      refine Moves.of_sees (fun hcomma => ?_) fun _ => moves_map_expect ")" _
      obtain ⟨rest, hunread⟩ := sees_iff.mp hcomma
      have hshorter := length_of_unread hunread
      have hmore := ih c'.next.unread.length (by omega) (arg :: seen) c'.next rfl
      exact (hmore.behind_wanting hunread .comma).mono (by omega) (Nat.le_add_right room 4)
        fun _ h => h
    exact hread.of_head (fun d _ => argumentsOn_eq (shrinks_of_moves he) seen d)
      fun d _ => argumentsOn_eq he' seen d

theorem arguments_moves (h : RuleMoves room rule deeper) (hdeeper : RuleMoves room' deeper deeper)
    (c : Cursor) : Moves 1 room Unfinished (arguments rule) (arguments deeper) c := by
  refine Moves.of_sees (fun hclose => ?_) fun _ => ?_
  · obtain ⟨rest, hunread⟩ := sees_iff.mp hclose
    exact (moves_here []).behind_complete hunread
  · exact (argumentsOn_moves h hdeeper [] c).mono (by omega) (Nat.le_refl room) fun _ h => h

theorem corners_moves {room : Nat} {ends : List Token → Prop} (start stop : Value) (c : Cursor) :
    Moves 0 room ends (corners start stop) (corners start stop) c := by
  refine Moves.check_bind (fun f => Value.not_isOfRules_of_toText) fun start => ?_
  exact Moves.check_bind (fun f => Value.not_isOfRules_of_toText) fun stop => moves_here _

theorem secondCorner_moves (start : Value) (c : Cursor) :
    Moves 1 room (· = []) (secondCorner start) (secondCorner start) c := by
  cases hunread : c.unread with
  | nil =>
    have hstop : secondCorner start c = c.stop .unexpectedEnd := by
      unfold secondCorner
      rw [hunread]
    exact moves_of_stop hstop hstop (within_end hunread rfl)
  | cons stop rest =>
    have hhead (d : Cursor) (hd : d.unread.head? = c.unread.head?) : secondCorner start d =
        if stop.kind == .cell then corners start stop.value d.next
        else d.next.stopBehind .rangeEnd := by
      obtain ⟨behind, hbehind⟩ := List.head?_eq_some_iff.mp (hd.trans (congrArg List.head? hunread))
      unfold secondCorner
      rw [hbehind]
    refine Moves.of_head ?_ hhead hhead
    split
    · exact (corners_moves start stop.value c.next).behind_complete hunread
    · exact moves_of_stop rfl rfl (within_stopBehind hunread nofun)

theorem cellOrRange_moves (room : Nat) (ref : Value) (c : Cursor) :
    Moves 0 room (· = [Token.mark ":"]) (cellOrRange ref) (cellOrRange ref) c := by
  refine Moves.of_sees (fun hcolon => ?_) fun _ => ?_
  · obtain ⟨rest, hunread⟩ := sees_iff.mp hcolon
    exact ((secondCorner_moves ref c.next).behind hunread fun ts hts => hts ▸ rfl).mono
      (Nat.zero_le _) (Nat.le_add_right room 4) fun _ h => h
  · exact moves_check_map (fun f => Value.not_isOfRules_of_toText) Node.cell

end Arguments

/-! ### Factors -/

section Factors
variable {rule deeper : Rule} {room room' : Nat} {c : Cursor} {t : Token} {rest : List Token}

theorem argumentsWithin_moves {more : Nat} (hle : room ≤ more)
    (h : RuleMoves (room - 3) (factor (room - 3)) (factor (more - 3)))
    (hmore : RuleMoves (more - 3) (factor (more - 3)) (factor (more - 3))) (c : Cursor) :
    Moves 1 (room - 3) Unfinished (argumentsWithin room) (argumentsWithin more) c := by
  by_cases hshort : room < 3
  · have hlook := look_lt_ample c.unread
    exact moves_of_tooDeep (if_pos hshort) (by omega)
  · have hwithin (k : Nat) (hk : room ≤ k) (d : Cursor) :
        argumentsWithin k d = arguments (factor (k - 3)) d := if_neg (by omega)
    exact (arguments_moves h hmore c).of_head (fun d _ => hwithin room (Nat.le_refl _) d)
      fun d _ => hwithin more hle d

/-- A call at its name, with readers for its arguments. -/
theorem call_moves {args args' : Reader (List Node)}
    (h : ∀ d, Moves 1 room Unfinished args args' d) (name : Value) (hc : c.unread = t :: rest) :
    Moves 1 (room + 4) Unfinished (fun d => call args name d.next)
      (fun d => call args' name d.next) c := by
  cases hopen : c.next.sees "(" with
  | true =>
    obtain ⟨behind, hunread⟩ := sees_iff.mp hopen
    have hcall (text : String) : Moves 1 room Unfinished
        (fun d => (args d).map fun x => (Node.call text x.1, x.2))
        (fun d => (args' d).map fun x => (Node.call text x.1, x.2)) c.next.next :=
      (h c.next.next).map (Node.call text)
    have hread := Moves.check_bind (fun f => @Value.not_isOfRules_of_toText name f) hcall
    have hhead (reads : Reader (List Node)) (d : Cursor)
        (hd : d.unread.head? = c.next.unread.head?) :
        call reads name d = d.next.check name.toText >>= fun text =>
          (reads d.next).map fun x => (.call text x.1, x.2) := by
      unfold call
      rw [if_pos ((sees_congr hd _).trans hopen)]
      cases name.toText with
      | error f => rfl
      | ok text =>
        cases reads d.next with
        | error s => rfl
        | ok result => rfl
    have hbehind := ((hread.behind_wanting hunread .opening).of_head (hhead args) (hhead args'))
    exact (hbehind.behind hc fun _ hts => unfinished_append [t] _ hts).mono (by omega) (by omega)
      fun _ h => h
  | false =>
    have hstop (reads : Reader (List Node)) : call reads name c.next =
        c.next.check name.literal >>= fun shown => c.next.stopBehind (.unknownName shown) := by
      unfold call
      rw [hopen]
      rfl
    have hend : c.next.position ≤ c.position + c.unread.length := by
      rw [length_of_unread hc]
      exact Nat.add_le_add_left (Nat.le_add_left 1 _) _
    exact moves_of_shown (hstop args) (hstop args') (Nat.le_succ _) hend
      fun shown => within_stopBehind hc nofun

/-- A bracket that opens, or a token with which no factor begins. -/
theorem brackets_moves (h : RuleMoves room rule deeper) (hdeeper : RuleMoves room' deeper deeper)
    (hc : c.unread = t :: rest) :
    let reads (r : Rule) : Rule := fun d =>
      if t.spells .punctuation "(" then
        expression r d.next >>= fun x => (x.2.expect ")").map fun c' => (x.1, c')
      else d.check t.value.literal >>= fun shown => d.stop (.unexpectedToken shown)
    Moves 1 (room + 4) Unfinished (reads rule) (reads deeper) c := by
  intro reads
  by_cases hopen : t.spells .punctuation "(" = true
  · have hwants : t.WantsFactor := spells_iff.mp hopen ▸ .opening
    have hreads (r : Rule) : reads r = fun d =>
        expression r d.next >>= fun x => (x.2.expect ")").map fun c' => (x.1, c') :=
      funext fun d => if_pos hopen
    have hread : Moves (1 + 1) room Unfinished
        (fun d => expression rule d >>= fun x => (x.2.expect ")").map fun c' => (x.1, c'))
        (fun d => expression deeper d >>= fun x => (x.2.expect ")").map fun c' => (x.1, c'))
        c.next :=
      (expression_moves h hdeeper c.next).bind _ _ (fun n c' _ => moves_map_expect ")" n)
        unfinished_append
    rw [hreads, hreads]
    exact (hread.behind_wanting hc hwants).mono (by omega) (Nat.le_refl _) fun _ => .inr
  · have hstop (r : Rule) : reads r c =
        c.check t.value.literal >>= fun shown => c.stop (.unexpectedToken shown) := if_neg hopen
    exact moves_of_shown (hstop rule) (hstop deeper) (Nat.le_refl _) (Nat.le_add_right _ _)
      fun shown => within_stop nofun

/-- What holds of the factors inside holds of a factor, whatever frames lie between them. -/
theorem factor_succ_moves {more : Nat} (hle : room ≤ more)
    (h : ∀ k, RuleMoves (room - k) (factor (room - k)) (factor (more - k)))
    (hmore : ∀ k, RuleMoves (more - k) (factor (more - k)) (factor (more - k))) :
    RuleMoves (room + 1) (factor (room + 1)) (factor (more + 1)) := by
  intro c
  by_cases hlook : room < CallStack.look c.unread.head?
  · have hample := look_lt_ample c.unread
    refine moves_of_tooDeep ?_ (by omega)
    rw [factor_succ, if_pos hlook]
  · cases hunread : c.unread with
    | nil =>
      have hstop (k : Nat) (hk : room ≤ k) : factor (k + 1) c = c.stop .unexpectedEnd := by
        rw [factor_succ, if_neg (by omega), hunread]
      exact moves_of_stop (hstop room (Nat.le_refl _)) (hstop more hle)
        (within_end hunread (.inl rfl))
    | cons t rest =>
      have hhead (d : Cursor) (hd : d.unread.head? = c.unread.head?) : d.unread.head? = some t :=
        hd.trans (congrArg List.head? hunread)
      rw [hhead c rfl] at hlook
      refine Moves.of_head ?_ (fun d hd => factor_of_head (hhead d hd) (Nat.not_lt.mp hlook))
        (fun d hd => factor_of_head (hhead d hd) ((Nat.not_lt.mp hlook).trans hle))
      by_cases hminus : t.spells .operator "-" = true
      · have hsub : Operator.sub.token.WantsFactor := .operator nofun
        have hwants : t.WantsFactor := spells_iff.mp hminus ▸ hsub
        simp only [hminus, if_true]
        exact (((h 0 c.next).map Node.negate).behind_wanting hunread hwants).mono (by omega)
          (by omega) fun _ => .inr
      · simp only [hminus]
        have hbrackets := (brackets_moves (h 2) (hmore 2) hunread).mono (Nat.le_refl 1)
          (show room + 1 ≤ room - 2 + 4 by omega) fun _ h => h
        cases hkind : t.kind with
        | number =>
          exact (moves_check_map (fun f => Value.not_isOfRules_of_toDouble)
            fun x => Node.constant (.float x)).behind_complete hunread
        | cell =>
          have hends : ∀ ts, ts = [Token.mark ":"] → Unfinished (t :: ts) :=
            fun ts hts => hts ▸ .inr (.corner [] hkind)
          exact ((cellOrRange_moves room t.value c.next).behind hunread hends).mono
            (Nat.le_refl 1) (by omega) fun _ h => h
        | identifier =>
          exact (call_moves (argumentsWithin_moves hle (h 3) (hmore 3)) t.value hunread).mono
            (Nat.le_refl 1) (by omega) fun _ h => h
        | _ => exact hbrackets

theorem factor_zero_moves (deeper : Rule) : RuleMoves 0 (factor 0) deeper :=
  fun c => moves_of_tooDeep rfl (Nat.zero_lt_of_lt (look_lt_ample c.unread))

theorem factor_moves {more : Nat} (h : room ≤ more) :
    RuleMoves room (factor room) (factor more) := by
  -- A rule is compared with itself first, so that the deeper one is known to shrink: otherwise its
  -- loops might run out of tries.
  have hself (k : Nat) : RuleMoves k (factor k) (factor k) := by
    induction k using Nat.strong_induction_on with
    | h k ih =>
    cases k with
    | zero => exact factor_zero_moves _
    | succ k =>
      have hinner (taken : Nat) := ih (k - taken) (by omega)
      exact factor_succ_moves (Nat.le_refl k) hinner hinner
  induction room using Nat.strong_induction_on generalizing more with
  | h room ih =>
  cases room with
  | zero => exact factor_zero_moves _
  | succ room =>
    obtain ⟨more, rfl⟩ : ∃ k, more = k + 1 := ⟨more - 1, by omega⟩
    exact factor_succ_moves (by omega) (fun k => ih (room - k) (by omega) (by omega))
      fun k => hself (more - k)

/-- A rule of the grammar, with `room` frames left for each factor that it begins with. -/
def ruleOf (room : Nat) : Phrase → Rule
  | .expression => expression (factor room)
  | .term => term (factor room)
  | .factor => factor room

theorem ruleOf_moves {more : Nat} (h : room ≤ more) (phrase : Phrase) :
    RuleMoves room (ruleOf room phrase) (ruleOf more phrase) := by
  have hfactor := factor_moves h
  have hmore := factor_moves (Nat.le_refl more)
  cases phrase with
  | expression => exact expression_moves hfactor hmore
  | term => exact term_moves hfactor hmore
  | factor => exact hfactor

end Factors

/-! ### Token lists -/

section Lists
variable {ts : List Token} {p : Nat} {phrase : Phrase} {room more : Nat}

/-- What a rule reads does not depend on tokens in front of its cursor, nor behind the next one. -/
theorem ruleOf_reads {n : Node} {c : Cursor} (hp : p ≤ ts.length) (hle : room ≤ more)
    (hread : ruleOf room phrase (cursorAt ts p) = .ok (n, c)) :
    ∃ q, p < q ∧ q ≤ ts.length ∧ c = cursorAt ts q ∧
      ∀ us : List Token, (∀ i, p ≤ i → i ≤ q → us[i]? = ts[i]?) →
        ruleOf more phrase (cursorAt us p) = .ok (n, cursorAt us q) := by
  obtain ⟨front, hfront, hunread, hposition, hsame⟩ :=
    (ruleOf_moves hle phrase (cursorAt ts p)).reads hread
  have hdrop : ts.drop p = front ++ c.unread := hunread
  have hlength : ts.length - p = front.length + c.unread.length := by
    rw [← List.length_append, ← hdrop, List.length_drop]
  have hposition : c.position = p + front.length := hposition
  have hrest : ts.drop (p + front.length) = c.unread := by
    rw [← List.drop_drop, hdrop, List.drop_left]
  have hc : c = cursorAt ts (p + front.length) := by
    rw [cursorAt, hrest, ← hposition]
  refine ⟨p + front.length, by omega, by omega, hc, fun us hus => ?_⟩
  have hnext : (us.drop (p + front.length)).head? = c.unread.head? := by
    rw [← hrest, List.head?_drop, List.head?_drop, hus _ (by omega) (Nat.le_refl _)]
  have husread : us.drop p = front ++ us.drop (p + front.length) := by
    apply List.ext_getElem?
    intro i
    by_cases hi : i < front.length
    · rw [List.getElem?_append_left hi, List.getElem?_drop, hus (p + i) (by omega) (by omega),
        ← List.getElem?_drop, hdrop, List.getElem?_append_left hi]
    · rw [List.getElem?_append_right (by omega), List.getElem?_drop, List.getElem?_drop]
      congr 1
      omega
  have hread' := hsame (us.drop (p + front.length)) hnext
  rw [← husread, hposition] at hread'
  exact hread'

theorem parseAll_cursor {n : Node} {c : Cursor} (h : parseAll room ts = .ok (n, c)) :
    c = cursorAt ts ts.length := by
  unfold parseAll at h
  obtain ⟨⟨n', c'⟩, htree, hend⟩ := bind_eq_ok.mp h
  have hread : ruleOf (room - 2) .expression (cursorAt ts 0) = .ok (n', c') := htree
  dsimp only at hend
  split at hend
  · rename_i hempty
    cases hend
    obtain ⟨q, -, hq, rfl, -⟩ := ruleOf_reads (Nat.zero_le _) (Nat.le_refl (room - 2)) hread
    have hle : ts.length ≤ q := List.drop_eq_nil_iff.mp (List.isEmpty_iff.mp hempty)
    rw [Nat.le_antisymm hq hle]
  · cases hend

/-- What a rule does from any place of any token list. A tree has taken at least one token, and it
stays the same, and so does the place behind it, whatever the tokens are in front of the first and
behind the next one. A stop is within the list, and so is the token that it reports. A rule comes to
an end: with frames that are ample it never refuses the nesting, and further frames change nothing,
and neither do further tries of a loop. The end of the list is missed only where a factor
or the second corner of a range has to come, and the corner exactly where a colon is all that is
left behind a cell. A tree of a whole list has taken all its tokens. -/
theorem cursor_of_rules (hp : p ≤ ts.length) (phrase : Phrase) (room : Nat) :
    let read := ruleOf room phrase (cursorAt ts p)
    (∀ n c, read = .ok (n, c) → ∃ q, p < q ∧ q ≤ ts.length ∧ c = cursorAt ts q ∧
      ∀ us : List Token, (∀ i, p ≤ i → i ≤ q → us[i]? = ts[i]?) →
        ruleOf room phrase (cursorAt us p) = .ok (n, cursorAt us q)) ∧
    (∀ s, read = .error s → p ≤ s.position ∧ s.position ≤ ts.length ∧
      ∀ cause k, s.fault = .grammar cause k →
        p ≤ k ∧ k ≤ ts.length ∧ (k = s.position ∨ k + 1 = s.position)) ∧
    (ample (ts.drop p) ≤ room → (∀ s, read = .error s → s.fault ≠ .nestedTooDeep) ∧
      ∀ more, room ≤ more → ruleOf more phrase (cursorAt ts p) = read) ∧
    (∀ op? tries left c, c.unread.length ≤ tries →
      chainFrom op? (ruleOf room phrase) tries left c =
        chainFrom op? (ruleOf room phrase) c.unread.length left c) ∧
    (∀ tries seen c, c.unread.length < tries →
      argumentsFrom (factor room) tries seen c =
        argumentsFrom (factor room) (c.unread.length + 1) seen c) ∧
    (∀ s k, read = .error s → s.fault = .grammar .unexpectedEnd k →
      k = ts.length ∧ s.position = ts.length ∧ Unfinished (ts.drop p)) ∧
    (∀ ref c, (∃ s k, cellOrRange ref c = .error s ∧ s.fault = .grammar .unexpectedEnd k) ↔
      c.unread = [.mark ":"]) ∧
    ∀ limit n c, parseAll limit ts = .ok (n, c) → c = cursorAt ts ts.length := by
  intro read
  have hmoves := ruleOf_moves (Nat.le_refl room) phrase (cursorAt ts p)
  have hend : p + (cursorAt ts p).unread.length = ts.length := by
    rw [length_cursorAt]
    omega
  refine ⟨fun n c hread => ruleOf_reads hp (Nat.le_refl room) hread, fun s hread => ?_,
    fun hroom => ⟨fun s hread hdeep => ?_, fun more hmore => ?_⟩,
    fun op? tries left c hc => ?_, fun tries seen c hc => ?_, fun s k hread hk => ?_,
    fun ref c => ?_, fun limit n c => parseAll_cursor⟩
  · obtain ⟨hs, -⟩ := hmoves.stops hread
    have hle := hs.le_end.trans_eq hend
    refine ⟨hs.start_le, hle, fun cause k hk => ?_⟩
    obtain ⟨hstart, hsame⟩ := hs.reported cause k hk
    exact ⟨hstart, by omega, hsame⟩
  · exact absurd ((hmoves.stops hread).1.room_lt hdeep) (Nat.not_lt_of_le hroom)
  · have hdeep := ruleOf_moves hmore phrase (cursorAt ts p)
    cases hread : ruleOf room phrase (cursorAt ts p) with
    | ok result => exact (hdeep.deeper_eq hread).trans hread.symm
    | error s =>
      obtain ⟨hs, hnested | hsame⟩ := hdeep.stops hread
      · exact absurd (hs.room_lt hnested) (Nat.not_lt_of_le hroom)
      · exact hsame.trans hread.symm
  · have hshrinks := shrinks_of_moves (ruleOf_moves (Nat.le_refl room) phrase)
    exact chainFrom_tries hshrinks hc (Nat.le_refl _) left
  · have hshrinks := shrinks_of_moves (ruleOf_moves (Nat.le_refl room) .expression)
    exact argumentsFrom_tries hshrinks hc (Nat.lt_succ_self _) seen
  · obtain ⟨hlast, hposition, hmissed⟩ := (hmoves.stops hread).1.missed k hk
    exact ⟨hlast.trans hend, hposition.trans (hlast.trans hend), hmissed⟩
  · constructor
    · rintro ⟨s, k, hread, hk⟩
      exact (((cellOrRange_moves 0 ref c).stops hread).1.missed k hk).2.2
    · intro hunread
      refine ⟨⟨.grammar .unexpectedEnd (c.position + 1), c.position + 1⟩, c.position + 1, ?_, rfl⟩
      have hsees : c.sees ":" = true := sees_iff.mpr ⟨[], hunread⟩
      rw [cellOrRange_eq, if_pos hsees, Cursor.next, hunread]
      rfl

end Lists

end Frames

/-- The opposite of a range, and a product that lacks its second factor. -/
def cutShort : List Token :=
  [Operator.sub.token, .cell "A1", .mark ":", .cell "B2", Operator.mul.token]

attribute [local instance] CallStack.usual

theorem cursor_of_rules_cutShort :
    (0 ≤ cutShort.length ∧ ∀ us : List Token, (∀ i, 0 ≤ i → i ≤ 4 → us[i]? = cutShort[i]?) →
      factor 4 (cursorAt us 0) = .ok (.negate (.range "A1" "B2"), cursorAt us 4)) ∧
    term (factor 4) (cursorAt cutShort 0) = .error ⟨.grammar .unexpectedEnd 5, 5⟩ ∧
    Unfinished cutShort := by
  have hfactor : ruleOf 4 .factor (cursorAt cutShort 0) =
      .ok (.negate (.range "A1" "B2"), cursorAt cutShort 4) := rfl
  have hterm : ruleOf 4 .term (cursorAt cutShort 0) = .error ⟨.grammar .unexpectedEnd 5, 5⟩ := rfl
  have hp : 0 ≤ cutShort.length := by decide
  obtain ⟨q, -, -, hq, hlocal⟩ := (cursor_of_rules hp .factor 4).1 _ _ hfactor
  obtain rfl : 4 = q := congrArg Cursor.position hq
  obtain ⟨-, -, hmissed⟩ := (cursor_of_rules hp .term 4).2.2.2.2.2.1 _ 5 hterm rfl
  exact ⟨⟨hp, hlocal⟩, hterm, hmissed⟩

end Worksheet.Formula
