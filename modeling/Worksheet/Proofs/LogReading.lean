import Worksheet.Proofs.JsonLimits
import Worksheet.Proofs.LineFeeds
import Worksheet.Proofs.ParsedTrees

/-!
Reading a journal, step by step. Each line has a value, or none, or a fault that ends the reading.
A query that filters asks every value for its fields until it has found enough, and there the first
value that has no fields ends it; a query that filters nothing asks no value for anything.
-/
namespace Worksheet.Log.Journal

open Text

/-! ### Lines -/

/-- The fault of a line that goes beyond the limits of reading. -/
def fault? (depth : Nat) (line : List Char) : Option Fault :=
  match record? depth line with
  | .error f => some f
  | .ok _ => none

/-- The value that a line is read as. -/
def value? (depth : Nat) (line : List Char) : Option Value :=
  match record? depth line with
  | .ok v => v
  | .error _ => none

variable {depth : Nat} {line : List Char} {f : Fault}

theorem fault?_eq_none {r : Option Value} (h : record? depth line = .ok r) :
    fault? depth line = none := by
  unfold fault?
  rw [h]

theorem value?_eq {r : Option Value} (h : record? depth line = .ok r) :
    value? depth line = r := by
  unfold value?
  rw [h]

/-- Only a long line goes beyond the limits. -/
theorem excess_of_fault? (h : fault? depth line = some f) :
    Json.Excess depth line.length f := by
  unfold fault? record? at h
  dsimp only at h
  split at h
  · rename_i hrecord
    cases h
    split at hrecord
    · cases hrecord
    · split at hrecord
      · cases hrecord
      · cases hrecord
      · rename_i hbeyond
        cases hrecord
        have hlength := (isInfix_trim line).length_le
        exact (Json.excess_of_document hbeyond).mono (by omega) hlength
  · cases h

/-- The values of lines are found up to the first fault. -/
theorem recordsFrom_eq (seen : List Value) (lines : List (List Char)) :
    recordsFrom depth seen lines = (lines.findSome? (fault? depth)).elim
      (.ok ((lines.filterMap (value? depth)).reverse ++ seen)) .error := by
  induction lines generalizing seen with
  | nil => rfl
  | cons line rest ih =>
    rw [recordsFrom, List.findSome?_cons]
    cases hrecord : record? depth line with
    | error f =>
      have hfault : fault? depth line = some f := by
        unfold fault?
        rw [hrecord]
      rw [hfault]
      rfl
    | ok v =>
      rw [fault?_eq_none hrecord, List.filterMap_cons, value?_eq hrecord]
      cases v with
      | none => exact ih seen
      | some v =>
        apply (ih (v :: seen)).trans
        rw [List.reverse_cons, List.append_assoc]
        rfl

/-- The values that some texts are read as, newest first. -/
def found (depth : Nat) (texts : List (List Char)) : List Value :=
  (texts.filterMap (value? depth)).reverse

/-- What bytes are read as, newest first. -/
theorem newest_eq (bytes : List UInt8) :
    newest depth bytes = ((parts (decodeUtf8 bytes)).findSome? (fault? depth)).elim
      (.ok (found depth (parts (decodeUtf8 bytes)))) .error := by
  have hfaults : (parts (decodeUtf8 bytes)).findSome? (fault? depth) =
      (lines (decodeUtf8 bytes)).findSome? (fault? depth) := by
    rw [← List.head?_filterMap, ← List.head?_filterMap, filterMap_parts rfl]
  unfold newest found
  rw [recordsFrom_eq, hfaults, filterMap_parts rfl, List.append_nil]

/-! ### Queries -/

/-- Whether some text is wanted in a field; the empty text never is. -/
def isWanted (wanted : Option String) : Bool := wanted.any fun text => !text.isEmpty

/-- Whether a query asks values for their fields. -/
def Query.filters (q : Query) : Bool := isWanted q.level || isWanted q.type

/-- Whether a field of a value holds a wanted text, if one is wanted. -/
def holds (wanted : Option String) (name : String) (v : Value) : Bool :=
  !isWanted wanted || (v.field? name).bind Value.text? == wanted

/-- Whether the fields of a value are as a query wants them. -/
def Query.selects (q : Query) (v : Value) : Bool :=
  holds q.level "level" v && holds q.type "event_type" v

/-- The fault of asking a value without fields for one. -/
def Query.refusal? (q : Query) : Value → Option Fault
  | .record _ => none
  | v => if q.filters then some (.noOperation v.kind "get") else none

/-- How many records are taken: at least one, as the limit is looked at behind a record only. -/
def Query.most (q : Query) : Nat := (max 1 (min q.limit maxRecords)).toNat

variable {q : Query} {v : Value} {seen records : List Value} {room : Nat}
  {f' : Fault}

theorem filter_of_isWanted {wanted : Option String} (h : isWanted wanted = true) :
    ∃ text, wanted = some text ∧ wanted.filter (fun text => !text.isEmpty) = some text := by
  cases wanted with
  | none => cases h
  | some text => exact ⟨text, rfl, Option.filter_some_pos h⟩

theorem matchesField_of_not_isWanted {wanted : Option String} (h : isWanted wanted = false)
    (name : String) (v : Value) : matchesField wanted name v = .ok true := by
  have hnone : wanted.filter (fun text => !text.isEmpty) = none := by
    cases wanted with
    | none => rfl
    | some text => exact Option.filter_some_neg (by simpa [isWanted] using h)
  unfold matchesField
  rw [hnone]

theorem matchesField_of_lookup_eq_error {name : String} (h : v.lookup name = .error f)
    {wanted : Option String} (hwanted : isWanted wanted = true) :
    matchesField wanted name v = .error f := by
  obtain ⟨text, -, hfilter⟩ := filter_of_isWanted hwanted
  unfold matchesField
  rw [hfilter, h]
  rfl

theorem matchesField_record (wanted : Option String) (name : String)
    (fields : List (String × Value)) :
    matchesField wanted name (.record fields) = .ok (holds wanted name (.record fields)) := by
  unfold holds
  cases hwanted : isWanted wanted with
  | false => exact matchesField_of_not_isWanted hwanted name _
  | true =>
    obtain ⟨text, rfl, hfilter⟩ := filter_of_isWanted hwanted
    unfold matchesField
    rw [hfilter]
    rfl

theorem refusal?_of_not_record (h : ¬∃ fields, v = .record fields) (q : Query) :
    q.refusal? v = if q.filters then some (.noOperation v.kind "get") else none := by
  unfold Query.refusal?
  split
  · exact absurd ⟨_, rfl⟩ h
  · rfl

/-- A value is refused, or it is wanted or not. -/
theorem accepts_eq (q : Query) (v : Value) :
    q.accepts v = (q.refusal? v).elim (.ok (q.selects v)) .error := by
  by_cases hrecord : ∃ fields, v = .record fields
  · obtain ⟨fields, rfl⟩ := hrecord
    unfold Query.accepts Query.refusal? Query.selects
    rw [matchesField_record, matchesField_record]
    cases holds q.level "level" (.record fields) with
    | false => rfl
    | true => rfl
  · have hlookup (name : String) : v.lookup name = .error (.noOperation v.kind "get") := by
      unfold Value.lookup
      split
      · exact absurd ⟨_, rfl⟩ hrecord
      · rfl
    rw [refusal?_of_not_record hrecord]
    unfold Query.accepts Query.filters
    cases hlevel : isWanted q.level with
    | true =>
      rw [matchesField_of_lookup_eq_error (hlookup "level") hlevel]
      rfl
    | false =>
      rw [matchesField_of_not_isWanted hlevel]
      change matchesField q.type "event_type" v = _
      cases htype : isWanted q.type with
      | true => exact matchesField_of_lookup_eq_error (hlookup "event_type") htype
      | false =>
        rw [matchesField_of_not_isWanted htype]
        unfold Query.selects holds
        rw [hlevel, htype]
        rfl

/-- A query comes to a value that it cannot ask, with room for more than it has taken before. -/
def Query.Stumbles (q : Query) (room : Nat) (values : List Value) (f : Fault) : Prop :=
  ∃ front v behind, values = front ++ v :: behind ∧ (∀ u ∈ front, q.refusal? u = none) ∧
    q.refusal? v = some f ∧ (front.filter q.selects).length < room

namespace Query.Stumbles

variable {rest : List Value}

theorem cons_iff_of_refusal (h : q.refusal? v = some f') (hroom : 0 < room) :
    q.Stumbles room (v :: rest) f ↔ f' = f := by
  constructor
  · rintro ⟨front, u, behind, hvalues, hfront, hu, -⟩
    cases front with
    | nil =>
      cases hvalues
      exact Option.some.inj (h.symm.trans hu)
    | cons w front =>
      cases hvalues
      have hw := hfront v List.mem_cons_self
      rw [h] at hw
      cases hw
  · rintro rfl
    exact ⟨[], v, rest, rfl, List.forall_mem_nil _, h, hroom⟩

/-- A value that is not refused takes room if it is wanted. -/
theorem cons_iff (h : q.refusal? v = none) :
    q.Stumbles room (v :: rest) f ↔
      q.Stumbles (room - if q.selects v then 1 else 0) rest f := by
  constructor
  · rintro ⟨front, u, behind, hvalues, hfront, hu, hlength⟩
    cases front with
    | nil =>
      cases hvalues
      rw [h] at hu
      cases hu
    | cons w front =>
      cases hvalues
      refine ⟨front, u, behind, rfl, (List.forall_mem_cons.mp hfront).2, hu, ?_⟩
      rw [List.filter_cons] at hlength
      split at hlength
      · rename_i hselects
        rw [if_pos hselects]
        rw [List.length_cons] at hlength
        omega
      · rename_i hselects
        rw [if_neg hselects]
        exact hlength
  · rintro ⟨front, u, behind, rfl, hfront, hu, hlength⟩
    refine ⟨v :: front, u, behind, rfl, List.forall_mem_cons.mpr ⟨h, hfront⟩, hu, ?_⟩
    rw [List.filter_cons]
    split
    · rename_i hselects
      rw [if_pos hselects] at hlength
      rw [List.length_cons]
      omega
    · rename_i hselects
      rw [if_neg hselects] at hlength
      exact hlength

theorem not_nil : ¬q.Stumbles room [] f := by
  rintro ⟨front, v, behind, hvalues, -⟩
  exact absurd hvalues.symm (List.append_ne_nil_of_right_ne_nil front (List.cons_ne_nil v behind))

end Query.Stumbles

theorem most_le_iff (q : Query) (n : Nat) : min q.limit maxRecords ≤ n + 1 ↔ q.most ≤ n + 1 := by
  unfold Query.most
  omega

/-- Selecting fails where the query stumbles, and else takes the first wanted values. -/
structure Selection (q : Query) (seen values : List Value) (r : Except Fault (List Value)) :
    Prop where
  error_iff : ∀ f, r = .error f ↔ q.Stumbles (q.most - seen.length) values f
  eq_take : ∀ records, r = .ok records →
    records = seen.reverse ++ (values.filter q.selects).take (q.most - seen.length)

theorem selectFrom_selection (hroom : seen.length < q.most) (values : List Value) :
    Selection q seen values (selectFrom q seen values) := by
  induction values generalizing seen with
  | nil =>
    constructor
    · intro f
      exact ⟨nofun, fun h => absurd h Query.Stumbles.not_nil⟩
    · rintro records ⟨⟩
      rw [List.filter_nil, List.take_nil, List.append_nil]
  | cons v rest ih =>
    rw [selectFrom, accepts_eq]
    cases hrefusal : q.refusal? v with
    | some f =>
      constructor
      · intro f'
        rw [Query.Stumbles.cons_iff_of_refusal hrefusal (by omega)]
        exact ⟨Except.error.inj, congrArg Except.error⟩
      · exact nofun
    | none =>
      cases hselects : q.selects v with
      | false =>
        obtain ⟨herror, htake⟩ := ih hroom
        constructor
        · intro f
          rw [Query.Stumbles.cons_iff hrefusal, hselects]
          exact herror f
        · rw [List.filter_cons_of_neg (by rw [hselects]; exact Bool.false_ne_true)]
          exact htake
      | true =>
        have htake : q.most - seen.length = q.most - (seen.length + 1) + 1 := by omega
        have hfilter : (v :: rest).filter q.selects = v :: rest.filter q.selects :=
          List.filter_cons_of_pos hselects
        rw [Option.elim_none]
        dsimp only
        split
        · rename_i hlast
          have hlast := (most_le_iff q seen.length).mp hlast
          have hone : q.most - seen.length = 1 := by omega
          constructor
          · intro f
            rw [Query.Stumbles.cons_iff hrefusal, hselects, hone]
            refine ⟨nofun, ?_⟩
            rintro ⟨front, u, behind, -, -, -, hlength⟩
            exact absurd hlength (Nat.not_lt_zero _)
          · rintro records ⟨⟩
            rw [hfilter, hone, List.take_succ_cons, List.take_zero, List.reverse_cons]
        · rename_i hmore
          have hmore : (v :: seen).length < q.most :=
            Nat.lt_of_not_le (mt (most_le_iff q seen.length).mpr hmore)
          obtain ⟨herror, hrecords⟩ := ih hmore
          constructor
          · intro f
            rw [Query.Stumbles.cons_iff hrefusal, hselects]
            exact herror f
          · intro records h
            rw [hrecords records h, hfilter, htake, List.take_succ_cons, List.reverse_cons,
              List.append_assoc]
            rfl

/-- Where no value is refused, the wanted values are taken up to the limit. -/
theorem selectFrom_eq_ok (hroom : seen.length < q.most) {values : List Value}
    (h : ∀ v ∈ values, q.refusal? v = none) :
    selectFrom q seen values =
      .ok (seen.reverse ++ (values.filter q.selects).take (q.most - seen.length)) := by
  obtain ⟨herror, htake⟩ := selectFrom_selection hroom values
  cases hselect : selectFrom q seen values with
  | error f =>
    obtain ⟨front, v, behind, rfl, -, hv, -⟩ := (herror f).mp hselect
    rw [h v (List.mem_append_right front List.mem_cons_self)] at hv
    cases hv
  | ok records => rw [htake records hselect]

end Worksheet.Log.Journal
