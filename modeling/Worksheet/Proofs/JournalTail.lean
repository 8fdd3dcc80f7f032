import Worksheet.Proofs.LogReading

/-!
A journal read back. Every event is written as one line of printable text, so the end of a journal
from any byte on, without the line that is cut, is the lines that start behind that byte. They read
as the events that were written, the newest first, and of these the wanted ones are taken up to the
limit.
-/
namespace Worksheet

open Text

/-! ### Sorted records -/

namespace Value

mutual
/-- A value with the fields of its records in the order of their names, as it is written on a line;
an error is its code. -/
def sorted : Value → Value
  | .error code => .text code.text
  | .list items => .list (sortedAll items)
  | .record fields => .record ((sortedFields fields).mergeSort fun a b => a.1 ≤ b.1)
  | v => v

def sortedAll : List Value → List Value
  | [] => []
  | v :: rest => sorted v :: sortedAll rest

def sortedFields : List (String × Value) → List (String × Value)
  | [] => []
  | (name, v) :: rest => (name, sorted v) :: sortedFields rest
end

variable {fields : List (String × Value)} {name : String} {v : Value}

theorem sortedFields_eq_map (fields : List (String × Value)) :
    sortedFields fields = fields.map fun field => (field.1, field.2.sorted) := by
  induction fields with
  | nil => rfl
  | cons field rest ih => rw [sortedFields, ih, List.map_cons]

/-- A field of a record is there when the record is sorted. -/
theorem lookup_sorted (h : (fields.map (·.1)).Nodup) (hfield : (name, v) ∈ fields) :
    (Value.record fields).sorted.lookup name = .ok (some v.sorted) := by
  have hperm := List.mergeSort_perm (sortedFields fields) fun a b => a.1 ≤ b.1
  have hnames : (sortedFields fields).map (·.1) = fields.map (·.1) := by
    rw [sortedFields_eq_map, List.map_map]
    rfl
  have hnodup : (((sortedFields fields).mergeSort fun a b => a.1 ≤ b.1).map (·.1)).Nodup := by
    rw [(hperm.map _).nodup_iff, hnames]
    exact h
  have hmem : (name, v.sorted) ∈ (sortedFields fields).mergeSort fun a b => a.1 ≤ b.1 := by
    rw [List.mem_mergeSort, sortedFields_eq_map]
    exact List.mem_map_of_mem hfield
  rw [sorted, lookup, (lookup_eq_some_iff_mem hnodup).mpr hmem]

end Value

namespace Log

/-! ### Journals that were written -/

/-- An event that was written, at a time and from a place of the journal on. -/
structure Entry where
  event : Event
  time : String
  start : Nat

/-- A journal with what was written to it, and nothing else. -/
inductive Written : List Entry → Journal → Prop
  | nothing : Written [] []
  | one {entries : List Entry} {j j' : Journal} {event : Event} {time : String}
      (h : Written entries j) (hwrite : j.write event time = .ok j') :
      Written (entries ++ [⟨event, time, j.length⟩]) j'

namespace Entry

/-- What is written. -/
def value (e : Entry) : Value := e.event.stamped e.time

/-- What is read back: what was written, with its fields sorted. -/
def record (e : Entry) : Value := e.value.sorted

/-- JSON reads back what it has written. -/
def ReadsBack (depth : Nat) (e : Entry) : Prop :=
  ∀ text, Json.text .line e.value = .ok text → Json.document depth text.toList = .ok e.record

/-- The line of an entry starts behind the first byte of the end that is looked at, or all of the
journal is. -/
def InSight (j : Journal) (tail : Int) (e : Entry) : Prop :=
  (j.length : Int) ≤ tail ∨ (j.length : Int) - tail < e.start

instance (j : Journal) (tail : Int) : DecidablePred (InSight j tail) :=
  fun _ => inferInstanceAs (Decidable (_ ∨ _))

/-- The text of a line. -/
def text (e : Entry) : List Char :=
  match Json.text .line e.value with
  | .ok text => text.toList
  | .error _ => []

def line (e : Entry) : List Char := e.text ++ ['\n']

def bytes (e : Entry) : List UInt8 := e.line.map byteOf

/-- An entry that can be written. -/
def Writable (e : Entry) : Prop := ∃ text, Json.text .line e.value = .ok text

variable {e : Entry}

theorem printable_text (e : Entry) : Printable e.text := by
  unfold text
  split
  · rename_i text htext
    exact Json.printable_render e.value 0 htext
  · exact printable_nil

theorem isAscii_line (e : Entry) : ∀ c ∈ e.line, c.toNat < 128 :=
  List.forall_mem_append.mpr
    ⟨e.printable_text.isAscii, List.forall_mem_singleton.mpr (by decide)⟩

theorem Writable.text_eq (h : e.Writable) :
    ∃ text, Json.text .line e.value = .ok text ∧ e.text = text.toList := by
  obtain ⟨text, htext⟩ := h
  refine ⟨text, htext, ?_⟩
  unfold Entry.text
  rw [htext]

theorem bytes_of_line (start : Nat) {event : Event} {time : String} {bytes : List UInt8}
    (h : Journal.line event time = .ok bytes) :
    (Entry.mk event time start).Writable ∧ bytes = (Entry.mk event time start).bytes := by
  unfold Journal.line at h
  obtain ⟨text, htext, hbytes⟩ := Formula.bind_eq_ok.mp h
  have hwritable : (Entry.mk event time start).Writable := ⟨text, htext⟩
  refine ⟨hwritable, ?_⟩
  obtain ⟨text', htext', heq⟩ := hwritable.text_eq
  cases htext.symm.trans htext'
  cases hbytes
  have hline : text ++ "\n" = String.ofList (Entry.mk event time start).line := by
    rw [line, heq, String.ofList_append, String.ofList_toList]
  rw [hline]
  exact encodeUtf8_ofList (Entry.isAscii_line _)

/-! ### The end of a journal -/

/-- A line feed ends a line and stands nowhere else in it. -/
theorem bytes_eq (e : Entry) : e.bytes = e.text.map byteOf ++ [10] := by
  unfold bytes line
  rw [List.map_append]
  rfl

theorem ne_break_of_mem {b : UInt8} (h : b ∈ e.text.map byteOf) : (b != 10) = true := by
  obtain ⟨c, hc, rfl⟩ := List.mem_map.mp h
  have hprintable := e.printable_text c hc
  unfold IsPrintable at hprintable
  apply bne_iff_ne.mpr
  intro heq
  have hcode := congrArg UInt8.toNat heq
  rw [toNat_byteOf (by omega)] at hcode
  change c.toNat = 10 at hcode
  omega

end Entry

variable {entries : List Entry} {j j' : Journal}

/-- What stands behind the line that is cut. -/
def behind (bytes : List UInt8) : List UInt8 := (bytes.dropWhile (· != 10)).drop 1

/-- Nothing stands behind a single line, wherever it is cut. -/
theorem behind_drop_bytes (e : Entry) (cut : Nat) : behind (e.bytes.drop cut) = [] := by
  unfold behind
  rw [e.bytes_eq]
  by_cases hcut : cut ≤ (e.text.map byteOf).length
  · have hrest : ∀ b ∈ (e.text.map byteOf).drop cut, (b != 10) = true :=
      fun b hb => Entry.ne_break_of_mem (List.mem_of_mem_drop hb)
    rw [List.drop_append_of_le_length hcut, List.dropWhile_append_of_pos hrest]
    rfl
  · have hlength : (e.text.map byteOf ++ [10]).length ≤ cut := by
      rw [List.length_append, List.length_singleton]
      omega
    rw [List.drop_of_length_le hlength]
    rfl

/-- Behind the line that is cut stands what is written afterwards as well. -/
theorem behind_append {bytes : List UInt8} (h : 10 ∈ bytes) (more : List UInt8) :
    behind (bytes ++ more) = behind bytes ++ more := by
  have hne : bytes.dropWhile (· != 10) ≠ [] := by
    intro hnil
    have hother := List.dropWhile_eq_nil_iff.mp hnil 10 h
    exact absurd hother (by decide)
  obtain ⟨b, rest, hrest⟩ := List.exists_cons_of_ne_nil hne
  unfold behind
  rw [List.dropWhile_append, hrest]
  rfl

/-- Writing an event adds its line. -/
theorem write_eq {event : Event} {time : String} (h : j.write event time = .ok j') :
    (Entry.mk event time j.length).Writable ∧ j' = j ++ (Entry.mk event time j.length).bytes := by
  unfold Journal.write at h
  obtain ⟨bytes, hline, hwritten⟩ := Formula.bind_eq_ok.mp h
  obtain ⟨hwritable, rfl⟩ := Entry.bytes_of_line j.length hline
  cases hwritten
  exact ⟨hwritable, rfl⟩

theorem write_of_writable {event : Event} {time : String}
    (h : (Entry.mk event time j.length).Writable) :
    j.write event time = .ok (j ++ (Entry.mk event time j.length).bytes) := by
  obtain ⟨text, (htext : Json.text .line (event.stamped time) = .ok text)⟩ := h
  have hline : Journal.line event time = .ok (encodeUtf8 (text ++ "\n")) := by
    unfold Journal.line
    rw [htext]
    rfl
  obtain ⟨-, hbytes⟩ := Entry.bytes_of_line j.length hline
  unfold Journal.write
  rw [hline, hbytes]
  rfl

namespace Written

/-- An event that can be written is written at the end. -/
theorem concat (h : Written entries j) {e : Entry} (he : e.Writable) (hstart : e.start = j.length) :
    Written (entries ++ [e]) (j ++ e.bytes) := by
  obtain ⟨event, time, start⟩ := e
  cases hstart
  exact h.one (write_of_writable he)

theorem writable (h : Written entries j) : ∀ e ∈ entries, e.Writable := by
  induction h with
  | nothing => exact List.forall_mem_nil _
  | one h hwrite ih =>
    exact List.forall_mem_append.mpr ⟨ih, List.forall_mem_singleton.mpr (write_eq hwrite).1⟩

theorem eq_flatMap (h : Written entries j) : j = entries.flatMap Entry.bytes := by
  induction h with
  | nothing => rfl
  | one h hwrite ih =>
    rw [(write_eq hwrite).2, List.flatMap_append, List.flatMap_singleton, ← ih]

/-- A journal ends with a line feed. -/
theorem break_mem_drop (h : Written entries j) {cut : Nat} (hcut : cut < j.length) :
    10 ∈ j.drop cut := by
  cases h with
  | nothing => cases hcut
  | @one entries front _ event time h hwrite =>
    obtain ⟨-, rfl⟩ := write_eq hwrite
    rw [Entry.bytes_eq, ← List.append_assoc] at hcut ⊢
    rw [List.length_append, List.length_singleton] at hcut
    rw [List.drop_append_of_le_length (Nat.le_of_lt_succ hcut)]
    exact List.mem_append_right _ List.mem_cons_self

/-- Behind the line that is cut at a byte are the lines that start behind that byte. -/
theorem behind_drop (h : Written entries j) (cut : Nat) :
    behind (j.drop cut) = (entries.filter fun e => cut < e.start).flatMap Entry.bytes := by
  induction h with
  | nothing =>
    rw [List.drop_nil]
    rfl
  | @one entries j j' event time h hwrite ih =>
    obtain ⟨-, rfl⟩ := write_eq hwrite
    -- the cut is in front of the last line, which then is whole, or it leaves nothing of the others
    by_cases hcut : cut < j.length
    · have hlast : [Entry.mk event time j.length].filter (fun e => cut < e.start) =
          [⟨event, time, j.length⟩] := List.filter_eq_self.mpr (by simpa using hcut)
      rw [List.drop_append_of_le_length (Nat.le_of_lt hcut),
        behind_append (h.break_mem_drop hcut), ih, List.filter_append, hlast,
        List.flatMap_append, List.flatMap_singleton]
    · have hlast : [Entry.mk event time j.length].filter (fun e => cut < e.start) = [] :=
        List.filter_eq_nil_iff.mpr (by simpa using hcut)
      have hnone : j.drop cut = [] := List.drop_of_length_le (Nat.le_of_not_lt hcut)
      -- nothing is left of the lines before, so by induction none of them starts behind the cut
      rw [hnone] at ih
      rw [List.drop_append, hnone, List.nil_append, behind_drop_bytes, List.filter_append, hlast,
        List.append_nil, ← ih]
      rfl

/-- What is looked at are the lines in sight. -/
theorem window (h : Written entries j) (tail : Int) :
    j.window tail = (entries.filter fun e => e.InSight j tail).flatMap Entry.bytes := by
  unfold Journal.window
  split
  · rename_i hall
    have hsight : entries.filter (fun e => decide (e.InSight j tail)) = entries :=
      List.filter_eq_self.mpr fun e _ => decide_eq_true (.inl hall)
    rw [hsight]
    exact h.eq_flatMap
  · rename_i hlong
    have hsight : entries.filter (fun e => decide (e.InSight j tail)) =
        entries.filter fun e => (j.length - tail).toNat < e.start := by
      apply List.filter_congr
      intro e he
      apply decide_eq_decide.mpr
      unfold Entry.InSight
      omega
    rw [hsight]
    exact h.behind_drop _

end Written

/-! ### Records -/

variable {depth : Nat}

namespace Entry

variable {e : Entry}

/-- The line of an entry is a record between braces, with no blanks around it. -/
theorem Writable.trim_text (h : e.Writable) : trim e.text = e.text ∧ e.text ≠ [] := by
  obtain ⟨text, htext, heq⟩ := h.text_eq
  obtain ⟨inside, hinside⟩ := Json.exists_braces htext
  rw [heq, hinside]
  refine ⟨trim_eq_self ?_ ?_, List.cons_ne_nil _ _⟩
  · rintro c ⟨⟩
    decide
  · rw [← List.cons_append, List.getLast?_concat]
    rintro c ⟨⟩
    decide

/-- The line of an entry is read as its record. -/
theorem record?_text (h : e.Writable) (hback : e.ReadsBack depth) :
    Journal.record? depth e.text = .ok (some e.record) := by
  obtain ⟨text, htext, heq⟩ := h.text_eq
  obtain ⟨htrim, hne⟩ := h.trim_text
  unfold Journal.record?
  dsimp only
  rw [htrim, if_neg (by simpa using hne), heq, hback text htext]

theorem lookup_record (e : Entry) {name : String} {v : Value}
    (hfield : (name, v) ∈ ("ts", .text e.time) :: e.event.toFields) :
    e.record.lookup name = .ok (some v.sorted) := by
  have hnames : (("ts", Value.text e.time) :: e.event.toFields).map (·.1) =
      ["ts", "schema_version", "level", "event_type", "context", "message", "error_code"] := rfl
  apply Value.lookup_sorted _ hfield
  rw [hnames]
  decide

end Entry

namespace Journal

theorem holds_of_lookup {v : Value} {name found : String}
    (h : v.lookup name = .ok (some (.text found))) (wanted : Option String) :
    holds wanted name v = (!isWanted wanted || wanted == some found) := by
  unfold holds
  rw [Value.field?_of_lookup h, BEq.comm]
  rfl

/-- Whether a query is for events like one: of its level and its type, as far as it names them. -/
def Query.wants (q : Query) (event : Event) : Bool :=
  (!isWanted q.level || q.level == some event.level.name) &&
    (!isWanted q.type || q.type == some event.type.name)

variable {q : Query} {entries : List Entry}

theorem selects_record (q : Query) (e : Entry) : q.selects e.record = q.wants e.event := by
  have hlevel : e.record.lookup "level" = .ok (some (.text e.event.level.name)) :=
    e.lookup_record (v := .text e.event.level.name) (by simp [Event.toFields])
  have htype : e.record.lookup "event_type" = .ok (some (.text e.event.type.name)) :=
    e.lookup_record (v := .text e.event.type.name) (by simp [Event.toFields])
  unfold Query.selects Query.wants
  rw [holds_of_lookup hlevel, holds_of_lookup htype]

theorem recordsFrom_text (hwritable : ∀ e ∈ entries, e.Writable)
    (hback : ∀ e ∈ entries, e.ReadsBack depth) (seen : List Value) :
    recordsFrom depth seen (entries.map Entry.text) =
      .ok ((entries.map Entry.record).reverse ++ seen) := by
  induction entries generalizing seen with
  | nil => rfl
  | cons e rest ih =>
    obtain ⟨he, hrest⟩ := List.forall_mem_cons.mp hwritable
    obtain ⟨hread, hrests⟩ := List.forall_mem_cons.mp hback
    rw [List.map_cons, recordsFrom, Entry.record?_text he hread]
    dsimp only
    rw [ih hrest hrests, List.map_cons, List.reverse_cons, List.append_assoc]
    rfl

/-- The lines of entries are read as their records, newest first. -/
theorem newest_bytes (hwritable : ∀ e ∈ entries, e.Writable)
    (hback : ∀ e ∈ entries, e.ReadsBack depth) :
    newest depth (entries.flatMap Entry.bytes) = .ok (entries.reverse.map Entry.record) := by
  have hbytes : entries.flatMap Entry.bytes = (entries.flatMap Entry.line).map byteOf :=
    List.map_flatMap.symm
  have hascii : ∀ c ∈ entries.flatMap Entry.line, c.toNat < 128 := by
    intro c hc
    obtain ⟨e, -, hmem⟩ := List.mem_flatMap.mp hc
    exact e.isAscii_line c hmem
  have htexts : ∀ text ∈ entries.map Entry.text, Printable text := by
    intro text htext
    obtain ⟨e, -, rfl⟩ := List.mem_map.mp htext
    exact e.printable_text
  have hlines : entries.flatMap Entry.line = (entries.map Entry.text).flatMap (· ++ ['\n']) := by
    rw [List.flatMap_map]
    rfl
  unfold newest
  rw [hbytes, decodeUtf8_bytes hascii, hlines, lines_flatMap htexts,
    recordsFrom_text hwritable hback, List.append_nil, List.map_reverse]

/-- The wanted ones of some records are taken up to the limit. -/
theorem selectFrom_record {n : Nat} (hn : min q.limit maxRecords = n) (entries : List Entry)
    {seen : List Value} (hseen : seen.length < n) :
    selectFrom q seen (entries.map Entry.record) = .ok (seen.reverse ++
      ((entries.filter fun e => q.wants e.event).take (n - seen.length)).map Entry.record) := by
  have hmost : q.most = n := by
    unfold Query.most
    omega
  have hrefusal : ∀ v ∈ entries.map Entry.record, q.refusal? v = none := by
    intro v hv
    obtain ⟨e, -, rfl⟩ := List.mem_map.mp hv
    rfl
  have hfilter : (entries.map Entry.record).filter q.selects =
      (entries.filter fun e => q.wants e.event).map Entry.record := by
    rw [List.filter_map]
    exact congrArg _ (List.filter_congr fun e _ => selects_record q e)
  rw [selectFrom_eq_ok (by omega) hrefusal, hmost, hfilter, List.map_take]

end Journal

/-! ### Renderings -/

/-- The fields of a line stand in the order of their names. -/
theorem mergeSort_stamped {α : Type} (time version level type context message code : α) :
    ([("ts", time), ("schema_version", version), ("level", level), ("event_type", type),
      ("context", context), ("message", message), ("error_code", code)].mergeSort
        fun a b => a.1 ≤ b.1) =
      [("context", context), ("error_code", code), ("event_type", type), ("level", level),
        ("message", message), ("schema_version", version), ("ts", time)] := by
  simp [List.mergeSort, List.MergeSort.Internal.splitInTwo]

namespace Entry

/-- A rendering that was completed, with nothing more to say about it. -/
def completed (time : String) (start : Nat) : Entry :=
  ⟨{ level := .info, type := .renderCompleted }, time, start⟩

/-- The line of a rendering up to its time. -/
def completedHead : String :=
  "\x7b\"context\": \x7b\x7d, \"error_code\": null, \"event_type\": \"render_completed\", " ++
    "\"level\": \"info\", \"message\": \"\", \"schema_version\": 1, \"ts\": "

theorem text_completed (time : String) (start : Nat) :
    Json.text .line (completed time start).value =
      .ok (completedHead ++ Json.stringText time ++ "\x7d") := by
  have hcontext : Json.render .line 1 (.record (Event.shownFields [])) = .ok "\x7b\x7d" := by
    simp [Json.render, Event.shownFields, Json.renderFields, Json.sortFields, Json.Layout.line,
      Json.enclose]
  have hparts : Json.renderFields .line 1 (("ts", .text time) ::
      Event.toFields { level := .info, type := .renderCompleted }) =
      .ok [("ts", Json.stringText time), ("schema_version", "1"), ("level", "\"info\""),
        ("event_type", "\"render_completed\""), ("context", "\x7b\x7d"), ("message", "\"\""),
        ("error_code", "null")] := by
    unfold Event.toFields
    simp only [Json.renderFields, hcontext]
    rfl
  unfold Json.text value completed Event.stamped Json.render
  rw [hparts]
  change Except.ok (Json.enclose .line 0 "\x7b" "\x7d" ((Json.sortFields _).map _)) = _
  unfold Json.sortFields
  rw [mergeSort_stamped]
  apply congrArg
  apply String.toList_inj.mp
  rw [Json.toList_enclose]
  unfold completedHead
  simp (disch := decide) [Json.stringText_of_plain]

theorem record_completed (time : String) (start : Nat) :
    (completed time start).record = .record [("context", .record []), ("error_code", .null),
      ("event_type", .text "render_completed"), ("level", .text "info"), ("message", .text ""),
      ("schema_version", .int 1), ("ts", .text time)] := by
  have hsorted : Value.sortedFields (("ts", .text time) ::
      Event.toFields { level := .info, type := .renderCompleted }) =
      [("ts", .text time), ("schema_version", .int 1), ("level", .text "info"),
        ("event_type", .text "render_completed"), ("context", .record []), ("message", .text ""),
        ("error_code", .null)] := by
    simp [Value.sortedFields, Value.sorted, Event.toFields, Event.shownFields, Level.name,
      EventType.name]
  unfold record value completed Event.stamped Value.sorted
  rw [hsorted, mergeSort_stamped]

theorem length_bytes_completed (time : String) (start : Nat) :
    (completed time start).bytes.length = 131 + (Json.stringText time).length := by
  obtain ⟨text, htext, heq⟩ := Writable.text_eq ⟨_, text_completed time start⟩
  cases htext.symm.trans (text_completed time start)
  have hhead : completedHead.length = 129 := by decide +kernel
  have hclosing : "\x7d".length = 1 := rfl
  rw [bytes_eq, heq, List.length_append, List.length_map, String.length_toList,
    String.length_append, String.length_append, hhead, hclosing, List.length_singleton]
  omega

end Entry

/-! ### What is read -/

/-- A journal to which events were written, and nothing else, is read as these events: newest first,
those that are wanted of those whose lines start behind the first byte that is looked at, up to the
limit. -/
theorem read_of_written {entries : List Entry} {j : Journal} (h : Written entries j)
    {depth : Nat} (hback : ∀ e ∈ entries, e.ReadsBack depth) (tail : Int) {q : Journal.Query}
    (hlimit : 1 ≤ q.limit) :
    j.read depth tail q = .ok ((((entries.filter fun e => e.InSight j tail).reverse.filter
      fun e => q.wants e.event).take (min q.limit 2000).toNat).map Entry.record) := by
  have hsubset : ∀ e ∈ entries.filter fun e => e.InSight j tail, e ∈ entries :=
    fun e he => (List.mem_filter.mp he).1
  have hrecords : Journal.newest depth (j.window tail) =
      .ok ((entries.filter fun e => e.InSight j tail).reverse.map Entry.record) := by
    rw [h.window]
    exact Journal.newest_bytes (fun e he => h.writable e (hsubset e he))
      fun e he => hback e (hsubset e he)
  have hn : min q.limit Journal.maxRecords = ((min q.limit 2000).toNat : Int) := by
    unfold Journal.maxRecords
    omega
  have hroom : ([] : List Value).length < (min q.limit 2000).toNat := by
    rw [List.length_nil]
    omega
  unfold Journal.read
  rw [hrecords]
  exact Journal.selectFrom_record hn _ hroom

set_option maxRecDepth 20000 in
/-- Of two renderings the end of the journal shows the second, to a query that names a level and no
type. -/
theorem read_of_written_completed :
    Written [.completed "9" 0, .completed "10" 134]
        ((Entry.completed "9" 0).bytes ++ (Entry.completed "10" 134).bytes) ∧
      (∀ e ∈ [Entry.completed "9" 0, .completed "10" 134], e.ReadsBack 2) ∧ (1 : Int) ≤ 10 ∧
      Journal.read ((Entry.completed "9" 0).bytes ++ (Entry.completed "10" 134).bytes) 2 200
          { level := some "info", type := some "", limit := 10 } =
        .ok [.record [("context", .record []), ("error_code", .null),
          ("event_type", .text "render_completed"), ("level", .text "info"), ("message", .text ""),
          ("schema_version", .int 1), ("ts", .text "10")]] := by
  have hlength : (Entry.completed "9" 0).bytes.length = 134 :=
    Entry.length_bytes_completed "9" 0
  have hlength' : (Entry.completed "10" 134).bytes.length = 135 :=
    Entry.length_bytes_completed "10" 134
  have hfirst : Written [.completed "9" 0] (Entry.completed "9" 0).bytes :=
    Written.nothing.concat ⟨_, Entry.text_completed "9" 0⟩ rfl
  have hboth := hfirst.concat ⟨_, Entry.text_completed "10" 134⟩ hlength.symm
  have hback : ∀ e ∈ [Entry.completed "9" 0, .completed "10" 134], e.ReadsBack 2 := by
    intro e he text htext
    rcases List.mem_pair.mp he with rfl | rfl
    · cases htext.symm.trans (Entry.text_completed "9" 0)
      rw [Entry.record_completed]
      rfl
    · cases htext.symm.trans (Entry.text_completed "10" 134)
      rw [Entry.record_completed]
      rfl
  have htotal :
      ((Entry.completed "9" 0).bytes ++ (Entry.completed "10" 134).bytes).length = 269 := by
    rw [List.length_append, hlength, hlength']
  have hcut : ¬(Entry.completed "9" 0).InSight
      ((Entry.completed "9" 0).bytes ++ (Entry.completed "10" 134).bytes) 200 := by
    unfold Entry.InSight
    rw [htotal]
    decide
  have hwhole : (Entry.completed "10" 134).InSight
      ((Entry.completed "9" 0).bytes ++ (Entry.completed "10" 134).bytes) 200 := by
    unfold Entry.InSight
    rw [htotal]
    decide
  refine ⟨hboth, hback, by decide, ?_⟩
  rw [← Entry.record_completed "10" 134]
  apply (read_of_written hboth hback 200 (by decide)).trans
  rw [List.singleton_append, List.filter_cons_of_neg (by simpa using hcut),
    List.filter_cons_of_pos (by simpa using hwhole)]
  rfl

end Log
end Worksheet
