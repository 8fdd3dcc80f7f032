import Worksheet.Proofs.JournalTail
import Worksheet.Proofs.LogReading

/-!
A journal that others write to as well. Between the lines of events stand lines of any bytes, and
what these hold decides what reading comes to: text that is no JSON is skipped, and records are
found among the events. But a line with other line breaks in it is read piece by piece, JSON that is
no record is found like a record until a query asks for its fields, and a line that goes beyond the
limits of JSON ends the reading. Without these the records are found as the lines stand.
-/
namespace Worksheet.Log

open Text

/-! ### Shared journals -/

/-- A line of a journal: an event that was written, or the bytes that somebody else left there. -/
inductive Line where
  | event (e : Entry)
  | foreign (bytes : List UInt8)

/-- A journal with its lines. A foreign line is any bytes up to a line feed. -/
inductive Shared : List Line → Journal → Prop
  | nothing : Shared [] []
  | event {lines : List Line} {j j' : Journal} {event : Event} {time : String}
      (h : Shared lines j) (hwrite : j.write event time = .ok j') :
      Shared (lines ++ [.event ⟨event, time, j.length⟩]) j'
  | foreign {lines : List Line} {j : Journal} {bytes : List UInt8} (h : Shared lines j)
      (hbytes : 10 ∉ bytes) : Shared (lines ++ [.foreign bytes]) (j ++ (bytes ++ [10]))

namespace Line

/-- The bytes in front of the line feed. -/
def bytes : Line → List UInt8
  | .event e => e.text.map byteOf
  | .foreign bytes => bytes

def text : Line → List Char
  | .event e => e.text
  | .foreign bytes => decodeUtf8 bytes

/-- The pieces that are read one by one. -/
def parts (l : Line) : List (List Char) := Text.parts l.text

/-- What the line is as JSON. -/
def value? (depth : Nat) (l : Line) : Option Value := Journal.value? depth l.text

/-- A line as it should be: its pieces are within the limits and hold what the whole line holds, and
that is a record if it is JSON. -/
structure Orderly (depth : Nat) (l : Line) : Prop where
  within : ∀ piece ∈ l.parts, Journal.fault? depth piece = none
  whole : l.parts.filterMap (Journal.value? depth) = (l.value? depth).toList
  record : ∀ v ∈ l.value? depth, ∃ fields, v = .record fields

theorem decodeUtf8_bytes (l : Line) : decodeUtf8 l.bytes = l.text := by
  cases l with
  | event e => exact Text.decodeUtf8_bytes e.printable_text.isAscii
  | foreign bytes => rfl

end Line

variable {lines : List Line} {j : Journal} {e : Entry} {depth : Nat}

/-- What is read piece by piece of some lines. -/
def texts (lines : List Line) : List (List Char) := lines.flatMap Line.parts

namespace Shared

theorem eq_flatMap (h : Shared lines j) : j = lines.flatMap fun l => l.bytes ++ [10] := by
  induction h with
  | nothing => rfl
  | event h hwrite ih =>
    rw [(write_eq hwrite).2, Entry.bytes_eq, List.flatMap_append, List.flatMap_singleton, ← ih]
    rfl
  | foreign h hbytes ih =>
    rw [List.flatMap_append, List.flatMap_singleton, ← ih]
    rfl

theorem writable (h : Shared lines j) : ∀ e, .event e ∈ lines → e.Writable := by
  induction h with
  | nothing => exact nofun
  | event h hwrite ih =>
    intro e he
    rcases List.mem_append.mp he with he | he
    · exact ih e he
    · cases List.mem_singleton.mp he
      exact (write_eq hwrite).1
  | foreign h hbytes ih =>
    intro e he
    rcases List.mem_append.mp he with he | he
    · exact ih e he
    · cases List.mem_singleton.mp he

end Shared

/-- Lines are decoded and cut into pieces one by one. -/
theorem parts_flatMap (lines : List Line) :
    parts (decodeUtf8 (lines.flatMap fun l => l.bytes ++ [10])) = texts lines := by
  induction lines with
  | nil => rfl
  | cons l rest ih =>
    rw [List.flatMap_cons, List.append_assoc, List.singleton_append, decodeUtf8_lineFeed,
      parts_lineFeed, ih, l.decodeUtf8_bytes]
    rfl

/-! ### Orderly lines -/

/-- A line without other breaks is orderly when it is read as nothing or as a record. -/
theorem Line.orderly_of_whole {l : Line} {r : Option Value}
    (hwhole : ∀ c ∈ l.text, isLineBreak c = false) (hread : Journal.record? depth l.text = .ok r)
    (hr : ∀ v ∈ r, ∃ fields, v = .record fields) : l.Orderly depth ∧ l.value? depth = r := by
  have hfault : Journal.fault? depth l.text = none := Journal.fault?_eq_none hread
  have hvalue : l.value? depth = r := Journal.value?_eq hread
  have hparts : l.parts = [l.text].filter (!·.isEmpty) := parts_of_whole hwhole
  refine ⟨⟨?within, ?whole, ?record⟩, hvalue⟩
  case within =>
    intro piece hpiece
    rw [hparts] at hpiece
    rw [List.mem_singleton.mp (List.mem_filter.mp hpiece).1]
    exact hfault
  case whole =>
    rw [hparts, filterMap_nonempty rfl]
    rfl
  case record =>
    rw [hvalue]
    exact hr

/-- An event that JSON reads back stands on an orderly line. -/
theorem Line.orderly_event (h : e.Writable) (hback : e.ReadsBack depth) :
    (Line.event e).Orderly depth ∧ (Line.event e).value? depth = some e.record := by
  have hwhole : ∀ c ∈ (Line.event e).text, isLineBreak c = false := e.printable_text.isLineBreak
  apply orderly_of_whole hwhole (Entry.record?_text h hback)
  intro v hv
  rw [← Option.some.inj hv]
  exact ⟨_, rfl⟩

theorem findSome?_texts (h : ∀ l ∈ lines, l.Orderly depth) :
    (texts lines).findSome? (Journal.fault? depth) = none := by
  rw [List.findSome?_eq_none_iff]
  intro piece hpiece
  obtain ⟨l, hl, hmem⟩ := List.mem_flatMap.mp hpiece
  exact (h l hl).within piece hmem

/-- Of orderly lines the values are found as the lines stand. -/
theorem found_texts (h : ∀ l ∈ lines, l.Orderly depth) :
    Journal.found depth (texts lines) = (lines.filterMap (Line.value? depth)).reverse := by
  have hvalues : (texts lines).filterMap (Journal.value? depth) =
      lines.filterMap (Line.value? depth) := by
    unfold texts
    rw [List.filterMap_flatMap, List.flatMap_congr fun l hl => (h l hl).whole,
      List.filterMap_eq_flatMap_toList]
  unfold Journal.found
  rw [hvalues]

/-- No query refuses what orderly lines hold. -/
theorem refusal?_of_orderly (h : ∀ l ∈ lines, l.Orderly depth) (q : Journal.Query) :
    ∀ v ∈ (lines.filterMap (Line.value? depth)).reverse, q.refusal? v = none := by
  intro v hv
  obtain ⟨l, hl, hvalue⟩ := List.mem_filterMap.mp (List.mem_reverse.mp hv)
  obtain ⟨fields, rfl⟩ := (h l hl).record v hvalue
  rfl

/-! ### What is read -/

/-- A journal in sight is read as what its lines hold. -/
theorem Shared.read_eq (h : Shared lines j) {tail : Int} (htail : (j.length : Int) ≤ tail)
    (q : Journal.Query) :
    j.read depth tail q = ((texts lines).findSome? (Journal.fault? depth)).elim
      (Journal.selectFrom q [] (Journal.found depth (texts lines))) .error := by
  have hparts : parts (decodeUtf8 j) = texts lines := by
    rw [h.eq_flatMap]
    exact parts_flatMap lines
  have hwindow : j.window tail = j := if_pos htail
  unfold Journal.read
  rw [hwindow, Journal.newest_eq, hparts]
  cases (texts lines).findSome? (Journal.fault? depth) with
  | none => rfl
  | some f => rfl

theorem Journal.Query.most_pos (q : Query) : ([] : List Value).length < q.most := by
  unfold most
  rw [List.length_nil]
  omega

/-- Reading a journal that others write to as well fails exactly at a line beyond the limits of JSON,
which must be long, or where a query asks a value for its fields that is no record; else it gives
the wanted ones of the values that its lines hold, newest first, up to the limit but at least one.
Events that JSON reads back are among these values. Where every line is orderly, the values are the
records as they stand line by line, and reading does not fail. -/
theorem read_of_shared (h : Shared lines j) {tail : Int} (htail : (j.length : Int) ≤ tail)
    (depth : Nat) (q : Journal.Query) :
    (∀ f, j.read depth tail q = .error f ↔
      (texts lines).findSome? (Journal.fault? depth) = some f ∨
      (texts lines).findSome? (Journal.fault? depth) = none ∧
        q.Stumbles q.most (Journal.found depth (texts lines)) f) ∧
    (∀ records, j.read depth tail q = .ok records →
      records = ((Journal.found depth (texts lines)).filter q.selects).take q.most) ∧
    (∀ piece ∈ texts lines, ∀ f, Journal.fault? depth piece = some f →
      Json.Excess depth piece.length f) ∧
    (∀ e, .event e ∈ lines → e.ReadsBack depth →
      (Line.event e).Orderly depth ∧ (Line.event e).value? depth = some e.record) ∧
    ((∀ l ∈ lines, l.Orderly depth) → 1 ≤ q.limit →
      j.read depth tail q = .ok (((lines.filterMap (Line.value? depth)).reverse.filter
        q.selects).take (min q.limit 2000).toNat)) := by
  have hread : j.read depth tail q = _ := h.read_eq htail q
  have hroom : ([] : List Value).length < q.most := q.most_pos
  obtain ⟨hstumbles, htake⟩ :=
    Journal.selectFrom_selection hroom (Journal.found depth (texts lines))
  refine ⟨?faults, ?records, ?limits, ?events, ?orderly⟩
  case faults =>
    intro f
    rw [hread]
    cases (texts lines).findSome? (Journal.fault? depth) with
    | none =>
      rw [Option.elim_none, hstumbles f]
      simp
    | some f' => simp
  case records =>
    intro records hrecords
    rw [hread] at hrecords
    cases hfault : (texts lines).findSome? (Journal.fault? depth) with
    | none =>
      rw [hfault, Option.elim_none] at hrecords
      exact htake records hrecords
    | some f =>
      rw [hfault] at hrecords
      cases hrecords
  case limits => exact fun _ _ _ hf => Journal.excess_of_fault? hf
  case events => exact fun e he hback => Line.orderly_event (h.writable e he) hback
  case orderly =>
    intro horderly hlimit
    have hmost : q.most - ([] : List Value).length = (min q.limit 2000).toNat := by
      unfold Journal.Query.most Journal.maxRecords
      rw [List.length_nil]
      omega
    rw [hread, findSome?_texts horderly, Option.elim_none, found_texts horderly,
      Journal.selectFrom_eq_ok hroom (refusal?_of_orderly horderly q), hmost]
    rfl

/-- A number on a line is given to a query that filters nothing, as one for no text does. -/
example : Journal.read [53, 10] 1 100 { level := some "", limit := 10 } = .ok [.int 5] := rfl

/-- The same number ends a query for a level. -/
example : Journal.read [53, 10] 1 100 { level := some "info", limit := 10 } =
    .error (.noOperation "int" "get") := rfl

/-- A record that is no event. -/
def levelText : List Char := "\x7b\"level\": \"info\"\x7d".toList

def levelBytes : List UInt8 := levelText.map byteOf

theorem printable_levelText : Printable levelText := by decide

set_option maxRecDepth 20000 in
/-- Of bytes that are no text, a rendering and a record of somebody else, the last two are found. -/
theorem read_of_shared_mixed :
    Shared [.foreign [0xFF, 0x7B], .event (.completed "9" 3), .foreign levelBytes]
        ([0xFF, 0x7B, 10] ++ (Entry.completed "9" 3).bytes ++ (levelBytes ++ [10])) ∧
      ((([0xFF, 0x7B, 10] ++ (Entry.completed "9" 3).bytes ++
        (levelBytes ++ [10])).length : Nat) : Int) ≤ 200 ∧
      Journal.read ([0xFF, 0x7B, 10] ++ (Entry.completed "9" 3).bytes ++ (levelBytes ++ [10])) 2
          200 { level := some "info", type := some "", limit := 10 } =
        .ok [.record [("level", .text "info")],
          .record [("context", .record []), ("error_code", .null),
            ("event_type", .text "render_completed"), ("level", .text "info"),
            ("message", .text ""), ("schema_version", .int 1), ("ts", .text "9")]] := by
  have hfirst : Shared [.foreign [0xFF, 0x7B]] [0xFF, 0x7B, 10] :=
    Shared.nothing.foreign (by decide)
  have hsecond : Shared [.foreign [0xFF, 0x7B], .event (.completed "9" 3)]
      ([0xFF, 0x7B, 10] ++ (Entry.completed "9" 3).bytes) :=
    hfirst.event (write_of_writable ⟨_, Entry.text_completed "9" 3⟩)
  have hall : Shared [.foreign [0xFF, 0x7B], .event (.completed "9" 3), .foreign levelBytes]
      ([0xFF, 0x7B, 10] ++ (Entry.completed "9" 3).bytes ++ (levelBytes ++ [10])) :=
    hsecond.foreign (by decide)
  have hlength : (Entry.completed "9" 3).bytes.length = 134 := Entry.length_bytes_completed "9" 3
  have htail : ((([0xFF, 0x7B, 10] ++ (Entry.completed "9" 3).bytes ++
      (levelBytes ++ [10])).length : Nat) : Int) ≤ 200 := by
    rw [List.length_append, List.length_append, hlength]
    decide
  have hback : (Entry.completed "9" 3).ReadsBack 2 := by
    intro text htext
    cases htext.symm.trans (Entry.text_completed "9" 3)
    rw [Entry.record_completed]
    rfl
  obtain ⟨hevent, hrecord⟩ := Line.orderly_event ⟨_, Entry.text_completed "9" 3⟩ hback
  have hread : Journal.record? 2 ['\ufffd', '\x7b'] = .ok none := rfl
  obtain ⟨hbroken, hnone⟩ : (Line.foreign [0xFF, 0x7B]).Orderly 2 ∧ _ :=
    Line.orderly_of_whole (List.forall_mem_cons.mpr ⟨rfl, List.forall_mem_singleton.mpr rfl⟩)
      hread nofun
  have htext : (Line.foreign levelBytes).text = levelText :=
    Text.decodeUtf8_bytes printable_levelText.isAscii
  have hread' : Journal.record? 2 levelText = .ok (some (.record [("level", .text "info")])) := rfl
  rw [← htext] at hread'
  obtain ⟨hlevel, hfields⟩ : (Line.foreign levelBytes).Orderly 2 ∧ _ :=
    Line.orderly_of_whole (by rw [htext]; exact printable_levelText.isLineBreak) hread'
      fun _ hv => ⟨_, (Option.some.inj hv).symm⟩
  have horderly : ∀ l ∈ [Line.foreign [0xFF, 0x7B], .event (.completed "9" 3),
      .foreign levelBytes], l.Orderly 2 := by
    intro l hl
    rcases List.mem_cons.mp hl with rfl | hl
    · exact hbroken
    · rcases List.mem_pair.mp hl with rfl | rfl
      · exact hevent
      · exact hlevel
  refine ⟨hall, htail, ?_⟩
  apply ((read_of_shared hall htail 2
    { level := some "info", type := some "", limit := 10 }).2.2.2.2 horderly (by decide)).trans
  rw [List.filterMap_cons_none hnone, List.filterMap_cons_some hrecord,
    List.filterMap_cons_some hfields, Entry.record_completed]
  rfl

end Worksheet.Log
