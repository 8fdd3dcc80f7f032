import Worksheet.Display.Basic
import Worksheet.Display.Regions
import Worksheet.Proofs.DecimalPrecision
import Worksheet.Proofs.NormalFormats
import Worksheet.Proofs.RangeFaults
import Worksheet.Proofs.ReferenceGraph

/-!
What can be shown. A value that does not fit the format of its cell is shown as without a format.
But not every value can be shown: an integer beyond the range of doubles is not known to be finite,
and a number with more than 28 digits at the places with which it is written is refused, in any
format and without one. A format with more places than are usual refuses numbers that could be shown
without it. This holds whatever locales and currencies the library knows, as long as it gives up no
text for another reason than that no day is in it.
-/
namespace Worksheet.Display

open Text Number Formula
open Session (IsScalar)

/-! ### Formats that are asked for -/

/-- A format is asked for as it stands, by the fields of its normal form, or by what is read as
it. -/
inductive Presentation.Of (f : Format) : Presentation → Prop
  | format : Of f (.ofFormat f)
  | normal : Of f (.ofFields f.normal)
  | given {v : Value} {p : Presentation} (hread : Format.validate v = .ok f)
      (hp : Presentation.ofValue v = .ok p) : Of f p

/-- The code of the currency in which a format shows amounts. -/
def codeOf (f : Format) (default : String) : String :=
  upperText ((f.currency.filter fun code => !code.isEmpty).getD default)

/-- A presentation names the kind of a format and, where it is used, the currency. -/
structure Presentation.Names (p : Presentation) (kind : FormatKind) (currency : Option String) :
    Prop where
  kind_eq : p.kind = some kind
  currency_eq : kind = .currency → p.currency = (currency.map Value.text).getD .null

section Formats
variable {f : Format} {p : Presentation} {fields : List (String × Value)} {α : Type}

theorem kindOf_of_readChoice {v : Value} {kind : FormatKind}
    (h : Format.readChoice FormatKind v = .ok kind) : Presentation.kindOf v = some kind := by
  unfold Format.readChoice at h
  split at h
  · rename_i text
    split at h
    · rename_i choice hfind
      cases h
      have hnone : Choice.find? FormatKind "" = none := by decide
      have hgiven : (Value.text text).isGiven = true := by
        by_contra hempty
        have htext : text = "" := by simpa [Value.isGiven] using hempty
        rw [htext, hnone] at hfind
        cases hfind
      unfold Presentation.kindOf
      rw [if_pos hgiven]
      exact hfind
    · cases h
  · cases h

/-- A field that was read is absent, or holds what was read. -/
theorem optional_eq_ok {name : String} {read : Value → Except FieldFault α} {default a : α}
    (h : Record.optional fields name read default = .ok a) :
    fields.lookup name = none ∧ a = default ∨
      ∃ v, fields.lookup name = some v ∧ read v = .ok a := by
  unfold Record.optional at h
  split at h
  · rename_i hlookup
    cases h
    exact .inl ⟨hlookup, rfl⟩
  · rename_i v hlookup
    refine .inr ⟨v, hlookup, ?_⟩
    cases hread : read v with
    | error fault =>
      rw [hread] at h
      cases h
    | ok b =>
      rw [hread] at h
      cases h
      rfl

theorem names_ofFields (h : Format.ofFields fields = .ok f) :
    (Presentation.ofFields fields).Names f.kind f.currency := by
  unfold Format.ofFields at h
  dsimp only at h
  split at h
  · rename_i hkind hcurrency
    cases h
    constructor
    · change Presentation.kindOf _ = _
      rcases optional_eq_ok hkind with ⟨hlookup, rfl⟩ | ⟨v, hlookup, hread⟩
      · rw [hlookup]
        rfl
      · rw [hlookup]
        exact kindOf_of_readChoice hread
    · intro _
      change (fields.lookup "currency").getD .null = _
      rcases optional_eq_ok hcurrency with ⟨hlookup, rfl⟩ | ⟨v, hlookup, hread⟩
      · rw [hlookup]
        rfl
      · rw [hlookup]
        cases v with
        | null =>
          cases hread
          rfl
        | text code =>
          cases hread
          rfl
        | _ => cases hread
  · cases h

theorem Presentation.Of.names (h : p.Of f) : p.Names f.kind f.currency := by
  cases h with
  | format =>
    refine ⟨rfl, fun _ => ?_⟩
    unfold ofFormat
    cases f.currency with
    | none => rfl
    | some code => rfl
  | normal =>
    have hread := Format.validate_normal f
    rw [Format.validate_record] at hread
    have hnames := names_ofFields hread
    refine ⟨hnames.kind_eq, fun hkind => ?_⟩
    have hused : f.usedCurrency = f.currency := if_pos hkind
    rw [hnames.currency_eq hkind]
    exact congrArg (fun c => (Option.map Value.text c).getD .null) hused
  | @given v p hread hp =>
    cases v with
    | null =>
      cases hread
      cases hp
      exact ⟨rfl, nofun⟩
    | record fields =>
      rw [Format.validate_record] at hread
      cases hp
      exact names_ofFields hread
    | _ => cases hp

/-- The currency of a format, or the one that is set for all cells. -/
theorem Presentation.Names.code {s : Settings} {default : String}
    (h : p.Names f.kind f.currency) (hkind : f.kind = .currency)
    (hdefault : s.currency = .text default) :
    (if p.currency.isGiven then p.currency else s.currency).upper = .ok (codeOf f default) := by
  rw [h.currency_eq hkind, hdefault]
  unfold codeOf
  cases f.currency with
  | none => rfl
  | some code =>
    cases hempty : code.isEmpty with
    | true => simp [Value.isGiven, hempty, Value.upper, Option.filter]
    | false => simp [Value.isGiven, hempty, Value.upper, Option.filter]

end Formats

/-! ### Numbers that are written -/

section Numbers
variable {l : Locale} {places : Nat} {d : Decimal} {n : Number} {f : Fault}

/-- A hundred times a number. -/
def hundredfold (n : Number) : Decimal :=
  let d := (toDecimal n).getD ⟨false, 0, 0⟩
  Decimal.limited { d with exponent := d.exponent + 2 }

/-- The decimal with which a number is written in a format, and its places; those of amounts are the
currency's. -/
def written (l : Locale) (places : Nat) (kind : FormatKind) (n : Number) : Decimal × Nat :=
  match kind with
  | .percent => (hundredfold (n.round 4), (hundredfold (n.round 4)).places)
  | .currency => (amount n, places)
  | .number => (amount (n.round 2), l.places)
  | .auto | .date => (amount n, l.places)

/-- A number has too many digits to be written in a format. -/
def TooLong (l : Locale) (places : Nat) (kind : FormatKind) (n : Number) : Prop :=
  (written l places kind n).1.Overruns (written l places kind n).2

/-- An integer is too long for a fixed number of places by its own size. -/
theorem tooLong_int_iff {kind : FormatKind} (hkind : kind ≠ .percent) (n : Int) :
    TooLong l places kind (.int n) ↔
      10 ^ precision ≤ n.natAbs * 10 ^ (written l places kind (.int n)).2 := by
  cases kind with
  | percent => exact absurd rfl hkind
  | _ => exact Decimal.overruns_limited_int _ _ _

theorem framed_eq_error {p : Pattern} {places : Places} (h : d.coefficient < 10 ^ precision) :
    framed l p places d = .error f ↔ d.Overruns places.most ∧ f = .decimalPrecision := by
  unfold framed
  rw [← Decimal.quantize_eq_error h, bind_eq_error]
  exact or_iff_left fun ⟨_, _, hpure⟩ => nomatch hpure

theorem number_eq_error (places : Nat) :
    number l n = .error f ↔ TooLong l places .auto n ∧ f = .decimalPrecision :=
  framed_eq_error (Decimal.limited_coefficient_lt _)

theorem percent_eq_error (places : Nat) :
    percent l (n.round 4) = .error f ↔ TooLong l places .percent n ∧ f = .decimalPrecision :=
  framed_eq_error (Decimal.limited_coefficient_lt _)

theorem money_eq_error {code : String} :
    money l places code n = .error f ↔ TooLong l places .currency n ∧ f = .decimalPrecision := by
  unfold money
  rw [bind_eq_error]
  refine (or_iff_left fun ⟨_, _, hpure⟩ => nomatch hpure).trans ?_
  exact framed_eq_error (Decimal.limited_coefficient_lt _)

end Numbers

/-! ### Values that fit a format -/

section Values
variable {s : Settings} {l : Locale} {v : Value} {n : Number} {f : Fault}

/-- The finite number that a value is. -/
def finite? : Value → Option Number
  | .int n => if n.natAbs < doubleBound then some (.int n) else none
  | .float x => if x.isFinite then some (.float x) else none
  | _ => none

/-- The number as which a value is shown in a format for numbers. -/
def figure? : Value → Option Number
  | .text text => textNumber text.toList
  | v => finite? v

/-- A value does not fit a format: nothing does without one, and otherwise it is no number or no
day. -/
def Unfit (s : Settings) : FormatKind → Value → Prop
  | .auto, _ => True
  | .date, .text text => trim text.toList = [] ∨
      ∀ d, s.library.day s.today (String.ofList (trim text.toList)) ≠ .ok d
  | .date, v => (finite? v).bind Date.ofMilliseconds? = none
  | _, v => figure? v = none

/-- An integer beyond the range of doubles. -/
def IsHuge (v : Value) : Prop := ∃ n : Int, v = .int n ∧ doubleBound ≤ n.natAbs

theorem lt_of_not_isHuge {m : Int} (h : ¬ IsHuge (.int m)) : m.natAbs < doubleBound :=
  Nat.lt_of_not_le fun hle => h ⟨m, rfl, hle⟩

/-- A truth value, a number or a text, which a format may show in its own way. -/
inductive TakesFormat : Value → Prop
  | bool (b : Bool) : TakesFormat (.bool b)
  | int (n : Int) : TakesFormat (.int n)
  | float (x : Float) : TakesFormat (.float x)
  | text (text : String) : TakesFormat (.text text)

theorem TakesFormat.ignoresFormat (h : TakesFormat v) : ignoresFormat v = false := by
  cases h with
  | _ => rfl

theorem takesFormat_of_not_ignoresFormat (hv : IsScalar v ∨ v.isError = true)
    (h : ignoresFormat v = false) : TakesFormat v := by
  cases v with
  | bool b => exact .bool b
  | int n => exact .int n
  | float x => exact .float x
  | text text => exact .text text
  | record fields =>
    rcases hv with hscalar | herror
    · exact hscalar.elim
    · cases herror
  | _ => cases h

theorem isFinite_int (n : Int) : Display.isFinite (.int n) =
    if n.natAbs < doubleBound then .ok true else .error .beyondDouble := by
  unfold Display.isFinite Number.toFloat
  dsimp only
  cases hnearest : nearest? n with
  | none =>
    have hbound := (nearest?_eq_none_iff n).mp hnearest
    rw [if_neg (Nat.not_lt.mpr hbound)]
    rfl
  | some x =>
    have hbound : n.natAbs < doubleBound := by
      rw [← Nat.not_le, ← nearest?_eq_none_iff, hnearest]
      exact nofun
    have hfinite : x.isFinite = true := by
      unfold nearest? at hnearest
      dsimp only at hnearest
      split at hnearest
      · cases hnearest
        assumption
      · cases hnearest
    rw [if_pos hbound]
    exact congrArg Except.ok hfinite

theorem automatic_of_finite (hl : s.region = .ok l) (h : finite? v = some n) :
    automatic s v = number l n := by
  unfold finite? at h
  split at h
  · split at h
    · rename_i m hm
      cases h
      simp only [automatic, isFinite_int, if_pos hm, hl]
      rfl
    · cases h
  · split at h
    · rename_i x hx
      cases h
      simp only [automatic, Display.isFinite, Number.toFloat, Except.map, hx, hl]
      rfl
    · cases h
  · cases h

theorem automatic_of_isHuge (h : IsHuge v) : automatic s v = .error .beyondDouble := by
  obtain ⟨m, rfl, hm⟩ := h
  simp only [automatic, isFinite_int, if_neg (Nat.not_lt.mpr hm)]
  rfl

/-- Without a format all values are shown but numbers. -/
theorem automatic_of_not_finite (hv : IsScalar v ∨ v.isError = true) (h : finite? v = none)
    (hhuge : ¬ IsHuge v) : ∃ text, automatic s v = .ok text := by
  cases v with
  | int m =>
    rw [finite?, if_pos (lt_of_not_isHuge hhuge)] at h
    cases h
  | float x =>
    have hx : x.isFinite = false := by
      by_contra hx
      rw [finite?, if_pos (by simpa using hx)] at h
      cases h
    refine ⟨ErrorCode.value.text, ?_⟩
    simp only [automatic, Display.isFinite, Number.toFloat, Except.map, hx]
    rfl
  | record fields =>
    rcases hv with hscalar | herror
    · exact hscalar.elim
    · cases herror
  | _ => exact ⟨_, rfl⟩

theorem numberOf_eq (h : TakesFormat v) (hhuge : ¬ IsHuge v) : numberOf v = .ok (figure? v) := by
  cases h with
  | int m =>
    simp only [numberOf, figure?, finite?, isFinite_int, if_pos (lt_of_not_isHuge hhuge)]
    rfl
  | _ => rfl

theorem numberOf_of_isHuge (h : IsHuge v) : numberOf v = .error .beyondDouble := by
  obtain ⟨m, rfl, hm⟩ := h
  simp only [numberOf, isFinite_int, if_neg (Nat.not_lt.mpr hm)]
  rfl

theorem dateOf_of_isHuge (s : Settings) (h : IsHuge v) :
    dateOf s v = .error .beyondDouble := by
  obtain ⟨m, rfl, hm⟩ := h
  simp only [dateOf, isFinite_int, if_neg (Nat.not_lt.mpr hm)]
  rfl

theorem dateOf_text (s : Settings) (text : String) : dateOf s (.text text) =
    if trim text.toList = [] then .ok none
    else dayOfText s (String.ofList (trim text.toList)) := by
  unfold dateOf
  dsimp only [Value.toText]
  change (if (trim text.toList).isEmpty = true then _ else _) = _
  simp only [List.isEmpty_iff]
  rfl

theorem dayOfText_eq_none (hdays : s.library.ReadsDays) {text : String}
    (h : ∀ d, s.library.day s.today text ≠ .ok d) : dayOfText s text = .ok none := by
  unfold dayOfText
  split
  · rename_i d hday
    exact absurd hday (h d)
  · rename_i f hother
    exact absurd hother (hdays _ _ f)
  · rfl

theorem dateOf_eq (s : Settings) (h : TakesFormat v) (hhuge : ¬ IsHuge v)
    (htext : ∀ text, v ≠ .text text) :
    dateOf s v = .ok ((finite? v).bind Date.ofMilliseconds?) := by
  cases h with
  | bool b => rfl
  | int m =>
    simp only [dateOf, finite?, isFinite_int, if_pos (lt_of_not_isHuge hhuge)]
    rfl
  | float x =>
    simp only [dateOf, finite?]
    split
    · rfl
    · rfl
  | text text => exact absurd rfl (htext text)

theorem finite?_of_isHuge (h : IsHuge v) : finite? v = none := by
  obtain ⟨m, rfl, hm⟩ := h
  rw [finite?, if_neg (Nat.not_lt.mpr hm)]

theorem figure?_of_isHuge (h : IsHuge v) : figure? v = none := by
  have hfinite := finite?_of_isHuge h
  obtain ⟨m, rfl, hm⟩ := h
  exact hfinite

/-! ### What is shown -/

variable {p : Presentation} {kind : FormatKind}

/-- A format in which values are shown as numbers. -/
def IsNumeric (kind : FormatKind) : Prop := kind ≠ .auto ∧ kind ≠ .date

theorem unfit_date_iff (htext : ∀ text, v ≠ .text text) (s : Settings) :
    Unfit s .date v ↔ (finite? v).bind Date.ofMilliseconds? = none := by
  cases v with
  | text text => exact absurd rfl (htext text)
  | _ => exact Iff.rfl

theorem unfit_numeric_iff (hkind : IsNumeric kind) (s : Settings) :
    Unfit s kind v ↔ figure? v = none := by
  cases kind with
  | auto => exact absurd rfl hkind.1
  | date => exact absurd rfl hkind.2
  | _ => exact Iff.rfl

/-- An integer that is not known to be finite fits no format. -/
theorem unfit_of_isHuge (h : IsHuge v) (s : Settings) (kind : FormatKind) : Unfit s kind v := by
  by_cases hauto : kind = .auto
  · rw [hauto]
    trivial
  · by_cases hdate : kind = .date
    · have htext : ∀ text, v ≠ .text text := by
        obtain ⟨m, rfl, -⟩ := h
        exact nofun
      rw [hdate, unfit_date_iff htext, finite?_of_isHuge h]
      rfl
    · rw [unfit_numeric_iff ⟨hauto, hdate⟩]
      exact figure?_of_isHuge h

theorem display_of_ignoresFormat (h : ignoresFormat v = true) : display s p v = automatic s v := by
  unfold display
  rw [h, Bool.or_true, if_pos rfl]

theorem display_date (hp : p.kind = some .date) (hv : TakesFormat v) :
    display s p v = (dateOf s v).bind fun day => match day with
      | some d => s.region.bind fun l => .ok (l.shortDate d)
      | none => automatic s v := by
  unfold display
  rw [hp, hv.ignoresFormat]
  rfl

theorem display_numeric (hp : p.kind = some kind) (hkind : IsNumeric kind)
    (hv : TakesFormat v) : display s p v = (numberOf v).bind fun n => match n with
      | some n => inKind s p v n
      | none => automatic s v := by
  unfold display
  rw [hp, hv.ignoresFormat]
  cases kind with
  | auto => exact absurd rfl hkind.1
  | date => exact absurd rfl hkind.2
  | _ => rfl

/-- A value that does not fit its format is shown as without one. -/
theorem display_of_unfit (hdays : s.library.ReadsDays) (hp : p.kind = some kind)
    (hv : IsScalar v ∨ v.isError = true) (h : Unfit s kind v) : display s p v = automatic s v := by
  cases hignores : ignoresFormat v with
  | true => exact display_of_ignoresFormat hignores
  | false =>
    have htakes := takesFormat_of_not_ignoresFormat hv hignores
    by_cases hauto : kind = .auto
    · unfold display
      rw [hp, hauto]
      rfl
    · by_cases hdate : kind = .date
      · subst hdate
        rw [display_date hp htakes]
        by_cases hhuge : IsHuge v
        · -- refused in the format and without one
          rw [dateOf_of_isHuge s hhuge, automatic_of_isHuge hhuge]
          rfl
        · by_cases htext : ∀ text, v ≠ .text text
          · rw [dateOf_eq s htakes hhuge htext, (unfit_date_iff htext _).mp h]
            rfl
          · obtain ⟨text, rfl⟩ : ∃ text, v = .text text := by simpa using htext
            rw [dateOf_text]
            split
            · rfl
            · rename_i hblank
              rcases h with hempty | hread
              · exact absurd hempty hblank
              · rw [dayOfText_eq_none hdays hread]
                rfl
      · rw [display_numeric hp ⟨hauto, hdate⟩ htakes]
        by_cases hhuge : IsHuge v
        · rw [numberOf_of_isHuge hhuge, automatic_of_isHuge hhuge]
          rfl
        · rw [numberOf_eq htakes hhuge, (unfit_numeric_iff ⟨hauto, hdate⟩ _).mp h]
          rfl

/-- A number is refused in its format when it has too many digits there. -/
theorem inKind_eq_error {f : Format} {fault : Fault} {default : String}
    (hl : s.region = .ok l) (hdefault : s.currency = .text default)
    (hp : p.Names f.kind f.currency) (hkind : IsNumeric f.kind) :
    inKind s p v n = .error fault ↔
      TooLong l (s.library.places (codeOf f default)) f.kind n ∧
        fault = .decimalPrecision := by
  unfold inKind
  rw [hp.kind_eq, hl]
  cases hf : f.kind with
  | auto => exact absurd hf hkind.1
  | date => exact absurd hf hkind.2
  | number => exact number_eq_error (s.library.places (codeOf f default))
  | percent => exact percent_eq_error (s.library.places (codeOf f default))
  | currency =>
    dsimp only
    rw [hp.code hf hdefault]
    exact money_eq_error

/-- What stands in the way of showing a value, amounts having so many places. -/
inductive Unshown (s : Settings) (l : Locale) (places : Nat) (kind : FormatKind) (v : Value) :
    Fault → Prop
  /-- It is not known whether an integer is finite. -/
  | huge (h : IsHuge v) : Unshown s l places kind v .beyondDouble
  /-- A number has too many digits in its format. -/
  | formatted {n : Number} (hkind : IsNumeric kind) (hn : figure? v = some n)
      (hlong : TooLong l places kind n) : Unshown s l places kind v .decimalPrecision
  /-- A number that does not fit its format, or has none, has too many digits without one. -/
  | plain {n : Number} (hunfit : Unfit s kind v) (hn : finite? v = some n)
      (hlong : TooLong l places .auto n) : Unshown s l places kind v .decimalPrecision

variable {places : Nat}

theorem automatic_eq_error_iff (hl : s.region = .ok l)
    (hv : IsScalar v ∨ v.isError = true) (hunfit : Unfit s kind v) :
    automatic s v = .error f ↔ Unshown s l places kind v f := by
  constructor
  · intro h
    by_cases hhuge : IsHuge v
    · rw [automatic_of_isHuge hhuge] at h
      cases h
      exact .huge hhuge
    · cases hn : finite? v with
      | none =>
        obtain ⟨text, htext⟩ := automatic_of_not_finite (s := s) hv hn hhuge
        rw [htext] at h
        cases h
      | some n =>
        rw [automatic_of_finite hl hn, number_eq_error places] at h
        obtain ⟨hlong, rfl⟩ := h
        exact .plain hunfit hn hlong
  · rintro (hhuge | ⟨hkind, hn, -⟩ | ⟨-, hn, hlong⟩)
    · exact automatic_of_isHuge hhuge
    · rw [(unfit_numeric_iff hkind _).mp hunfit] at hn
      cases hn
    · rw [automatic_of_finite hl hn]
      exact (number_eq_error places).mpr ⟨hlong, rfl⟩

theorem ignoresFormat_of_figure? (h : figure? v = some n) : ignoresFormat v = false := by
  cases v with
  | null => cases h
  | error code => cases h
  | list items => cases h
  | _ => rfl

theorem ignoresFormat_of_fits_date (h : ¬ Unfit s .date v) : ignoresFormat v = false := by
  cases v with
  | null => exact absurd rfl h
  | error code => exact absurd rfl h
  | list items => exact absurd rfl h
  | _ => rfl

theorem display_numeric_eq_error_iff {format : Format} {default : String}
    (hl : s.region = .ok l) (hdefault : s.currency = .text default)
    (hp : p.Names format.kind format.currency) (hv : IsScalar v ∨ v.isError = true)
    (hkind : IsNumeric format.kind) (hfits : ¬ Unfit s format.kind v) :
    display s p v = .error f ↔
      Unshown s l (s.library.places (codeOf format default)) format.kind v f := by
  have hhuge : ¬ IsHuge v := fun hhuge => hfits (unfit_of_isHuge hhuge _ _)
  rw [unfit_numeric_iff hkind] at hfits
  obtain ⟨n, hn⟩ := Option.ne_none_iff_exists'.mp hfits
  have htakes := takesFormat_of_not_ignoresFormat hv (ignoresFormat_of_figure? hn)
  have hshown : display s p v = inKind s p v n := by
    rw [display_numeric hp.kind_eq hkind htakes, numberOf_eq htakes hhuge, hn]
    rfl
  rw [hshown, inKind_eq_error hl hdefault hp hkind]
  constructor
  · rintro ⟨hlong, rfl⟩
    exact .formatted hkind hn hlong
  · rintro (h | ⟨-, hsame, hlong⟩ | ⟨hunfit, -, -⟩)
    · exact absurd h hhuge
    · cases hn.symm.trans hsame
      exact ⟨hlong, rfl⟩
    · rw [unfit_numeric_iff hkind, hn] at hunfit
      cases hunfit

/-- A day is shown. -/
theorem display_date_eq_error_iff (hl : s.region = .ok l) (hp : p.kind = some .date)
    (hv : IsScalar v ∨ v.isError = true) (hfits : ¬ Unfit s .date v) :
    display s p v = .error f ↔ Unshown s l places .date v f := by
  have hhuge : ¬ IsHuge v := fun hhuge => hfits (unfit_of_isHuge hhuge _ _)
  have htakes := takesFormat_of_not_ignoresFormat hv (ignoresFormat_of_fits_date hfits)
  have hday : ∃ day, dateOf s v = .ok (some day) := by
    by_cases htext : ∀ text, v ≠ .text text
    · rw [unfit_date_iff htext] at hfits
      obtain ⟨day, hday⟩ := Option.ne_none_iff_exists'.mp hfits
      exact ⟨day, by rw [dateOf_eq s htakes hhuge htext, hday]⟩
    · obtain ⟨text, rfl⟩ : ∃ text, v = .text text := by simpa using htext
      obtain ⟨hblank, hread⟩ := not_or.mp hfits
      obtain ⟨day, hday⟩ : ∃ day, s.library.day s.today (String.ofList (trim text.toList)) =
          .ok day := by simpa using hread
      refine ⟨day, ?_⟩
      rw [dateOf_text, if_neg hblank, dayOfText, hday]
  obtain ⟨day, hday⟩ := hday
  rw [display_date hp htakes, hday, hl]
  refine iff_of_false nofun ?_
  rintro (h | ⟨hkind, -, -⟩ | ⟨hunfit, -, -⟩)
  · exact hhuge h
  · exact hkind.2 rfl
  · exact hfits hunfit

end Values

/-- A value that a session can give is shown in a format unless it is an integer that has no double,
or a number that at the places with which it is written, in the format or else without one, has more
than 28 digits. A value that does not fit the format is shown as without one. This is so in every
locale and with every currency of a library that finds a day in a text or finds that there is
none. -/
theorem faults_of_display {s : Settings} {l : Locale} {default : String} {f : Format}
    {p : Presentation} {v : Value} (hdays : s.library.ReadsDays) (hl : s.region = .ok l)
    (hdefault : s.currency = .text default) (hp : p.Of f) (hv : IsScalar v ∨ v.isError = true) :
    (∀ fault, display s p v = .error fault ↔
      Unshown s l (s.library.places (codeOf f default)) f.kind v fault) ∧
    (Unfit s f.kind v → display s p v = automatic s v) := by
  have hnames := hp.names
  refine ⟨fun fault => ?_, display_of_unfit hdays hnames.kind_eq hv⟩
  by_cases hunfit : Unfit s f.kind v
  · rw [display_of_unfit hdays hnames.kind_eq hv hunfit]
    exact automatic_eq_error_iff hl hv hunfit
  · by_cases hdate : f.kind = .date
    · rw [hdate] at hunfit ⊢
      exact display_date_eq_error_iff hl (hnames.kind_eq.trans (congrArg some hdate)) hv hunfit
    · have hauto : f.kind ≠ .auto := fun hauto => hunfit (hauto ▸ trivial)
      exact display_numeric_eq_error_iff hl hdefault hnames hv ⟨hauto, hdate⟩ hunfit

/-- The format with the most places. -/
def fourPlaces : Format := { kind := .currency, currency := some "CLF" }

/-- The regions of the program, in a world where no text speaks of a day. -/
def dayless : Library := { regional with day := fun _ _ => .error .value }

/-- A number of 25 digits has too many of them with four places, and is shown without a format. -/
theorem faults_of_display_places :
    let s : Settings := { today := ⟨2024, 5, 15⟩, library := dayless }
    let v : Value := .int (10 ^ 24)
    s.library.ReadsDays ∧ display s (.ofFormat fourPlaces) v = .error .decimalPrecision ∧
      display s (.ofFormat {}) v = .ok "1.000.000.000.000.000.000.000.000" := by
  intro s v
  have hdays : s.library.ReadsDays := fun _ _ _ => nofun
  have hlocale : s.region = .ok Locale.turkish := by rfl
  have hfigure : figure? v = some (.int (10 ^ 24)) := by
    rw [figure?, finite?, if_pos (by decide +kernel)]
    exact nofun
  have hplaces : s.library.places (codeOf fourPlaces "TRY") = 4 := by decide +kernel
  have hlong : TooLong Locale.turkish 4 .currency (.int (10 ^ 24)) := by
    have hbound : 10 ^ precision ≤ (10 ^ 24 : Int).natAbs * 10 ^ 4 := by decide
    exact (tooLong_int_iff (by decide) _).mpr hbound
  obtain ⟨hfaults, -⟩ := faults_of_display hdays hlocale (rfl : s.currency = .text "TRY")
    (.format (f := fourPlaces)) (.inl trivial : IsScalar v ∨ _)
  rw [hplaces] at hfaults
  refine ⟨hdays, (hfaults _).mpr (.formatted ⟨nofun, nofun⟩ hfigure hlong), ?_⟩
  decide +kernel

end Worksheet.Display
