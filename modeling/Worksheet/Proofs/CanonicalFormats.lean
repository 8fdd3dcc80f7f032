import Worksheet.Proofs.Rendering

/-!
Normal forms as the canonical spelling of formats. Two formats have the same normal form just when
they say the same, where a currency counts only in a format that shows amounts in it. A normal form
is its own normal form, and a value is shown in it as in the format from which it was made.
-/
namespace Worksheet

namespace Format

variable {f g : Format} {fields fields' : List (String × Value)}

/-- Formats that say the same. The currency counts where amounts are shown in it. -/
structure Agrees (f g : Format) : Prop where
  bold_eq : f.bold = g.bold
  italic_eq : f.italic = g.italic
  underline_eq : f.underline = g.underline
  align_eq : f.align = g.align
  tone_eq : f.tone = g.tone
  kind_eq : f.kind = g.kind
  currency_eq : f.kind = .currency → f.currency = g.currency

/-! ### What a normal form keeps -/

/-- What a normal form keeps of a format. -/
def kept (f : Format) : Format := { f with currency := f.usedCurrency }

theorem usedCurrency_eq_iff (hkind : f.kind = g.kind) :
    f.usedCurrency = g.usedCurrency ↔ (f.kind = .currency → f.currency = g.currency) := by
  unfold usedCurrency
  rw [← hkind]
  by_cases hcurrency : f.kind = .currency
  · simp [hcurrency]
  · simp [hcurrency]

/-- Formats agree just when the same is kept of them. -/
theorem kept_eq_iff : f.kept = g.kept ↔ f.Agrees g := by
  unfold kept
  rw [Format.mk.injEq]
  constructor
  · rintro ⟨hbold, hitalic, hunderline, halign, htone, hkind, hcurrency⟩
    exact ⟨hbold, hitalic, hunderline, halign, htone, hkind,
      (usedCurrency_eq_iff hkind).mp hcurrency⟩
  · intro h
    exact ⟨h.bold_eq, h.italic_eq, h.underline_eq, h.align_eq, h.tone_eq, h.kind_eq,
      (usedCurrency_eq_iff h.kind_eq).mpr h.currency_eq⟩

/-- Only what the fields hold counts, and not their order. -/
theorem validate_congr (h : ∀ name, fields.lookup name = fields'.lookup name) :
    validate (.record fields) = validate (.record fields') := by
  rw [validate_record, validate_record]
  unfold ofFields Record.optional
  simp only [h]

/-- Formats have the same normal form just when they agree. -/
theorem normal_eq_iff : f.normal = g.normal ↔ f.Agrees g := by
  rw [← kept_eq_iff]
  constructor
  · intro h
    have hread : validate (.record f.normal) = validate (.record g.normal) := by rw [h]
    rw [validate_normal, validate_normal] at hread
    exact Except.ok.inj hread
  · intro h
    have hnormal : f.kept.normal = g.kept.normal := by rw [h]
    unfold kept at hnormal
    rw [normal_usedCurrency, normal_usedCurrency] at hnormal
    exact hnormal

/-- It is the same when normal forms are compared field by field, in whatever order. -/
theorem lookup_normal_eq_iff :
    (∀ name, f.normal.lookup name = g.normal.lookup name) ↔ f.Agrees g := by
  constructor
  · intro h
    have hread := validate_congr h
    rw [validate_normal, validate_normal] at hread
    exact kept_eq_iff.mp (Except.ok.inj hread)
  · intro h name
    rw [normal_eq_iff.mpr h]

theorem normalize_of_validate {v : Value} (h : validate v = .ok f) :
    normalize v = .ok f.normal := by
  unfold normalize
  rw [h]

end Format

/-! ### What is shown in a normal form -/

namespace Display

variable {p q : Presentation} {kind : FormatKind} {currency : Option String}

/-- Presentations that name the same kind, and the same currency where amounts are shown in it, show
every value alike. -/
theorem display_of_names (hp : p.Names kind currency) (hq : q.Names kind currency) (s : Settings)
    (v : Value) : display s p v = display s q v := by
  have hkind : p.kind = q.kind := hp.kind_eq.trans hq.kind_eq.symm
  have hnumber : ∀ n, inKind s p v n = inKind s q v n := by
    intro n
    unfold inKind
    rw [hp.kind_eq, hq.kind_eq]
    by_cases hcurrency : kind = .currency
    · rw [hp.currency_eq hcurrency, hq.currency_eq hcurrency]
    · cases kind with
      | currency => exact absurd rfl hcurrency
      | _ => rfl
  unfold display
  simp only [hkind, hnumber]

/-- A value is shown in the normal form of a format as in the format itself, however it is asked
for. -/
theorem display_of_format {f : Format} (h : p.Of f) (s : Settings) (v : Value) :
    display s p v = display s (.ofFormat f) v :=
  display_of_names h.names Presentation.Of.format.names s v

end Display

/-- Normal forms are the canonical spelling of formats and show values alike. What a host gives and
what is read as a format has the normal form of that format, which is read without a problem and is
its own normal form. The normal forms of two formats are the same, as lists or as records whose
fields have no order, just when the formats agree on everything but a currency that neither uses. And
whatever the settings are, each value is shown in the normal form, in what the host gave and in the
format itself with the same outcome. -/
theorem normal_of_formats :
    (∀ (v : Value) (f : Format), Format.validate v = .ok f → Format.normalize v = .ok f.normal) ∧
    (∀ f : Format, Format.normalize (.record f.normal) = .ok f.normal) ∧
    (∀ f g : Format, (f.normal = g.normal ↔ f.Agrees g) ∧
      ((∀ name, f.normal.lookup name = g.normal.lookup name) ↔ f.Agrees g)) ∧
    ∀ (f : Format) (s : Display.Settings) (v : Value),
      Display.Presentation.ofValue (.record f.normal) = .ok (.ofFields f.normal) ∧
      ∀ p, Display.Presentation.Of f p →
        Display.display s p v = Display.display s (.ofFormat f) v := by
  refine ⟨fun v f h => Format.normalize_of_validate h, Format.normalize_normal,
    fun f g => ⟨Format.normal_eq_iff, Format.lookup_normal_eq_iff⟩, fun f s v => ?_⟩
  exact ⟨rfl, fun p hp => Display.display_of_format hp s v⟩

/-- Flags in several spellings, a field that there is not, and an empty currency, which is kept and
is not the same as none, though amounts are shown in the currency of the settings for both. -/
theorem normal_of_formats_lax :
    let given : Value := .record [("currency", .text ""), ("bold", .text "YES"), ("size", .int 12),
      ("italic", .int 0), ("type", .text "currency")]
    let f : Format := { bold := true, kind := .currency, currency := some "" }
    let g : Format := { bold := true, kind := .currency }
    let s : Display.Settings := { today := ⟨2024, 5, 15⟩, library := Display.regional }
    Format.validate given = .ok f ∧ Format.normalize given = .ok f.normal ∧
    f.normal = [("bold", .bool true), ("type", .text "currency"), ("currency", .text "")] ∧
    f.normal ≠ g.normal ∧ Display.Presentation.ofValue given = .ok ⟨some .currency, .text ""⟩ ∧
    Display.display s ⟨some .currency, .text ""⟩ (.int 7) =
      Display.display s (.ofFields f.normal) (.int 7) := by
  intro given f g s
  have hread : Format.validate given = .ok f := by rfl
  have hasked : Display.Presentation.ofValue given = .ok ⟨some .currency, .text ""⟩ := by rfl
  obtain ⟨hnormal, -, hagree, hshown⟩ := normal_of_formats
  have hapart : ¬ f.Agrees g := fun h => absurd (h.currency_eq rfl) (by decide)
  refine ⟨hread, hnormal given f hread, rfl, fun h => hapart ((hagree f g).1.mp h), hasked, ?_⟩
  obtain ⟨-, hsame⟩ := hshown f s (.int 7)
  rw [hsame _ (.given hread hasked), hsame _ .normal]

end Worksheet
