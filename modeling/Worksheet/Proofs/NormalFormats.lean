import Worksheet.Format

/-!
Formats and their normal forms. A normal form is read back as the format that it came from, without
a currency that was not used; a format that cannot be read has some problem that is reported.
-/
namespace Worksheet.Format

open Record

/-! ### Fields that are written -/

theorem lookup_singleton (name other : String) (v : Value) :
    [(name, v)].lookup other = if other == name then some v else none := by
  rw [List.lookup_cons]
  cases other == name with
  | false => rfl
  | true => rfl

theorem lookup_flagField (name other : String) (b : Bool) :
    (flagField name b).lookup other =
      if other == name && b then some (.bool true) else none := by
  cases b with
  | false => simp [flagField]
  | true => simp [flagField, lookup_singleton]

theorem lookup_choiceField {α : Type} [Choice α] (name other : String) (choice : α)
    (isDefault : Bool) : (choiceField name choice isDefault).lookup other =
      if other == name && !isDefault then some (.text (Choice.spelling choice)) else none := by
  cases isDefault with
  | false => simp [choiceField, lookup_singleton]
  | true => simp [choiceField]

/-! ### Reading a normal form back -/

/-- A field that is written unless it has its default is read back. -/
theorem optional_of_lookup {α : Type} {fields : List (String × Value)} {name : String}
    {read : Value → Except FieldFault α} {default a : α} {written : Value} {isWritten : Bool}
    (hlookup : fields.lookup name = if isWritten then some written else none)
    (hread : isWritten = true → read written = .ok a) (hdefault : isWritten = false → default = a) :
    Record.optional fields name read default = .ok a := by
  unfold Record.optional
  rw [hlookup]
  cases isWritten with
  | false => exact congrArg Except.ok (hdefault rfl)
  | true =>
    simp only [if_true, hread rfl]
    rfl

theorem optional_flag {fields : List (String × Value)} {name : String} {b : Bool}
    (h : fields.lookup name = if b then some (.bool true) else none) :
    Record.optional fields name readFlag false = .ok b :=
  optional_of_lookup h (fun hb => by rw [hb]; rfl) fun hb => hb.symm

theorem optional_choice {α : Type} [Choice α] {fields : List (String × Value)} {name : String}
    {choice default : α} {isDefault : Bool}
    (h : fields.lookup name =
      if !isDefault then some (.text (Choice.spelling choice)) else none)
    (hread : readChoice α (.text (Choice.spelling choice)) = .ok choice)
    (hdefault : isDefault = true → choice = default) :
    Record.optional fields name (readChoice α) default = .ok choice :=
  optional_of_lookup h (fun _ => hread) fun hb => (hdefault (by simpa using hb)).symm

theorem validate_record (fields : List (String × Value)) :
    validate (.record fields) = ofFields fields := by
  cases fields with
  | nil => rfl
  | cons field rest => rfl

/-- A normal form is read back, without a currency that is not used. -/
theorem validate_normal (f : Format) :
    validate (.record f.normal) = .ok { f with currency := f.usedCurrency } := by
  have hlookup : ∀ name, f.normal.lookup name =
      (((((((flagField "bold" f.bold).lookup name).or ((flagField "italic" f.italic).lookup name)).or
        ((flagField "underline" f.underline).lookup name)).or
        ((choiceField "align" f.align (f.align = .left)).lookup name)).or
        ((choiceField "tone" f.tone (f.tone = .none)).lookup name)).or
        ((choiceField "type" f.kind (f.kind = .auto)).lookup name)).or
        (if name == "currency" then f.usedCurrency.map .text else none) := by
    intro name
    unfold normal
    rw [List.lookup_append, List.lookup_append, List.lookup_append, List.lookup_append,
      List.lookup_append, List.lookup_append]
    cases f.usedCurrency with
    | none => simp
    | some code => simp [lookup_singleton]
  simp only [lookup_flagField, lookup_choiceField] at hlookup
  have hbold : Record.optional f.normal "bold" readFlag false = .ok f.bold :=
    optional_flag (by rw [hlookup]; simp)
  have hitalic : Record.optional f.normal "italic" readFlag false = .ok f.italic :=
    optional_flag (by rw [hlookup]; simp)
  have hunderline : Record.optional f.normal "underline" readFlag false = .ok f.underline :=
    optional_flag (by rw [hlookup]; simp)
  have halign : Record.optional f.normal "align" (readChoice Align) .left = .ok f.align :=
    optional_choice (by rw [hlookup]; simp) (by cases f.align <;> rfl) of_decide_eq_true
  have htone : Record.optional f.normal "tone" (readChoice Tone) .none = .ok f.tone :=
    optional_choice (by rw [hlookup]; simp) (by cases f.tone <;> rfl) of_decide_eq_true
  have hkind : Record.optional f.normal "type" (readChoice FormatKind) .auto = .ok f.kind :=
    optional_choice (by rw [hlookup]; simp) (by cases f.kind <;> rfl) of_decide_eq_true
  have hcurrency : Record.optional f.normal "currency" readText? none = .ok f.usedCurrency := by
    unfold Record.optional
    rw [hlookup]
    cases f.usedCurrency with
    | none => simp
    | some code => simp; rfl
  rw [validate_record]
  unfold ofFields
  simp only [hbold, hitalic, hunderline, halign, htone, hkind, hcurrency]

theorem normal_usedCurrency (f : Format) :
    normal { f with currency := f.usedCurrency } = f.normal := by
  have hused : usedCurrency { f with currency := f.usedCurrency } = f.usedCurrency := by
    unfold usedCurrency
    by_cases hkind : f.kind = .currency
    · simp only [hkind, if_true]
    · simp only [hkind, if_false]
  unfold normal
  rw [hused]

/-- Fields that are a normal form are their own normal form. -/
theorem normalize_normal (f : Format) : normalize (.record f.normal) = .ok f.normal := by
  unfold normalize
  rw [validate_normal]
  exact congrArg Except.ok f.normal_usedCurrency

theorem exists_of_normalize {format : Value} {fields : List (String × Value)}
    (h : normalize format = .ok fields) : ∃ f : Format, fields = f.normal := by
  unfold normalize at h
  split at h
  · rename_i f _
    exact ⟨f, (Except.ok.inj h).symm⟩
  · cases h

/-! ### Problems -/

theorem exists_of_problem?_eq_nil {α : Type} {r : Except FieldProblem α} (h : problem? r = []) :
    ∃ a, r = .ok a := by
  cases r with
  | ok a => exact ⟨a, rfl⟩
  | error problem => cases h

/-- A format that cannot be read has a problem. -/
theorem problems_ne_nil {v : Value} {problems : List FieldProblem}
    (h : validate v = .error problems) : problems ≠ [] := by
  rintro rfl
  unfold validate at h
  split at h
  · cases h
  · split at h
    · rename_i fields hgiven
      unfold ofFields at h
      dsimp only at h
      split at h
      · cases h
      · rename_i hnot
        simp only [Except.error.injEq, List.append_eq_nil_iff] at h
        obtain ⟨⟨⟨⟨⟨⟨hbold, hitalic⟩, hunderline⟩, halign⟩, htone⟩, hkind⟩, hcurrency⟩ := h
        obtain ⟨_, hbold⟩ := exists_of_problem?_eq_nil hbold
        obtain ⟨_, hitalic⟩ := exists_of_problem?_eq_nil hitalic
        obtain ⟨_, hunderline⟩ := exists_of_problem?_eq_nil hunderline
        obtain ⟨_, halign⟩ := exists_of_problem?_eq_nil halign
        obtain ⟨_, htone⟩ := exists_of_problem?_eq_nil htone
        obtain ⟨_, hkind⟩ := exists_of_problem?_eq_nil hkind
        obtain ⟨_, hcurrency⟩ := exists_of_problem?_eq_nil hcurrency
        exact hnot _ _ _ _ _ _ _ hbold hitalic hunderline halign htone hkind hcurrency
    · cases h

end Worksheet.Format
