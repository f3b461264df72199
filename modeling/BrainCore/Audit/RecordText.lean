import BrainCore.Audit.Hash

/-!
# Texts of records

An object literal has fixed names, and a value that is not there is `undefined`.  Nested
in a value such a member is left out; where `stableStringify` meets it itself, the text
says `undefined`.  Either way the record's ordered text gives every value back.
-/

namespace BrainCore.Audit

open BrainCore.Foundation

/-- The members of a record; `none` is `undefined`. -/
abbrev RecordFields := List (String × Option Json)

/-- The values in order, at every depth. -/
def orderedFields (fields : RecordFields) : RecordFields :=
  fields.map fun field => (field.1, field.2.map ordered)

/-- The members that are there. -/
def present (fields : RecordFields) : List (String × Json) :=
  fields.filterMap fun field => field.2.map fun value => (field.1, value)

/-- A record that leaves out the members that are `undefined`. -/
def record (fields : RecordFields) : Json := .obj (present fields)

def valueText : Option Json → List Char
  | none => "undefined".toList
  | some value => value.text

def moreFields : RecordFields → List Char
  | [] => ['}']
  | (name, value) :: rest => ',' :: (quote name ++ ':' :: (valueText value ++ moreFields rest))

def fieldsText : RecordFields → List Char
  | [] => ['{', '}']
  | (name, value) :: rest => '{' :: (quote name ++ ':' :: (valueText value ++ moreFields rest))

/-- `stableStringify` of an object literal. -/
def stringifyFields (fields : RecordFields) : List Char := fieldsText (sortNames (orderedFields fields))

/-! ## One text, one record -/

theorem ends_moreFields (fields : RecordFields) : Ends (moreFields fields) := by
  intro c hc
  cases fields with
  | nil =>
      cases hc
      exact .inr (.inr rfl)
  | cons field rest =>
      cases hc
      exact .inl rfl

theorem valueText_append_ne {value : Json} {s t : List Char} :
    value.text ++ s ≠ "undefined".toList ++ t := by
  intro h
  obtain ⟨c, rest, htext, hlead⟩ := Json.text_lead value
  rw [htext] at h
  have hc : c = 'u' := (List.cons.inj h).1
  rw [hc] at hlead
  have hu : Json.leadKind 'u' = 7 := rfl
  rw [hu] at hlead
  cases value with
  | bool value => cases value <;> cases hlead
  | null | num | str | arr | obj => cases hlead

theorem valueText_append_inj {first second : Option Json} {s t : List Char} (hs : Ends s)
    (ht : Ends t) (h : valueText first ++ s = valueText second ++ t) :
    first = second ∧ s = t := by
  cases first with
  | none =>
      cases second with
      | none => exact ⟨rfl, List.append_cancel_left h⟩
      | some value => exact absurd h.symm valueText_append_ne
  | some value =>
      cases second with
      | none => exact absurd h valueText_append_ne
      | some value' =>
          obtain ⟨hvalue, hrest⟩ := Json.text_append_inj hs ht h
          exact ⟨congrArg some hvalue, hrest⟩

/-- A member, and what follows it. -/
theorem field_append_inj {name name' : String} {value value' : Option Json}
    {rest rest' : RecordFields}
    (h : quote name ++ ':' :: (valueText value ++ moreFields rest) =
      quote name' ++ ':' :: (valueText value' ++ moreFields rest')) :
    name = name' ∧ value = value' ∧ moreFields rest = moreFields rest' := by
  obtain ⟨hname, hmore⟩ := quote_append_inj h
  obtain ⟨hvalue, hrest⟩ :=
    valueText_append_inj (ends_moreFields rest) (ends_moreFields rest') (List.cons.inj hmore).2
  exact ⟨hname, hvalue, hrest⟩

theorem moreFields_injective : Function.Injective moreFields := by
  intro first second h
  induction first generalizing second with
  | nil =>
      cases second with
      | nil => rfl
      | cons field rest => exact absurd (List.cons.inj h).1 (by decide)
  | cons field rest ih =>
      cases second with
      | nil => exact absurd (List.cons.inj h).1 (by decide)
      | cons field' rest' =>
          obtain ⟨hname, hvalue, hrest⟩ := field_append_inj (List.cons.inj h).2
          exact List.cons_eq_cons.mpr ⟨Prod.ext hname hvalue, ih hrest⟩

theorem quote_ne_brace {name : String} {s t : List Char} : quote name ++ s ≠ '}' :: t := by
  intro h
  exact absurd (List.cons.inj h).1 (by decide)

theorem fieldsText_injective : Function.Injective fieldsText := by
  intro first second h
  cases first with
  | nil =>
      cases second with
      | nil => rfl
      | cons field rest => exact absurd (List.cons.inj h).2.symm quote_ne_brace
  | cons field rest =>
      cases second with
      | nil => exact absurd (List.cons.inj h).2 quote_ne_brace
      | cons field' rest' =>
          obtain ⟨hname, hvalue, hrest⟩ := field_append_inj (List.cons.inj h).2
          exact List.cons_eq_cons.mpr ⟨Prod.ext hname hvalue, moreFields_injective hrest⟩

theorem stringifyFields_brace (fields : RecordFields) :
    ∃ rest, stringifyFields fields = '{' :: rest := by
  unfold stringifyFields
  cases sortNames (orderedFields fields) with
  | nil => exact ⟨_, rfl⟩
  | cons field rest => exact ⟨_, rfl⟩

/-- Lists of the same names that never give one name two values are the same. -/
theorem eq_of_values {α : Type} {first second : List (String × α)}
    (names : first.map Prod.fst = second.map Prod.fst)
    (values : ∀ name value value', (name, value) ∈ first → (name, value') ∈ second →
      value = value') : first = second := by
  induction first generalizing second with
  | nil => exact (List.map_eq_nil_iff.mp names.symm).symm
  | cons field rest ih =>
      cases second with
      | nil => cases names
      | cons field' rest' =>
          obtain ⟨name, value⟩ := field
          obtain ⟨name', value'⟩ := field'
          obtain ⟨hname, hnames⟩ := List.cons.inj names
          cases hname
          refine List.cons_eq_cons.mpr ⟨Prod.ext rfl ?_, ih hnames fun other v v' hv hv' => ?_⟩
          · exact values name value value' List.mem_cons_self List.mem_cons_self
          · exact values other v v' (List.mem_cons_of_mem _ hv) (List.mem_cons_of_mem _ hv')

theorem orderedFields_names (fields : RecordFields) :
    (orderedFields fields).map Prod.fst = fields.map Prod.fst := by
  rw [orderedFields, List.map_map]
  rfl

theorem mem_present {fields : RecordFields} {name : String} {value : Json} :
    (name, value) ∈ present fields ↔ (name, some value) ∈ fields := by
  rw [present, List.mem_filterMap]
  constructor
  · rintro ⟨⟨other, found⟩, hmem, hfound⟩
    obtain ⟨json, rfl, hsame⟩ := Option.map_eq_some_iff.mp hfound
    cases hsame
    exact hmem
  · exact fun hmem => ⟨_, hmem, rfl⟩

theorem orderedMembers_present (fields : RecordFields) :
    orderedMembers (present fields) = present (orderedFields fields) := by
  induction fields with
  | nil => rfl
  | cons field rest ih =>
      obtain ⟨name, value⟩ := field
      cases value with
      | none => exact ih
      | some value => exact List.cons_eq_cons.mpr ⟨rfl, ih⟩

theorem ordered_record (fields : RecordFields) :
    ordered (record fields) = .obj (sortNames (present (orderedFields fields))) := by
  rw [record, ordered, orderedMembers_present]

section Same

variable {names : List String} {first second : RecordFields} (nodup : names.Nodup)
  (hfirst : first.map Prod.fst = names) (hsecond : second.map Prod.fst = names)

include nodup hfirst hsecond

theorem stringifyFields_eq_iff :
    stringifyFields first = stringifyFields second ↔ orderedFields first = orderedFields second := by
  refine ⟨fun h => ?_, fun h => by rw [stringifyFields, h, stringifyFields]⟩
  have hsorted := fieldsText_injective h
  refine eq_of_values ?_ fun name value value' hvalue hvalue' => ?_
  · rw [orderedFields_names, orderedFields_names, hfirst, hsecond]
  · have hmem : (name, value) ∈ orderedFields second := by
      rw [← (sortNames_perm (orderedFields second)).mem_iff, ← hsorted]
      exact (sortNames_perm _).mem_iff.mpr hvalue
    rw [← hsecond, ← orderedFields_names] at nodup
    exact congrArg Prod.snd (List.inj_on_of_nodup_map nodup hmem hvalue' rfl)

theorem ordered_record_eq_iff :
    ordered (record first) = ordered (record second) ↔ orderedFields first = orderedFields second := by
  refine ⟨fun h => ?_, fun h => by rw [ordered_record, h, ordered_record]⟩
  have hmem : ∀ name value, (name, some value) ∈ orderedFields first ↔
      (name, some value) ∈ orderedFields second := fun name value => by
    rw [ordered_record, ordered_record] at h
    rw [← mem_present, ← mem_present, ← (sortNames_perm (present (orderedFields first))).mem_iff,
      Json.obj.inj h]
    exact (sortNames_perm _).mem_iff
  have hnodup' : ((orderedFields second).map Prod.fst).Nodup := by
    rw [orderedFields_names, hsecond]
    exact nodup
  have hnodup : ((orderedFields first).map Prod.fst).Nodup := by
    rw [orderedFields_names, hfirst]
    exact nodup
  refine eq_of_values ?_ fun name value value' hvalue hvalue' => ?_
  · rw [orderedFields_names, orderedFields_names, hfirst, hsecond]
  · cases value with
    | some value =>
        exact congrArg Prod.snd
          (List.inj_on_of_nodup_map hnodup' ((hmem name value).mp hvalue) hvalue' rfl)
    | none =>
        cases value' with
        | none => rfl
        | some value' =>
            exact congrArg Prod.snd
              (List.inj_on_of_nodup_map hnodup hvalue ((hmem name value').mpr hvalue') rfl)

end Same

end BrainCore.Audit
