import BrainCore.Execution.Redaction
import BrainCore.Foundation.Result

/-!
# What redaction lets through

The walk ends at a field that is masked, hashed or dropped.  A forbidden field
below one is not found, and what stands below one that is masked or hashed is
stored as it is.
-/

namespace BrainCore.Execution

open BrainCore.Foundation

/-! ## The promise -/

section Promise

variable (platform : RedactionPlatform) (policy : RedactionPolicy)

/-- The value is the payload, or stands somewhere inside it. -/
inductive Inside (value : Json) : Json → Prop where
  | self : Inside value value
  | item {items : List Json} {item : Json} (mem : item ∈ items) (inside : Inside value item) :
      Inside value (.arr items)
  | member {members : List (String × Json)} {member : String × Json} (mem : member ∈ members)
      (inside : Inside value member.2) : Inside value (.obj members)

/-- Some rule forbids the key. -/
def MatchedByForbid (key : String) : Prop :=
  ∃ rule ∈ policy.rules, rule.transform = .forbid ∧
    ∃ name ∈ rule.names, platform.toLowerCase name = platform.toLowerCase key

/-- An object somewhere in the payload has a forbidden key. -/
def HasForbidden (payload : Json) : Prop :=
  ∃ members, Inside (.obj members) payload ∧
    ∃ member ∈ members, MatchedByForbid platform policy member.1

/-- The rule of the key drops or hashes. -/
def Sensitive (key : String) : Prop :=
  ∃ rule, ruleFor platform policy key = some rule ∧
    (rule.transform = .drop ∨ rule.transform = .hashRecoverable)

mutual

/-- The payloads differ in values under sensitive keys only. -/
def OnlySensitive : Json → Json → Prop
  | .arr items, other => ∃ items', other = .arr items' ∧ OnlySensitiveItems items items'
  | .obj members, other => ∃ members', other = .obj members' ∧ OnlySensitiveMembers members members'
  | value, other => other = value

def OnlySensitiveItems : List Json → List Json → Prop
  | [], others => others = []
  | value :: rest, others => ∃ value' rest', others = value' :: rest' ∧
      OnlySensitive value value' ∧ OnlySensitiveItems rest rest'

def OnlySensitiveMembers : List (String × Json) → List (String × Json) → Prop
  | [], others => others = []
  | (key, value) :: rest, others => ∃ value' rest', others = (key, value') :: rest' ∧
      (Sensitive platform policy key ∨ OnlySensitive value value') ∧ OnlySensitiveMembers rest rest'

end

/-- Redaction does not leak on a payload, nor between it and another one. -/
structure DoesNotLeak (tenantHashKey : String) (payload other : Json) : Prop where
  asserted : assertNoForbiddenFields platform policy payload = .ok () →
    ¬HasForbidden platform policy payload
  redacted : ∀ out, redact platform policy tenantHashKey payload = .ok out →
    ¬HasForbidden platform policy payload
  /-- What is stored beside digests does not tell the payloads apart. -/
  apart : OnlySensitive platform policy payload other →
    (withoutDigests platform policy tenantHashKey payload).toOption =
      (withoutDigests platform policy tenantHashKey other).toOption

end Promise

/-! ## What becomes of a field -/

section Treatment

variable (platform : RedactionPlatform) (policy : RedactionPolicy)

inductive Treatment where
  | walked
  | masked
  | hashed
  | dropped (rule : RedactionRule)
  /-- Not matched, where that means dropped. -/
  | omitted
  | forbidden
deriving DecidableEq

def treatment (key : String) : Treatment :=
  match ruleFor platform policy key with
  | none => match policy.unmatched with
    | .drop => .omitted
    | .preserve => .walked
  | some rule => match rule.transform with
    | .forbid => .forbidden
    | .preserve => .walked
    | .maskLast4 => .masked
    | .hashRecoverable => .hashed
    | .drop => .dropped rule

/-- The walk gets to a forbidden field. -/
inductive Reached : Json → Prop where
  | key {members : List (String × Json)} {member : String × Json} (mem : member ∈ members)
      (forbidden : treatment platform policy member.1 = .forbidden) : Reached (.obj members)
  | member {members : List (String × Json)} {member : String × Json} (mem : member ∈ members)
      (walked : treatment platform policy member.1 = .walked) (reached : Reached member.2) :
      Reached (.obj members)
  | item {items : List Json} {item : Json} (mem : item ∈ items) (reached : Reached item) :
      Reached (.arr items)

/-- The name that is assigned for a field. -/
def assignedName (key : String) (value : Json) : Option String :=
  match treatment platform policy key with
  | .walked | .masked | .hashed | .omitted => some key
  | .dropped rule => match value with
    | .str _ => if "hash" ∈ rule.retain then some (key ++ "_sha256") else none
    | _ => none
  | .forbidden => none

/-- The value of the field itself is assigned, and no digest. -/
def StoredInClear (key : String) (value : Json) : Prop :=
  match treatment platform policy key with
  | .walked | .masked => True
  | .hashed => ∀ text, value ≠ .str text
  | .dropped _ | .omitted | .forbidden => False

/-- The value of a field is stored, and nothing after the field is assigned to its key. -/
structure Shows (key : String) (value : Json) (rest : List (String × Json)) : Prop where
  clear : StoredInClear platform policy key value
  own : key ≠ "__proto__"
  last : ∀ member ∈ rest, assignedName platform policy member.1 member.2 ≠ some key

mutual

/-- Where the walk gets to, what is stored of the two payloads is the same. -/
def Scrubbed : Json → Json → Prop
  | .arr items, other => ∀ items', other = .arr items' → ScrubbedItems items items'
  | .obj members, other => ∀ members', other = .obj members' → ScrubbedMembers members members'
  | _, _ => True

def ScrubbedItems : List Json → List Json → Prop
  | [], _ => True
  | value :: rest, others => ∀ value' rest', others = value' :: rest' →
      Scrubbed value value' ∧ ScrubbedItems rest rest'

/-- A field is stored on both sides or on none; where it is, its values are scrubbed when they are
walked, and equal when they are masked or hashed. -/
def ScrubbedMembers : List (String × Json) → List (String × Json) → Prop
  | [], _ => True
  | (key, value) :: rest, others => ∀ value' rest', others = (key, value') :: rest' →
      ((Shows platform policy key value rest ↔ Shows platform policy key value' rest') ∧
        (Shows platform policy key value rest →
          if treatment platform policy key = .walked then Scrubbed value value'
          else value = value')) ∧ ScrubbedMembers rest rest'

end

end Treatment

section Walk

variable {platform : RedactionPlatform} {policy : RedactionPolicy} {tenantHashKey : String}
  {keep : String → Option Json}

/-! ## One field -/

theorem assigned_eq (key : String) (value : Json) (redacted : Except String Json) :
    assigned platform policy tenantHashKey keep key value redacted =
      match treatment platform policy key with
      | .walked => redacted.map fun value => [(key, some value)]
      | .masked => .ok [(key, some (maskedValue value))]
      | .hashed => .ok [(key, hashedValue platform tenantHashKey keep value)]
      | .dropped rule => .ok (droppedValue platform keep rule key value)
      | .omitted => .ok [(key, none)]
      | .forbidden =>
          .error ("redaction: forbidden field \"" ++ key ++ "\" must not be present in a trace") := by
  unfold assigned treatment
  cases ruleFor platform policy key with
  | none => cases policy.unmatched <;> rfl
  | some rule =>
      dsimp only
      cases rule.transform <;> rfl

theorem assigned_ok_iff {key : String} {value : Json} {redacted : Except String Json} :
    (∃ own, assigned platform policy tenantHashKey keep key value redacted = .ok own) ↔
      treatment platform policy key ≠ .forbidden ∧
        (treatment platform policy key = .walked → ∃ out, redacted = .ok out) := by
  rw [assigned_eq]
  cases treatment platform policy key with
  | walked =>
      constructor
      · rintro ⟨own, hown⟩
        obtain ⟨out, hout, -⟩ := map_ok.mp hown
        exact ⟨by decide, fun _ => ⟨out, hout⟩⟩
      · rintro ⟨-, hwalked⟩
        obtain ⟨out, hout⟩ := hwalked rfl
        exact ⟨_, map_ok.mpr ⟨out, hout, rfl⟩⟩
  | masked => simp
  | hashed => simp
  | dropped rule => simp
  | omitted => simp
  | forbidden => simp

theorem assigned_names {key : String} {value : Json} {redacted : Except String Json}
    {own : Assignments}
    (h : assigned platform policy tenantHashKey keep key value redacted = .ok own) :
    own.map Prod.fst = (assignedName platform policy key value).toList := by
  rw [assigned_eq] at h
  unfold assignedName
  cases htreatment : treatment platform policy key with
  | walked =>
      rw [htreatment] at h
      obtain ⟨out, -, rfl⟩ := map_ok.mp h
      rfl
  | masked =>
      rw [htreatment] at h
      cases h
      rfl
  | hashed =>
      rw [htreatment] at h
      cases h
      rfl
  | dropped rule =>
      rw [htreatment] at h
      cases h
      cases value with
      | str text =>
          unfold droppedValue
          dsimp only
          split <;> rfl
      | _ => rfl
  | omitted =>
      rw [htreatment] at h
      cases h
      rfl
  | forbidden =>
      rw [htreatment] at h
      cases h

/-! ## The walk returns unless it gets to a forbidden field -/

theorem reached_arr {items : List Json} :
    Reached platform policy (.arr items) ↔ ∃ item ∈ items, Reached platform policy item := by
  constructor
  · intro h
    cases h with
    | item mem reached => exact ⟨_, mem, reached⟩
  · rintro ⟨item, mem, reached⟩
    exact .item mem reached

/-- The walk stops at the field or inside its value. -/
def StopsAt (platform : RedactionPlatform) (policy : RedactionPolicy) (member : String × Json) : Prop :=
  treatment platform policy member.1 = .forbidden ∨
    treatment platform policy member.1 = .walked ∧ Reached platform policy member.2

theorem reached_obj {members : List (String × Json)} :
    Reached platform policy (.obj members) ↔
      ∃ member ∈ members, StopsAt platform policy member := by
  constructor
  · intro h
    cases h with
    | key mem forbidden => exact ⟨_, mem, .inl forbidden⟩
    | member mem walked reached => exact ⟨_, mem, .inr ⟨walked, reached⟩⟩
  · rintro ⟨member, mem, forbidden | ⟨walked, reached⟩⟩
    · exact .key mem forbidden
    · exact .member mem walked reached

mutual

theorem redactWith_ok_iff : ∀ payload : Json,
    (∃ out, redactWith platform policy tenantHashKey keep payload = .ok out) ↔
      ¬Reached platform policy payload
  | .null => ⟨fun _ h => (by cases h), fun _ => ⟨_, rfl⟩⟩
  | .bool _ => ⟨fun _ h => (by cases h), fun _ => ⟨_, rfl⟩⟩
  | .num _ => ⟨fun _ h => (by cases h), fun _ => ⟨_, rfl⟩⟩
  | .str _ => ⟨fun _ h => (by cases h), fun _ => ⟨_, rfl⟩⟩
  | .arr items => by
      have hitems := redactItems_ok_iff items
      rw [reached_arr, not_exists]
      simp only [not_and]
      rw [← hitems, redactWith]
      constructor
      · rintro ⟨out, hout⟩
        obtain ⟨outs, houts, -⟩ := map_ok.mp hout
        exact ⟨outs, houts⟩
      · rintro ⟨outs, houts⟩
        exact ⟨_, map_ok.mpr ⟨outs, houts, rfl⟩⟩
  | .obj members => by
      have hmembers := assignments_ok_iff members
      rw [reached_obj, not_exists]
      simp only [not_and]
      rw [← hmembers, redactWith]
      constructor
      · rintro ⟨out, hout⟩
        obtain ⟨writes, hwrites, -⟩ := map_ok.mp hout
        exact ⟨writes, hwrites⟩
      · rintro ⟨writes, hwrites⟩
        exact ⟨_, map_ok.mpr ⟨writes, hwrites, rfl⟩⟩

theorem redactItems_ok_iff : ∀ items : List Json,
    (∃ outs, redactItems platform policy tenantHashKey keep items = .ok outs) ↔
      ∀ item ∈ items, ¬Reached platform policy item
  | [] => ⟨fun _ _ h => (by cases h), fun _ => ⟨_, rfl⟩⟩
  | value :: rest => by
      rw [redactItems, List.forall_mem_cons, ← redactWith_ok_iff value, ← redactItems_ok_iff rest]
      constructor
      · rintro ⟨outs, houts⟩
        obtain ⟨out, hout, htail⟩ := bind_ok.mp houts
        obtain ⟨later, hlater, -⟩ := bind_ok.mp htail
        exact ⟨⟨out, hout⟩, later, hlater⟩
      · rintro ⟨⟨out, hout⟩, later, hlater⟩
        exact ⟨_, bind_ok.mpr ⟨out, hout, bind_ok.mpr ⟨later, hlater, rfl⟩⟩⟩

theorem assignments_ok_iff : ∀ members : List (String × Json),
    (∃ writes, assignments platform policy tenantHashKey keep members = .ok writes) ↔
      ∀ member ∈ members, ¬StopsAt platform policy member
  | [] => ⟨fun _ _ h => (by cases h), fun _ => ⟨_, rfl⟩⟩
  | (key, value) :: rest => by
      have hown := @assigned_ok_iff platform policy tenantHashKey keep key value
        (redactWith platform policy tenantHashKey keep value)
      rw [redactWith_ok_iff value] at hown
      have hstops : ¬StopsAt platform policy (key, value) ↔
          treatment platform policy key ≠ .forbidden ∧
            (treatment platform policy key = .walked → ¬Reached platform policy value) := by
        rw [StopsAt, not_or, not_and]
      rw [assignments, List.forall_mem_cons, hstops, ← hown, ← assignments_ok_iff rest]
      constructor
      · rintro ⟨writes, hwrites⟩
        obtain ⟨own, hassigned, htail⟩ := bind_ok.mp hwrites
        obtain ⟨later, hlater, -⟩ := bind_ok.mp htail
        exact ⟨⟨own, hassigned⟩, later, hlater⟩
      · rintro ⟨⟨own, hassigned⟩, later, hlater⟩
        exact ⟨_, bind_ok.mpr ⟨own, hassigned, bind_ok.mpr ⟨later, hlater, rfl⟩⟩⟩

end

/-! ## Payloads that differ under sensitive keys -/

/-- A key that is not walked over in the two payloads alike is not walked. -/
theorem not_sensitive {key : String}
    (h : treatment platform policy key = .walked ∨ treatment platform policy key = .masked) :
    ¬Sensitive platform policy key := by
  rintro ⟨rule, hrule, htransform⟩
  unfold treatment at h
  rw [hrule] at h
  dsimp only at h
  rcases htransform with hdrop | hhash
  · rw [hdrop] at h
    rcases h with h | h <;> cases h
  · rw [hhash] at h
    rcases h with h | h <;> cases h

mutual

theorem reached_congr : ∀ {payload other : Json}, OnlySensitive platform policy payload other →
    (Reached platform policy payload ↔ Reached platform policy other)
  | .null, _, h => by rw [show _ = Json.null from h]
  | .bool _, _, h => by rw [show _ = Json.bool _ from h]
  | .num _, _, h => by rw [show _ = Json.num _ from h]
  | .str _, _, h => by rw [show _ = Json.str _ from h]
  | .arr items, _, h => by
      obtain ⟨items', rfl, hitems⟩ := h
      rw [reached_arr, reached_arr]
      exact reachedItems_congr hitems
  | .obj members, _, h => by
      obtain ⟨members', rfl, hmembers⟩ := h
      rw [reached_obj, reached_obj]
      exact stopsAt_congr hmembers

theorem reachedItems_congr : ∀ {items items' : List Json},
    OnlySensitiveItems platform policy items items' →
    ((∃ item ∈ items, Reached platform policy item) ↔
      ∃ item ∈ items', Reached platform policy item)
  | [], _, h => by rw [show _ = [] from h]
  | value :: rest, _, h => by
      obtain ⟨value', rest', rfl, hvalue, hrest⟩ := h
      simp only [List.mem_cons, exists_eq_or_imp]
      exact or_congr (reached_congr hvalue) (reachedItems_congr hrest)

theorem stopsAt_congr : ∀ {members members' : List (String × Json)},
    OnlySensitiveMembers platform policy members members' →
    ((∃ member ∈ members, StopsAt platform policy member) ↔
      ∃ member ∈ members', StopsAt platform policy member)
  | [], _, h => by rw [show _ = [] from h]
  | (key, value) :: rest, _, h => by
      obtain ⟨value', rest', rfl, hvalue, hrest⟩ := h
      simp only [List.mem_cons, exists_eq_or_imp]
      refine or_congr (or_congr_right (and_congr_right fun hwalked => ?_)) (stopsAt_congr hrest)
      exact reached_congr (hvalue.resolve_left (not_sensitive (.inl hwalked)))

end

end Walk

end BrainCore.Execution
