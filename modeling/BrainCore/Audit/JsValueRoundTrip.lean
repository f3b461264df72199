import BrainCore.Audit.JsValue

/-!
# What survives a `JSONB` column

A value survives when the form that is hashed is the same before it is written
and after it is read.
-/

namespace BrainCore.Audit

open BrainCore.Foundation

/-! ## The form of a JSON value -/

/-- The form that is hashed of a value that was read. -/
def canonical (json : Json) : Json := (JsValue.ofJson json).stableJsonValue

theorem canonical_arr (items : List Json) :
    canonical (.arr items) = .arr (items.map canonical) := by
  change Json.arr (JsValue.stableItems (JsValue.ofItems items)) = _
  congr 1
  induction items with
  | nil => rfl
  | cons value rest ih =>
      rw [JsValue.ofItems, JsValue.stableItems, ih]
      rfl

/-- The members that are hashed, before they are ordered. -/
def canonicalMembers (members : List (String × Json)) : List (String × Json) :=
  (members.filter fun member => member.1 ≠ JsValue.protoName).map
    fun member => (member.1, canonical member.2)

theorem stableMembers_ofMembers (members : List (String × Json)) :
    JsValue.stableMembers (JsValue.ofMembers members) = canonicalMembers members := by
  induction members with
  | nil => rfl
  | cons member rest ih =>
      obtain ⟨name, value⟩ := member
      rw [JsValue.ofMembers, JsValue.stableMembers, ih]
      unfold canonicalMembers
      by_cases hproto : name = JsValue.protoName
      · rw [if_pos hproto, List.filter_cons_of_neg (by simpa using hproto)]
      · rw [if_neg hproto, List.filter_cons_of_pos (by simpa using hproto)]
        rfl

theorem canonical_obj (members : List (String × Json)) :
    canonical (.obj members) = .obj (sortNames (canonicalMembers members)) := by
  rw [← stableMembers_ofMembers]
  rfl

theorem canonicalMembers_names (members : List (String × Json)) :
    (canonicalMembers members).map Prod.fst =
      (members.map Prod.fst).filter fun name => name ≠ JsValue.protoName := by
  unfold canonicalMembers
  rw [List.map_map, List.filter_map]
  rfl

theorem canonicalMembers_nodup {members : List (String × Json)}
    (h : (members.map Prod.fst).Nodup) : ((canonicalMembers members).map Prod.fst).Nodup := by
  rw [canonicalMembers_names]
  exact h.filter _

/-! ## The column -/

mutual

/-- A `JSONB` column changes nothing that is hashed. -/
theorem canonical_jsonb : ∀ {json : Json}, DistinctJson json →
    canonical (jsonb json) = canonical json
  | .null, _ => rfl
  | .bool _, _ => rfl
  | .num _, _ => rfl
  | .str _, _ => rfl
  | .arr items, h => by
      rw [jsonb, canonical_arr, canonical_arr]
      exact congrArg Json.arr (map_canonical_jsonbItems h)
  | .obj members, ⟨hnodup, h⟩ => by
      rw [jsonb, canonical_obj, canonical_obj]
      congr 1
      have hsorted : (canonicalMembers ((jsonbMembers members).insertionSort JsonbLE)).Perm
          (canonicalMembers (jsonbMembers members)) :=
        ((List.perm_insertionSort JsonbLE _).filter _).map _
      rw [canonicalMembers_jsonbMembers h] at hsorted
      exact ((sortNames_eq_iff (canonicalMembers_nodup hnodup)).mpr hsorted.symm).symm

theorem map_canonical_jsonbItems : ∀ {items : List Json}, DistinctJsonItems items →
    (jsonbItems items).map canonical = items.map canonical
  | [], _ => rfl
  | _ :: _, ⟨hvalue, hrest⟩ =>
      List.cons_eq_cons.mpr ⟨canonical_jsonb hvalue, map_canonical_jsonbItems hrest⟩

theorem canonicalMembers_jsonbMembers : ∀ {members : List (String × Json)},
    DistinctJsonMembers members →
      canonicalMembers (jsonbMembers members) = canonicalMembers members
  | [], _ => rfl
  | (name, value) :: rest, ⟨hvalue, hrest⟩ => by
      have hmore := canonicalMembers_jsonbMembers hrest
      unfold canonicalMembers at hmore ⊢
      rw [jsonbMembers]
      by_cases hproto : name = JsValue.protoName
      · rw [List.filter_cons_of_neg (by simpa using hproto),
          List.filter_cons_of_neg (by simpa using hproto), hmore]
      · rw [List.filter_cons_of_pos (by simpa using hproto),
          List.filter_cons_of_pos (by simpa using hproto), List.map_cons, List.map_cons, hmore,
          canonical_jsonb hvalue]

end

namespace JsValue

/-! ## Survival -/

/-- `JSON.stringify` gives `undefined` for it. -/
def Dropped : JsValue → Prop
  | .undefined => True
  | .function _ => True
  | .obj _ (some none) => True
  | _ => False

mutual

/-- The value is hashed alike before and after it is written: it holds no function, no object has
a member that is dropped, and what a `toJSON` writes is hashed like the object's own members. -/
def Survives : JsValue → Prop
  | .bigint _ => False
  | .function _ => False
  | .arr items => SurviveItems items
  | .obj members none => SurviveMembers members
  | .obj _ (some none) => False
  | .obj members (some (some json)) =>
      Json.obj (sortNames (stableMembers members)) = canonical json
  | _ => True

def SurviveItems : List JsValue → Prop
  | [] => True
  | value :: rest => Survives value ∧ SurviveItems rest

/-- A member that would set a prototype is neither hashed before nor after. -/
def SurviveMembers : List (String × JsValue) → Prop
  | [] => True
  | (name, value) :: rest =>
      (name = protoName ∨ ¬Dropped value ∧ Survives value) ∧ SurviveMembers rest

end

theorem jsonStringify_none {value : JsValue} (h : value.jsonStringify = .ok none) :
    value.Dropped := by
  cases value with
  | undefined => trivial
  | function text => trivial
  | null => cases h
  | bool b => cases h
  | str s => cases h
  | bigint n => cases h
  | num n => cases n <;> cases h
  | arr items =>
      rw [jsonStringify] at h
      obtain ⟨_, _, hnone⟩ := map_ok.mp h
      cases hnone
  | obj members written =>
      cases written with
      | none =>
          rw [jsonStringify] at h
          obtain ⟨_, _, hnone⟩ := map_ok.mp h
          cases hnone
      | some written =>
          cases written with
          | none => trivial
          | some json => cases h

theorem jsonStringify_some {value : JsValue} {json : Json}
    (h : value.jsonStringify = .ok (some json)) : ¬value.Dropped := by
  cases value with
  | undefined => cases h
  | function text => cases h
  | obj members written =>
      cases written with
      | none => exact id
      | some written =>
          cases written with
          | none => cases h
          | some json => exact id
  | null => exact id
  | bool b => exact id
  | str s => exact id
  | bigint n => exact id
  | num n => exact id
  | arr items => exact id

/-! ## Exactly the values that survive -/

theorem stableMembers_names (members : List (String × JsValue)) :
    ((stableMembers members).map Prod.fst).Sublist (members.map Prod.fst) := by
  induction members with
  | nil => exact List.Sublist.slnil
  | cons member rest ih =>
      obtain ⟨name, value⟩ := member
      rw [stableMembers]
      split
      · exact ih.cons name
      · exact ih.cons_cons name

/-- A member can only be matched by the member of its name. -/
theorem cons_perm_cons_iff {name : String} {a b : Json} {first second : List (String × Json)}
    (hsecond : name ∉ second.map Prod.fst) :
    ((name, a) :: first).Perm ((name, b) :: second) ↔ a = b ∧ first.Perm second := by
  constructor
  · intro h
    have hmem : (name, a) ∈ (name, b) :: second := h.mem_iff.mp List.mem_cons_self
    rcases List.mem_cons.mp hmem with heq | hrest
    · obtain rfl := (Prod.mk.inj heq).2
      exact ⟨rfl, h.cons_inv⟩
    · exact absurd (List.mem_map_of_mem hrest) hsecond
  · rintro ⟨rfl, h⟩
    exact h.cons _

/-- A member that is dropped is matched by none. -/
theorem not_cons_perm {name : String} {a : Json} {first second : List (String × Json)}
    (hsecond : name ∉ second.map Prod.fst) : ¬((name, a) :: first).Perm second := by
  intro h
  exact hsecond (List.mem_map_of_mem (h.mem_iff.mp List.mem_cons_self))

theorem canonicalMembers_cons {name : String} {json : Json} {members : List (String × Json)}
    (hproto : name ≠ protoName) :
    canonicalMembers ((name, json) :: members) = (name, canonical json) :: canonicalMembers members := by
  unfold canonicalMembers
  rw [List.filter_cons_of_pos (by simpa using hproto)]
  rfl

theorem canonicalMembers_proto {json : Json} {members : List (String × Json)} :
    canonicalMembers ((protoName, json) :: members) = canonicalMembers members := by
  unfold canonicalMembers
  rw [List.filter_cons_of_neg (by simp)]

/-- What `JSON.stringify` drops is hashed like `null` only when it is `undefined`. -/
theorem dropped_iff {value : JsValue} (h : value.jsonStringify = .ok none) :
    value.stableJsonValue = .null ↔ value.Survives := by
  have hdropped := jsonStringify_none h
  cases value with
  | undefined => exact ⟨fun _ => trivial, fun _ => rfl⟩
  | function text => exact ⟨fun hnull => (nomatch hnull), fun hsurvives => hsurvives.elim⟩
  | obj members written =>
      cases written with
      | none => exact hdropped.elim
      | some written =>
          cases written with
          | none => exact ⟨fun hnull => (nomatch hnull), fun hsurvives => hsurvives.elim⟩
          | some json => exact hdropped.elim
  | null => exact hdropped.elim
  | bool b => exact hdropped.elim
  | str s => exact hdropped.elim
  | bigint n => exact hdropped.elim
  | num n => exact hdropped.elim
  | arr items => exact hdropped.elim

mutual

/-- The form that is hashed is the same after a round trip exactly when the value survives. -/
theorem stable_eq_canonical_iff : ∀ {value : JsValue} {json : Json}, value.Distinct →
    value.jsonStringify = .ok (some json) →
      (value.stableJsonValue = canonical json ↔ value.Survives)
  | .undefined, _, _, h => nomatch h
  | .function _, _, _, h => nomatch h
  | .bigint _, _, _, h => nomatch h
  | .null, _, _, h => by
      cases h
      exact ⟨fun _ => trivial, fun _ => rfl⟩
  | .bool _, _, _, h => by
      cases h
      exact ⟨fun _ => trivial, fun _ => rfl⟩
  | .str _, _, _, h => by
      cases h
      exact ⟨fun _ => trivial, fun _ => rfl⟩
  | .num none, _, _, h => by
      cases h
      exact ⟨fun _ => trivial, fun _ => rfl⟩
  | .num (some _), _, _, h => by
      cases h
      exact ⟨fun _ => trivial, fun _ => rfl⟩
  | .arr items, _, hdistinct, h => by
      rw [jsonStringify] at h
      obtain ⟨written, hitems, hsome⟩ := map_ok.mp h
      cases hsome
      rw [stableJsonValue, canonical_arr, Json.arr.injEq]
      exact stableItems_eq_iff hdistinct hitems
  | .obj members (some written), _, _, h => by
      cases h
      exact Iff.rfl
  | .obj members none, _, ⟨hnodup, hmembers, _⟩, h => by
      rw [jsonStringify] at h
      obtain ⟨written, hjson, hsome⟩ := map_ok.mp h
      cases hsome
      rw [stableJsonValue, canonical_obj, Json.obj.injEq,
        sortNames_eq_iff (hnodup.sublist (stableMembers_names members))]
      exact stableMembers_perm_iff hnodup hmembers hjson

theorem stableItems_eq_iff : ∀ {items : List JsValue} {written : List Json},
    DistinctItems items → jsonItems items = .ok written →
      (stableItems items = written.map canonical ↔ SurviveItems items)
  | [], _, _, h => by
      cases h
      exact ⟨fun _ => trivial, fun _ => rfl⟩
  | value :: rest, _, ⟨hvalue, hrest⟩, h => by
      rw [jsonItems] at h
      obtain ⟨json, hjson, h⟩ := bind_ok.mp h
      obtain ⟨more, hmore, h⟩ := bind_ok.mp h
      cases h
      have hitems := stableItems_eq_iff hrest hmore
      rw [stableItems, List.map_cons, List.cons_eq_cons, SurviveItems, hitems]
      apply and_congr_left'
      cases json with
      | none => exact dropped_iff hjson
      | some json => exact stable_eq_canonical_iff hvalue hjson

theorem stableMembers_perm_iff : ∀ {members : List (String × JsValue)}
    {written : List (String × Json)}, (members.map Prod.fst).Nodup → DistinctMembers members →
      jsonMembers members = .ok written →
        ((stableMembers members).Perm (canonicalMembers written) ↔ SurviveMembers members)
  | [], _, _, _, h => by
      cases h
      exact ⟨fun _ => trivial, fun _ => List.Perm.refl _⟩
  | (name, value) :: rest, _, hnodup, ⟨hvalue, hrest⟩, h => by
      rw [jsonMembers] at h
      obtain ⟨json, hjson, h⟩ := bind_ok.mp h
      obtain ⟨more, hmore, h⟩ := bind_ok.mp h
      cases h
      obtain ⟨hname, hnodup⟩ := List.nodup_cons.mp hnodup
      have hmembers := stableMembers_perm_iff hnodup hrest hmore
      have habsent : name ∉ (canonicalMembers more).map Prod.fst := by
        intro hmem
        rw [canonicalMembers_names] at hmem
        exact hname ((jsonMembers_names hmore).subset (List.mem_of_mem_filter hmem))
      rw [stableMembers, SurviveMembers, ← hmembers]
      by_cases hproto : name = protoName
      · subst hproto
        rw [if_pos rfl]
        cases json with
        | none => exact ⟨fun hperm => ⟨.inl rfl, hperm⟩, And.right⟩
        | some json =>
            dsimp only
            rw [canonicalMembers_proto]
            exact ⟨fun hperm => ⟨.inl rfl, hperm⟩, And.right⟩
      · rw [if_neg hproto]
        cases json with
        | none =>
            refine ⟨fun hperm => absurd hperm (not_cons_perm habsent), fun hsurvives => ?_⟩
            have hkept := hsurvives.1.resolve_left hproto
            exact absurd (jsonStringify_none hjson) hkept.1
        | some json =>
            dsimp only
            rw [canonicalMembers_cons hproto, cons_perm_cons_iff habsent,
              stable_eq_canonical_iff hvalue hjson]
            refine and_congr_left' ⟨fun hsurvives => .inr ⟨jsonStringify_some hjson, hsurvives⟩, ?_⟩
            exact fun hkept => (hkept.resolve_left hproto).2

end

end JsValue

end BrainCore.Audit
