import BrainCore.Foundation.JsonText
import BrainCore.Foundation.NameOrder
import BrainCore.Foundation.Result

/-!
# Values of an audit event

What `inputs` and `outputs` can hold when an event is emitted, the form the
hash is taken of (`stableJsonValue` of `shared/src/audit/hash.ts`), and what
`JSON.stringify` and a `JSONB` column leave of it.
-/

namespace BrainCore.Audit

open BrainCore.Foundation

/-- A value of the source's language.  An object has its own enumerable members, and what
`JSON.stringify` writes in its place when it has a `toJSON` or wraps a primitive. -/
inductive JsValue where
  | undefined
  | null
  | bool (value : Bool)
  /-- `none` is `NaN` or an infinity. -/
  | num (value : Option Rat)
  | str (value : String)
  | bigint (value : Int)
  /-- A function or a symbol, with its text. -/
  | function (text : String)
  | arr (items : List JsValue)
  | obj (members : List (String × JsValue)) (toJson : Option (Option Json) := none)

/-- `TypeError: Do not know how to serialize a BigInt`. -/
inductive TypeError where
  | bigInt
deriving DecidableEq

namespace JsValue

/-! ## The form that is hashed -/

/-- The name that sets a prototype where another would set a member. -/
def protoName : String := "__proto__"

mutual

/-- `stableJsonValue`; that a number may be no number shows only in its text, which is `null`. -/
def stableJsonValue : JsValue → Json
  | .undefined => .null
  | .null => .null
  | .bool value => .bool value
  | .num none => .null
  | .num (some value) => .num value
  | .str value => .str value
  | .bigint value => .str (toString value)
  | .function text => .str text
  | .arr items => .arr (stableItems items)
  | .obj members _ => .obj (sortNames (stableMembers members))

def stableItems : List JsValue → List Json
  | [] => []
  | value :: rest => stableJsonValue value :: stableItems rest

def stableMembers : List (String × JsValue) → List (String × Json)
  | [] => []
  | (name, value) :: rest =>
      if name = protoName then stableMembers rest
      else (name, stableJsonValue value) :: stableMembers rest

end

/-! ## What `JSON.stringify` leaves -/

mutual

/-- The value that the text of `JSON.stringify` is of; `none` for `undefined`. -/
def jsonStringify : JsValue → Except TypeError (Option Json)
  | .undefined => .ok none
  | .null => .ok (some .null)
  | .bool value => .ok (some (.bool value))
  | .num none => .ok (some .null)
  | .num (some value) => .ok (some (.num value))
  | .str value => .ok (some (.str value))
  | .bigint _ => .error .bigInt
  | .function _ => .ok none
  | .arr items => (jsonItems items).map fun items => some (.arr items)
  | .obj _ (some written) => .ok written
  | .obj members none => (jsonMembers members).map fun members => some (.obj members)

def jsonItems : List JsValue → Except TypeError (List Json)
  | [] => .ok []
  | value :: rest => do
      let written ← jsonStringify value
      let more ← jsonItems rest
      pure (written.getD .null :: more)

def jsonMembers : List (String × JsValue) → Except TypeError (List (String × Json))
  | [] => .ok []
  | (name, value) :: rest => do
      let written ← jsonStringify value
      let more ← jsonMembers rest
      pure (match written with
        | none => more
        | some json => (name, json) :: more)

end

/-! ## What is read back -/

mutual

/-- A JSON value as the source reads it. -/
def ofJson : Json → JsValue
  | .null => .null
  | .bool value => .bool value
  | .num value => .num (some value)
  | .str value => .str value
  | .arr items => .arr (ofItems items)
  | .obj members => .obj (ofMembers members)

def ofItems : List Json → List JsValue
  | [] => []
  | value :: rest => ofJson value :: ofItems rest

def ofMembers : List (String × Json) → List (String × JsValue)
  | [] => []
  | (name, value) :: rest => (name, ofJson value) :: ofMembers rest

end

end JsValue

/-- `JSONB` keeps shorter names first, and names of one length by their bytes. -/
def JsonbLE {α : Type} (a b : String × α) : Prop :=
  a.1.utf8ByteSize < b.1.utf8ByteSize ∨ a.1.utf8ByteSize = b.1.utf8ByteSize ∧ a.1 ≤ b.1

instance {α : Type} : DecidableRel (JsonbLE (α := α)) := fun _ _ =>
  inferInstanceAs (Decidable (_ ∨ _))

mutual

/-- A value as a `JSONB` column keeps it. -/
def jsonb : Json → Json
  | .arr items => .arr (jsonbItems items)
  | .obj members => .obj ((jsonbMembers members).insertionSort JsonbLE)
  | value => value

def jsonbItems : List Json → List Json
  | [] => []
  | value :: rest => jsonb value :: jsonbItems rest

def jsonbMembers : List (String × Json) → List (String × Json)
  | [] => []
  | (name, value) :: rest => (name, jsonb value) :: jsonbMembers rest

end

/-! ## Distinct names -/

mutual

/-- An object has a name once. -/
def DistinctJson : Json → Prop
  | .arr items => DistinctJsonItems items
  | .obj members => (members.map Prod.fst).Nodup ∧ DistinctJsonMembers members
  | _ => True

def DistinctJsonItems : List Json → Prop
  | [] => True
  | value :: rest => DistinctJson value ∧ DistinctJsonItems rest

def DistinctJsonMembers : List (String × Json) → Prop
  | [] => True
  | (_, value) :: rest => DistinctJson value ∧ DistinctJsonMembers rest

end

namespace JsValue

mutual

def Distinct : JsValue → Prop
  | .arr items => DistinctItems items
  | .obj members written => (members.map Prod.fst).Nodup ∧ DistinctMembers members ∧
      ∀ json, written = some (some json) → DistinctJson json
  | _ => True

def DistinctItems : List JsValue → Prop
  | [] => True
  | value :: rest => Distinct value ∧ DistinctItems rest

def DistinctMembers : List (String × JsValue) → Prop
  | [] => True
  | (_, value) :: rest => Distinct value ∧ DistinctMembers rest

end

end JsValue

/-! ## Columns -/

namespace JsValue

/-- The names that are written are among the names of the object. -/
theorem jsonMembers_names {members : List (String × JsValue)} {written : List (String × Json)}
    (h : jsonMembers members = .ok written) :
    (written.map Prod.fst).Sublist (members.map Prod.fst) := by
  induction members generalizing written with
  | nil =>
      cases h
      exact List.Sublist.slnil
  | cons member rest ih =>
      obtain ⟨name, value⟩ := member
      rw [jsonMembers] at h
      obtain ⟨json, _, h⟩ := bind_ok.mp h
      obtain ⟨more, hmore, h⟩ := bind_ok.mp h
      cases h
      cases json with
      | none => exact (ih hmore).cons name
      | some json => exact (ih hmore).cons_cons name

mutual

theorem distinct_jsonStringify : ∀ {value : JsValue} {json : Json}, value.Distinct →
    value.jsonStringify = .ok (some json) → DistinctJson json
  | .undefined, _, _, h => nomatch h
  | .function _, _, _, h => nomatch h
  | .bigint _, _, _, h => nomatch h
  | .null, _, _, h => by
      cases h
      trivial
  | .bool _, _, _, h => by
      cases h
      trivial
  | .str _, _, _, h => by
      cases h
      trivial
  | .num none, _, _, h => by
      cases h
      trivial
  | .num (some _), _, _, h => by
      cases h
      trivial
  | .arr items, _, hdistinct, h => by
      rw [jsonStringify] at h
      obtain ⟨written, hitems, hsome⟩ := map_ok.mp h
      cases hsome
      exact distinct_jsonItems hdistinct hitems
  | .obj members (some written), _, ⟨_, _, hwritten⟩, h => by
      cases h
      exact hwritten _ rfl
  | .obj members none, _, ⟨hnodup, hmembers, _⟩, h => by
      rw [jsonStringify] at h
      obtain ⟨written, hjson, hsome⟩ := map_ok.mp h
      cases hsome
      exact ⟨hnodup.sublist (jsonMembers_names hjson), distinct_jsonMembers hmembers hjson⟩

theorem distinct_jsonItems : ∀ {items : List JsValue} {written : List Json},
    DistinctItems items → jsonItems items = .ok written → DistinctJsonItems written
  | [], _, _, h => by
      cases h
      trivial
  | value :: rest, _, ⟨hvalue, hrest⟩, h => by
      rw [jsonItems] at h
      obtain ⟨json, hjson, h⟩ := bind_ok.mp h
      obtain ⟨more, hmore, h⟩ := bind_ok.mp h
      cases h
      refine ⟨?_, distinct_jsonItems hrest hmore⟩
      cases json with
      | none => trivial
      | some json => exact distinct_jsonStringify hvalue hjson

theorem distinct_jsonMembers : ∀ {members : List (String × JsValue)}
    {written : List (String × Json)},
    DistinctMembers members → jsonMembers members = .ok written → DistinctJsonMembers written
  | [], _, _, h => by
      cases h
      trivial
  | (name, value) :: rest, _, ⟨hvalue, hrest⟩, h => by
      rw [jsonMembers] at h
      obtain ⟨json, hjson, h⟩ := bind_ok.mp h
      obtain ⟨more, hmore, h⟩ := bind_ok.mp h
      cases h
      cases json with
      | none => exact distinct_jsonMembers hrest hmore
      | some json => exact ⟨distinct_jsonStringify hvalue hjson, distinct_jsonMembers hrest hmore⟩

end

end JsValue

theorem jsonbMembers_eq (members : List (String × Json)) :
    jsonbMembers members = members.map fun member => (member.1, jsonb member.2) := by
  induction members with
  | nil => rfl
  | cons member rest ih =>
      obtain ⟨name, value⟩ := member
      rw [jsonbMembers, ih]
      rfl

theorem distinctJsonMembers_iff {members : List (String × Json)} :
    DistinctJsonMembers members ↔ ∀ member ∈ members, DistinctJson member.2 := by
  induction members with
  | nil => exact ⟨fun _ _ hmem => (nomatch hmem), fun _ => trivial⟩
  | cons member rest ih =>
      obtain ⟨name, value⟩ := member
      rw [DistinctJsonMembers, ih, List.forall_mem_cons]

mutual

theorem distinct_jsonb : ∀ {json : Json}, DistinctJson json → DistinctJson (jsonb json)
  | .null, _ => trivial
  | .bool _, _ => trivial
  | .num _, _ => trivial
  | .str _, _ => trivial
  | .arr _, h => distinct_jsonbItems h
  | .obj members, ⟨hnodup, h⟩ => by
      have hperm := List.perm_insertionSort JsonbLE (jsonbMembers members)
      refine ⟨?_, ?_⟩
      · rw [(hperm.map Prod.fst).nodup_iff, jsonbMembers_eq, List.map_map]
        exact hnodup
      · rw [distinctJsonMembers_iff]
        intro member hmem
        exact distinctJsonMembers_iff.mp (distinct_jsonbMembers h) member (hperm.mem_iff.mp hmem)

theorem distinct_jsonbItems : ∀ {items : List Json}, DistinctJsonItems items →
    DistinctJsonItems (jsonbItems items)
  | [], _ => trivial
  | _ :: _, ⟨hvalue, hrest⟩ => ⟨distinct_jsonb hvalue, distinct_jsonbItems hrest⟩

theorem distinct_jsonbMembers : ∀ {members : List (String × Json)}, DistinctJsonMembers members →
    DistinctJsonMembers (jsonbMembers members)
  | [], _ => trivial
  | (_, _) :: _, ⟨hvalue, hrest⟩ => ⟨distinct_jsonb hvalue, distinct_jsonbMembers hrest⟩

end

namespace JsValue

theorem ofMembers_names (members : List (String × Json)) :
    (ofMembers members).map Prod.fst = members.map Prod.fst := by
  induction members with
  | nil => rfl
  | cons member rest ih =>
      obtain ⟨name, value⟩ := member
      rw [ofMembers, List.map_cons, List.map_cons, ih]

mutual

theorem distinct_ofJson : ∀ {json : Json}, DistinctJson json → (ofJson json).Distinct
  | .null, _ => trivial
  | .bool _, _ => trivial
  | .num _, _ => trivial
  | .str _, _ => trivial
  | .arr _, h => distinct_ofItems h
  | .obj members, ⟨hnodup, h⟩ =>
      ⟨ofMembers_names members ▸ hnodup, distinct_ofMembers h, fun _ hnone => (nomatch hnone)⟩

theorem distinct_ofItems : ∀ {items : List Json}, DistinctJsonItems items →
    DistinctItems (ofItems items)
  | [], _ => trivial
  | _ :: _, ⟨hvalue, hrest⟩ => ⟨distinct_ofJson hvalue, distinct_ofItems hrest⟩

theorem distinct_ofMembers : ∀ {members : List (String × Json)}, DistinctJsonMembers members →
    DistinctMembers (ofMembers members)
  | [], _ => trivial
  | (_, _) :: _, ⟨hvalue, hrest⟩ => ⟨distinct_ofJson hvalue, distinct_ofMembers hrest⟩

end

end JsValue

/-- A value of the language: no object has two members of one name. -/
structure JsData where
  value : JsValue
  distinct : value.Distinct

/-- A value of a `JSONB` column. -/
structure JsonbValue where
  json : Json
  distinct : DistinctJson json

/-- `JSON.stringify(value)` as the parameter of a `JSONB` column; `undefined` is the null. -/
def JsData.column (data : JsData) : Except TypeError (Option JsonbValue) :=
  match h : data.value.jsonStringify with
  | .error e => .error e
  | .ok none => .ok none
  | .ok (some json) =>
      .ok (some ⟨jsonb json, distinct_jsonb (JsValue.distinct_jsonStringify data.distinct h)⟩)

/-- A column as the source reads it. -/
def JsonbValue.data (column : JsonbValue) : JsData :=
  ⟨.ofJson column.json, JsValue.distinct_ofJson column.distinct⟩

theorem JsData.column_ok {data : JsData} {column : Option JsonbValue} (h : data.column = .ok column) :
    (column = none ∧ data.value.jsonStringify = .ok none) ∨
      ∃ json value, column = some value ∧ data.value.jsonStringify = .ok (some json) ∧
        value.json = jsonb json := by
  unfold JsData.column at h
  split at h
  · cases h
  · rename_i hnone
    cases h
    exact .inl ⟨rfl, hnone⟩
  · rename_i json hsome
    cases h
    exact .inr ⟨json, _, rfl, hsome, rfl⟩

end BrainCore.Audit
