import BrainCore.Audit.JsValue

/-!
# Audit events

`shared/src/audit/types.ts`: what a service hands to the emitter, and the row of
`audit_events` that it becomes.
-/

namespace BrainCore.Audit

open BrainCore.Foundation

inductive AuditLayer where
  | raw
  | canonical
  | ledger
  | wiki
  | policy
  | execution
  | agent
  | audit
  | identity
deriving DecidableEq

inductive AuditEventType where
  | systemActivity
  | assistantActivity
  | flagged
deriving DecidableEq

inductive AuditSeverity where
  | info
  | warning
  | critical
deriving DecidableEq

def AuditLayer.text : AuditLayer → String
  | .raw => "raw"
  | .canonical => "canonical"
  | .ledger => "ledger"
  | .wiki => "wiki"
  | .policy => "policy"
  | .execution => "execution"
  | .agent => "agent"
  | .audit => "audit"
  | .identity => "identity"

def AuditEventType.text : AuditEventType → String
  | .systemActivity => "system_activity"
  | .assistantActivity => "assistant_activity"
  | .flagged => "flagged"

def AuditSeverity.text : AuditSeverity → String
  | .info => "info"
  | .warning => "warning"
  | .critical => "critical"

structure AuditEventInput where
  tenantId : String
  layer : AuditLayer
  eventType : Option AuditEventType := none
  severity : Option AuditSeverity := none
  actor : String
  actorDisplayName : Option String := none
  actorEmail : Option String := none
  action : String
  inputs : JsData
  outputs : JsData
  policyVersion : Option Int := none
  policyDecisionId : Option String := none
  policyCheckId : Option String := none
  outcome : Option String := none
  beforeState : JsData := ⟨.undefined, trivial⟩
  afterState : JsData := ⟨.undefined, trivial⟩
  idempotencyKey : Option String := none
  correlationId : Option String := none
  keyId : Option String := none

def normalizeAuditEventType (eventType : Option AuditEventType) : AuditEventType :=
  eventType.getD .systemActivity

def normalizeAuditSeverity (eventType : Option AuditEventType) (severity : Option AuditSeverity) :
    AuditSeverity :=
  match severity with
  | some severity => severity
  | none => if normalizeAuditEventType eventType = .flagged then .warning else .info

def normalizeAuditEventInput (event : AuditEventInput) : AuditEventInput :=
  { event with
    eventType := some (normalizeAuditEventType event.eventType)
    severity := some (normalizeAuditSeverity event.eventType event.severity) }

/-- A row of `audit_events`; a `JSONB` column that may be null is an option. -/
structure AuditEventRow where
  id : String
  tenantId : String
  layer : AuditLayer
  eventType : AuditEventType
  severity : AuditSeverity
  actor : String
  actorDisplayName : Option String
  actorEmail : Option String
  action : String
  inputs : JsonbValue
  outputs : JsonbValue
  policyVersion : Option Int
  policyDecisionId : Option String
  policyCheckId : Option String
  outcome : Option String
  beforeState : Option JsonbValue
  afterState : Option JsonbValue
  eventHash : String
  prevEventHash : Option String
  createdAt : String
  idempotencyKey : Option String
  hashSchemaVersion : Nat
  correlationId : Option String
  keyId : Option String

/-!
## Hashing of audit events

`shared/src/audit/hash.ts`: the canonical text of an event, which the hash is
taken of, and of its logical fields alone.  The digest is a parameter.
-/

def AUDIT_HASH_SCHEMA_VERSION : Nat := 4

mutual

/-- The members in the order of their names, at every depth. -/
def ordered : Json → Json
  | .arr items => .arr (orderedItems items)
  | .obj members => .obj (sortNames (orderedMembers members))
  | value => value

def orderedItems : List Json → List Json
  | [] => []
  | value :: rest => ordered value :: orderedItems rest

def orderedMembers : List (String × Json) → List (String × Json)
  | [] => []
  | (name, value) :: rest => (name, ordered value) :: orderedMembers rest

end

/-- Names in order, and the text without white space. -/
def stableStringify (value : Json) : List Char := (ordered value).text

/-- `value ?? null` of a text. -/
def textOrNull : Option String → Json
  | none => .null
  | some value => .str value

def intOrNull : Option Int → Json
  | none => .null
  | some value => .num value

structure HashInput where
  event : AuditEventInput
  id : String
  createdAt : String
  prevEventHash : Option String

/-- What the hash of an event covers. -/
def payload (input : HashInput) : Json :=
  let e := input.event
  .obj [
    ("id", .str input.id),
    ("tenant_id", .str e.tenantId),
    ("layer", .str e.layer.text),
    ("event_type", .str (normalizeAuditEventType e.eventType).text),
    ("severity", .str (normalizeAuditSeverity e.eventType e.severity).text),
    ("actor", .str e.actor),
    ("actor_display_name", textOrNull e.actorDisplayName),
    ("actor_email", textOrNull e.actorEmail),
    ("action", .str e.action),
    ("inputs", e.inputs.value.stableJsonValue),
    ("outputs", e.outputs.value.stableJsonValue),
    ("policy_version", intOrNull e.policyVersion),
    ("policy_decision_id", textOrNull e.policyDecisionId),
    ("policy_check_id", textOrNull e.policyCheckId),
    ("outcome", textOrNull e.outcome),
    ("before_state", e.beforeState.value.stableJsonValue),
    ("after_state", e.afterState.value.stableJsonValue),
    ("key_id", textOrNull e.keyId),
    ("created_at", .str input.createdAt),
    ("prev_event_hash", textOrNull input.prevEventHash)]

def canonicalize (input : HashInput) : List Char := stableStringify (payload input)

def hashEvent (sha256 : List Char → String) (input : HashInput) : String :=
  sha256 (canonicalize input)

/-- The logical fields alone, for rows of an older version. -/
def logicalPayloadFingerprint (e : AuditEventInput) : List Char :=
  stableStringify (.obj [
    ("tenant_id", .str e.tenantId),
    ("layer", .str e.layer.text),
    ("event_type", .str (normalizeAuditEventType e.eventType).text),
    ("severity", .str (normalizeAuditSeverity e.eventType e.severity).text),
    ("actor", .str e.actor),
    ("actor_display_name", textOrNull e.actorDisplayName),
    ("actor_email", textOrNull e.actorEmail),
    ("action", .str e.action),
    ("inputs", e.inputs.value.stableJsonValue),
    ("outputs", e.outputs.value.stableJsonValue),
    ("policy_version", intOrNull e.policyVersion),
    ("policy_decision_id", textOrNull e.policyDecisionId),
    ("policy_check_id", textOrNull e.policyCheckId),
    ("outcome", textOrNull e.outcome),
    ("before_state", e.beforeState.value.stableJsonValue),
    ("after_state", e.afterState.value.stableJsonValue),
    ("key_id", textOrNull e.keyId)])

/-! ## One text, one value -/

theorem orderedMembers_eq_self {members : List (String × Json)}
    (h : ∀ member ∈ members, ordered member.2 = member.2) : orderedMembers members = members := by
  induction members with
  | nil => rfl
  | cons member rest ih =>
      obtain ⟨name, value⟩ := member
      rw [orderedMembers, h _ List.mem_cons_self, ih fun m hm => h m (List.mem_cons_of_mem _ hm)]

mutual

/-- The form that is hashed is in order already. -/
theorem ordered_stableJsonValue : ∀ value : JsValue,
    ordered value.stableJsonValue = value.stableJsonValue
  | .undefined => rfl
  | .null => rfl
  | .bool _ => rfl
  | .num none => rfl
  | .num (some _) => rfl
  | .str _ => rfl
  | .bigint _ => rfl
  | .function _ => rfl
  | .arr items => congrArg Json.arr (orderedItems_stableItems items)
  | .obj members _ => by
      rw [JsValue.stableJsonValue, ordered]
      congr 1
      rw [orderedMembers_eq_self, sortNames_of_pairwise (sortNames_pairwise _)]
      intro member hmem
      exact ordered_of_mem members member ((sortNames_perm _).mem_iff.mp hmem)

theorem orderedItems_stableItems : ∀ items : List JsValue,
    orderedItems (JsValue.stableItems items) = JsValue.stableItems items
  | [] => rfl
  | value :: rest =>
      List.cons_eq_cons.mpr ⟨ordered_stableJsonValue value, orderedItems_stableItems rest⟩

theorem ordered_of_mem : ∀ (members : List (String × JsValue)),
    ∀ member ∈ JsValue.stableMembers members, ordered member.2 = member.2
  | [], _, hmem => nomatch hmem
  | (name, value) :: rest, member, hmem => by
      rw [JsValue.stableMembers] at hmem
      split at hmem
      · exact ordered_of_mem rest member hmem
      · rcases List.mem_cons.mp hmem with rfl | hmem
        · exact ordered_stableJsonValue value
        · exact ordered_of_mem rest member hmem

end

theorem mem_orderedMembers {members : List (String × Json)} {name : String} {value : Json}
    (h : (name, value) ∈ members) : (name, ordered value) ∈ orderedMembers members := by
  induction members with
  | nil => cases h
  | cons member rest ih =>
      obtain ⟨other, value'⟩ := member
      rw [orderedMembers]
      rcases List.mem_cons.mp h with heq | h
      · cases heq
        exact List.mem_cons_self
      · exact List.mem_cons_of_mem _ (ih h)

theorem exists_of_mem_orderedMembers {members : List (String × Json)} {name : String} {json : Json}
    (h : (name, json) ∈ orderedMembers members) :
    ∃ value, (name, value) ∈ members ∧ json = ordered value := by
  induction members with
  | nil => cases h
  | cons member rest ih =>
      obtain ⟨other, value⟩ := member
      rw [orderedMembers] at h
      rcases List.mem_cons.mp h with heq | h
      · cases heq
        exact ⟨value, List.mem_cons_self, rfl⟩
      · obtain ⟨value', hmem, heq⟩ := ih h
        exact ⟨value', List.mem_cons_of_mem _ hmem, heq⟩

/-- Objects of one text have the same members. -/
theorem mem_of_stableStringify {first second : List (String × Json)} {name : String} {value : Json}
    (h : stableStringify (.obj first) = stableStringify (.obj second))
    (hmem : (name, value) ∈ first) :
    ∃ value', (name, value') ∈ second ∧ ordered value = ordered value' := by
  have hsame := Json.text_injective h
  rw [ordered, ordered] at hsame
  have hsorted := Json.obj.inj hsame
  have hordered : (name, ordered value) ∈ sortNames (orderedMembers first) :=
    (sortNames_perm _).mem_iff.mpr (mem_orderedMembers hmem)
  rw [hsorted] at hordered
  exact exists_of_mem_orderedMembers ((sortNames_perm _).mem_iff.mp hordered)

/-! ## The text of what a column keeps -/

theorem orderedMembers_eq_map (members : List (String × Json)) :
    orderedMembers members = members.map fun member => (member.1, ordered member.2) := by
  induction members with
  | nil => rfl
  | cons member rest ih =>
      obtain ⟨name, value⟩ := member
      rw [orderedMembers, ih, List.map_cons]

theorem orderedMembers_names (members : List (String × Json)) :
    (orderedMembers members).map Prod.fst = members.map Prod.fst := by
  rw [orderedMembers_eq_map, List.map_map]
  rfl

mutual

theorem ordered_jsonb : ∀ {json : Json}, DistinctJson json → ordered (jsonb json) = ordered json
  | .null, _ => rfl
  | .bool _, _ => rfl
  | .num _, _ => rfl
  | .str _, _ => rfl
  | .arr _, h => congrArg Json.arr (orderedItems_jsonbItems h)
  | .obj members, ⟨hnodup, h⟩ => by
      rw [jsonb, ordered, ordered]
      congr 1
      have hperm : (orderedMembers ((jsonbMembers members).insertionSort JsonbLE)).Perm
          (orderedMembers (jsonbMembers members)) := by
        rw [orderedMembers_eq_map, orderedMembers_eq_map]
        exact (List.perm_insertionSort JsonbLE _).map _
      rw [orderedMembers_jsonbMembers h] at hperm
      rw [← orderedMembers_names] at hnodup
      exact ((sortNames_eq_iff hnodup).mpr hperm.symm).symm

theorem orderedItems_jsonbItems : ∀ {items : List Json}, DistinctJsonItems items →
    orderedItems (jsonbItems items) = orderedItems items
  | [], _ => rfl
  | _ :: _, ⟨hvalue, hrest⟩ =>
      List.cons_eq_cons.mpr ⟨ordered_jsonb hvalue, orderedItems_jsonbItems hrest⟩

theorem orderedMembers_jsonbMembers : ∀ {members : List (String × Json)},
    DistinctJsonMembers members → orderedMembers (jsonbMembers members) = orderedMembers members
  | [], _ => rfl
  | (name, _) :: _, ⟨hvalue, hrest⟩ =>
      List.cons_eq_cons.mpr
        ⟨congrArg (Prod.mk name) (ordered_jsonb hvalue), orderedMembers_jsonbMembers hrest⟩

end

/-- A `JSONB` column keeps what the text is of. -/
theorem stableStringify_jsonb {json : Json} (h : DistinctJson json) :
    stableStringify (jsonb json) = stableStringify json := by
  rw [stableStringify, stableStringify, ordered_jsonb h]

end BrainCore.Audit
