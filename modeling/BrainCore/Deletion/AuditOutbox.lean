import BrainCore.Audit.EmittedKeys
import BrainCore.Foundation.Parties

/-!
# The audit outbox of tenant deletions

`services/api/src/tenant-deletion/blob-purge-audit-outbox.ts`: the transitions
of deletions and purges write what is to be audited in their own transactions,
and workers deliver it to the emitter under the key of the row.  The deletion
service of `service.ts` emits its events itself as well, once it has committed.
-/

namespace BrainCore.Deletion

open BrainCore.Foundation BrainCore.Audit

/-! ## Objects -/

/-- The object after an assignment to one of its names. -/
def assign (members : List (String × JsData)) (member : String × JsData) : List (String × JsData) :=
  members.filter (fun other => other.1 ≠ member.1) ++ [member]

theorem nodup_assign {members : List (String × JsData)} (h : (members.map Prod.fst).Nodup)
    (member : String × JsData) : ((assign members member).map Prod.fst).Nodup := by
  unfold assign
  rw [List.map_append, List.nodup_append]
  refine ⟨h.sublist (List.filter_sublist.map _), List.nodup_singleton _, ?_⟩
  intro name hname last hlast
  obtain ⟨other, hother, rfl⟩ := List.mem_map.mp hname
  rw [List.mem_singleton.mp hlast]
  exact of_decide_eq_true (List.mem_filter.mp hother).2

theorem nodup_assigned (assignments : List (String × JsData)) :
    ((assignments.foldl assign []).map Prod.fst).Nodup := by
  induction assignments using List.reverseRecOn with
  | nil => exact List.nodup_nil
  | append_singleton assignments member ih =>
      rw [List.foldl_append]
      exact nodup_assign ih member

theorem distinct_members (members : List (String × JsData)) :
    JsValue.DistinctMembers (members.map fun member => (member.1, member.2.value)) := by
  induction members with
  | nil => trivial
  | cons member members ih => exact ⟨member.2.distinct, ih⟩

/-- The object that the assignments build. -/
def object (assignments : List (String × JsData)) : JsData where
  value := .obj ((assignments.foldl assign []).map fun member => (member.1, member.2.value))
  distinct := by
    refine ⟨?_, distinct_members _, fun json hnone => nomatch hnone⟩
    rw [List.map_map]
    exact nodup_assigned assignments

def text (s : String) : JsData := ⟨.str s, trivial⟩

def count (n : Nat) : JsData := ⟨.num (some n), trivial⟩

def textOrNull : Option String → JsData
  | none => ⟨.null, trivial⟩
  | some s => text s

def texts (values : List String) : JsData where
  value := .arr (values.map .str)
  distinct := by
    change JsValue.DistinctItems (values.map .str)
    induction values with
    | nil => trivial
    | cons value values ih => exact ⟨trivial, ih⟩

/-- The members of a stored object, for a spread. -/
def membersOf (column : JsonbValue) : List (String × JsData) :=
  match h : column.json with
  | .obj members => members.attach.map fun member =>
      (member.val.1, ⟨.ofJson member.val.2, JsValue.distinct_ofJson (by
        have hdistinct := column.distinct
        rw [h] at hdistinct
        exact distinctJsonMembers_iff.mp hdistinct.2 member.val member.property)⟩)
  | _ => []

/-! ## Rows -/

/-- What a transition wants to have audited. -/
structure AuditOutboxInput where
  jobId : Option String := none
  tenantId : String
  action : String
  payload : JsData
  eventKey : String
  actor : Option String := none
  inputs : JsData := object []

inductive OutboxStatus where
  | pending
  | published
  | exhausted
deriving DecidableEq

/-- The columns of a row that stay as they are inserted. -/
structure AuditIntent where
  jobId : Option String
  tenantId : String
  action : String
  payload : JsonbValue
  eventKey : String
  actor : Option String
  inputs : JsonbValue

structure AuditOutboxRow extends AuditIntent where
  status : OutboxStatus := .pending
  attempts : Nat := 0
  auditEventId : Option String := none

def MAX_OUTBOX_PUBLISH_ATTEMPTS : Nat := 12

/-- The parameters of the insert; there is no row for a value that cannot be written. -/
def AuditOutboxInput.intent (input : AuditOutboxInput) : Option AuditIntent :=
  match input.payload.column, input.inputs.column with
  | .ok (some payload), .ok (some inputs) => some
      { jobId := input.jobId, tenantId := input.tenantId, action := input.action, payload
        eventKey := input.eventKey, actor := input.actor, inputs }
  | _, _ => none

/-- `ON CONFLICT (event_key) DO NOTHING`. -/
def insertIntent (rows : List AuditOutboxRow) (intent : AuditIntent) : List AuditOutboxRow :=
  if rows.any fun row => row.eventKey = intent.eventKey then rows
  else rows ++ [{ toAuditIntent := intent }]

/-- A transaction that enqueues these; `none` when an insert fails. -/
def enqueueAuditOutbox (rows : List AuditOutboxRow) (inputs : List AuditOutboxInput) :
    Option (List AuditOutboxRow) :=
  (inputs.mapM AuditOutboxInput.intent).map fun intents => intents.foldl insertIntent rows

/-! ## Events -/

namespace AuditIntent

variable (intent : AuditIntent)

def eventInputs : JsData :=
  object ((match intent.jobId with
    | some jobId => [("tenant_blob_purge_job_id", text jobId)]
    | none => []) ++ membersOf intent.inputs ++ [("event_key", text intent.eventKey)])

def outboxRowToEvent (workerId : String) : AuditEventInput where
  tenantId := intent.tenantId
  layer := .audit
  actor := intent.actor.getD workerId
  action := intent.action
  inputs := intent.eventInputs
  outputs := intent.payload.data
  idempotencyKey := some intent.eventKey

end AuditIntent

/-! ## The deletion service -/

/-- A deletion that commits, with what its transaction has read and counted. -/
structure TenantDeletion where
  targetTenantId : String
  actor : String
  deletedRows : List (String × Nat)
  totalRows : Nat
  blobUrisPendingPurge : List String
  blobPurgeJobId : Option String
  retentionSubjectId : String
  retentionReceiptId : String

namespace TenantDeletion

variable (deletion : TenantDeletion)

def deletedEventKey : String := deletion.targetTenantId ++ ":tenant.deleted"

def purgeRequestedEventKey : String := deletion.targetTenantId ++ ":tenant_blob.purge_requested"

def requestInputs : JsData :=
  object [("tenant_id", text deletion.targetTenantId), ("requested_by", text deletion.actor)]

def deletedOutputs : JsData := object
  [("total_rows_deleted", count deletion.totalRows),
    ("per_table_counts", object (deletion.deletedRows.map fun (table, rows) => (table, count rows))),
    ("preserved", texts ["audit_events", "audit_anchors", "audit_chain_heads"]),
    ("blob_artifact_count", count deletion.blobUrisPendingPurge.length),
    ("blob_uris_pending_purge", texts deletion.blobUrisPendingPurge),
    ("blob_purge_job_id", textOrNull deletion.blobPurgeJobId),
    ("commercial_retention_subject_id", text deletion.retentionSubjectId),
    ("commercial_retention_receipt_id", text deletion.retentionReceiptId)]

def purgeRequestedOutputs (blobPurgeJobId : String) : JsData := object
  [("tenant_blob_purge_job_id", text blobPurgeJobId),
    ("blob_prefix", text (deletion.targetTenantId ++ "/")),
    ("blob_artifact_count", count deletion.blobUrisPendingPurge.length)]

/-- What the transaction enqueues. -/
def enqueued : List AuditOutboxInput :=
  { tenantId := deletion.targetTenantId
    action := "tenant.deleted"
    payload := deletion.deletedOutputs
    eventKey := deletion.deletedEventKey
    actor := some deletion.actor
    inputs := deletion.requestInputs } ::
  match deletion.blobPurgeJobId with
  | none => []
  | some jobId =>
      [{ jobId := some jobId
         tenantId := deletion.targetTenantId
         action := "tenant_blob.purge_requested"
         payload := deletion.purgeRequestedOutputs jobId
         eventKey := deletion.purgeRequestedEventKey
         actor := some deletion.actor
         inputs := deletion.requestInputs }]

/-- What the service emits after the commit. -/
def emitted : List AuditEventInput :=
  { tenantId := deletion.targetTenantId
    layer := .audit
    actor := deletion.actor
    action := "tenant.deleted"
    inputs := deletion.requestInputs
    outputs := deletion.deletedOutputs
    idempotencyKey := some deletion.deletedEventKey } ::
  match deletion.blobPurgeJobId with
  | none => []
  | some jobId =>
      [{ tenantId := deletion.targetTenantId
         layer := .audit
         actor := deletion.actor
         action := "tenant_blob.purge_requested"
         inputs := deletion.requestInputs
         outputs := deletion.purgeRequestedOutputs jobId
         idempotencyKey := some deletion.purgeRequestedEventKey }]

end TenantDeletion

/-! ## Deliveries -/

/-- Where a publish transaction stands; `k` is the place of the row it has locked. -/
inductive PublishPhase where
  | claimed (k : Nat) (row : AuditOutboxRow)
  | delivered (k : Nat) (event : AuditEventRow)
  | failed (k : Nat) (row : AuditOutboxRow)
  | ended

def PublishPhase.held : PublishPhase → Option Nat
  | .claimed k _ | .delivered k _ | .failed k _ => some k
  | .ended => none

/-- A run of `publishOneOutboxRow`. -/
structure PublishCall where
  workerId : String
  maxAttempts : Nat
  phase : PublishPhase

/-- How an emit ends for its caller. -/
inductive EmitEnd where
  | answered
  /-- The emitter has done its work, and the answer does not come back. -/
  | lost
  /-- The emitter is not reached. -/
  | unreached

/-- The committed rows and the log, the calls, the events that deletions have yet to emit, and as
history the places of the rows a delivery of which was refused or got no answer. -/
structure OutboxWorld where
  rows : List AuditOutboxRow := []
  audit : AuditDatabase := {}
  calls : List PublishCall := []
  deletions : List (List AuditEventInput) := []
  refused : List Nat := []
  unanswered : List Nat := []

inductive OutboxLabel where
  /-- Any transition that enqueues, of a deletion, a purge or a worker that takes one over. -/
  | transition (inputs : List AuditOutboxInput)
  | deleteTenant (deletion : TenantDeletion)
  | emitBestEffort (j : Nat) (id createdAt : String) (ending : EmitEnd)
  | serviceStops (j : Nat)
  | claim (workerId : String) (maxAttempts k : Nat)
  | deliver (i : Nat) (id createdAt : String) (ending : EmitEnd)
  | markPublished (i : Nat)
  | markFailed (i : Nat)
  /-- The transaction is rolled back: the worker has crashed, or its connection is lost. -/
  | rollback (i : Nat)
  /-- An operator puts rows back, with the evidence of it. -/
  | replay (ks : List Nat) (inputs : List AuditOutboxInput)
  /-- An event of another component. -/
  | otherEmit (call : EmitCall)

section Machine

variable (sha256 : List Char → String) (hashtext : String → Int) (isEventKey : String → Bool)

abbrev emitAlone (call : EmitCall) (db : AuditDatabase) :
    Except EmitError (AuditDatabase × AuditEventRow) :=
  (emit sha256 hashtext call).runAlone auditStore db

def isConflict : EmitError → Bool
  | .auditIdempotencyConflict _ _ => true
  | _ => false

/-- Keys of the outbox are used by nothing else. -/
def AuditOutboxInput.ours (input : AuditOutboxInput) : Bool := isEventKey input.eventKey

namespace OutboxWorld

variable (s : OutboxWorld)

def setPhase (i : Nat) (call : PublishCall) (phase : PublishPhase) : OutboxWorld :=
  { s with calls := s.calls.set i { call with phase } }

/-- Nobody has locked the row at this place. -/
def free (k : Nat) : Bool := s.calls.all fun call => call.phase.held ≠ some k

/-- The log after an emit whose outcome its caller ignores. -/
def logged (call : EmitCall) : OutboxWorld :=
  match emitAlone sha256 hashtext call s.audit with
  | .error _ => s
  | .ok (audit, _) => { s with audit }

def emitBestEffort (j : Nat) (events : List AuditEventInput) (id createdAt : String)
    (ending : EmitEnd) : Option OutboxWorld :=
  match events with
  | [] => none
  | event :: rest =>
      let s := { s with deletions := s.deletions.set j rest }
      match ending with
      | .unreached => some s
      | .answered | .lost => some (s.logged sha256 hashtext ⟨event, id, createdAt⟩)

def claim (workerId : String) (maxAttempts k : Nat) : Option OutboxWorld :=
  (s.rows[k]?).bind fun row =>
    if row.status = .pending ∧ row.attempts < maxAttempts ∧ s.free k = true then
      some { s with calls := s.calls ++ [⟨workerId, maxAttempts, .claimed k row⟩] }
    else none

def deliver (i : Nat) (call : PublishCall) (id createdAt : String) (ending : EmitEnd) :
    Option OutboxWorld :=
  match call.phase with
  | .claimed k row =>
      match ending with
      | .unreached => some { s.setPhase i call (.failed k row) with
          unanswered := s.unanswered ++ [k] }
      | .answered | .lost =>
          match emitAlone sha256 hashtext ⟨row.outboxRowToEvent call.workerId, id, createdAt⟩
              s.audit with
          | .error error => some { s.setPhase i call (.failed k row) with
              refused := if isConflict error then s.refused ++ [k] else s.refused }
          | .ok (audit, event) =>
              match ending with
              | .lost => some { s.setPhase i call (.failed k row) with
                  audit, unanswered := s.unanswered ++ [k] }
              | _ => some { s.setPhase i call (.delivered k event) with audit }
  | _ => none

def markPublished (i : Nat) (call : PublishCall) : Option OutboxWorld :=
  match call.phase with
  | .delivered k event => some { s.setPhase i call .ended with
      rows := s.rows.modify k fun row =>
        { row with status := .published, auditEventId := some event.id } }
  | _ => none

/-- `markAuditOutboxFailed`, or `markAuditOutboxExhausted` at the cap. -/
def markFailed (i : Nat) (call : PublishCall) : Option OutboxWorld :=
  match call.phase with
  | .failed k read => some { s.setPhase i call .ended with
      rows := s.rows.modify k fun row =>
        if call.maxAttempts ≤ read.attempts + 1 then
          { row with status := .exhausted, attempts := read.attempts + 1 }
        else { row with attempts := read.attempts + 1 } }
  | _ => none

/-- The exhausted rows among these are due again. -/
def requeued (ks : List Nat) : List AuditOutboxRow :=
  s.rows.mapIdx fun k row =>
    if k ∈ ks ∧ row.status = .exhausted then { row with status := .pending, attempts := 0 } else row

def step : OutboxLabel → Option OutboxWorld
  | .transition inputs =>
      if inputs.all (·.ours isEventKey) then
        (enqueueAuditOutbox s.rows inputs).map fun rows => { s with rows }
      else none
  | .deleteTenant deletion =>
      if deletion.enqueued.all (·.ours isEventKey) then
        (enqueueAuditOutbox s.rows deletion.enqueued).map fun rows =>
          { s with rows, deletions := s.deletions ++ [deletion.emitted] }
      else none
  | .emitBestEffort j id createdAt ending => (s.deletions[j]?).bind fun events =>
      s.emitBestEffort sha256 hashtext j events id createdAt ending
  | .serviceStops j => some { s with deletions := s.deletions.set j [] }
  | .claim workerId maxAttempts k => s.claim workerId maxAttempts k
  | .deliver i id createdAt ending => (s.calls[i]?).bind fun call =>
      s.deliver sha256 hashtext i call id createdAt ending
  | .markPublished i => (s.calls[i]?).bind fun call => s.markPublished i call
  | .markFailed i => (s.calls[i]?).bind fun call => s.markFailed i call
  | .rollback i => (s.calls[i]?).bind fun call => some (s.setPhase i call .ended)
  | .replay ks inputs =>
      if inputs.all (·.ours isEventKey) then
        (enqueueAuditOutbox (s.requeued ks) inputs).map fun rows => { s with rows }
      else none
  | .otherEmit call =>
      if call.event.idempotencyKey.any isEventKey then none
      else some (s.logged sha256 hashtext call)

end OutboxWorld

def outboxMachine : Machine OutboxWorld OutboxLabel :=
  ⟨OutboxWorld.step sha256 hashtext isEventKey⟩

end Machine

end BrainCore.Deletion
