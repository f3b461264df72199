import BrainCore.Audit.Hash
import BrainCore.Foundation.Isolation

/-!
# The audit emitter

`shared/src/audit/emitter.ts` and the constraints and the trigger of
`services/audit/migrations`: an emit is one transaction, which takes the lock of
the tenant's chain, looks for an event of the same idempotency key, and inserts
an event after the head of the chain.  The digest and the lock keys are
parameters.
-/

namespace BrainCore.Audit

open BrainCore.Foundation

/-- A row of `audit_chain_heads`. -/
structure AuditChainHead where
  headEventId : Option String := none
  headEventHash : Option String := none
  sequence : Nat := 0

structure AuditDatabase where
  events : List AuditEventRow := []
  heads : String → Option AuditChainHead := fun _ => none

inductive AuditWrite where
  /-- `pg_advisory_xact_lock`. -/
  | lock (key : Int)
  | event (row : AuditEventRow)
  | head (tenantId : String) (head : AuditChainHead)

inductive EmitError where
  | typeError (e : TypeError)
  | notNullViolation (column : String)
  | uniqueViolation (index : String)
  | checkViolation (message : String)
  | auditHashVersionUnsupported (version : Nat) (tenantId idempotencyKey : String)
  | auditIdempotencyConflict (tenantId idempotencyKey : String)
  | auditChainHeadUnavailable (tenantId : String)

namespace AuditDatabase

variable (db : AuditDatabase)

def write : AuditWrite → AuditDatabase
  | .lock _ => db
  | .event row => { db with events := db.events ++ [row] }
  | .head tenantId head => { db with heads := Function.update db.heads tenantId (some head) }

def ofTenant (tenantId : String) : List AuditEventRow :=
  db.events.filter fun row => row.tenantId = tenantId

end AuditDatabase

/-! ## Constraints -/

/-- The unique index that two rows cannot both be in. -/
def uniqueClash (row other : AuditEventRow) : Option String :=
  if row.id = other.id then some "audit_events_pkey"
  else if row.tenantId ≠ other.tenantId then none
  else if row.eventHash = other.eventHash then some "uq_audit_events_tenant_hash"
  else if row.idempotencyKey.isSome ∧ row.idempotencyKey = other.idempotencyKey then
    some "uq_audit_events_tenant_idempotency"
  else if row.prevEventHash = other.prevEventHash then
    some (if row.prevEventHash = none then "uq_audit_events_one_genesis_per_tenant"
      else "uq_audit_events_one_successor_per_predecessor")
  else none

/-- Which writes wait for each other. -/
def auditClash : AuditWrite → AuditWrite → Bool
  | .lock key, .lock key' => key = key'
  | .event row, .event row' => (uniqueClash row row').isSome
  | .head tenantId _, .head tenantId' _ => tenantId = tenantId'
  | _, _ => false

def auditStore : Store AuditDatabase AuditWrite := ⟨AuditDatabase.write, auditClash⟩

/-- The trigger on a database without a head for the tenant; `events` has the new row. -/
def initialHead (events : List AuditEventRow) (row : AuditEventRow) :
    Except EmitError AuditChainHead :=
  let next : AuditChainHead := ⟨some row.id, some row.eventHash, events.length⟩
  match row.prevEventHash with
  | none =>
      if events.length ≠ 1 then
        .error (.checkViolation
          "audit genesis insert is invalid without an authoritative tenant chain head")
      else .ok next
  | some prev =>
      if !(events.any fun event => event.eventHash = prev) ∨
          (events.countP fun event => event.prevEventHash = some prev) ≠ 1 then
        .error (.checkViolation
          "audit successor insert is invalid without an authoritative tenant chain head")
      else .ok next

/-- The head after a row is inserted: a compare and swap, when there is a head. -/
def advanceAuditChainHead (db : AuditDatabase) (row : AuditEventRow) :
    Except EmitError AuditChainHead :=
  match db.heads row.tenantId with
  | some head =>
      if head.headEventHash = row.prevEventHash then
        .ok ⟨some row.id, some row.eventHash, head.sequence + 1⟩
      else .error (.checkViolation
        "audit event predecessor does not match authoritative tenant chain head")
  | none => initialHead (db.ofTenant row.tenantId ++ [row]) row

/-- `INSERT INTO audit_events`, with its unique indexes and its trigger. -/
def insertAuditEvent (db : AuditDatabase) (row : AuditEventRow) :
    Except EmitError (List AuditWrite × AuditEventRow) :=
  match db.events.findSome? (uniqueClash row) with
  | some index => .error (.uniqueViolation index)
  | none => (advanceAuditChainHead db row).map fun head =>
      ([.event row, .head row.tenantId head], row)

section Emit

variable (sha256 : List Char → String) (hashtext : String → Int)

/-! ## Rows -/

def jsonColumn (data : JsData) : Except EmitError (Option JsonbValue) :=
  match data.column with
  | .ok column => .ok column
  | .error e => .error (.typeError e)

def requiredColumn (column : String) (data : JsData) : Except EmitError JsonbValue := do
  match ← jsonColumn data with
  | none => .error (.notNullViolation column)
  | some value => .ok value

/-- The parameters of the insert, for a normalized event. -/
def auditEventRow (event : AuditEventInput) (id createdAt : String) (prevEventHash : Option String) :
    Except EmitError AuditEventRow := do
  let inputs ← requiredColumn "inputs" event.inputs
  let outputs ← requiredColumn "outputs" event.outputs
  let beforeState ← jsonColumn event.beforeState
  let afterState ← jsonColumn event.afterState
  pure {
    id, createdAt, prevEventHash, inputs, outputs, beforeState, afterState
    tenantId := event.tenantId
    layer := event.layer
    eventType := normalizeAuditEventType event.eventType
    severity := normalizeAuditSeverity event.eventType event.severity
    actor := event.actor
    actorDisplayName := event.actorDisplayName
    actorEmail := event.actorEmail
    action := event.action
    policyVersion := event.policyVersion
    policyDecisionId := event.policyDecisionId
    policyCheckId := event.policyCheckId
    outcome := event.outcome
    eventHash := hashEvent sha256 { event, id, createdAt, prevEventHash }
    idempotencyKey := event.idempotencyKey
    hashSchemaVersion := AUDIT_HASH_SCHEMA_VERSION
    correlationId := event.correlationId
    keyId := event.keyId }

/-- A column that reads as null is left out of the event. -/
def stateData : Option JsonbValue → JsData
  | none => ⟨.undefined, trivial⟩
  | some column => if column.json.isNull then ⟨.undefined, trivial⟩ else column.data

/-- The event that a row of an older version was written for. -/
def storedEvent (hit : AuditEventRow) (tenantId : String) : AuditEventInput :=
  { tenantId
    layer := hit.layer
    eventType := some hit.eventType
    severity := some hit.severity
    actor := hit.actor
    actorDisplayName := hit.actorDisplayName
    actorEmail := hit.actorEmail
    action := hit.action
    inputs := hit.inputs.data
    outputs := hit.outputs.data
    policyVersion := hit.policyVersion
    policyDecisionId := hit.policyDecisionId
    policyCheckId := hit.policyCheckId
    outcome := hit.outcome
    beforeState := stateData hit.beforeState
    afterState := stateData hit.afterState
    correlationId := hit.correlationId
    keyId := hit.keyId }

/-- Whether a row of the same key was written for another event. -/
def conflicts (event : AuditEventInput) (key : String) (hit : AuditEventRow) :
    Except EmitError Bool :=
  if hit.hashSchemaVersion = AUDIT_HASH_SCHEMA_VERSION then
    .ok (hashEvent sha256
      { event, id := hit.id, createdAt := hit.createdAt, prevEventHash := hit.prevEventHash }
        != hit.eventHash)
  else if hit.hashSchemaVersion ≤ 3 then
    .ok (logicalPayloadFingerprint event != logicalPayloadFingerprint (storedEvent hit event.tenantId))
  else .error (.auditHashVersionUnsupported hit.hashSchemaVersion event.tenantId key)

/-! ## The transaction -/

/-- A call of `emit`, with the identifier and the time it draws. -/
structure EmitCall where
  event : AuditEventInput
  id : String
  createdAt : String

abbrev EmitProgram := Program AuditDatabase AuditWrite EmitError AuditEventRow

def emitInsert (call : EmitCall) (prevEventHash : Option String) : EmitProgram :=
  .statement
    (fun db => do
      let row ← auditEventRow sha256 call.event call.id call.createdAt prevEventHash
      insertAuditEvent db row)
    .done

def emitReadHead (call : EmitCall) : EmitProgram :=
  .statement
    (fun db => match db.heads call.event.tenantId with
      | none => .error (.auditChainHeadUnavailable call.event.tenantId)
      | some head => .ok ([], head.headEventHash))
    (emitInsert sha256 call)

/-- `ON CONFLICT (tenant_id) DO NOTHING`. -/
def emitEnsureHead (call : EmitCall) : EmitProgram :=
  .statement
    (fun db => match db.heads call.event.tenantId with
      | none => .ok ([.head call.event.tenantId {}], ())
      | some _ => .ok ([], ()))
    fun _ => emitReadHead sha256 call

/-- An event of the same key is returned, unless it is another event. -/
def findEmitted (call : EmitCall) (key : String) (db : AuditDatabase) :
    Except EmitError (List AuditWrite × Option AuditEventRow) :=
  match db.events.find? fun row =>
    row.tenantId = call.event.tenantId ∧ row.idempotencyKey = some key with
  | none => .ok ([], none)
  | some hit => do
      if ← conflicts sha256 call.event key hit then
        .error (.auditIdempotencyConflict call.event.tenantId key)
      else .ok ([], some hit)

def emitLookUp (call : EmitCall) : EmitProgram :=
  match call.event.idempotencyKey with
  | none => emitEnsureHead sha256 call
  | some key => .statement (findEmitted sha256 call key) fun
      | some hit => .done hit
      | none => emitEnsureHead sha256 call

/-- `emit`: the lock is held until the transaction ends. -/
def emit (call : EmitCall) : EmitProgram :=
  let call := { call with event := normalizeAuditEventInput call.event }
  .statement (fun _ => .ok ([.lock (hashtext call.event.tenantId)], ())) fun _ =>
    emitLookUp sha256 call

/-- Emits of any processes for any tenants, statement by statement. -/
def auditMachine : Machine (Sessions AuditDatabase AuditWrite EmitError AuditEventRow)
    (SessionLabel EmitCall) :=
  sessionMachine auditStore (emit sha256 hashtext)

end Emit

end BrainCore.Audit
