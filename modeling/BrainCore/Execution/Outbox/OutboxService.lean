import BrainCore.Execution.Executions
import Mathlib.Data.List.Sort

/-!
# The execution outbox

`services/execution/src/outbox/OutboxService.ts`: a row is enqueued with the
hand-off of an intent, claimed by a worker and marked by it.  The `mark`
statements are keyed on the row id alone.
-/

namespace BrainCore.Execution

open BrainCore.Foundation BrainCore.Policy

inductive OutboxStatus where
  | pending
  | dispatching
  | dispatched
  | settled
  | failed
  | reconciling
deriving DecidableEq

structure OutboxRow where
  id : String
  paymentIntentId : String
  executionId : Option String := none
  rail : String
  idempotencyKey : String
  payload : List (String × Json)
  status : OutboxStatus := .pending
  attemptCount : Nat := 0
  lastError : Option String := none
  lastAttemptAt : Option Instant := none
  railReceipt : Json := .null
  auditBeforeId : String
  auditAfterId : Option String := none
  reservationId : Option String
  lockedAt : Option Instant := none
  lockedBy : Option String := none
  createdAt : Instant
  dispatchedAt : Option Instant := none
  completedAt : Option Instant := none

abbrev Outbox := Table OutboxRow.id

def MAX_DISPATCH_ATTEMPTS : Nat := 3

def MAX_TOTAL_DISPATCH_ATTEMPTS : Nat := 12

/-- `BACKOFF_ELAPSED_SQL`: thirty seconds, doubled with each attempt, at most four hundred and
eighty. -/
def backoffElapsed (row : OutboxRow) (now : Instant) : Bool :=
  match row.lastAttemptAt with
  | none => true
  | some last => last + min (15000 * 2 ^ row.attemptCount) 480000 ≤ now

/-- The receipt and the execution id a settlement resumes from. -/
def OutboxRow.storedReceipt (row : OutboxRow) : Option (String × Json) :=
  match row.railReceipt, row.executionId with
  | .null, _ | _, none => none
  | receipt, some executionId => some (executionId, receipt)

namespace Outbox

/-- The row with this idempotency key. -/
def findByIdempotencyKey (outbox : Outbox) (idempotencyKey : String) : Option OutboxRow :=
  outbox.rows.find? fun row => row.idempotencyKey = idempotencyKey

/-- Idempotent on the key: the id of the row, and whether it is new. -/
def enqueue (outbox : Outbox) (row : OutboxRow) :
    Except ServiceError (Outbox × String × Bool) :=
  match outbox.findByIdempotencyKey row.idempotencyKey with
  | some existing => .ok (outbox, existing.id, false)
  | none =>
      match outbox.insert? row with
      | none => .error ⟨"internal_server_error", "duplicate key value violates unique constraint"⟩
      | some next => .ok (next, row.id, true)

def claimable (now : Instant) (row : OutboxRow) : Bool :=
  (row.status = .pending || row.status = .reconciling) &&
    row.attemptCount < MAX_TOTAL_DISPATCH_ATTEMPTS && backoffElapsed row now

def claimed (workerId : String) (now : Instant) (row : OutboxRow) : OutboxRow :=
  { row with status := .dispatching, lockedAt := some now, lockedBy := some workerId }

/-- The rows a claim takes; `skipped` are those another transaction has locked. -/
def picked (outbox : Outbox) (limit : Nat) (now : Instant) (skipped : List String) :
    List OutboxRow :=
  ((outbox.rows.filter fun row => claimable now row && !skipped.contains row.id).insertionSort
    fun first second => first.createdAt ≤ second.createdAt).take limit

def claimNext (outbox : Outbox) (workerId : String) (limit : Nat) (now : Instant)
    (skipped : List String) : Outbox × List OutboxRow :=
  let rows := outbox.picked limit now skipped
  (outbox.updateWhere (fun row => row.id ∈ rows.map (·.id)) (claimed workerId now) fun _ => rfl,
    rows.map (claimed workerId now))

/-- The lock is older than `staleSeconds`. -/
def isStale (staleSeconds : Nat) (now : Instant) (row : OutboxRow) : Bool :=
  (row.status = .dispatching || row.status = .dispatched) &&
    row.lockedAt.any fun lockedAt => lockedAt + staleSeconds * 1000 < now

def reclaimed (row : OutboxRow) : OutboxRow :=
  { row with status := .pending, lockedAt := none, lockedBy := none }

/-- The stale rows go back to `pending`; each is returned with its prior status. -/
def reclaimStale (outbox : Outbox) (staleSeconds : Nat) (now : Instant) (skipped : List String) :
    Outbox × List (OutboxRow × OutboxStatus) :=
  let stale := outbox.rows.filter fun row => isStale staleSeconds now row && !skipped.contains row.id
  (outbox.updateWhere (fun row => isStale staleSeconds now row && !skipped.contains row.id) reclaimed
      fun _ => rfl,
    stale.map fun row => (reclaimed row, row.status))

def markDispatched (outbox : Outbox) (id : String) (railReceipt : Json) (auditAfterId : String)
    (executionId : String) (now : Instant) : Outbox :=
  outbox.update id (fun row => { row with
    status := .dispatched, railReceipt, auditAfterId := some auditAfterId
    executionId := some executionId, dispatchedAt := some now }) fun _ => rfl

def markSettled (outbox : Outbox) (id : String) (now : Instant) : Outbox :=
  outbox.update id (fun row => { row with status := .settled, completedAt := some now }) fun _ => rfl

/-- The row after one more failed attempt. -/
def failedAttempt (error : String) (now : Instant) (row : OutboxRow) : OutboxRow :=
  { row with
    attemptCount := row.attemptCount + 1
    lastError := some error
    lastAttemptAt := some now
    status := if MAX_DISPATCH_ATTEMPTS ≤ row.attemptCount + 1 then .reconciling else .pending
    lockedAt := none
    lockedBy := none }

/-- The new attempt count; a missing row throws. -/
def markFailed (outbox : Outbox) (id error : String) (now : Instant) :
    Except ServiceError (Outbox × Nat) :=
  match outbox.find? id with
  | none => .error ⟨"internal_server_error", "execution_outbox markFailed: no row " ++ id⟩
  | some row =>
      .ok (outbox.update id (failedAttempt error now) fun _ => rfl, row.attemptCount + 1)

def markPermanentlyFailed (outbox : Outbox) (id error auditAfterId : String) (now : Instant) :
    Outbox :=
  outbox.update id (fun row => { row with
    status := .failed, attemptCount := row.attemptCount + 1, lastError := some error
    auditAfterId := some auditAfterId, lastAttemptAt := some now, completedAt := some now
    lockedAt := none, lockedBy := none }) fun _ => rfl

def ambiguousAttempt (error : String) (now : Instant) (row : OutboxRow) : OutboxRow :=
  { row with
    status := .reconciling, attemptCount := row.attemptCount + 1, lastError := some error
    lastAttemptAt := some now, lockedAt := none, lockedBy := none }

def markReconciling (outbox : Outbox) (id error : String) (now : Instant) :
    Except ServiceError (Outbox × Nat) :=
  match outbox.find? id with
  | none => .error ⟨"internal_server_error", "execution_outbox markReconciling: no row " ++ id⟩
  | some row =>
      .ok (outbox.update id (ambiguousAttempt error now) fun _ => rfl, row.attemptCount + 1)

end Outbox

end BrainCore.Execution
