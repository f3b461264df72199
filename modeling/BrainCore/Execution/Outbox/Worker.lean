import BrainCore.Execution.Environment
import BrainCore.Foundation.Parties

/-!
# The worker of the execution outbox

`services/execution/src/outbox/worker.ts`: rows are claimed, their rail is
called, and what it answers decides how the row and its intent end.  Any number
of workers run, each may stop at any step, and rows whose lock is too old are
put back.  The transactions of the payment-intent service are its own programs.
-/

namespace BrainCore.Execution

open BrainCore.Foundation BrainCore.Gate BrainCore.Ledger BrainCore.Policy

/-! ## Receipts -/

inductive RailReceiptKey where
  | ach
  | wire
  | erp
  | onchain
deriving DecidableEq

def requiredFields : RailReceiptKey → List String
  | .ach => ["ach_trace"]
  | .wire => ["omad", "imad"]
  | .erp => ["erp_record_id"]
  | .onchain => ["tx_hash", "block_number"]

def railKeyForActionType (actionType : String) : Option RailReceiptKey :=
  if "ach".toList.isPrefixOf actionType.toList then some .ach
  else if actionType = "wire" then some .wire
  else if actionType = "erp_writeback" then some .erp
  else if actionType = "onchain_transfer" then some .onchain
  else none

/-- `v === undefined || v === null || v === ""`. -/
def isMissing : Option Json → Bool
  | none | some .null => true
  | some (.str value) => value.isEmpty
  | some _ => false

/-- The fields that are missing, and a block number that is not a number. -/
def validateRailReceipt (railKey : Option RailReceiptKey) (receipt : Json) : List String :=
  match railKey with
  | none => []
  | some key =>
      let missing := (requiredFields key).filter fun name => isMissing (receipt.field? name)
      match key, receipt.field? "block_number" with
      | .onchain, some value =>
          if value.isNumber then missing else missing ++ ["block_number(number)"]
      | _, _ => missing

/-! ## Errors of a rail -/

/-- What is thrown around the call of a rail, with the details of a Brain error. -/
structure DispatchError where
  message : String
  details : Option (List (String × Json)) := none

/-- `details["permanent_failure"] === true`. -/
def isPermanent (details : List (String × Json)) : Bool :=
  match details.lookup "permanent_failure" with
  | some (.bool tagged) => tagged
  | _ => false

def permanentFailureReason (error : DispatchError) : Option String :=
  match error.details with
  | none => none
  | some details =>
      if isPermanent details then
        match details.lookup "decoded_revert" with
        | some (.str decoded) =>
            if decoded.isEmpty then some error.message
            else some ("deterministic_revert " ++ decoded ++ ": " ++ error.message)
        | _ => some error.message
      else none

/-! ## One row -/

/-- What the rail is handed. -/
structure DispatchRequest where
  proposalId : String
  executionId : String
  action : List (String × Json)
  idempotencyKey : String

/-- `{ ...payload, ...credentials }`. -/
def withCredentials (payload credentials : List (String × Json)) : List (String × Json) :=
  payload.filter (fun entry => (credentials.lookup entry.1).isNone) ++ credentials

/-- Where `processClaimedRow` stands; a phase says what comes next. -/
inductive RowPhase where
  | claimed
  | dispatching (executionId : String)
  | answered (executionId : String) (receipt : List (String × Json))
  | audited (executionId : String) (receipt : List (String × Json)) (afterId : String)
  | settling (executionId : String) (receipt : Json)
  | settled
  /-- `markFailed` is next. -/
  | failing (message : String)
  | declined (reason : String)
  | failingIntent (reason afterId : String)
  | failedIntent (reason afterId : String)
  /-- `markReconciling` is next. -/
  | ambiguous (reason : String)
  | ended

def RowPhase.live : RowPhase → Bool
  | .ended => false
  | _ => true

/-- A run of `processClaimedRow` on the row as it was claimed, and as history what the rail was
handed and whether it answered with a receipt. -/
structure RowCall where
  workerId : String
  row : OutboxRow
  phase : RowPhase := .claimed
  request : Option DispatchRequest := none
  returned : Bool := false

/-- A row that was just claimed. -/
def RowCall.start (workerId : String) (row : OutboxRow) : RowCall := { workerId, row }

inductive RowStep where
  /-- The verdict of `beforeDispatch`, the rail that was looked up and the credentials for it. -/
  | prepare (executionId : String) (blocked : Option String)
      (credentials : Except DispatchError (Option (List (String × Json))))
  | railAnswers (answer : Except DispatchError (List (String × Json)))
  | emit (eventId : String)
  /-- A transaction of the payment-intent service; it may commit without the caller being told. -/
  | transact (now : Instant) (lost : Option String)
  /-- The transaction is rolled back. -/
  | refuse (message : String)
  | mark (now : Instant)
  /-- The worker stops, or something throws that is not caught. -/
  | stop

namespace RowCall

variable (call : RowCall)

/-- The phase after an error of the rail. -/
def rejected (error : DispatchError) : RowCall :=
  match permanentFailureReason error with
  | some reason => { call with phase := .declined reason }
  | none => { call with phase := .failing error.message }

def prepare (executionId : String) (blocked : Option String)
    (credentials : Except DispatchError (Option (List (String × Json)))) : RowCall :=
  if call.row.auditBeforeId.isEmpty then
    { call with
      phase := .ambiguous
        "§6 invariant violated: outbox row has no audit_before_id; refusing to dispatch" }
  else
    match call.row.storedReceipt, blocked, credentials with
    | some (executionId, receipt), _, _ => { call with phase := .settling executionId receipt }
    | none, some reason, _ =>
        { call with phase := .ambiguous ("dispatch_guard_blocked: " ++ reason) }
    | none, none, .error error => call.rejected error
    | none, none, .ok credentials =>
        { call with
          phase := .dispatching executionId
          request := some
            { proposalId := call.row.paymentIntentId
              executionId
              action := match credentials with
                | none => call.row.payload
                | some credentials => withCredentials call.row.payload credentials
              idempotencyKey := call.row.idempotencyKey } }

/-- `typeof row.payload.kind === "string" ? row.payload.kind : ""`. -/
def actionKind : String :=
  match call.row.payload.lookup "kind" with
  | some (.str kind) => kind
  | _ => ""

/-- What a receipt of this row lacks. -/
def missing (receipt : List (String × Json)) : List String :=
  validateRailReceipt (railKeyForActionType call.actionKind) (.obj receipt)

def receive (executionId : String) (receipt : List (String × Json)) : RowCall :=
  match call.missing receipt with
  | [] => { call with phase := .answered executionId receipt, returned := true }
  | missing =>
      { call with
        phase := .ambiguous ("invalid_rail_receipt: missing " ++ ", ".intercalate missing)
        returned := true }

def completion (executionId : String) (receipt : Json) : CompleteExecution where
  paymentIntentId := call.row.paymentIntentId
  executionId := executionId
  rail := call.row.rail
  railReceipt := receipt
  idempotencyKey := call.row.idempotencyKey
  reservationId := call.row.reservationId

def failure : FailExecution := ⟨call.row.paymentIntentId, call.row.reservationId⟩

/-- The phase after a transaction that was not known to commit. -/
def thrown (message : String) : RowPhase :=
  match call.phase with
  | .failingIntent reason _ => .ambiguous (reason ++ "; fail_transition_failed: " ++ message)
  | _ => .failing ("settle_failed: " ++ message)

/-- The phase after a transaction that committed. -/
def committed : RowPhase :=
  match call.phase with
  | .failingIntent reason afterId => .failedIntent reason afterId
  | _ => .settled

/-- The transaction of this phase. -/
def transaction (recordsSpend : Bool) (now : Instant) : Option (Transact Bool) :=
  match call.phase with
  | .settling executionId receipt =>
      some (completeExecution recordsSpend (call.completion executionId receipt) now)
  | .failingIntent _ _ => some (failExecution call.failure now)
  | _ => none

def transact (recordsSpend : Bool) (db : Database) (now : Instant) (lost : Option String) :
    Option (Database × RowCall) :=
  match call.transaction recordsSpend now with
  | none => none
  | some body =>
      match body.runAlone database db, lost with
      | .error error, _ => some (db, { call with phase := call.thrown error.message })
      | .ok (next, _), some message => some (next, { call with phase := call.thrown message })
      | .ok (next, _), none => some (next, { call with phase := call.committed })

/-- A statement of the outbox; when it throws, the worker stops. -/
def marked (db : Database) (outcome : Except ServiceError (Outbox × Nat)) : Database × RowCall :=
  match outcome with
  | .error _ => (db, { call with phase := .ended })
  | .ok (outbox, _) => ({ db with outbox }, { call with phase := .ended })

def mark (db : Database) (now : Instant) : Option (Database × RowCall) :=
  let id := call.row.id
  match call.phase with
  | .audited executionId receipt afterId =>
      some (
        { db with outbox := db.outbox.markDispatched id (.obj receipt) afterId executionId now },
        { call with phase := .settling executionId (.obj receipt) })
  | .settled =>
      some ({ db with outbox := db.outbox.markSettled id now }, { call with phase := .ended })
  | .failedIntent reason afterId =>
      some ({ db with outbox := db.outbox.markPermanentlyFailed id reason afterId now },
        { call with phase := .ended })
  | .failing message => some (call.marked db (db.outbox.markFailed id message now))
  | .ambiguous reason => some (call.marked db (db.outbox.markReconciling id reason now))
  | _ => none

/-- `processClaimedRow`, one step of it. -/
def advance (recordsSpend : Bool) (db : Database) : RowStep → Option (Database × RowCall)
  | .prepare executionId blocked credentials =>
      match call.phase with
      | .claimed => some (db, call.prepare executionId blocked credentials)
      | _ => none
  | .railAnswers answer =>
      match call.phase, answer with
      | .dispatching _, .error error => some (db, call.rejected error)
      | .dispatching executionId, .ok receipt => some (db, call.receive executionId receipt)
      | _, _ => none
  | .emit eventId =>
      match call.phase with
      | .answered executionId receipt =>
          some (db, { call with phase := .audited executionId receipt eventId })
      | .declined reason => some (db, { call with phase := .failingIntent reason eventId })
      | _ => none
  | .transact now lost => call.transact recordsSpend db now lost
  | .refuse message =>
      (call.transaction recordsSpend 0).map fun _ =>
        (db, { call with phase := call.thrown message })
  | .mark now => call.mark db now
  | .stop => if call.phase.live then some (db, { call with phase := .ended }) else none

end RowCall

/-! ## All workers -/

/-- The database, the calls of all workers, and as history the ids of the rows that were put
back. -/
structure WorkerWorld where
  db : Database := {}
  calls : List RowCall := []
  reclaims : List String := []

inductive WorkerLabel where
  | reclaim (staleSeconds : Nat) (now : Instant) (skipped : List String)
  | claim (workerId : String) (limit : Nat) (now : Instant) (skipped : List String)
  | advance (i : Nat) (step : RowStep)
  /-- A commit of another component. -/
  | commit (writes : List Write)

/-- A row as `enqueue` inserts it. -/
def OutboxRow.isFresh (row : OutboxRow) : Bool :=
  row.status = .pending && row.attemptCount = 0 && row.railReceipt.isNull &&
    row.executionId.isNone && row.lockedAt.isNone

/-- Only the worker's transactions end a dispatched intent. -/
def isOutcome (status : PaymentIntentState) : Bool := status = .executed || status = .failed

/-- What other components write: intents that they create or move, and new outbox rows. -/
def othersWrite (db : Database) : Write → Bool
  | .intent row =>
      match db.intents.find? row.id with
      | none => !isOutcome row.status
      | some old => row.status = old.status ||
          isValidPaymentIntentTransition old.status row.status && !isOutcome row.status
  | .outbox row => row.isFresh && (db.outbox.find? row.id).isNone
  | .execution _ => false
  | _ => true

namespace WorkerWorld

/-- The call at place `i` goes on. -/
def advanced (s : WorkerWorld) (i : Nat) (outcome : Database × RowCall) : WorkerWorld :=
  { s with db := outcome.1, calls := s.calls.set i outcome.2 }

def step (recordsSpend : Bool) (s : WorkerWorld) : WorkerLabel → Option WorkerWorld
  | .reclaim staleSeconds now skipped =>
      let (outbox, reclaimed) := s.db.outbox.reclaimStale staleSeconds now skipped
      some { s with
        db := { s.db with outbox }, reclaims := s.reclaims ++ reclaimed.map (·.1.id) }
  | .claim workerId limit now skipped =>
      let (outbox, rows) := s.db.outbox.claimNext workerId limit now skipped
      some { s with
        db := { s.db with outbox }, calls := s.calls ++ rows.map (RowCall.start workerId) }
  | .advance i step => do
      let call ← s.calls[i]?
      let outcome ← call.advance recordsSpend s.db step
      some (s.advanced i outcome)
  | .commit writes =>
      if writes.all (othersWrite s.db) then some { s with db := database.view s.db writes }
      else none

end WorkerWorld

def outboxWorkers (recordsSpend : Bool) : Machine WorkerWorld WorkerLabel :=
  ⟨WorkerWorld.step recordsSpend⟩

end BrainCore.Execution
