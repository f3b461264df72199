import BrainCore.Execution.Outbox.OutboxService
import BrainCore.Foundation.ScriptRuns
import BrainCore.Ledger.Reservations
import BrainCore.Policy.DuplicateDetector
import BrainCore.Policy.Service

/-!
# The tables of the money path

The tables that the transactions of the payment-intent service and of the outbox
read and write, those of a single tenant, and the rows they write.  Two writes
clash when they are of one row, or of two rows that a unique index keeps apart.
-/

namespace BrainCore.Execution

open BrainCore.Foundation BrainCore.Gate BrainCore.Ledger BrainCore.Policy

/-- A row of `policy_decisions`. -/
structure PolicyDecisionRow where
  id : String
  subjectId : String
  outcome : GateOutcome
  matchedRuleId : Option String
  requiredApprovers : List String

abbrev PolicyDecisions := Table PolicyDecisionRow.id

structure Database where
  intents : PaymentIntents := Table.empty
  outbox : Outbox := Table.empty
  executions : Executions := Table.empty
  reservations : Reservations := Table.empty
  accounts : Accounts := Table.empty
  balances : Balances := Table.empty
  counters : SpendCounters := Table.empty
  decisions : PolicyDecisions := Table.empty
  facts : DuplicateFacts := {}
  activePolicy : Option ActivePolicy := none

/-- A row that a statement writes; a row that it locks is written as it is. -/
inductive Write where
  | intent (row : PaymentIntentRow)
  | outbox (row : OutboxRow)
  | execution (row : ExecutionRow)
  | reservation (row : ReservationRow)
  | account (row : AccountRow)
  | balance (row : BalanceRow)
  | counter (row : SpendCounter)
  | decision (row : PolicyDecisionRow)
  | facts (known : DuplicateFacts)
  | policy (active : Option ActivePolicy)

namespace Write

def apply (db : Database) : Write → Database
  | .intent row => { db with intents := db.intents.put row }
  | .outbox row => { db with outbox := db.outbox.put row }
  | .execution row => { db with executions := db.executions.put row }
  | .reservation row => { db with reservations := db.reservations.put row }
  | .account row => { db with accounts := db.accounts.put row }
  | .balance row => { db with balances := db.balances.put row }
  | .counter row => { db with counters := db.counters.put row }
  | .decision row => { db with decisions := db.decisions.put row }
  | .facts known => { db with facts := known }
  | .policy active => { db with activePolicy := active }

/-- The unique index on the dedup key leaves rows without one alone. -/
def sameDedupKey (first second : PaymentIntentRow) : Bool :=
  first.proposalDedupKey.isSome && first.proposalDedupKey = second.proposalDedupKey

def clash : Write → Write → Bool
  | .intent first, .intent second => first.id = second.id || sameDedupKey first second
  | .outbox first, .outbox second =>
      first.id = second.id || first.idempotencyKey = second.idempotencyKey
  | .execution first, .execution second =>
      first.id = second.id || first.idempotencyKey = second.idempotencyKey
  | .reservation first, .reservation second => first.id = second.id
  | .account first, .account second => first.id = second.id
  | .balance first, .balance second => first.key = second.key
  | .counter first, .counter second => first.key = second.key
  | .decision first, .decision second => first.id = second.id
  | .facts _, .facts _ | .policy _, .policy _ => true
  | _, _ => false

theorem sameDedupKey_symm (first second : PaymentIntentRow) :
    sameDedupKey first second = sameDedupKey second first := by
  unfold sameDedupKey
  by_cases h : first.proposalDedupKey = second.proposalDedupKey
  · simp [h]
  · simp [h, Ne.symm h]

theorem clash_symm (first second : Write) : clash first second = clash second first := by
  cases first <;> cases second <;>
    simp only [clash, sameDedupKey_symm, @eq_comm String, @eq_comm CounterKey,
      @eq_comm (String × Instant)]

/-- The intent that is written. -/
def intent? : Write → Option PaymentIntentRow
  | .intent row => some row
  | _ => none

/-- The outbox row that is written. -/
def outbox? : Write → Option OutboxRow
  | .outbox row => some row
  | _ => none

/-- The policy decision that is written. -/
def decision? : Write → Option PolicyDecisionRow
  | .decision row => some row
  | _ => none

end Write

/-- The database of the money path. -/
def database : Store Database Write := ⟨Write.apply, Write.clash⟩

/-!
## The statements of the money path

Each statement of the repositories as one statement of a transaction, and the
helpers that run several of them: `services/ledger/src/repository`,
`services/execution/src/repository.ts`, the outbox's `enqueue` and the policy
service's `recordAgentSpend`.  A statement that takes row locks writes the rows
as they are.
-/

abbrev Transact (α : Type) := Program Database Write ServiceError α

/-- What the database driver throws. -/
def databaseError (message : String) : ServiceError := ⟨"internal_server_error", message⟩

/-- The unique violation of a concurrent insert. -/
def uniqueViolation : ServiceError := databaseError "duplicate key value violates unique constraint"

def assertPaymentIntentTransition (source target : PaymentIntentState) :
    Except ServiceError Unit :=
  if isValidPaymentIntentTransition source target then .ok ()
  else .error ⟨"payment_intent_invalid_state",
    "invalid PaymentIntent transition " ++ source.text ++ " → " ++ target.text⟩

/-! ## Payment intents -/

namespace LedgerPaymentIntents

def findById (id : String) : Transact (Option PaymentIntentRow) :=
  .select fun db => db.intents.find? id

def findByDedupKey (dedupKey : String) : Transact (Option PaymentIntentRow) :=
  .select fun db => db.intents.findByDedupKey dedupKey

def insert (row : PaymentIntentRow) : Transact PaymentIntentRow :=
  .execute fun db =>
    match db.intents.insert row with
    | none => .error uniqueViolation
    | some _ => .ok ([.intent row], row)

def transition (id : String) (source target : PaymentIntentState) (now : Instant) :
    Transact (Option PaymentIntentRow) :=
  .execute fun db =>
    match db.intents.transitioned id source target now with
    | none => .ok ([], none)
    | some row => .ok ([.intent row], some row)

def appendApprovalId (id approvalId : String) (now : Instant) : Transact Unit :=
  .execute fun db =>
    match db.intents.find? id with
    | none => .ok ([], ())
    | some row =>
        if approvalId ∈ row.approvalIds then .ok ([], ())
        else
          let appended :=
            { row with approvalIds := row.approvalIds ++ [approvalId], updatedAt := now }
          .ok ([.intent appended], ())

def appendExecutionReceiptId (id executionId : String) (now : Instant) : Transact Unit :=
  .execute fun db =>
    match db.intents.find? id with
    | none => .ok ([], ())
    | some row => .ok ([.intent (PaymentIntents.withReceiptId executionId now row)], ())

/-- The bulk update takes its rows one after the other and looks at each again once it has the
row's lock. -/
def pauseEach (agentId : String) (now : Instant) : List String → List String → Transact (List String)
  | [], paused => pure paused
  | id :: rest, paused => do
      let moved ← .execute fun db =>
        match db.intents.transitioned id .approved .paused now with
        | none => .ok ([], false)
        | some row =>
            if row.createdByAgentId = some agentId then .ok ([.intent row], true) else .ok ([], false)
      pauseEach agentId now rest (if moved then paused ++ [id] else paused)

def pauseApprovedByAgent (agentId : String) (now : Instant) : Transact (List String) := do
  let ids ← .select fun db =>
    (db.intents.rows.filter fun row =>
      row.createdByAgentId = some agentId && row.status = .approved).map (·.id)
  pauseEach agentId now ids []

end LedgerPaymentIntents

/-! ## Executions -/

def insertExecution (row : ExecutionRow) : Transact Unit :=
  .execute fun db =>
    match db.executions.insertExecution row with
    | .error e => .error e
    | .ok row => .ok ([.execution row], ())

def setExecutionReceipt (id : String) (receipt : Json) : Transact Unit :=
  .execute fun db =>
    match db.executions.setExecutionReceipt id receipt with
    | none => .ok ([], ())
    | some row => .ok ([.execution row], ())

def transitionExecution (id : String) (source target : ExecutionState) (now : Instant) :
    Transact Unit :=
  .execute fun db =>
    match db.executions.transitionExecution id source target now with
    | .error e => .error e
    | .ok row => .ok ([.execution row], ())

/-! ## Reservations -/

namespace LedgerReservations

/-- `SELECT … FOR UPDATE` of the account. -/
def lockAccount (accountId : String) : Transact (Option AccountRow) :=
  .execute fun db =>
    match db.accounts.find? accountId with
    | none => .ok ([], none)
    | some account => .ok ([.account account], some account)

/-- `SELECT … ORDER BY as_of DESC LIMIT 1 FOR UPDATE` of its balances. -/
def lockLatestBalance (accountId : String) : Transact (Option BalanceRow) :=
  .execute fun db =>
    match latestBalance db.balances accountId with
    | none => .ok ([], none)
    | some balance => .ok ([.balance balance], some balance)

def sumActiveReservations (accountId : String) : Transact String :=
  .select fun db => db.reservations.sumActiveReservations accountId

def insertReservation (row : ReservationRow) : Transact ReservationRow :=
  .execute fun db =>
    match db.reservations.insert? row with
    | none => .error uniqueViolation
    | some _ => .ok ([.reservation row], row)

/-- The amount and what is reserved already, against what is available. -/
def covers (available : Numeric8) (input : ReservationRow) (reserved : String) :
    Except String (Except ReserveRefusal Unit) := do
  let required ← ReservationDecimal.addDecimalString input.amount.text.text reserved
  let order ← ReservationDecimal.cmpDecimal available.text.text required
  if order < 0 then
    pure (.error { reason := "insufficient_balance"
                   availableBalance := some available.text.text
                   reserved := some reserved
                   required := some required })
  else pure (.ok ())

/-- The refusal, or the reservation that was inserted. -/
def reserveIfAvailable (input : ReservationRow) :
    Transact (Except ReserveRefusal ReservationRow) := do
  let account ← lockAccount input.accountId
  match account with
  | none => pure (.error { reason := "account_not_found" })
  | some account =>
      if account.status ≠ "active" then pure (.error { reason := "account_inactive" })
      else do
        let latest ← lockLatestBalance input.accountId
        if (snapshot account latest).1 ≠ input.currency then
          pure (.error { reason := "currency_mismatch" })
        else
          match (snapshot account latest).2 with
          | none => pure (.error { reason := "available_balance_missing" })
          | some available => do
              let reserved ← sumActiveReservations input.accountId
              match covers available input reserved with
              | .error message => .throw (databaseError message)
              | .ok (.error refusal) => pure (.error refusal)
              | .ok (.ok ()) => do
                  let row ← insertReservation input
                  pure (.ok row)

def transition (id : String) (target : ReservationStatus) : Transact Unit :=
  .execute fun db =>
    match db.reservations.transitioned id target with
    | none => .ok ([], ())
    | some row => .ok ([.reservation row], ())

def consume (id : String) : Transact Unit := transition id .consumed

def release (id : String) : Transact Unit := transition id .released

end LedgerReservations

/-! ## The outbox -/

/-- `INSERT … ON CONFLICT (tenant_id, idempotency_key) DO NOTHING`. -/
def insertOutbox (row : OutboxRow) : Transact (Option String) :=
  .execute fun db =>
    match db.outbox.findByIdempotencyKey row.idempotencyKey with
    | some _ => .ok ([], none)
    | none =>
        match db.outbox.insert? row with
        | none => .error uniqueViolation
        | some _ => .ok ([.outbox row], some row.id)

/-- The id of the row of the idempotency key, and whether it is new. -/
def enqueue (row : OutboxRow) : Transact (String × Bool) := do
  let inserted ← insertOutbox row
  match inserted with
  | some id => pure (id, true)
  | none => do
      let existing ← .select fun db => db.outbox.findByIdempotencyKey row.idempotencyKey
      match existing with
      | none =>
          .throw (databaseError "execution_outbox enqueue: conflict but no existing row found")
      | some existing => pure (existing.id, false)

/-! ## The policy service -/

/-- The insert into `policy_decisions`. -/
def insertPolicyDecision (row : PolicyDecisionRow) : Transact Unit :=
  .execute fun db =>
    match db.decisions.insert? row with
    | none => .error uniqueViolation
    | some _ => .ok ([.decision row], ())

def incrementSpendCounter (agentId window currency : String) (amount : Numeric8) (now : Instant) :
    Transact Unit :=
  .execute fun db =>
    match incrementedCounter db.counters agentId window currency amount now with
    | none => .error (databaseError "numeric field overflow")
    | some row => .ok ([.counter row], ())

def incrementEach (agentId currency : String) (amount : Numeric8) (now : Instant) :
    List String → Transact Unit
  | [] => pure ()
  | window :: rest => do
      incrementSpendCounter agentId window currency amount now
      incrementEach agentId currency amount now rest

/-- The counters of the windows that the active policy refers to. -/
def recordAgentSpend (agentId : String) (amount : Numeric8) (currency : String) (now : Instant) :
    Transact Unit := do
  let active ← .select (·.activePolicy)
  match active with
  | none => pure ()
  | some active => incrementEach agentId currency amount now (spendWindows active.content)

end BrainCore.Execution
