import BrainCore.Execution.Database
import BrainCore.Gate.Gate
import BrainCore.Members.AuthorizeApproval

/-!
# Settling a dispatched intent

The transactions of `completeExecution` and `failExecution` of
`services/execution/src/payment-intents/PaymentIntentService.ts`.  Each says
whether it moved the intent, in which case the caller emits its event.
-/

namespace BrainCore.Execution

open BrainCore.Foundation BrainCore.Gate BrainCore.Ledger BrainCore.Policy

structure CompleteExecution where
  paymentIntentId : String
  executionId : String
  rail : String
  railReceipt : Json
  idempotencyKey : String
  reservationId : Option String := none

structure FailExecution where
  paymentIntentId : String
  reservationId : Option String := none

/-- `current.policy_decision_id === null || current.policy_decision_id.length === 0`. -/
def lacksDecision (row : PaymentIntentRow) : Bool :=
  row.policyDecisionId.all (·.isEmpty)

/-- What the transition must find; otherwise the transaction fails. -/
def requireMoved (moved : Option PaymentIntentRow) (message : String) : Transact Unit :=
  match moved with
  | none => .throw ⟨"payment_intent_invalid_state", message⟩
  | some _ => pure ()

/-- `if (reservationId !== undefined && reservationId !== null)`. -/
def withReservation (reservationId : Option String) (settle : String → Transact Unit) :
    Transact Unit :=
  match reservationId with
  | none => pure ()
  | some id => settle id

/-- The writes behind the checks, on an intent that was read as `current`. -/
def settleExecuted (recordsSpend : Bool) (args : CompleteExecution) (now : Instant)
    (current : PaymentIntentRow) : Transact Unit := do
  insertExecution
    { id := args.executionId, proposalId := args.paymentIntentId, rail := args.rail
      status := .dispatched, idempotencyKey := args.idempotencyKey }
  setExecutionReceipt args.executionId args.railReceipt
  transitionExecution args.executionId .dispatched .inFlight now
  .ofExcept (assertPaymentIntentTransition .dispatching .executed)
  let executed ← LedgerPaymentIntents.transition args.paymentIntentId .dispatching .executed now
  requireMoved executed ("completeExecution: intent " ++ args.paymentIntentId ++
    " moved before executed transition")
  transitionExecution args.executionId .inFlight .completed now
  LedgerPaymentIntents.appendExecutionReceiptId args.paymentIntentId args.executionId now
  withReservation args.reservationId LedgerReservations.consume
  match recordsSpend, current.createdByAgentId with
  | true, some agentId => recordAgentSpend agentId current.amount current.currency now
  | _, _ => pure ()

/-- `completeExecution`; an intent that is executed already is left alone. -/
def completeExecution (recordsSpend : Bool) (args : CompleteExecution) (now : Instant) :
    Transact Bool := do
  let current ← LedgerPaymentIntents.findById args.paymentIntentId
  match current with
  | none =>
      .throw ⟨"payment_intent_not_found",
        "completeExecution: intent " ++ args.paymentIntentId ++ " not found"⟩
  | some current =>
      if current.status = .executed then pure false
      else if current.status ≠ .dispatching then
        .throw ⟨"payment_intent_invalid_state",
          "completeExecution: intent " ++ args.paymentIntentId ++ " in '" ++ current.status.text ++
            "', expected 'dispatching'"⟩
      else if lacksDecision current then
        .throw ⟨"payment_intent_invalid_state",
          "completeExecution: intent " ++ args.paymentIntentId ++
            " has no policy_decision_id; §6 gate did not run"⟩
      else do
        settleExecuted recordsSpend args now current
        pure true

/-- `failExecution`. -/
def failExecution (args : FailExecution) (now : Instant) : Transact Bool := do
  .ofExcept (assertPaymentIntentTransition .dispatching .failed)
  let failed ← LedgerPaymentIntents.transition args.paymentIntentId .dispatching .failed now
  requireMoved failed ("failExecution: intent " ++ args.paymentIntentId ++
    " moved before failed transition")
  withReservation args.reservationId LedgerReservations.release
  pure true

/-!
## What the payment-intent service calls

The answers that a call of the payment-intent service gets from outside the
tables, one environment for each of its steps, and what it runs more than once:
audit events, the policy service and the pre-execution gate.
-/

open BrainCore.Foundation BrainCore.Gate BrainCore.Ledger BrainCore.Members BrainCore.Policy

  BrainCore.Shared

/-! ## Identifiers -/

/-- Crockford's base 32. -/
def ulidAlphabet : List Char := "0123456789ABCDEFGHJKMNPQRSTVWXYZ".toList

structure Ulid where
  chars : List Char
  alphabet : ∀ c ∈ chars, c ∈ ulidAlphabet

def brainId (kind : String) (ulid : Ulid) : String := kind ++ "_" ++ String.ofList ulid.chars

def newPaymentIntentId (ulid : Ulid) : String := brainId "pi" ulid

def newPolicyDecisionId (ulid : Ulid) : String := brainId "pd" ulid

def newLedgerReservationId (ulid : Ulid) : String := brainId "rsv" ulid

def newExecutionOutboxId (ulid : Ulid) : String := brainId "exo" ulid

/-! ## One step's answers -/

structure ServiceCallContext where
  tenantId : String
  actor : String
  principalType : Option PrincipalType := none

structure OnchainDispatchParams where
  smartAccount : String
  holder : String
  target : String
  data : String
  value : String
  policyVersion : String

/-- What the dependencies of the service answer in one step. -/
structure Environment where
  now : Instant
  ulid : Ulid
  /-- The id of the event that `audit.emit` writes. -/
  audit : Except ServiceError String
  resolvePrincipal : Except ServiceError GatePrincipal
  /-- The loaders of the gate; what it reads of the tables is put in their place. -/
  gate : GateDependencies
  sha256Intent : GatePaymentIntent → String
  resolveReputation : Option (String → Except String (Option ReputationScore)) := none
  resolveObligationConfidence : Option (String → Except ServiceError (Option Rat)) := none
  resolveObligationDirection :
    Option (String → Except ServiceError (Option ObligationDirection)) := none
  resolveOnchainParams :
    Option (GatePaymentIntent → Except ServiceError (Option OnchainDispatchParams)) := none
  /-- `resolveApprovalActor`, with the member's id. -/
  resolveActor : Except ServiceError String
  findMemberById : String → Except ServiceError (Option MemberAuthority)
  /-- The approvers `approvals.list` finds. -/
  approvers : Except ServiceError (List String)
  resolveApprovalPayeeEmail : Except ServiceError (Option String)
  /-- The id of the approval that `approvals.sign` records. -/
  sign : Except ServiceError String

/-- An audit event, by its action and its subject. -/
structure AuditAction where
  action : String
  subjectId : String
deriving DecidableEq

abbrev PaymentScript (α : Type) := Script Database Write Environment AuditAction ServiceError α

/-- What a loader of the gate throws. -/
def thrown {α : Type} (answer : Except String α) : Except ServiceError α :=
  answer.mapError databaseError

/-- `await this.deps.audit.emit(…)`. -/
def emit (action subjectId : String) : PaymentScript String :=
  .callOut fun env =>
    match env.audit with
    | .error e => (.error e, [])
    | .ok id => (.ok id, [⟨action, subjectId⟩])

/-- `newId()` or `new Date()`. -/
def here {α : Type} (read : Environment → α) : PaymentScript α := .ask fun env => .ok (read env)

/-! ## The policy service -/

def policyService (env : Environment) (active : Option ActivePolicy) (counters : SpendCounters) :
    PolicyService :=
  { active
    counters
    now := env.now
    newPolicyDecisionId := newPolicyDecisionId env.ulid
    sha256Intent := env.sha256Intent
    resolveReputation := env.resolveReputation }

def decisionRow (subjectId : String) (decision : GatePolicyDecision) : PolicyDecisionRow :=
  { id := decision.id
    subjectId
    outcome := decision.outcome
    matchedRuleId := decision.matchedRuleId
    requiredApprovers := decision.requiredApprovers }

/-- `evaluateForGate` with its reads, the row it records and its event. -/
def evaluatePolicy (intent : GatePaymentIntent) : PaymentScript GatePolicyDecision := do
  let active ← .transact (.select (·.activePolicy))
  let counters ← .transact (.select (·.counters))
  let decision ← .ask fun env =>
    thrown (evaluateForGate (policyService env active counters) intent)
  .transact (insertPolicyDecision (decisionRow intent.id decision))
  let _ ← emit "policy.evaluate" decision.id
  pure decision

/-! ## The gate -/

/-- What the gate reads of the tables, each in a transaction of its own. -/
structure GateReads where
  active : Option ActivePolicy
  counters : SpendCounters
  reserved : String
  intents : PaymentIntents
  facts : DuplicateFacts

/-- `gateDeps`; a loader that is not wired stays absent. -/
def gateDeps (env : Environment) (reads : GateReads) : GateDependencies :=
  { env.gate with
    now := env.now
    evaluatePolicy := fun intent _ =>
      evaluateForGate (policyService env reads.active reads.counters) intent
    sumActiveReservations := env.gate.sumActiveReservations.map fun _ _ => .ok reads.reserved
    detectDuplicates := env.gate.detectDuplicates.map fun _ intent =>
      .ok (detectDuplicates reads.intents reads.facts env.now intent) }

/-- A gate that passed, with the row its policy recorded, or one that failed. -/
def recordGate (intentId : String) : GateResult → PaymentScript GateResult
  | .failure refused => pure (.failure refused)
  | .success gate => do
      .transact (insertPolicyDecision
        { id := gate.policyDecisionId, subjectId := intentId, outcome := gate.outcome
          matchedRuleId := none, requiredApprovers := gate.requiredApprovers })
      pure (.success gate)

/-- `runPreExecutionGate`: what it reads, what it answers and the event it emits. -/
def runGate (ctx : ServiceCallContext) (principal : GatePrincipal) (intent : GatePaymentIntent) :
    PaymentScript GateResult := do
  let active ← .transact (.select (·.activePolicy))
  let counters ← .transact (.select (·.counters))
  let reserved ← .transact (LedgerReservations.sumActiveReservations intent.sourceAccountId)
  let intents ← .transact (.select (·.intents))
  let facts ← .transact (.select (·.facts))
  let result ← .callOut fun env =>
    let run := runPreExecutionGate (gateDeps env ⟨active, counters, reserved, intents, facts⟩)
      { ctx := ⟨ctx.tenantId, ctx.actor⟩, principal, intent }
    (thrown run.result, run.emitted.map fun _ => ⟨"payment_intent.execute.before", intent.id⟩)
  recordGate intent.id result

end BrainCore.Execution
