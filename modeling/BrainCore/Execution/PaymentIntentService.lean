import BrainCore.Execution.Environment
import BrainCore.Gate.GateM

/-!
# The payment-intent service

The operations of `services/execution/src/payment-intents/PaymentIntentService.ts`
that move a payment intent, each as the script of its reads, checks,
transactions and events.
-/

namespace BrainCore.Execution

open BrainCore.Foundation BrainCore.Gate BrainCore.Ledger BrainCore.Members BrainCore.Policy
  BrainCore.Shared

def invalidState {α : Type} (message : String) : PaymentScript α :=
  .throw ⟨"payment_intent_invalid_state", message⟩

/-- `requireIntent`. -/
def requireIntent (id : String) : PaymentScript PaymentIntentRow := do
  let row ← .transact (LedgerPaymentIntents.findById id)
  match row with
  | none => .throw ⟨"payment_intent_not_found", "no such PaymentIntent"⟩
  | some row => pure row

/-- `if (updated === null) throw …`. -/
def requireUpdated (updated : Option PaymentIntentRow) (message : String) :
    PaymentScript PaymentIntentRow :=
  match updated with
  | none => invalidState message
  | some row => pure row

/-! ## Create -/

structure CreatePaymentIntentInput where
  actionType : ActionType
  sourceAccountId : String
  destinationCounterpartyId : String
  amount : String
  currency : String
  obligationId : Option String := none
  invoiceId : Option String := none
  agentId : Option String := none
  evidenceIds : List String := []
  confidence : Option Rat := none
  evidenceScore : Option Rat := none
  riskLevel : Option RiskLevel := none
  payTo : Option String := none
  escrowId : Option String := none
  jobTermsHash : Option String := none
  proposalDedupKey : Option String := none

def assertExecutablePaymentIntentActionType (actionType : ActionType) : Except ServiceError Unit :=
  if actionType = .other then
    .error ⟨"action_type_not_executable", "action_type is not executable"⟩
  else .ok ()

def assertSourceAccountExists (input : CreatePaymentIntentInput) : PaymentScript Unit := do
  let account ← .ask fun env => thrown (env.gate.resolveAccount input.sourceAccountId)
  match account with
  | none => .throw ⟨"ledger_row_not_found", "source account not found"⟩
  | some _ => pure ()

/-- The confidence of the input and of its obligation, the lower of the two. -/
def cappedConfidence (confidence : Option Rat) (obligation : Rat) : Option Rat :=
  some (match confidence with
    | none => obligation
    | some confidence => min confidence obligation)

def resolveEffectiveConfidence (input : CreatePaymentIntentInput) :
    PaymentScript (Option Rat) := do
  let resolve ← here (·.resolveObligationConfidence)
  match input.obligationId, resolve with
  | some obligationId, some resolve => do
      let confidence ← .ofExcept (resolve obligationId)
      match confidence with
      | none =>
          .throw ⟨"obligation_not_found", "obligation_id " ++ obligationId ++
            " did not resolve in the Ledger; refusing to create a PaymentIntent referencing a " ++
            "missing obligation"⟩
      | some obligation => pure (cappedConfidence input.confidence obligation)
  | _, _ => pure input.confidence

def assertObligationDirectionPayable (input : CreatePaymentIntentInput) : PaymentScript Unit := do
  let resolve ← here (·.resolveObligationDirection)
  match input.obligationId, resolve with
  | some obligationId, some resolve => do
      let direction ← .ofExcept (resolve obligationId)
      if direction = some .payable then pure ()
      else .throw ⟨"obligation_direction_invalid", "obligation_id " ++ obligationId ++
        " has direction '" ++ (direction.map ObligationDirection.text).getD "unknown" ++
        "'; a new obligation-linked PaymentIntent must target a known payable obligation"⟩
  | _, _ => pure ()

def stubGateIntent (ctx : ServiceCallContext) (input : CreatePaymentIntentInput)
    (confidence : Rat) : GatePaymentIntent :=
  { id := "pi_PENDING"
    ownerId := ctx.tenantId
    createdByAgentId := input.agentId
    actionType := input.actionType
    sourceAccountId := input.sourceAccountId
    destinationCounterpartyId := input.destinationCounterpartyId
    amount := input.amount
    currency := input.currency
    evidenceIds := input.evidenceIds
    confidence := some confidence
    evidenceScore := input.evidenceScore
    riskLevel := input.riskLevel
    invoiceId := input.invoiceId
    obligationId := input.obligationId
    settlement := gateSettlement input.actionType input.currency input.amount input.payTo
    escrow := gateEscrow input.actionType input.escrowId input.jobTermsHash }

def initialStatus (decision : GatePolicyDecision) (requiresApprovalFloor : Bool) :
    PaymentIntentState :=
  if decision.outcome = .reject then .rejected
  else if decision.outcome = .allow ∧ requiresApprovalFloor = false then .approved
  else .pendingApproval

/-- The agent that proposed, or the caller unless it is known not to be an agent. -/
def proposingAgent (ctx : ServiceCallContext) (input : CreatePaymentIntentInput) : Option String :=
  match input.agentId with
  | some agentId => some agentId
  | none => if ctx.principalType = none ∨ ctx.principalType = some .agent then some ctx.actor else none

/-- The row of the insert; the database refuses an amount that is out of range or not positive. -/
def newIntentRow (ctx : ServiceCallContext) (input : CreatePaymentIntentInput) (id : String)
    (now : Instant) (confidence : Rat) (status : PaymentIntentState) (policyDecisionId : String) :
    Except ServiceError PaymentIntentRow :=
  match Numeric8.ofText? input.amount with
  | none => .error (databaseError "numeric field overflow")
  | some amount =>
      if positive : 0 < amount.scaled then
        .ok
          { id
            ownerId := ctx.tenantId
            createdByAgentId := proposingAgent ctx input
            actionType := input.actionType
            sourceAccountId := input.sourceAccountId
            destinationCounterpartyId := input.destinationCounterpartyId
            amount
            currency := input.currency
            obligationId := input.obligationId
            invoiceId := input.invoiceId
            status
            policyDecisionId := some policyDecisionId
            evidenceIds := input.evidenceIds
            confidence
            evidenceScore := input.evidenceScore
            riskLevel := input.riskLevel
            proposalDedupKey := input.proposalDedupKey
            settlementPayTo := if input.actionType = .x402Settle then input.payTo else none
            escrowId :=
              if input.actionType = .escrowRelease ∧ input.jobTermsHash.isSome then input.escrowId
              else none
            jobTermsHash :=
              if input.actionType = .escrowRelease ∧ input.escrowId.isSome then input.jobTermsHash
              else none
            updatedAt := now
            positive }
      else .error (databaseError "ledger_payment_intents violates check constraint")

/-- The row of an earlier proposal with the same dedup key. -/
def findProposed (dedupKey : Option String) : PaymentScript (Option PaymentIntentRow) :=
  match dedupKey with
  | none => pure none
  | some key => .transact (LedgerPaymentIntents.findByDedupKey key)

/-- The new row, or, on a unique violation, the row that was there first. -/
def insertProposal (row : PaymentIntentRow) :
    PaymentScript (PaymentIntentRow ⊕ PaymentIntentRow) :=
  .tryCatch
    (do
      let inserted ← .transact (LedgerPaymentIntents.insert row)
      pure (.inl inserted))
    fun error => do
      let existing ← if error = uniqueViolation then findProposed row.proposalDedupKey else pure none
      match existing with
      | none => .throw error
      | some existing => pure (.inr existing)

/-- The rest of `create`, for a proposal without an earlier one of its key. -/
def propose (ctx : ServiceCallContext) (input : CreatePaymentIntentInput) :
    PaymentScript PaymentIntentRow := do
  assertSourceAccountExists input
  let effectiveConfidence ← resolveEffectiveConfidence input
  let persistedConfidence := effectiveConfidence.getD 0
  assertObligationDirectionPayable input
  let stub := stubGateIntent ctx input persistedConfidence
  let decision ← evaluatePolicy stub
  let fiatFloor ← here (·.gate.fiatHumanApprovalFloorEnabled)
  let status := initialStatus decision (requiresHardHumanApprovalFloor stub decision fiatFloor)
  let env ← here id
  let row ← .ofExcept (newIntentRow ctx input (newPaymentIntentId env.ulid) env.now
    persistedConfidence status decision.id)
  let inserted ← insertProposal row
  match inserted with
  | .inr existing => pure existing
  | .inl row => do
      let _ ← emit "payment_intent.created" row.id
      if status = .approved then do
        let _ ← emit "payment_intent.auto_approved" row.id
        pure row
      else pure row

def create (ctx : ServiceCallContext) (input : CreatePaymentIntentInput) :
    PaymentScript PaymentIntentRow := do
  .ofExcept (assertExecutablePaymentIntentActionType input.actionType)
  if ¬autonomousCapDecimal input.amount ∨ input.amount = "0" then
    .throw ⟨"request_body_invalid", "amount must be a positive decimal string"⟩
  else do
    let existing ← findProposed input.proposalDedupKey
    match existing with
    | some existing => pure existing
    | none => propose ctx input

/-! ## Approve, reject and cancel -/

/-- The checks behind an approval, up to its grant. -/
def authorize (id : String) (intent : PaymentIntentRow) :
    PaymentScript (String × ApprovalGrant) := do
  let actor ← .ask (·.resolveActor)
  let member ← .ask fun env => env.findMemberById actor
  let approvers ← .ask (·.approvers)
  let fresh ← evaluatePolicy (intentToGate intent)
  let counterparty ← .ask fun env =>
    thrown (env.gate.resolveCounterparty intent.destinationCounterpartyId)
  let payeeEmail ← .ask (·.resolveApprovalPayeeEmail)
  let payeeKind := paymentIntentPayeeKind intent.actionType.text (counterparty.map (·.type))
  match authorizeApproval
    { actorMemberId := actor
      member
      proposal :=
        { domain := paymentIntentApprovalDomain intent.actionType.text payeeKind
          amountCents := decimalAmountToCents intent.amount.text.text
          payeeKind
          payeeEmail }
      existingApproverMemberIds := approvers
      requiredDistinctApprovals := max 1 fresh.requiredApprovers.length } with
  | .error rejection => do
      let _ ← emit "approval_rejected" id
      .throw ⟨"payment_intent_approval_invalid", rejection.reason.text⟩
  | .ok grant => pure (actor, grant)

/-- The body of the `try` of `approve`. -/
def approveOpen (id : String) (intent : PaymentIntentRow) : PaymentScript PaymentIntentRow := do
  let granted ← authorize id intent
  let approvalId ← .ask (·.sign)
  let now ← here (·.now)
  .transact (LedgerPaymentIntents.appendApprovalId id approvalId now)
  let source := if granted.2.requiresAdditionalApproval then .pendingApproval else intent.status
  let target : PaymentIntentState :=
    if granted.2.requiresAdditionalApproval then .awaitingSecondApproval else .approved
  let _ ← emit "proposal.decided" id
  let now ← here (·.now)
  let updated ← .transact do
    .ofExcept (assertPaymentIntentTransition source target)
    LedgerPaymentIntents.transition id source target now
  let row ← requireUpdated updated "PaymentIntent moved between approve and authorization"
  let _ ← emit (if granted.2.requiresAdditionalApproval then "proposal.awaiting_second_approval"
    else "payment_intent.approved") id
  pure row

def approve (id : String) : PaymentScript PaymentIntentRow := do
  let intent ← requireIntent id
  if intent.status ≠ .pendingApproval ∧ intent.status ≠ .awaitingSecondApproval then
    invalidState ("cannot approve PaymentIntent in status " ++ intent.status.text)
  else
    .tryCatch (approveOpen id intent) fun error => do
      if error.message = "actor_unresolved" then do
        let _ ← emit "approval_rejected" id
        .throw error
      else .throw error

/-- A transition from the status that was read, in a transaction of its own. -/
def moveIntent (id : String) (source target : PaymentIntentState) (message : String) :
    PaymentScript PaymentIntentRow := do
  let now ← here (·.now)
  let updated ← .transact (LedgerPaymentIntents.transition id source target now)
  requireUpdated updated message

def reject (id : String) : PaymentScript PaymentIntentRow := do
  let intent ← requireIntent id
  if intent.status ≠ .pendingApproval ∧ intent.status ≠ .awaitingSecondApproval ∧
      intent.status ≠ .proposed ∧ intent.status ≠ .approved then
    invalidState ("cannot reject PaymentIntent in status " ++ intent.status.text)
  else do
    .ofExcept (assertPaymentIntentTransition intent.status .rejected)
    let _ ← emit "proposal.decided" id
    let row ← moveIntent id intent.status .rejected "PaymentIntent moved during reject"
    let _ ← emit "payment_intent.rejected" id
    pure row

def cancel (id : String) : PaymentScript PaymentIntentRow := do
  let intent ← requireIntent id
  if intent.status ≠ .proposed ∧ intent.status ≠ .pendingApproval then
    invalidState ("cancel only allowed from 'proposed' or 'pending_approval', current=" ++
      intent.status.text)
  else do
    .ofExcept (assertPaymentIntentTransition intent.status .cancelled)
    let row ← moveIntent id intent.status .cancelled "PaymentIntent moved during cancel"
    let _ ← emit "payment_intent.cancelled" id
    pure row

/-! ## The kill-switch -/

def pause (id : String) : PaymentScript PaymentIntentRow := do
  let intent ← requireIntent id
  if intent.status ≠ .approved then
    invalidState ("pause only allowed from 'approved', current=" ++ intent.status.text)
  else do
    .ofExcept (assertPaymentIntentTransition .approved .paused)
    let row ← moveIntent id .approved .paused "PaymentIntent moved during pause"
    let _ ← emit "payment_intent.paused" id
    pure row

/-- The number and the name of the check that a gate failed at. -/
def failedAt (refused : GateFailure) : String :=
  String.ofList (fixedPoint 2 refused.failedCheck.name.index) ++ " (" ++
    refused.failedCheck.name.text ++ ")"

def resume (ctx : ServiceCallContext) (id : String) : PaymentScript PaymentIntentRow := do
  let intent ← requireIntent id
  if intent.status ≠ .paused then
    invalidState ("resume only allowed from 'paused', current=" ++ intent.status.text)
  else do
    let principal ← .ask (·.resolvePrincipal)
    let gate ← runGate ctx principal (intentToGate intent)
    match gate with
    | .failure refused => do
        let _ ← emit "payment_intent.resume.gate_failed" id
        .throw ⟨"payment_intent_gate_failed", "resume gate failed at check " ++ failedAt refused⟩
    | .success _ => do
        .ofExcept (assertPaymentIntentTransition .paused .approved)
        let row ← moveIntent id .paused .approved "PaymentIntent moved during resume"
        let _ ← emit "payment_intent.resumed" id
        pure row

def pauseByAgent (agentId : String) : PaymentScript (List String) := do
  let now ← here (·.now)
  let paused ← .transact (LedgerPaymentIntents.pauseApprovedByAgent agentId now)
  let _ ← emit "agent.halted" agentId
  pure paused

/-! ## Execute -/

def EXECUTION_RESERVATION_TTL_MS : Nat := 24 * 60 * 60 * 1000

def requiresExecutionReservation (actionType : ActionType) : Bool :=
  actionType ≠ .x402Settle && actionType ≠ .escrowRelease

def railFor : ActionType → Except ServiceError String
  | .achOutbound | .achInbound | .wire | .cardPayment => .ok "bank_ach"
  | .onchainTransfer => .ok "onchain_base"
  | .x402Settle => .ok "x402_base"
  | .escrowRelease => .ok "escrow_base"
  | .erpWriteback => .ok "erp_writeback"
  | .other => .error ⟨"action_type_not_executable", "action_type is not executable"⟩

/-- `String(BigInt(intPart) * 1_000_000n + BigInt(fracPart))`. -/
def amountUnits (amount : Numeric8) : String :=
  let text := amount.text.text.toList
  toString (natOf (text.takeWhile Char.isDigit) * 10 ^ 6 +
    natOf (padEndSlice 6 (text.dropWhile Char.isDigit).tail))

/-- The members of a payload for one kind of action. -/
def protocolPayload (intent : PaymentIntentRow) (onchain : Option OnchainDispatchParams) :
    List (String × Json) :=
  match intent.actionType, onchain with
  | .onchainTransfer, some params =>
      [("smart_account", .str params.smartAccount), ("holder", .str params.holder),
        ("target", .str params.target), ("data", .str params.data), ("value", .str params.value),
        ("policy_version", .str params.policyVersion)]
  | .x402Settle, _ =>
      [("asset", .str intent.currency), ("network", .str "base")] ++
        (intent.settlementPayTo.map fun payTo => ("pay_to", Json.str payTo)).toList
  | .escrowRelease, _ =>
      (intent.escrowId.map fun id => ("escrow_id", Json.str id)).toList ++
        (intent.jobTermsHash.map fun hash => ("job_terms_hash", Json.str hash)).toList ++
        [("amount_units", .str (amountUnits intent.amount))]
  | _, _ => []

def dispatchPayload (intent : PaymentIntentRow) (onchain : Option OnchainDispatchParams) :
    List (String × Json) :=
  [("kind", .str intent.actionType.text), ("source_account_id", .str intent.sourceAccountId),
    ("destination_counterparty_id", .str intent.destinationCounterpartyId),
    ("amount", .str intent.amount.text.text), ("currency", .str intent.currency)] ++
    protocolPayload intent onchain

/-- `pi:${intent.id}:${gate.policyDecisionId}`. -/
def handOffKey (intentId policyDecisionId : String) : String :=
  "pi:" ++ intentId ++ ":" ++ policyDecisionId

/-- What the hand-off writes, once the gate has passed. -/
structure HandOff where
  tenantId : String
  intent : PaymentIntentRow
  gate : GateSuccess
  rail : String
  payload : List (String × Json)
  principalId : String
  reservationId : String
  outboxId : String
  now : Instant

namespace HandOff

def reservation (handOff : HandOff) : ReservationRow :=
  { id := handOff.reservationId
    ownerId := handOff.tenantId
    accountId := handOff.intent.sourceAccountId
    amount := handOff.intent.amount
    currency := handOff.intent.currency
    paymentIntentId := handOff.intent.id
    policyDecisionId := handOff.gate.policyDecisionId
    reservingAgentId := handOff.intent.createdByAgentId.getD handOff.principalId
    reservedUntil := handOff.now + EXECUTION_RESERVATION_TTL_MS
    positive := handOff.intent.positive }

def outboxRow (handOff : HandOff) (reservationId : Option String) : OutboxRow :=
  { id := handOff.outboxId
    paymentIntentId := handOff.intent.id
    rail := handOff.rail
    idempotencyKey := handOffKey handOff.intent.id handOff.gate.policyDecisionId
    payload := handOff.payload
    auditBeforeId := handOff.gate.auditBeforeEventId
    reservationId
    createdAt := handOff.now }

def refusedCode (reason : String) : String :=
  if reason = "available_balance_missing" ∨ reason = "account_not_found" then
    "ledger_balance_unavailable"
  else "insufficient_balance"

/-- The reservation of a hand-off that needs one; a refusal rolls everything back. -/
def reserve (handOff : HandOff) : Transact (Option String) :=
  if requiresExecutionReservation handOff.intent.actionType then do
    let result ← LedgerReservations.reserveIfAvailable handOff.reservation
    match result with
    | .error refusal =>
        .throw ⟨refusedCode refusal.reason,
          "execute aborted: unable to reserve funds (" ++ refusal.reason ++ ")"⟩
    | .ok row => pure (some row.id)
  else pure none

/-- The hand-off transaction: the id of the outbox row, or the status of an intent that is not
approved any more. -/
def transaction (handOff : HandOff) : Transact (Except String String) := do
  .ofExcept (assertPaymentIntentTransition .approved .dispatching)
  let moved ← LedgerPaymentIntents.transition handOff.intent.id .approved .dispatching handOff.now
  match moved with
  | none => do
      let current ← LedgerPaymentIntents.findById handOff.intent.id
      pure (.error ((current.map (·.status.text)).getD "missing"))
  | some _ => do
      let reservationId ← handOff.reserve
      let enqueued ← enqueue (handOff.outboxRow reservationId)
      pure (.ok enqueued.1)

end HandOff

structure ExecuteResult where
  paymentIntentId : String
  outboxId : String
  rail : String

def resolveOnchain (intent : PaymentIntentRow) : PaymentScript (Option OnchainDispatchParams) := do
  let resolve ← here (·.resolveOnchainParams)
  match intent.actionType, resolve with
  | .onchainTransfer, some resolve => .ofExcept (resolve (intentToGate intent))
  | _, _ => pure none

/-- The rest of `execute` behind a gate that passed. -/
def handOffIntent (ctx : ServiceCallContext) (principal : GatePrincipal)
    (intent : PaymentIntentRow) (gate : GateSuccess) : PaymentScript ExecuteResult := do
  let rail ← .ofExcept (railFor intent.actionType)
  let onchain ← resolveOnchain intent
  let reservationId ← here fun env => newLedgerReservationId env.ulid
  let outboxId ← here fun env => newExecutionOutboxId env.ulid
  let now ← here (·.now)
  let handed ← .transact (HandOff.transaction
    { tenantId := ctx.tenantId, intent, gate, rail
      payload := dispatchPayload intent onchain
      principalId := principal.id, reservationId, outboxId, now })
  match handed with
  | .error status => do
      let _ ← emit "payment_intent.execute.after" intent.id
      invalidState ("execute aborted: intent no longer approved (status=" ++ status ++ ")")
  | .ok outboxId => do
      let _ ← emit "payment_intent.execute.enqueued" intent.id
      pure { paymentIntentId := intent.id, outboxId, rail }

def execute (ctx : ServiceCallContext) (id : String) : PaymentScript ExecuteResult := do
  let intent ← requireIntent id
  if intent.status ≠ .approved then
    invalidState ("execute requires status='approved', current=" ++ intent.status.text)
  else do
    let principal ← .ask (·.resolvePrincipal)
    let gate ← runGate ctx principal (intentToGate intent)
    match gate with
    | .failure refused => do
        let _ ← emit "payment_intent.execute.after" id
        .throw ⟨"payment_intent_gate_failed",
          "pre-execution gate failed at check " ++ failedAt refused⟩
    | .success gate => handOffIntent ctx principal intent gate

/-! ## The callbacks of the outbox worker -/

/-- The transaction of a settlement and the event of one that moved the intent. -/
def settle (body : Instant → Transact Bool) (action id : String) : PaymentScript Unit := do
  let now ← here (·.now)
  let emitted ← .transact (body now)
  if emitted then do
    let _ ← emit action id
    pure ()
  else pure ()

/-! ## The calls -/

inductive ServiceCall where
  | create (ctx : ServiceCallContext) (input : CreatePaymentIntentInput)
  | approve (id : String)
  | reject (id : String)
  | cancel (id : String)
  | pause (id : String)
  | pauseByAgent (agentId : String)
  | resume (ctx : ServiceCallContext) (id : String)
  | execute (ctx : ServiceCallContext) (id : String)
  | completeExecution (args : CompleteExecution)
  | failExecution (args : FailExecution)

/-- What a call returns. -/
inductive ServiceResult where
  | intent (row : PaymentIntentRow)
  | paused (ids : List String)
  | enqueued (result : ExecuteResult)
  | done

def returning {α : Type} (result : α → ServiceResult) (script : PaymentScript α) :
    PaymentScript ServiceResult := do
  let value ← script
  pure (result value)

/-- The script of a call; `recordsSpend` says whether `recordAgentSpend` is wired. -/
def serviceScript (recordsSpend : Bool) : ServiceCall → PaymentScript ServiceResult
  | .create ctx input => returning .intent (create ctx input)
  | .approve id => returning .intent (approve id)
  | .reject id => returning .intent (reject id)
  | .cancel id => returning .intent (cancel id)
  | .pause id => returning .intent (pause id)
  | .pauseByAgent agentId => returning .paused (pauseByAgent agentId)
  | .resume ctx id => returning .intent (resume ctx id)
  | .execute ctx id => returning .enqueued (execute ctx id)
  | .completeExecution args =>
      returning (fun _ => .done)
        (settle (completeExecution recordsSpend args) "payment_intent.executed" args.paymentIntentId)
  | .failExecution args =>
      returning (fun _ => .done)
        (settle (failExecution args) "payment_intent.failed" args.paymentIntentId)

/-- What other components commit to the tables: no intent, no policy decision, and of the outbox
rows that are there only the state of their dispatch. -/
def othersMay (db : Database) (writes : List Write) : Bool :=
  writes.all fun write =>
    match write with
    | .intent _ | .decision _ => false
    | .outbox row =>
        (db.outbox.find? row.id).any fun old =>
          old.paymentIntentId = row.paymentIntentId && old.idempotencyKey = row.idempotencyKey
    | _ => true

abbrev ServiceWorld := Calls Database Write Environment AuditAction ServiceError ServiceResult

abbrev ServiceLabel := CallLabel Write Environment ServiceError ServiceCall

/-- Any number of calls of the service, beside the other components. -/
def paymentIntentService (recordsSpend : Bool) : Machine ServiceWorld ServiceLabel :=
  callMachine database (serviceScript recordsSpend) othersMay

end BrainCore.Execution
