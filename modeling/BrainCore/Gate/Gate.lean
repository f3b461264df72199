import BrainCore.Gate.Checks

/-!
# The pre-execution gate

`runPreExecutionGate` of `shared/src/gate/gate.ts`: the checks in the order of
the source, and then, for a live run only, the audit-before event.
-/

namespace BrainCore.Gate

open BrainCore.Foundation BrainCore.Policy BrainCore.Shared

/-- What the checks leave for the audit and the result. -/
structure Cleared where
  decision : GatePolicyDecision
  ledgerStateHash : String

/-- The intent as the policy sees it. -/
def policyIntent (intent : GatePaymentIntent)
    (preloaded : Option (GateCounterparty × TrustStatus)) : GatePaymentIntent :=
  match preloaded with
  | none => intent
  | some (_, status) => { intent with counterpartyTrustStatus := some status }

/-- The counterparty loaded before the policy, when the trust gate is enabled. -/
def trustGate (deps : GateDependencies) (input : RunGateInput) :
    GateM (Option (GateCounterparty × TrustStatus)) :=
  if deps.trustGateEnabled = some true then do
    let preloaded ← preloadCounterparty deps input
    pure (some preloaded)
  else pure none

/-- Checks 3 to 11.5, once the policy has decided. -/
def checksOnDecision (deps : GateDependencies) (input : RunGateInput) (agent : GateAgent)
    (preloaded : Option (GateCounterparty × TrustStatus)) (decision : GatePolicyDecision) :
    GateM Cleared := do
  recordDecision decision
  actionAllowed decision
  onchainSettlementPermitted input decision
  let account ← sourceAccountAllowed deps input
  let counterparty ← resolvedCounterparty deps input preloaded
  agentCounterpartyAttested deps input counterparty
  counterpartyVerified input decision counterparty
  x402PaymentContextValid input counterparty
  escrowStateBound deps input counterparty
  obligationDirectionMatchesFlow deps input
  amountWithinLimit input decision
  let ledgerStateHash := deps.ledgerSnapshot account counterparty
  pass .ledgerStateBound [("ledger_state_hash", .str ledgerStateHash)]
  availableBalanceSufficient deps input account
  micropaymentCapWithinWindow deps input decision
  requiredEvidencePresent input decision
  evidenceSupportsAction deps input agent decision
  pass .approvalRequirementDetermined [("outcome", .str decision.outcome.text)]
  approvalGrantedWhenRequired deps input decision
  noDuplicatePayment deps input
  pass .policyDecisionRecorded [("policy_decision_id", .str decision.id)]
  pure ⟨decision, ledgerStateHash⟩

/-- Checks 1 to 12. -/
def checks (deps : GateDependencies) (input : RunGateInput) : GateM Cleared := do
  let agent ← agentIdentityVerified deps input
  agentBehaviorPinned deps input agent
  agentAuthorized input agent
  let preloaded ← trustGate deps input
  let decision ← ask (deps.evaluatePolicy (policyIntent input.intent preloaded) input.dryRun)
  checksOnDecision deps input agent preloaded decision

def auditBefore (input : RunGateInput) (cleared : Cleared) (log : GateLog) : AuditBefore :=
  { tenantId := input.ctx.tenantId
    actor := input.ctx.actor
    policyDecisionId := cleared.decision.id
    policyCheckId := cleared.decision.matchedRuleId
    outcome := cleared.decision.outcome
    intent := input.intent
    ledgerStateHash := cleared.ledgerStateHash
    gateChecks := log.checks }

/-- What a run returns or throws, and the audit-before events it emitted. -/
structure GateRun where
  result : Except String GateResult
  emitted : List AuditBefore := []

def success (input : RunGateInput) (cleared : Cleared) (log : GateLog) (auditEventId : String)
    (detail : Detail) : GateResult :=
  .success
    { dryRun := input.dryRun
      outcome := cleared.decision.outcome
      requiredApprovers := cleared.decision.requiredApprovers
      policyDecisionId := if input.dryRun then "" else cleared.decision.id
      auditBeforeEventId := auditEventId
      ledgerStateHash := cleared.ledgerStateHash
      trace := log.trace
      checks := log.checks ++ [⟨.auditBeforeEmitted, true, detail⟩] }

def failure (input : RunGateInput) (log : GateLog) (failed : GateCheck) : GateResult :=
  .failure
    { dryRun := input.dryRun
      outcome := log.outcome
      requiredApprovers := log.requiredApprovers
      failedCheck := failed
      checks := log.checks ++ [failed]
      trace := log.trace }

/-- `await deps.traceCache.set(…)`, when a cache is wired. -/
def cacheTrace (deps : GateDependencies) (input : RunGateInput) (log : GateLog) :
    Except String Unit :=
  match deps.traceCache with
  | none => .ok ()
  | some set => set input.intent log.trace

/-- 13: a live run emits the audit-before event, a dry run may cache its trace. -/
def auditBeforeEmitted (deps : GateDependencies) (input : RunGateInput) (cleared : Cleared)
    (log : GateLog) : GateRun :=
  if input.dryRun then
    match cacheTrace deps input log with
    | .error message => { result := .error message }
    | .ok () => { result := .ok (success input cleared log "" [("dry_run", .bool true)]) }
  else
    match deps.audit (auditBefore input cleared log) with
    | .error message => { result := .error message }
    | .ok id =>
        { result := .ok (success input cleared log id [("audit_event_id", .str id)])
          emitted := [auditBefore input cleared log] }

def runPreExecutionGate (deps : GateDependencies) (input : RunGateInput) : GateRun :=
  match checks deps input {} with
  | .error (.failed log failed) => { result := .ok (failure input log failed) }
  | .error (.threw message) => { result := .error message }
  | .ok (cleared, log) => auditBeforeEmitted deps input cleared log

/-!
## What a check lets through

One statement for each group of checks of the gate: what holds of the input and
of the answers once a run has got past them.  Decimal comparisons are stated on
the values of the strings that are decimal numbers.
-/

/-- The value of one string does not exceed the value of another. -/
def AtMost (a b : String) : Prop :=
  ∀ x y : DecimalString, x.text = a → y.text = b → x.units ≤ y.units

/-- The values of two strings together do not exceed a third one. -/
def SumAtMost (a b total : String) : Prop :=
  ∀ x y z : DecimalString, x.text = a → y.text = b → z.text = total → x.units + y.units ≤ z.units

theorem AtMost.of_cmpDecimal {a b : String} (h : cmpDecimal a b ≤ 0) : AtMost a b := by
  rintro x y rfl rfl
  rw [cmpDecimal_eq_compareDecimal] at h
  exact units_le_of_compareDecimal h

theorem AtMost.of_nonneg {a b : String} (h : 0 ≤ cmpDecimal b a) : AtMost a b := by
  rintro x y rfl rfl
  rw [cmpDecimal_eq_compareDecimal] at h
  exact units_ge_of_compareDecimal h

theorem AtMost.of_not_lt {a b : String} (h : ¬0 < cmpDecimal a b) : AtMost a b :=
  AtMost.of_cmpDecimal (not_lt.mp h)

section Cleared

variable (deps : GateDependencies) (input : RunGateInput)

/-- Checks 1, 1.5 and 2. -/
structure AgentCleared (agent : GateAgent) : Prop where
  isAgent : input.principal.type = .agent
  ownsIntent : input.intent.createdByAgentId = none ∨
    input.intent.createdByAgentId = some input.principal.id
  resolved : deps.resolveAgent input.principal.id = .ok (some agent)
  active : agent.state = "active"
  hashesAgree : ∀ runtime registered, input.runtimeBehaviorHash = some runtime →
    agent.behaviorHash = some registered → registered = runtime
  hashPinned : ∀ resolve, deps.resolveTenantFlags = some resolve →
    ∃ flags, resolve input.ctx.tenantId = .ok flags ∧
      (flags.requireBehaviorHash = true →
        ∃ hash, input.runtimeBehaviorHash = some hash ∧ agent.behaviorHash = some hash)
  scope : "payment_intent:execute" ∈ input.principal.scopes ∨ agent.canExecutePayments = true

/-- Checks 3 and 3.5, on the decision the policy gave for the intent. -/
structure PolicyCleared (decision : GatePolicyDecision) : Prop where
  decided : ∃ trust, deps.evaluatePolicy { input.intent with counterpartyTrustStatus := trust }
    input.dryRun = .ok decision
  matched : decision.matchedRuleId ≠ none
  outcome : decision.outcome = .allow ∨ decision.outcome = .confirm
  onchain : input.intent.actionType = .x402Settle ∨ input.intent.settlement ≠ none →
    decision.onchainSettlementPermitted ≠ some (.bool false)

/-- Check 4. -/
structure AccountCleared (account : GateAccount) : Prop where
  resolved : deps.resolveAccount input.intent.sourceAccountId = .ok (some account)
  active : account.status = "active"

/-- Checks 5, 5.25, 5.5 and 6. -/
structure CounterpartyCleared (decision : GatePolicyDecision)
    (counterparty : GateCounterparty) : Prop where
  resolved : deps.resolveCounterparty input.intent.destinationCounterpartyId =
    .ok (some counterparty)
  notSanctioned : counterparty.riskLevel ≠ some "sanctioned"
  trusted : deps.trustGateEnabled = some true →
    ∃ status, toTrustStatus counterparty.trustStatus = some status ∧ status ≠ .paused
  attested : ∀ attest, deps.attestCounterpartyAgent = some attest → counterparty.type = "agent" →
    ∃ attestation, attest ⟨input.ctx.tenantId, counterparty.id, counterparty.agentId⟩ =
      .ok attestation ∧ attestation.attested = true
  verified : ∀ threshold, decision.counterpartyVerificationThreshold = some threshold →
    input.intent.currency = threshold.currency →
      AtMost input.intent.amount threshold.value ∨
        counterparty.verifiedStatus = some "document_verified" ∨
          counterparty.verifiedStatus = some "sanctions_cleared"

/-- Checks 6.5, 6.6 and 6.7. -/
structure ContextCleared (counterparty : GateCounterparty) : Prop where
  settled : input.intent.actionType = .x402Settle → input.intent.settlement ≠ none
  settlement : ∀ s, input.intent.settlement = some s →
    s.asset = "USDC" ∧ s.network = "base" ∧ input.intent.currency = "USDC" ∧
      AtMost s.amount input.intent.amount ∧ AtMost input.intent.amount s.amount ∧
        sameAddress counterparty.onchainAddress s.payTo = true
  escrowed : input.intent.actionType = .escrowRelease → input.intent.escrow ≠ none
  escrow : ∀ e resolve, input.intent.escrow = some e → deps.resolveEscrowState = some resolve →
    ∃ onchain, resolve e.escrowId = .ok (some onchain) ∧ onchain.state = .locked ∧
      onchain.assetMatchesSettlement = true ∧ AtMost input.intent.amount onchain.remaining ∧
        onchain.jobTermsHash = e.jobTermsHash ∧
          sameAddress counterparty.onchainAddress onchain.payee = true
  direction : ∀ resolve, input.intent.obligationId ≠ none →
    deps.resolveObligationDirection = some resolve →
      ∃ direction, resolve input.intent = .ok direction ∧ direction ≠ some .receivable

/-- Checks 7, 8 and 8.5. -/
structure AmountCleared (decision : GatePolicyDecision) (account : GateAccount) : Prop where
  bound : ∀ upper, decision.amountUpperBound = some upper →
    input.intent.currency = upper.currency ∧ AtMost input.intent.amount upper.value
  balance : input.intent.actionType ≠ .x402Settle → input.intent.actionType ≠ .escrowRelease →
    ∀ available, account.availableBalance = some available →
      account.currency = input.intent.currency ∧
        ∃ reserved, reservedAmount deps input = .ok reserved ∧
          SumAtMost input.intent.amount reserved available
  window : ∀ cap sumSpend, decision.micropaymentWindowCap = some cap →
    deps.sumAgentWindowSpend = some sumSpend →
      input.intent.currency = cap.currency ∧
        ∃ spend, sumSpend input.principal.id cap.windowSeconds = .ok spend ∧
          SumAtMost input.intent.amount spend cap.value

/-- Checks 9 and 9.5. -/
structure EvidenceCleared (decision : GatePolicyDecision) (agent : GateAgent) : Prop where
  attached : decision.requiredEvidenceKinds ≠ [] → input.intent.evidenceIds ≠ []
  supports : ∀ resolve, deps.resolveEvidence = some resolve →
    ∃ evidence provenance, resolve input.intent = .ok evidence ∧
      Supports (evidenceInput deps input agent evidence) ∧
        obligationProvenance deps input = .ok provenance ∧
          Corroborated ⟨decision.outcome, evidence, provenance⟩

/-- Check 11. -/
structure ApprovalCleared (decision : GatePolicyDecision) : Prop where
  quorum : decision.outcome = .confirm →
    ∃ signedRoles, deps.resolveApprovals input.intent.id decision.policyVersion = .ok signedRoles ∧
      hasRequiredRoleQuorum decision.requiredApprovers signedRoles.toFinset = true
  floor : requiresHardHumanApprovalFloor input.intent decision
      deps.fiatHumanApprovalFloorEnabled = true →
    ∃ signedRoles, deps.resolveApprovals input.intent.id decision.policyVersion = .ok signedRoles ∧
      signedRoles ≠ []

/-- Check 11.5. -/
def DuplicatesCleared : Prop :=
  ∀ detect, deps.detectDuplicates = some detect →
    ∃ result, detect (duplicateIntent input) = .ok result ∧ result.passed = true

/-- Every active check holds, on the decision the policy gave. -/
def EveryCheckHolds (decision : GatePolicyDecision) : Prop :=
  ∃ agent account counterparty,
    AgentCleared deps input agent ∧ PolicyCleared deps input decision ∧
      AccountCleared deps input account ∧ CounterpartyCleared deps input decision counterparty ∧
        ContextCleared deps input counterparty ∧ AmountCleared deps input decision account ∧
          EvidenceCleared deps input decision agent ∧ ApprovalCleared deps input decision ∧
            DuplicatesCleared deps input

end Cleared

end BrainCore.Gate
