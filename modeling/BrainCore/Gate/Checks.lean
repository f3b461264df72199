import BrainCore.Gate.GateM
import BrainCore.Gate.Evidence
import BrainCore.Shared.ApproverRoles

/-!
# The checks of the gate

The checks of `runPreExecutionGate` in `shared/src/gate/gate.ts`, each with the
dependencies it asks.
-/

namespace BrainCore.Gate

open BrainCore.Foundation BrainCore.Policy BrainCore.Shared

def textOrNull (text : Option String) : Json := (text.map Json.str).getD .null

def texts (items : List String) : Json := .arr (items.map Json.str)

def notApplicable : Detail := [("not_applicable", .bool true)]

def reason (text : String) : Detail := [("reason", .str text)]

def amountJson (amount : Amount) : Json :=
  .obj [("currency", .str amount.currency), ("value", .str amount.value)]

section Checks

variable (deps : GateDependencies) (input : RunGateInput)

/-! ## The principal -/

/-- `input.intent.created_by_agent_id ?? input.principal.id`. -/
def agentIdOf : String := input.intent.createdByAgentId.getD input.principal.id

/-- 1: the principal is the intent's agent, and it is active. -/
def agentIdentityVerified : GateM GateAgent :=
  if input.principal.type ≠ .agent then
    failGate .agentIdentityVerified [("type", .str input.principal.type.text)]
  else if input.intent.createdByAgentId ≠ none ∧
      input.intent.createdByAgentId ≠ some input.principal.id then
    failGate .agentIdentityVerified (reason "principal does not own this PaymentIntent")
  else do
    let agent ← ask (deps.resolveAgent (agentIdOf input))
    match agent with
    | none =>
        failGate .agentIdentityVerified
          [("agent_id", .str (agentIdOf input)), ("state", .str "missing")]
    | some agent =>
        if agent.state ≠ "active" then
          failGate .agentIdentityVerified
            [("agent_id", .str (agentIdOf input)), ("state", .str agent.state)]
        else do
          pass .agentIdentityVerified
          pure agent

/-- `tenantFlags?.requireBehaviorHash ?? false`. -/
def requireBehaviorHash : Except String Bool :=
  match deps.resolveTenantFlags with
  | none => .ok false
  | some resolve => (resolve input.ctx.tenantId).map (·.requireBehaviorHash)

/-- 1.5: the runtime runs the behavior the agent registered. -/
def agentBehaviorPinned (agent : GateAgent) : GateM Unit := do
  let required ← ask (requireBehaviorHash deps input)
  match input.runtimeBehaviorHash, agent.behaviorHash with
  | some runtime, some registered =>
      if registered ≠ runtime then
        failGate .agentBehaviorPinned
          [("registered", .str registered), ("runtime", .str runtime)]
      else pass .agentBehaviorPinned
  | runtime, registered =>
      if required then
        failGate .agentBehaviorPinned
          [("reason", .str "tenant requires behavior-hash pinning but it is unverifiable"),
            ("require_behavior_hash", .bool true),
            ("runtime_hash_present", .bool runtime.isSome),
            ("registered_hash_present", .bool registered.isSome)]
      else if deps.resolveTenantFlags.isSome then pass .agentBehaviorPinned notApplicable
      else pure ()

/-- 2: the scope to execute payments. -/
def agentAuthorized (agent : GateAgent) : GateM Unit :=
  if "payment_intent:execute" ∉ input.principal.scopes ∧ ¬agent.canExecutePayments then
    failGate .agentAuthorized [("missing_scope", .str "payment_intent:execute")]
  else pass .agentAuthorized

/-! ## The counterparty before the policy -/

def toTrustStatus (text : Option String) : Option TrustStatus :=
  match text with
  | some "unreviewed" => some .unreviewed
  | some "trusted" => some .trusted
  | some "paused" => some .paused
  | some "acknowledged" => some .acknowledged
  | _ => none

/-- 5: the counterparty is not sanctioned. -/
def counterpartyAllowed (counterparty : GateCounterparty) : GateM Unit :=
  if counterparty.riskLevel = some "sanctioned" then
    failGate .counterpartyAllowed (reason "counterparty sanctioned")
  else pass .counterpartyAllowed

/-- 5.25: the counterparty's trust state is known and not paused. -/
def counterpartyTrustAllowed (counterparty : GateCounterparty) : GateM TrustStatus :=
  match toTrustStatus counterparty.trustStatus with
  | none =>
      failGate .counterpartyTrustAllowed
        [("reason", .str "counterparty_trust_unknown"),
          ("trust_status", .str (counterparty.trustStatus.getD "unknown"))]
  | some .paused =>
      failGate .counterpartyTrustAllowed
        [("reason", .str "counterparty_trust_paused"), ("trust_status", .str "paused")]
  | some status => do
      pass .counterpartyTrustAllowed [("trust_status", textOrNull counterparty.trustStatus)]
      pure status

/-- 5 and 5.25 before the policy, when the trust gate is enabled. -/
def preloadCounterparty : GateM (GateCounterparty × TrustStatus) :=
  match deps.resolveCounterparty input.intent.destinationCounterpartyId with
  | .error _ =>
      failGate .counterpartyTrustAllowed
        [("reason", .str "counterparty_trust_unknown"), ("trust_status", .str "unknown"),
          ("loader_failure", .bool true)]
  | .ok none => failGate .counterpartyAllowed (reason "counterparty not found")
  | .ok (some counterparty) => do
      counterpartyAllowed counterparty
      let status ← counterpartyTrustAllowed counterparty
      pure (counterparty, status)

/-! ## The policy's decision, the account and the counterparty -/

/-- 3: a rule matched, and it does not reject. -/
def actionAllowed (decision : GatePolicyDecision) : GateM Unit :=
  match decision.matchedRuleId, decision.outcome with
  | none, _ => failGate .actionAllowed (reason "no rule matched")
  | some ruleId, .reject =>
      failGate .actionAllowed
        [("reason", .str "policy explicitly rejected"), ("matched_rule_id", .str ruleId)]
  | some ruleId, .other text =>
      failGate .actionAllowed
        [("reason", .str "non_canonical_policy_outcome"), ("outcome", .str text),
          ("matched_rule_id", .str ruleId)]
  | some ruleId, _ => pass .actionAllowed [("matched_rule_id", .str ruleId)]

/-- 3.5: on-chain settlement is not refused by the policy. -/
def onchainSettlementPermitted (decision : GatePolicyDecision) : GateM Unit :=
  if input.intent.actionType = .x402Settle ∨ input.intent.settlement.isSome then
    if isFalse decision.onchainSettlementPermitted then
      failGate .onchainSettlementPermitted
        (reason "tenant policy does not permit on-chain settlement for this payment class")
    else if isTrue decision.onchainSettlementPermitted then pass .onchainSettlementPermitted
    else pass .onchainSettlementPermitted notApplicable
  else pure ()

/-- 4: the source account is active. -/
def sourceAccountAllowed : GateM GateAccount := do
  let account ← ask (deps.resolveAccount input.intent.sourceAccountId)
  match account with
  | none => failGate .sourceAccountAllowed (reason "account not found")
  | some account =>
      if account.status ≠ "active" then
        failGate .sourceAccountAllowed [("status", .str account.status)]
      else do
        pass .sourceAccountAllowed
        pure account

/-- 5 in its own place, unless the trust gate has loaded the counterparty before. -/
def resolvedCounterparty (preloaded : Option (GateCounterparty × TrustStatus)) :
    GateM GateCounterparty :=
  match preloaded with
  | some (counterparty, _) => pure counterparty
  | none => do
      let counterparty ← ask (deps.resolveCounterparty input.intent.destinationCounterpartyId)
      match counterparty with
      | none => failGate .counterpartyAllowed (reason "counterparty not found")
      | some counterparty => do
          counterpartyAllowed counterparty
          pure counterparty

/-- 5.5: an agent payee is registered and not revoked. -/
def agentCounterpartyAttested (counterparty : GateCounterparty) : GateM Unit :=
  match deps.attestCounterpartyAgent with
  | none => pure ()
  | some attest =>
      if counterparty.type = "agent" then do
        let attestation ← ask (attest
          ⟨input.ctx.tenantId, counterparty.id, counterparty.agentId⟩)
        if ¬attestation.attested then
          failGate .agentCounterpartyAttested
            [("counterparty_id", .str counterparty.id),
              ("agent_id", textOrNull counterparty.agentId),
              ("registered", .bool (attestation.registered.getD false)),
              ("revoked", .bool (attestation.revoked.getD false)),
              ("reason", .str (attestation.reason.getD "agent payee is not attested"))]
        else pass .agentCounterpartyAttested
      else pass .agentCounterpartyAttested notApplicable

/-- 6: above the threshold the counterparty is verified. -/
def counterpartyVerified (decision : GatePolicyDecision) (counterparty : GateCounterparty) :
    GateM Unit :=
  match decision.counterpartyVerificationThreshold with
  | none => pass .counterpartyVerified
  | some threshold =>
      if 0 < cmpDecimal input.intent.amount threshold.value ∧
          input.intent.currency = threshold.currency ∧
          counterparty.verifiedStatus ≠ some "document_verified" ∧
          counterparty.verifiedStatus ≠ some "sanctions_cleared" then
        failGate .counterpartyVerified
          [("required_above", amountJson threshold),
            ("actual_status", .str (counterparty.verifiedStatus.getD "unverified"))]
      else pass .counterpartyVerified

/-! ## On-chain contexts and the obligation -/

def refusal (refused : Bool) (text : String) : List String := if refused then [text] else []

def sameAddress (address : Option String) (other : String) : Bool :=
  address.any fun address => address.toLower = other.toLower

/-- What an on-chain settlement must agree on. -/
def settlementFailures (intent : GatePaymentIntent) (counterparty : GateCounterparty)
    (s : Settlement) : List String :=
  refusal (s.asset ≠ "USDC") "asset must be USDC" ++
    refusal (s.network ≠ "base") "network must be base" ++
    refusal (intent.currency ≠ s.asset) "intent currency does not match settled asset" ++
    (if ¬autonomousCapDecimal s.amount then ["settlement amount is not a decimal string"]
      else refusal (cmpDecimal s.amount intent.amount ≠ 0)
        "settlement amount does not match intent amount") ++
    (if ¬isOnchainAddress s.payTo then ["settlement pay_to is not a 0x address"]
      else refusal (¬sameAddress counterparty.onchainAddress s.payTo)
        "settlement recipient does not match counterparty on-chain address")

/-- 6.5: the settlement context is consistent with the intent and the payee. -/
def x402PaymentContextValid (counterparty : GateCounterparty) : GateM Unit :=
  match input.intent.settlement with
  | none =>
      if input.intent.actionType = .x402Settle then
        passUnless .x402PaymentContextValid ["x402_settle requires settlement context"]
      else pure ()
  | some s =>
      passUnless .x402PaymentContextValid (settlementFailures input.intent counterparty s)

/-- What a release must agree on with the lock. -/
def escrowFailures (intent : GatePaymentIntent) (counterparty : GateCounterparty) (escrow : Escrow)
    (onchain : ResolvedEscrowState) : List String :=
  refusal (onchain.state ≠ .locked) ("escrow is not Locked (state=" ++ onchain.state.text ++ ")") ++
    (if ¬onchain.assetMatchesSettlement then
        ["escrow token is not the configured settlement asset"]
      else refusal (cmpDecimal onchain.remaining intent.amount < 0)
        "release amount exceeds escrow remaining balance") ++
    refusal (onchain.jobTermsHash ≠ escrow.jobTermsHash)
      "job-terms commitment does not match the on-chain escrow" ++
    refusal (¬sameAddress counterparty.onchainAddress onchain.payee)
      "escrow payee does not match the counterparty on-chain address"

/-- 6.6: the lock on chain covers the release. -/
def escrowStateBound (counterparty : GateCounterparty) : GateM Unit :=
  match input.intent.escrow, deps.resolveEscrowState with
  | none, _ =>
      if input.intent.actionType = .escrowRelease then
        passUnless .escrowStateBound ["escrow_release requires escrow context"]
      else pure ()
  | some _, none => pure ()
  | some escrow, some resolve => do
      let onchain ← ask (resolve escrow.escrowId)
      match onchain with
      | none => passUnless .escrowStateBound ["on-chain escrow not found"]
      | some onchain =>
          passUnless .escrowStateBound (escrowFailures input.intent counterparty escrow onchain)

/-- 6.7: the linked obligation is not money owed to the tenant. -/
def obligationDirectionMatchesFlow : GateM Unit :=
  match input.intent.obligationId, deps.resolveObligationDirection with
  | some obligationId, some resolve => do
      let direction ← ask (resolve input.intent)
      if direction = some .receivable then
        failGate .obligationDirectionMatchesFlow
          [("obligation_id", .str obligationId), ("direction", .str "receivable"),
            ("reason", .str "outflow targets a receivable (money owed to us); refusing")]
      else
        pass .obligationDirectionMatchesFlow
          [("obligation_id", .str obligationId),
            ("direction", textOrNull (direction.map (·.text)))]
  | _, _ => pure ()

/-! ## Amount, balance and window -/

/-- 7: the amount is within the rule's bound. -/
def amountWithinLimit (decision : GatePolicyDecision) : GateM Unit :=
  match decision.amountUpperBound with
  | none => pass .amountWithinLimit
  | some upper =>
      if input.intent.currency ≠ upper.currency then
        failGate .amountWithinLimit
          [("reason", .str "currency mismatch"), ("expected", .str upper.currency),
            ("actual", .str input.intent.currency)]
      else if 0 < cmpDecimal input.intent.amount upper.value then
        failGate .amountWithinLimit
          [("amount", .str input.intent.amount), ("upper", .str upper.value)]
      else pass .amountWithinLimit

/-- `(await deps.sumActiveReservations?.(source_account_id)) ?? "0"`. -/
def reservedAmount : Except String String :=
  match deps.sumActiveReservations with
  | none => .ok "0"
  | some sum => sum input.intent.sourceAccountId

/-- 8: the balance covers the amount and what is reserved. -/
def availableBalanceSufficient (account : GateAccount) : GateM Unit :=
  if input.intent.actionType = .x402Settle ∨ input.intent.actionType = .escrowRelease then
    pass .availableBalanceSufficient notApplicable
  else
    match account.availableBalance with
    | none => pass .availableBalanceSufficient
    | some available =>
        if account.currency ≠ input.intent.currency then
          failGate .availableBalanceSufficient
            (reason "currency mismatch between account and intent")
        else do
          let reserved ← ask (reservedAmount deps input)
          let required ← ask (addDecimalString input.intent.amount reserved)
          if cmpDecimal available required < 0 then
            failGate .availableBalanceSufficient
              [("available", .str available), ("requested", .str input.intent.amount),
                ("reserved", .str reserved)]
          else pass .availableBalanceSufficient

/-- 8.5: the agent's spend in the window stays within the cap. -/
def micropaymentCapWithinWindow (decision : GatePolicyDecision) : GateM Unit :=
  match decision.micropaymentWindowCap, deps.sumAgentWindowSpend with
  | some cap, some sumSpend =>
      if input.intent.currency ≠ cap.currency then
        failGate .micropaymentCapWithinWindow
          [("reason", .str "currency mismatch between intent and window cap"),
            ("expected", .str cap.currency), ("actual", .str input.intent.currency)]
      else do
        let windowSpend ← ask (sumSpend (agentIdOf input) cap.windowSeconds)
        let projected ← ask (addDecimalString input.intent.amount windowSpend)
        if 0 < cmpDecimal projected cap.value then
          failGate .micropaymentCapWithinWindow
            [("window_seconds", .num cap.windowSeconds), ("window_spend", .str windowSpend),
              ("amount", .str input.intent.amount), ("cap", .str cap.value)]
        else pass .micropaymentCapWithinWindow
  | _, _ => pure ()

/-! ## Evidence -/

/-- 9: evidence is attached when the rule asks for it. -/
def requiredEvidencePresent (decision : GatePolicyDecision) : GateM Unit :=
  if decision.requiredEvidenceKinds ≠ [] ∧ input.intent.evidenceIds = [] then
    failGate .requiredEvidencePresent
      [("required", .arr decision.requiredEvidenceKinds),
        ("provided", texts input.intent.evidenceIds)]
  else pass .requiredEvidencePresent

/-- What the intent asks of its evidence. -/
def evidenceInput (agent : GateAgent) (evidence : List ResolvedEvidence) :
    EvidenceValidationInput :=
  { actionType := input.intent.actionType
    paymentIntent :=
      { counterpartyId := input.intent.destinationCounterpartyId
        amount := input.intent.amount
        currency := input.intent.currency
        invoiceId := input.intent.invoiceId
        obligationId := input.intent.obligationId }
    evidence := evidence
    maxRiskLevel := agent.maxRiskLevel
    now := deps.now }

/-- The provenance of the linked obligation, when a loader is wired. -/
def obligationProvenance : Except String (Option String) :=
  match deps.resolveObligationProvenance, input.intent.obligationId with
  | some resolve, some _ => resolve input.intent
  | _, _ => .ok none

def failureJson (failure : EvidenceFailure) : Json :=
  .obj [("rule", .str failure.rule), ("detail", .str failure.detail)]

def passUnlessEvidence (found : List EvidenceFailure) (next : GateM Unit) : GateM Unit :=
  if found ≠ [] then failGate .evidenceSupportsAction [("failures", .arr (found.map failureJson))]
  else next

/-- 9.5: the evidence supports the action. -/
def evidenceSupportsAction (agent : GateAgent) (decision : GatePolicyDecision) : GateM Unit :=
  match deps.resolveEvidence with
  | none => pass .evidenceSupportsAction notApplicable
  | some resolve => do
      let evidence ← ask (resolve input.intent)
      let found ← ask (validateEvidence (evidenceInput deps input agent evidence))
      passUnlessEvidence found do
        let provenance ← ask (obligationProvenance deps input)
        passUnlessEvidence (validateLowTrustAutoExecution ⟨decision.outcome, evidence, provenance⟩)
          (pass .evidenceSupportsAction)

/-! ## Approval and duplicates -/

/-- 11: the roles that signed are the ones that must, or some human at the floor. -/
def approvalGrantedWhenRequired (decision : GatePolicyDecision) : GateM Unit :=
  let floor := requiresHardHumanApprovalFloor input.intent decision
    deps.fiatHumanApprovalFloorEnabled
  if decision.outcome = .confirm ∨ floor then do
    let signedRoles ← ask (deps.resolveApprovals input.intent.id decision.policyVersion)
    if decision.outcome = .confirm ∧
        ¬hasRequiredRoleQuorum decision.requiredApprovers signedRoles.toFinset then
      failGate .approvalGrantedWhenRequired
        [("required", texts decision.requiredApprovers), ("signed", texts signedRoles),
          ("missing", texts (decision.requiredApprovers.filter (· ∉ signedRoles)))]
    else if floor ∧ signedRoles = [] then
      failGate .approvalGrantedWhenRequired
        [("reason", .str "hard_human_approval_floor_required"),
          ("action_type", .str input.intent.actionType.text), ("signed", texts signedRoles)]
    else pass .approvalGrantedWhenRequired
  else pass .approvalGrantedWhenRequired

def duplicateIntent : DuplicateIntent :=
  { id := input.intent.id
    counterpartyId := input.intent.destinationCounterpartyId
    amount := input.intent.amount
    currency := input.intent.currency
    invoiceId := input.intent.invoiceId
    obligationId := input.intent.obligationId
    evidenceArtifactIds := input.intent.evidenceIds }

def collisionJson (collision : DuplicateCollision) : Json :=
  .obj ([("rule", .str collision.rule), ("detail", .str collision.detail)] ++
    collision.conflictingPaymentIntentId.toList.map
      fun id => ("conflictingPaymentIntentId", .str id))

/-- 11.5: no payment it repeats was found. -/
def noDuplicatePayment : GateM Unit :=
  match deps.detectDuplicates with
  | none => pass .noDuplicatePayment notApplicable
  | some detect => do
      let result ← ask (detect (duplicateIntent input))
      if ¬result.passed then
        failGate .noDuplicatePayment
          [("collisions", .arr (result.collisions.map collisionJson))]
      else pass .noDuplicatePayment

end Checks

end BrainCore.Gate
