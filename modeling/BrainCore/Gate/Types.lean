import BrainCore.Policy.Vm

/-!
# What the pre-execution gate reads and returns

The inputs of `shared/src/gate/gate.ts`, the answers of the dependencies its
caller injects, and its result.  A dependency is a function that may throw; an
optional one may be absent.  The digest of the resolved ledger state is a
parameter.
-/

namespace BrainCore.Gate

open BrainCore.Foundation BrainCore.Policy

/-! ## The intent and the principal -/

inductive ActionType where
  | achOutbound
  | achInbound
  | wire
  | onchainTransfer
  | erpWriteback
  | cardPayment
  | x402Settle
  | escrowRelease
  | other
deriving DecidableEq

def ActionType.text : ActionType → String
  | .achOutbound => "ach_outbound"
  | .achInbound => "ach_inbound"
  | .wire => "wire"
  | .onchainTransfer => "onchain_transfer"
  | .erpWriteback => "erp_writeback"
  | .cardPayment => "card_payment"
  | .x402Settle => "x402_settle"
  | .escrowRelease => "escrow_release"
  | .other => "other"

/-- On-chain settlement context of an x402 payment. -/
structure Settlement where
  asset : String
  network : String
  amount : String
  payTo : String

/-- On-chain context of a conditional settlement. -/
structure Escrow where
  escrowId : String
  jobTermsHash : String

structure GatePaymentIntent where
  id : String
  ownerId : String
  createdByAgentId : Option String
  actionType : ActionType
  sourceAccountId : String
  destinationCounterpartyId : String
  amount : String
  currency : String
  evidenceIds : List String := []
  confidence : Option Rat := none
  evidenceScore : Option Rat := none
  riskLevel : Option RiskLevel := none
  counterpartyTrustStatus : Option TrustStatus := none
  invoiceId : Option String := none
  obligationId : Option String := none
  settlement : Option Settlement := none
  escrow : Option Escrow := none

inductive PrincipalType where
  | user
  | agent
  | apiPartner
deriving DecidableEq

def PrincipalType.text : PrincipalType → String
  | .user => "user"
  | .agent => "agent"
  | .apiPartner => "api_partner"

structure GatePrincipal where
  id : String
  type : PrincipalType
  scopes : List String

structure GateContext where
  tenantId : String
  actor : String

structure RunGateInput where
  ctx : GateContext
  principal : GatePrincipal
  intent : GatePaymentIntent
  dryRun : Bool := false
  runtimeBehaviorHash : Option String := none

/-! ## The answers of the dependencies -/

structure GateAgent where
  id : String
  state : String
  canExecutePayments : Bool
  behaviorHash : Option String := none
  maxRiskLevel : Option RiskLevel := none

structure GateAccount where
  id : String
  status : String
  currency : String
  availableBalance : Option String

structure GateCounterparty where
  id : String
  type : String
  riskLevel : Option String
  verifiedStatus : Option String
  trustStatus : Option String := none
  agentId : Option String := none
  onchainAddress : Option String := none

structure GateTenantFlags where
  requireBehaviorHash : Bool

/-- The policy's outcome; the gate also meets texts outside the type. -/
inductive GateOutcome where
  | allow
  | confirm
  | reject
  | other (text : String)
deriving DecidableEq

def GateOutcome.text : GateOutcome → String
  | .allow => "allow"
  | .confirm => "confirm"
  | .reject => "reject"
  | .other text => text

structure WindowCap where
  currency : String
  value : String
  windowSeconds : Nat

structure ReputationTrace where
  score : Rat
  minScore : Rat
  source : Option String
  applied : List String

inductive TraceEntry where
  | rule (trace : DecisionTrace)
  | reputationAdjustment (trace : ReputationTrace)

structure GatePolicyDecision where
  id : String
  outcome : GateOutcome
  matchedRuleId : Option String
  requiredApprovers : List String
  ledgerSnapshotHash : String
  trace : List TraceEntry
  requiredEvidenceKinds : List Json := []
  counterpartyVerificationThreshold : Option Amount := none
  amountUpperBound : Option Amount := none
  policyVersion : Option Nat := none
  onchainSettlementPermitted : Option Json := none
  micropaymentWindowCap : Option WindowCap := none
  x402AutonomousMaxAmount : Option Amount := none
  achAutonomousMaxAmount : Option Amount := none
  cardAutonomousMaxAmount : Option Amount := none

inductive TrustLevel where
  | high
  | medium
  | low
deriving DecidableEq

def TrustLevel.text : TrustLevel → String
  | .high => "high"
  | .medium => "medium"
  | .low => "low"

structure ResolvedEvidence where
  id : String
  kind : String
  extracted : Json
  sourceArtifactId : String
  capturedAt : Instant
  trustLevel : TrustLevel

structure AgentAttestationInput where
  tenantId : String
  counterpartyId : String
  agentId : Option String

structure AgentAttestationResult where
  attested : Bool
  registered : Option Bool := none
  revoked : Option Bool := none
  reason : Option String := none

inductive EscrowOnchainState where
  | none
  | locked
  | settled
deriving DecidableEq

def EscrowOnchainState.text : EscrowOnchainState → String
  | .none => "None"
  | .locked => "Locked"
  | .settled => "Settled"

structure ResolvedEscrowState where
  state : EscrowOnchainState
  payee : String
  assetMatchesSettlement : Bool
  remaining : String
  jobTermsHash : String

structure DuplicateIntent where
  id : String
  counterpartyId : String
  amount : String
  currency : String
  invoiceId : Option String
  obligationId : Option String
  evidenceArtifactIds : List String

structure DuplicateCollision where
  rule : String
  detail : String
  conflictingPaymentIntentId : Option String := none
deriving DecidableEq

structure DuplicateCheckResult where
  passed : Bool
  collisions : List DuplicateCollision

inductive ObligationDirection where
  | payable
  | receivable
deriving DecidableEq

def ObligationDirection.text : ObligationDirection → String
  | .payable => "payable"
  | .receivable => "receivable"

/-! ## The result -/

inductive GateCheckName where
  | agentIdentityVerified
  | agentBehaviorPinned
  | agentAuthorized
  | actionAllowed
  | onchainSettlementPermitted
  | sourceAccountAllowed
  | counterpartyAllowed
  | counterpartyTrustAllowed
  | agentCounterpartyAttested
  | counterpartyVerified
  | x402PaymentContextValid
  | escrowStateBound
  | obligationDirectionMatchesFlow
  | amountWithinLimit
  | ledgerStateBound
  | availableBalanceSufficient
  | micropaymentCapWithinWindow
  | requiredEvidencePresent
  | evidenceSupportsAction
  | approvalRequirementDetermined
  | approvalGrantedWhenRequired
  | noDuplicatePayment
  | policyDecisionRecorded
  | auditBeforeEmitted
deriving DecidableEq

/-- The number of a check, in hundredths. -/
def GateCheckName.index : GateCheckName → Nat
  | .agentIdentityVerified => 100
  | .agentBehaviorPinned => 150
  | .agentAuthorized => 200
  | .actionAllowed => 300
  | .onchainSettlementPermitted => 350
  | .sourceAccountAllowed => 400
  | .counterpartyAllowed => 500
  | .counterpartyTrustAllowed => 525
  | .agentCounterpartyAttested => 550
  | .counterpartyVerified => 600
  | .x402PaymentContextValid => 650
  | .escrowStateBound => 660
  | .obligationDirectionMatchesFlow => 670
  | .amountWithinLimit => 700
  | .ledgerStateBound => 750
  | .availableBalanceSufficient => 800
  | .micropaymentCapWithinWindow => 850
  | .requiredEvidencePresent => 900
  | .evidenceSupportsAction => 950
  | .approvalRequirementDetermined => 1000
  | .approvalGrantedWhenRequired => 1100
  | .noDuplicatePayment => 1150
  | .policyDecisionRecorded => 1200
  | .auditBeforeEmitted => 1300

def GateCheckName.text : GateCheckName → String
  | .agentIdentityVerified => "agent_identity_verified"
  | .agentBehaviorPinned => "agent_behavior_pinned"
  | .agentAuthorized => "agent_authorized"
  | .actionAllowed => "action_allowed"
  | .onchainSettlementPermitted => "onchain_settlement_permitted"
  | .sourceAccountAllowed => "source_account_allowed"
  | .counterpartyAllowed => "counterparty_allowed"
  | .counterpartyTrustAllowed => "counterparty_trust_allowed"
  | .agentCounterpartyAttested => "agent_counterparty_attested"
  | .counterpartyVerified => "counterparty_verified"
  | .x402PaymentContextValid => "x402_payment_context_valid"
  | .escrowStateBound => "escrow_state_bound"
  | .obligationDirectionMatchesFlow => "obligation_direction_matches_flow"
  | .amountWithinLimit => "amount_within_limit"
  | .ledgerStateBound => "ledger_state_bound"
  | .availableBalanceSufficient => "available_balance_sufficient"
  | .micropaymentCapWithinWindow => "micropayment_cap_within_window"
  | .requiredEvidencePresent => "required_evidence_present"
  | .evidenceSupportsAction => "evidence_supports_action"
  | .approvalRequirementDetermined => "approval_requirement_determined"
  | .approvalGrantedWhenRequired => "approval_granted_when_required"
  | .noDuplicatePayment => "no_duplicate_payment"
  | .policyDecisionRecorded => "policy_decision_recorded"
  | .auditBeforeEmitted => "audit_before_emitted"

abbrev Detail := List (String × Json)

structure GateCheck where
  name : GateCheckName
  passed : Bool
  detail : Detail := []

structure GateSuccess where
  dryRun : Bool
  outcome : GateOutcome
  requiredApprovers : List String
  policyDecisionId : String
  auditBeforeEventId : String
  ledgerStateHash : String
  trace : List TraceEntry
  checks : List GateCheck

structure GateFailure where
  dryRun : Bool
  outcome : Option GateOutcome
  requiredApprovers : List String
  failedCheck : GateCheck
  checks : List GateCheck
  trace : List TraceEntry

inductive GateResult where
  | success (result : GateSuccess)
  | failure (result : GateFailure)

/-- The audit-before event. -/
structure AuditBefore where
  tenantId : String
  actor : String
  policyDecisionId : String
  policyCheckId : Option String
  outcome : GateOutcome
  intent : GatePaymentIntent
  ledgerStateHash : String
  gateChecks : List GateCheck

/-- The hooks the caller provides. -/
structure GateDependencies where
  resolveAgent : String → Except String (Option GateAgent)
  resolveAccount : String → Except String (Option GateAccount)
  resolveCounterparty : String → Except String (Option GateCounterparty)
  evaluatePolicy : GatePaymentIntent → Bool → Except String GatePolicyDecision
  resolveApprovals : String → Option Nat → Except String (List String)
  audit : AuditBefore → Except String String
  ledgerSnapshot : GateAccount → GateCounterparty → String
  now : Instant
  traceCache : Option (GatePaymentIntent → List TraceEntry → Except String Unit) := none
  sumActiveReservations : Option (String → Except String String) := none
  resolveEvidence : Option (GatePaymentIntent → Except String (List ResolvedEvidence)) := none
  detectDuplicates : Option (DuplicateIntent → Except String DuplicateCheckResult) := none
  resolveTenantFlags : Option (String → Except String GateTenantFlags) := none
  attestCounterpartyAgent :
    Option (AgentAttestationInput → Except String AgentAttestationResult) := none
  sumAgentWindowSpend : Option (String → Nat → Except String String) := none
  resolveEscrowState : Option (String → Except String (Option ResolvedEscrowState)) := none
  resolveObligationDirection :
    Option (GatePaymentIntent → Except String (Option ObligationDirection)) := none
  resolveObligationProvenance : Option (GatePaymentIntent → Except String (Option String)) := none
  fiatHumanApprovalFloorEnabled : Option Bool := none
  trustGateEnabled : Option Bool := none

end BrainCore.Gate
