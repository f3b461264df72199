import BrainCore.Foundation.Json
import BrainCore.Shared.Decimal

/-!
# The policy language

The rule language of `services/policy/src/dsl.ts`.  A document here is one the
validator let through: amounts are strings of the amount grammar, and the
members the validator does not look at stay raw JSON.
-/

namespace BrainCore.Policy

open BrainCore.Foundation BrainCore.Shared

inductive ApplyTo where
  | outboundPayment
  | inboundPayment
  | ledgerWrite
  | onchainTx
  | agentAction
  | any
deriving DecidableEq

inductive ExecuteMode where
  | auto
  | confirm
  | reject
deriving DecidableEq

structure AmountLiteral where
  currency : String
  value : DecimalString
deriving DecidableEq

/-- Aggregate spend cap over a window. -/
structure SpendWindowConstraint where
  window : String
  lte : AmountLiteral
deriving DecidableEq

/-- Aggregate transaction-count cap over a window. -/
structure TxCountWindowConstraint where
  window : String
  lte : Nat
deriving DecidableEq

inductive RiskLevel where
  | low
  | medium
  | high
  | critical
deriving DecidableEq

inductive TenantCategory where
  | business
  | consumer
deriving DecidableEq

structure RuleWhen where
  counterpartyIn : Option String := none
  counterpartyNotIn : Option String := none
  amountLte : Option AmountLiteral := none
  amountGt : Option AmountLiteral := none
  agentRole : Option String := none
  timeWindow : Option String := none
  agentId : Option String := none
  tenantCategory : Option TenantCategory := none
  actionIn : Option (List String) := none
  actionNotIn : Option (List String) := none
  agentBehaviorHash : Option String := none
  agentSpendInWindow : Option SpendWindowConstraint := none
  agentTxCountInWindow : Option TxCountWindowConstraint := none
  agentConfidenceGte : Option Rat := none
  agentEvidenceScoreGte : Option Rat := none
  agentRiskLevelLte : Option RiskLevel := none

structure PolicyRule where
  id : String
  appliesTo : List ApplyTo
  when : RuleWhen
  require : Option String := none
  execute : ExecuteMode
  approvalRequiredAbove : Option AmountLiteral := none
  x402AutonomousMaxAmount : Option AmountLiteral := none
  achAutonomousMaxAmount : Option AmountLiteral := none
  cardAutonomousMaxAmount : Option AmountLiteral := none
  /-- Not looked at by the validator. -/
  onchainSettlementPermitted : Option Json := none
  /-- Not looked at by the validator. -/
  requiredEvidenceKinds : Option Json := none
  /-- Not part of the rule type; read defensively by the reputation adjustment. -/
  reputation : Option Json := none

structure PolicyDocument where
  version : Nat
  rules : List PolicyRule
  lists : List (String × List String) := []

/-- `policy.lists?.[ref] ?? []`. -/
def PolicyDocument.list (policy : PolicyDocument) (ref : String) : List String :=
  ((policy.lists.find? fun entry => entry.1 = ref).map Prod.snd).getD []

end BrainCore.Policy
