import BrainCore.Foundation.CallRoles
import BrainCore.Foundation.Json
import BrainCore.Foundation.Table
import BrainCore.Foundation.Text

/-!
# Agents, handlers and their actions

The types that the event worker and the run service share: what the router
decides, what an agent declares, what its handler builds, and the action
resolver of `services/agent-router/src/action-resolver.ts`.
-/

namespace BrainCore.AgentRouter

open BrainCore.Foundation

abbrev Members := List (String × Json)

/-- What is thrown, by its message. -/
structure RunError where
  message : String
deriving DecidableEq

/-! ## Routing -/

structure ServiceCallContext where
  tenantId : String
  actor : String
deriving DecidableEq

structure RoutingInput where
  tenantId : String
  event : Option String := none
  targetAgentId : Option String := none
  idempotencyKey : Option String := none
  intent : Option String := none
  context : Option Members := none

inductive ExecutionMode where
  | execute
  | propose
  | confirm
  | notifyOnly
  | reject
deriving DecidableEq

inductive AgentRunStatus where
  | routing
  | routed
  | noMatch
  | unscoped
  | missingHandler
  | missingAction
  | missingEvidence
  | proposalCreated
  | confirmationRequired
  | executed
  | notifyOnly
  | rejected
  | failed
  | duplicateSkipped
  | paused
  | shadowCompleted
deriving DecidableEq

inductive RoutingPolicyStatus where
  | routed
  | unscoped
  | noMatch
deriving DecidableEq

def RoutingPolicyStatus.status : RoutingPolicyStatus → AgentRunStatus
  | routed => .routed
  | unscoped => .unscoped
  | noMatch => .noMatch

/-- The router gives every agent it selects a mode. -/
structure RoutingDecision where
  selectedAgentId : Option String
  fallbackAgentIds : List String := []
  confidence : Rat := 0
  evidenceScore : Rat := 0
  policyStatus : RoutingPolicyStatus
  executionMode : Option ExecutionMode
  reason : String
  moded : selectedAgentId.isSome → executionMode.isSome

/-! ## Agents -/

structure IntentActionRule where
  patterns : List String
  action : String

structure InternalAgentDefinition where
  agentKey : String
  eventActionMap : Option (List (String × String)) := none
  intentActionMap : Option (List IntentActionRule) := none
  defaultAction : Option String := none
  requiredEvidence : List Json := []
  capabilities : List String := []
  provenance : String := "internal"

structure EvidenceBundle where
  items : List Json := []
  completeness : Rat := 1
  evidenceScore : Rat := 1
  missingRequiredEvidence : List String := []
  criticalMissing : Bool := false

/-- The input of a payment intent: its action type and what else is asked for. -/
structure PaymentIntentInput where
  actionType : String
  members : Members := []

inductive ProposedAction where
  | agent (action : Members) (informational : Bool)
  | paymentIntent (intent : PaymentIntentInput)

structure HandlerInput where
  action : String
  context : Members
  evidence : EvidenceBundle
  definition : InternalAgentDefinition
  confidence : Rat

/-- `build` may throw: an `Error` with its message, or something else. -/
structure InternalAgentHandler where
  actions : List String
  build : HandlerInput → Except (Option String) ProposedAction

/-- `handlerBuildErrorReason`. -/
def handlerBuildErrorReason : Option String → String
  | none => "handler_build_failed"
  | some message =>
      if (trim message.toList).isEmpty then "handler_build_failed"
      else String.ofList (trim message.toList)

/-! ## Payloads -/

/-- `AGENT_PAYLOAD_REQUIRED_FIELDS`. -/
def AGENT_PAYLOAD_REQUIRED_FIELDS : List (String × List String) :=
  [("collections", ["invoice_id", "counterparty_id", "amount_due", "days_overdue",
      "recommended_tone", "draft_message", "next_escalation_date", "evidence_refs"]),
    ("treasury", ["source_account_id", "target_account_id", "available_cash",
      "minimum_operating_cash", "recommended_transfer", "liquidity_risk", "expected_yield",
      "evidence_refs"]),
    ("payment", ["amount", "currency", "source_account_id", "destination_counterparty_id",
      "due_date", "evidence_refs"]),
    ("vendor_risk", ["vendor_id", "changed_field", "previous_value_hash", "new_value_hash",
      "risk_reason", "recommended_action", "evidence_refs"]),
    ("cash_forecast", ["period_start", "period_end", "projected_inflows", "projected_outflows",
      "net_position", "confidence_band", "evidence_refs"]),
    ("dispute", ["transaction_id", "dispute_reason", "evidence_bundle", "recommended_action",
      "evidence_refs"]),
    ("compliance", ["rule_id", "finding_kind", "severity", "affected_entities",
      "recommended_remediation", "evidence_refs"]),
    ("revenue_intel", ["period", "segment", "top_movers", "anomalies", "forecast_adjustments",
      "evidence_refs"]),
    ("personal_budget", ["period", "category_targets", "current_spend", "projected_overage",
      "recommended_actions", "evidence_refs"]),
    ("bill_management", ["obligation_id", "due_date", "amount", "source_account_id",
      "recommended_action", "evidence_refs"]),
    ("savings", ["source_account_id", "target_account_id", "recommended_amount", "sweep_trigger",
      "evidence_refs"]),
    ("debt_optimization", ["debt_accounts", "recommended_payment_distribution",
      "expected_interest_savings", "evidence_refs"]),
    ("tax_prep", ["tax_year", "estimated_liability", "deduction_candidates", "missing_documents",
      "evidence_refs"]),
    ("travel_finance", ["trip_id", "budget", "projected_spend", "currency_exposure",
      "recommended_actions", "evidence_refs"]),
    ("financial_health", ["score", "trend", "key_drivers", "recommended_actions",
      "evidence_refs"]),
    ("purchase_advisor", ["intent", "options", "recommended_option", "total_cost",
      "evidence_refs"]),
    ("subscription", ["merchant", "recurring_amount", "billing_frequency", "duplicate_candidates",
      "recommended_action", "estimated_savings", "evidence_refs"]),
    ("reconciliation", ["match_type", "left_entity_id", "right_entity_id", "confidence_score",
      "explanation", "evidence_refs"]),
    ("fraud_anomaly", ["transaction_id", "anomaly_type", "anomaly_score", "recommended_action",
      "evidence_refs"]),
    ("invoice_integrity", ["obligation_id", "finding_type", "amount", "currency",
      "evidence_refs"])]

/-- The required fields that a payload lacks; it is valid when there are none. -/
def validateAgentPayload (agentKey : String) (payload : Members) : List String :=
  match (AGENT_PAYLOAD_REQUIRED_FIELDS.find? fun entry => entry.1 = agentKey) with
  | none => []
  | some (_, required) => required.filter fun field => (payload.lookup field).isNone

/-! ## The action resolver -/

inductive ActionSource where
  | explicit
  | eventMap
  | intentMap
  | default
deriving DecidableEq

def ActionSource.name : ActionSource → String
  | explicit => "explicit"
  | eventMap => "event_map"
  | intentMap => "intent_map"
  | default => "default"

inductive ActionResolution where
  | resolved (action : String) (source : ActionSource)
  | missingAction (reason : String)

structure ActionResolutionInput where
  definition : InternalAgentDefinition
  actions : List String
  event : Option String
  intent : Option String
  context : Option Members
  tenantId : Option String := none

/-- What the resolver asks: a classifier's score, the signed allowlist of a tenant, and how the
notice of a denial ends. -/
structure ActionResolverDeps where
  classify : String → List String → Except RunError Rat
  intentMatchThreshold : Rat := 1 / 2
  isActionAllowed : Option (Option String → String → String → Except RunError Bool) := none
  onPolicyDenied : Option String → String → String → ActionSource → Except RunError Unit :=
    fun _ _ _ _ => .ok ()

/-- `readRequestedAction`. -/
def readRequestedAction (context : Option Members) : Option String :=
  ((context.bind fun members => members.lookup "requested_action").bind Json.str?).filter (· ≠ "")

namespace ActionResolverDeps

variable (deps : ActionResolverDeps)

/-- The best rule so far, over the rules of the intent map. -/
def bestRule (offered : List String) (intent : String) :
    Option (String × Rat) → List IntentActionRule → Except RunError (Option (String × Rat))
  | best, [] => .ok best
  | best, rule :: rules =>
      if !offered.contains rule.action then bestRule offered intent best rules
      else do
        let score ← deps.classify intent rule.patterns
        bestRule offered intent
          (if deps.intentMatchThreshold ≤ score ∧ best.all (fun b => b.2 < score) then
            some (rule.action, score) else best) rules

/-- `requested`, when there is one, or the event map, the intent map and the default in turn. -/
def candidate (input : ActionResolutionInput) :
    Except RunError (Except String (String × ActionSource)) :=
  match readRequestedAction input.context with
  | some requested =>
      if input.actions.contains requested then .ok (.ok (requested, .explicit))
      else .ok (.error ("requested action \"" ++ requested ++ "\" is not offered by " ++
        input.definition.agentKey))
  | none => do
      let mapped := (input.event.bind fun event =>
        (input.definition.eventActionMap.getD []).lookup event).filter input.actions.contains
      match mapped with
      | some action => return .ok (action, .eventMap)
      | none =>
          let best ← match input.intent, input.definition.intentActionMap with
            | some intent, some rules => deps.bestRule input.actions intent none rules
            | _, _ => .ok none
          match best with
          | some (action, _) => return .ok (action, .intentMap)
          | none =>
              match input.definition.defaultAction.filter input.actions.contains with
              | some action => return .ok (action, .default)
              | none => return .error ("no action resolved for " ++ input.definition.agentKey)

/-- The hook decides, when it is wired, with or without a tenant. -/
def authorize (input : ActionResolutionInput) (action : String) (source : ActionSource) :
    Except RunError ActionResolution :=
  match deps.isActionAllowed with
  | none => .ok (.resolved action source)
  | some isActionAllowed => do
      let agentKey := input.definition.agentKey
      let allowed ← isActionAllowed input.tenantId agentKey action
      if allowed then return .resolved action source
      else do
        deps.onPolicyDenied input.tenantId agentKey action source
        return .missingAction ("action \"" ++ action ++ "\" is denied by policy for " ++
          agentKey ++ " (source=" ++ source.name ++ ")")

/-- The candidate, authorized whatever its source is. -/
def resolve (input : ActionResolutionInput) : Except RunError ActionResolution := do
  let found ← deps.candidate input
  match found with
  | .error reason => return .missingAction reason
  | .ok (action, source) => deps.authorize input action source

end ActionResolverDeps

/-!
## The store of agent runs

The tables of `services/execution/src/agent-runs.ts` and the proposals that
runs make, with the statements over them.  A proposal is kept with the run that
asked for it, and an answer with the run it ends.
-/

/-- An idempotency key of a tenant. -/
structure RunKey where
  tenantId : String
  key : String
deriving DecidableEq

/-- A row of `agent_idempotency_keys`. -/
structure KeyClaim where
  key : RunKey
  runId : String
deriving DecidableEq

/-- A row of `agent_runs`. -/
structure AgentRunRow where
  id : String
  tenantId : String
  tenantCategory : String
  agentId : String
  agentKind : String
  executionMode : ExecutionMode
  status : AgentRunStatus
  shadowMode : Bool
  routingDecisionId : String
  eventType : Option String
  intent : Option String
  action : Option String := none
  confidence : Rat
  evidenceScore : Option Rat := none
  proposalId : Option String := none
  paymentIntentId : Option String := none
  failureReason : Option String := none
  idempotencyKey : Option String

structure ProposeResult where
  id : String
  status : String
  policyDecisionId : Option String
deriving DecidableEq

/-- A call of `IAgentService.propose`, of the service an agent is overridden by when it is, or of
`IPaymentIntentService.create`. -/
inductive ProposeCall where
  | agents (overridden : Bool) (agentId : String) (action : Members)
  | paymentIntents (intent : PaymentIntentInput)

/-- A proposal that is asked for: for whom, by which agent and for which action. -/
structure ProposalRequest where
  ctx : ServiceCallContext
  agentId : String
  action : String
  call : ProposeCall

structure ProposalRow where
  runId : String
  key : Option RunKey
  result : ProposeResult
  request : ProposalRequest

/-- What a run has answered its caller. -/
structure RunAnswer where
  runId : String
  key : Option RunKey
  selectedAgentId : Option String
  status : AgentRunStatus

structure RunDb where
  claims : Table KeyClaim.key := Table.empty
  runs : Table AgentRunRow.id := Table.empty
  proposals : List ProposalRow := []
  answers : List RunAnswer := []

inductive RunWrite where
  | claimed (claim : KeyClaim)
  | recorded (row : AgentRunRow)
  | proposed (row : ProposalRow)
  | answered (answer : RunAnswer)

namespace RunWrite

def apply (db : RunDb) : RunWrite → RunDb
  | .claimed claim => { db with claims := db.claims.put claim }
  | .recorded row => { db with runs := db.runs.put row }
  | .proposed row => { db with proposals := db.proposals ++ [row] }
  | .answered answer => { db with answers := db.answers ++ [answer] }

/-- Two rows of one key of a table. -/
def clash : RunWrite → RunWrite → Bool
  | .claimed claim, .claimed other => claim.key = other.key
  | .recorded row, .recorded other => row.id = other.id
  | .claimed _, _ | .recorded _, _ | .proposed _, _ | .answered _, _ => false

theorem clash_symm (w w' : RunWrite) : clash w w' = clash w' w := by
  cases w <;> cases w' <;> simp [clash, eq_comm]

end RunWrite

def runStore : Store RunDb RunWrite := ⟨RunWrite.apply, RunWrite.clash⟩

abbrev RunTransact (α : Type) := Program RunDb RunWrite RunError α

structure ClaimResult where
  claimed : Bool
  runId : Option String

/-- The insert of the key, or the run that a conflicting row is bound to. -/
def claimEventIdempotencyKey (key : RunKey) (runId : String) : RunTransact ClaimResult := do
  let inserted ← Program.execute fun db =>
    if (db.claims.find? key).isSome then .ok ([], false)
    else .ok ([.claimed ⟨key, runId⟩], true)
  if inserted then return ⟨true, some runId⟩
  else do
    let existing ← Program.select fun db => db.claims.find? key
    return ⟨false, existing.map KeyClaim.runId⟩

def insertAgentRun (row : AgentRunRow) : RunTransact String :=
  Program.execute fun db =>
    if (db.runs.find? row.id).isSome then
      .error ⟨"duplicate key value violates unique constraint"⟩
    else .ok ([.recorded row], row.id)

def insertProposal (row : ProposalRow) : RunTransact Unit :=
  Program.execute fun _ => .ok ([.proposed row], ())

def recordAnswer (answer : RunAnswer) : RunTransact Unit :=
  Program.execute fun _ => .ok ([.answered answer], ())

end BrainCore.AgentRouter
