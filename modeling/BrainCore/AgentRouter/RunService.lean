import BrainCore.AgentRouter.RunStore
import BrainCore.Foundation.Script

/-!
# The run service

`AgentRunService.run` of `services/agent-router/src/agent-run-service.ts`.  What
it does once the evidence is gathered is decided first, by `plan`, and then
carried out: a run is recorded that ends without a proposal, or the proposal is
made and the run recorded after it.
-/

namespace BrainCore.AgentRouter

open BrainCore.Foundation

/-- The agents and the promotion policy, which do not change from call to call. -/
structure RouterDeps where
  handlers : String → Option InternalAgentHandler
  definitions : String → Option InternalAgentDefinition
  isShadowed : String → Bool
  checkRail : Option (String → String → Bool) := none
  agentOverrides : String → Bool := fun _ => false

/-- What the collaborators answer at one step. -/
structure RunEnv where
  getTenantCategory : String → Except RunError String
  route : ServiceCallContext → RoutingInput → Except RunError RoutingDecision
  recordRoutingDecision : Except RunError String
  resolver : ActionResolverDeps
  gather : String → Option Members → List Json → Except RunError EvidenceBundle
  /-- The proposal that a service makes, or its refusal. -/
  propose : ProposalRequest → Except RunError ProposeResult
  /-- Whether the answer of that service comes back. -/
  delivered : Except RunError Unit
  audit : Except RunError Unit

abbrev RunScript (α : Type) := Script RunDb RunWrite RunEnv ProposalRequest RunError α

/-- One run; `runId` is the id that `brainId` draws for it. -/
structure RunCall where
  ctx : ServiceCallContext
  input : RoutingInput
  runId : String

def RunCall.key (call : RunCall) : Option RunKey :=
  call.input.idempotencyKey.map fun key => ⟨call.ctx.tenantId, key⟩

structure AgentRunResult where
  status : AgentRunStatus
  routingDecisionId : String
  runId : Option String
  selectedAgentId : Option String
  action : Option String
  shadowMode : Bool
  proposed : Option ProposeResult := none

/-- The result's id, for a proposal of the agent channel. -/
def ProposedAction.proposalId (result : ProposeResult) : ProposedAction → Option String
  | .agent _ _ => some result.id
  | .paymentIntent _ => none

def ProposedAction.paymentIntentId (result : ProposeResult) : ProposedAction → Option String
  | .agent _ _ => none
  | .paymentIntent _ => some result.id

/-! ## What is decided -/

/-- How a run goes on once the evidence is there. -/
inductive RunPlan where
  | terminal (status : AgentRunStatus) (executionMode : ExecutionMode) (failureReason : String)
  | shadowCompleted
  | propose (proposed : ProposedAction)

namespace RouterDeps

variable (deps : RouterDeps)

/-- A financial proposal of a live agent, over a rail that is not on its allowlist. -/
def railBlocked (agentId : String) (intent : PaymentIntentInput) : Bool :=
  !deps.isShadowed agentId && deps.checkRail.any fun checkRail => !checkRail agentId intent.actionType

/-- The checks of a proposal that was built. -/
def planProposed (agentId : String) (executionMode : ExecutionMode) : ProposedAction → RunPlan
  | .agent action informational =>
      if !(validateAgentPayload agentId action).isEmpty then
        .terminal .failed executionMode "payload_invalid"
      else if agentId = "reconciliation" ∧ informational = true then
        .terminal .notifyOnly .notifyOnly "informational_low_confidence_reconciliation"
      else .propose (.agent action informational)
  | .paymentIntent intent =>
      if deps.isShadowed agentId || deps.railBlocked agentId intent then .shadowCompleted
      else .propose (.paymentIntent intent)

/-- The checks after the early build of a shadowed agent. -/
def planBuilt (agentId : String) (executionMode : ExecutionMode) (bundle : EvidenceBundle)
    (built : Except (Option String) ProposedAction) : RunPlan :=
  if bundle.criticalMissing then
    .terminal .missingEvidence executionMode "critical_missing_evidence"
  else
    match executionMode, built with
    | .reject, _ => .terminal .rejected executionMode "execution_mode_reject"
    | .notifyOnly, _ => .terminal .notifyOnly executionMode "execution_mode_notify_only"
    | .execute, .error _ | .propose, .error _ | .confirm, .error _ =>
        .terminal .failed executionMode "payload_invalid"
    | .execute, .ok proposed | .propose, .ok proposed | .confirm, .ok proposed =>
        deps.planProposed agentId executionMode proposed

/-- The handler builds the proposal of a shadowed agent before the other checks, and that of a live
one after them; it is pure. -/
def plan (agentId : String) (executionMode : ExecutionMode) (bundle : EvidenceBundle)
    (built : Except (Option String) ProposedAction) : RunPlan :=
  if deps.isShadowed agentId then
    match built with
    | .error _ => .terminal .failed executionMode "payload_invalid"
    | .ok (.paymentIntent _) => .shadowCompleted
    | .ok (.agent action informational) =>
        deps.planBuilt agentId executionMode bundle (.ok (.agent action informational))
  else deps.planBuilt agentId executionMode bundle built

/-- No plan is to skip the run. -/
theorem planBuilt_status {agentId : String} {executionMode mode : ExecutionMode}
    {bundle : EvidenceBundle} {built : Except (Option String) ProposedAction}
    {status : AgentRunStatus} {failureReason : String}
    (h : deps.planBuilt agentId executionMode bundle built = .terminal status mode failureReason) :
    status ≠ .duplicateSkipped := by
  have hproposed : ∀ proposed, deps.planProposed agentId executionMode proposed =
      .terminal status mode failureReason → status ≠ .duplicateSkipped := by
    intro proposed h
    cases proposed with
    | agent action informational =>
        rw [planProposed] at h
        split at h
        · cases h
          decide
        · split at h
          · cases h
            decide
          · cases h
    | paymentIntent intent =>
        rw [planProposed] at h
        split at h <;> cases h
  unfold planBuilt at h
  split at h
  · cases h
    decide
  · cases built with
    | error error => cases executionMode <;> cases h <;> decide
    | ok proposed =>
        cases executionMode with
        | reject =>
            cases h
            decide
        | notifyOnly =>
            cases h
            decide
        | execute => exact hproposed proposed h
        | propose => exact hproposed proposed h
        | confirm => exact hproposed proposed h

theorem plan_status {agentId : String} {executionMode mode : ExecutionMode}
    {bundle : EvidenceBundle} {built : Except (Option String) ProposedAction}
    {status : AgentRunStatus} {failureReason : String}
    (h : deps.plan agentId executionMode bundle built = .terminal status mode failureReason) :
    status ≠ .duplicateSkipped := by
  unfold plan at h
  split at h
  · split at h
    · cases h
      decide
    · cases h
    · exact deps.planBuilt_status h
  · exact deps.planBuilt_status h

/-! ## What is done -/

/-- `proposeAction` with the override of the agent. -/
def proposeCall (agentId : String) : ProposedAction → ProposeCall
  | .agent action _ => .agents (deps.agentOverrides agentId) agentId action
  | .paymentIntent intent => .paymentIntents intent

def proposalRequest (ctx : ServiceCallContext) (agentId action : String)
    (proposed : ProposedAction) : ProposalRequest :=
  ⟨ctx, agentId, action, deps.proposeCall agentId proposed⟩

/-- The service inserts the proposal, and its answer may be lost on the way back. -/
def proposeAction (runId : String) (key : Option RunKey) (request : ProposalRequest) :
    RunScript ProposeResult := do
  let result ← Script.callOut fun env => (env.propose request, [request])
  Script.transact (insertProposal ⟨runId, key, result, request⟩)
  Script.ask fun env => env.delivered
  return result

/-- The columns of a run that do not depend on how it ends. -/
def runRow (call : RunCall) (category agentId routingDecisionId : String) (confidence : Rat)
    (executionMode : ExecutionMode) (status : AgentRunStatus) : AgentRunRow where
  id := call.runId
  tenantId := call.ctx.tenantId
  tenantCategory := category
  agentId := agentId
  agentKind := (deps.definitions agentId).elim "internal" InternalAgentDefinition.provenance
  executionMode := executionMode
  status := status
  shadowMode := false
  routingDecisionId := routingDecisionId
  eventType := call.input.event
  intent := call.input.intent
  confidence := confidence
  idempotencyKey := call.input.idempotencyKey

def resultOf (row : AgentRunRow) (proposed : Option ProposeResult) : AgentRunResult where
  status := row.status
  routingDecisionId := row.routingDecisionId
  runId := some row.id
  selectedAgentId := some row.agentId
  action := row.action
  shadowMode := row.shadowMode
  proposed := proposed

def recordRun (row : AgentRunRow) (proposed : Option ProposeResult) :
    RunScript AgentRunResult := do
  let _ ← Script.transact (insertAgentRun row)
  return resultOf row proposed

/-- The run is recorded, and some of its statuses are audited. -/
def terminalRun (row : AgentRunRow) : RunScript AgentRunResult := do
  let result ← recordRun row none
  if row.status = .missingEvidence ∨ row.status = .notifyOnly then
    Script.ask fun env => env.audit
  return result

def carryOut (call : RunCall) (category agentId action routingDecisionId : String)
    (decision : RoutingDecision) (executionMode : ExecutionMode) (bundle : EvidenceBundle) :
    RunPlan → RunScript AgentRunResult
  | .terminal status mode failureReason =>
      terminalRun
        { deps.runRow call category agentId routingDecisionId decision.confidence mode status with
          action := some action
          evidenceScore := some bundle.evidenceScore
          failureReason := some failureReason }
  | .shadowCompleted =>
      recordRun
        { deps.runRow call category agentId routingDecisionId decision.confidence executionMode
            .shadowCompleted with
          action := some action
          evidenceScore := some bundle.evidenceScore
          shadowMode := true } none
  | .propose proposed => do
      let result ← proposeAction call.runId call.key
        (deps.proposalRequest call.ctx agentId action proposed)
      recordRun
        { deps.runRow call category agentId routingDecisionId decision.confidence executionMode
            .proposalCreated with
          action := some action
          evidenceScore := some bundle.evidenceScore
          shadowMode := deps.isShadowed agentId
          proposalId := proposed.proposalId result
          paymentIntentId := proposed.paymentIntentId result } (some result)

/-- `run` once the key is its own. -/
def runClaimed (call : RunCall) (category agentId routingDecisionId : String)
    (decision : RoutingDecision) : RunScript AgentRunResult :=
  let executionMode := decision.executionMode.getD .notifyOnly
  let ended (status : AgentRunStatus) (failureReason : String) : RunScript AgentRunResult :=
    terminalRun
      { deps.runRow call category agentId routingDecisionId decision.confidence executionMode
          status with
        failureReason := some failureReason }
  match deps.handlers agentId, deps.definitions agentId with
  | some handler, some definition => do
      let resolution ← Script.ask fun env => env.resolver.resolve
        ⟨definition, handler.actions, call.input.event, call.input.intent, call.input.context,
          some call.ctx.tenantId⟩
      match resolution with
      | .missingAction reason => ended .missingAction reason
      | .resolved action _ => do
          let bundle ← Script.ask fun env =>
            env.gather call.ctx.tenantId call.input.context definition.requiredEvidence
          let built := handler.build
            ⟨action, call.input.context.getD [], bundle, definition, decision.confidence⟩
          deps.carryOut call category agentId action routingDecisionId decision executionMode bundle
            (deps.plan agentId executionMode bundle built)
  | none, _ | _, none => ended .missingHandler "no handler/definition for selected agent"

/-- `run` once an agent is selected: it takes its key first, when it has one. -/
def runSelected (call : RunCall) (category agentId routingDecisionId : String)
    (decision : RoutingDecision) : RunScript AgentRunResult :=
  match call.key with
  | none => deps.runClaimed call category agentId routingDecisionId decision
  | some key => do
      let claim ← Script.transact (claimEventIdempotencyKey key call.runId)
      if claim.claimed then
        deps.runClaimed call category agentId routingDecisionId decision
      else
        return ⟨.duplicateSkipped, routingDecisionId, claim.runId, some agentId, none, false, none⟩

/-- `AgentRunService.run`. -/
def run (call : RunCall) : RunScript AgentRunResult := do
  let category ← Script.ask fun env => env.getTenantCategory call.ctx.tenantId
  let decision ← Script.ask fun env => env.route call.ctx call.input
  let routingDecisionId ← Script.ask fun env => env.recordRoutingDecision
  match decision.selectedAgentId with
  | none =>
      return ⟨decision.policyStatus.status, routingDecisionId, none, none, none, false, none⟩
  | some agentId => deps.runSelected call category agentId routingDecisionId decision

/-- The route answers its caller with what the service returned. -/
def answerRun (call : RunCall) : RunScript AgentRunResult := do
  let result ← deps.run call
  Script.transact (recordAnswer
    ⟨call.runId, call.key, result.selectedAgentId, result.status⟩)
  return result

end RouterDeps

/-- Other services make proposals of their own. -/
def otherProposals : RunDb → List RunWrite → Bool
  | _, [.proposed row] => row.key.isNone
  | _, _ => false

def runMachine (deps : RouterDeps) :
    Machine (Calls RunDb RunWrite RunEnv ProposalRequest RunError AgentRunResult)
      (CallLabel RunWrite RunEnv RunError RunCall) :=
  callMachine runStore deps.answerRun otherProposals

/-!
## The event worker

`routeAndPropose` of `services/agent-router/src/worker.ts`, the pipeline of the
run service without a store and without keys.  It tells the action resolver no
tenant.
-/

structure RouteAndProposeResult where
  selectedAgentId : Option String
  action : Option String := none
  status : AgentRunStatus
  proposed : Option ProposeResult := none
  reason : String

/-- How the worker goes on once the evidence is there. -/
inductive WorkerPlan where
  | ended (status : AgentRunStatus) (reason : String)
  | propose (proposed : ProposedAction)

namespace RouterDeps

variable (deps : RouterDeps)

def payloadInvalid (missing : List String) : WorkerPlan :=
  .ended .failed ("payload_invalid:" ++ String.intercalate "," missing)

/-- The checks of a proposal that was built. -/
def workerPlanProposed (agentId : String) : ProposedAction → WorkerPlan
  | .agent action informational =>
      if !(validateAgentPayload agentId action).isEmpty then
        payloadInvalid (validateAgentPayload agentId action)
      else if agentId = "reconciliation" ∧ informational = true then
        .ended .notifyOnly "informational_low_confidence_reconciliation"
      else .propose (.agent action informational)
  | .paymentIntent intent =>
      if deps.isShadowed agentId || deps.railBlocked agentId intent then
        .ended .shadowCompleted
          (if deps.isShadowed agentId then "agent_shadowed" else "rail_not_allowlisted")
      else .propose (.paymentIntent intent)

/-- The checks after the early build of a shadowed agent. -/
def workerPlanBuilt (agentId : String) (executionMode : Option ExecutionMode)
    (bundle : EvidenceBundle) (built : Except (Option String) ProposedAction) : WorkerPlan :=
  if bundle.criticalMissing then
    .ended .missingEvidence ("critical_missing_evidence:" ++
      String.intercalate "," bundle.missingRequiredEvidence)
  else if executionMode = some .reject then .ended .rejected "execution_mode_reject"
  else if executionMode = some .notifyOnly then .ended .notifyOnly "execution_mode_notify_only"
  else
    match built with
    | .error error => payloadInvalid [handlerBuildErrorReason error]
    | .ok proposed => deps.workerPlanProposed agentId proposed

def workerPlan (agentId : String) (executionMode : Option ExecutionMode)
    (bundle : EvidenceBundle) (built : Except (Option String) ProposedAction) : WorkerPlan :=
  if deps.isShadowed agentId then
    match built with
    | .error error => payloadInvalid [handlerBuildErrorReason error]
    | .ok (.paymentIntent _) => .ended .shadowCompleted "agent_shadowed"
    | .ok (.agent action informational) =>
        deps.workerPlanBuilt agentId executionMode bundle (.ok (.agent action informational))
  else deps.workerPlanBuilt agentId executionMode bundle built

/-- A proposal of the worker is for no key; `jobId` is the job that asks for it. -/
def carryOutWorker (ctx : ServiceCallContext) (jobId agentId action : String)
    (decision : RoutingDecision) : WorkerPlan → RunScript RouteAndProposeResult
  | .ended status reason =>
      pure { selectedAgentId := some agentId, action := some action, status, reason }
  | .propose proposed => do
      let result ← proposeAction jobId none (deps.proposalRequest ctx agentId action proposed)
      return { selectedAgentId := some agentId, action := some action, status := .proposalCreated,
               proposed := some result, reason := decision.reason }

def routeSelected (ctx : ServiceCallContext) (input : RoutingInput) (jobId agentId : String)
    (decision : RoutingDecision) : RunScript RouteAndProposeResult :=
  let ended (status : AgentRunStatus) (reason : String) : RunScript RouteAndProposeResult :=
    pure { selectedAgentId := some agentId, status, reason }
  match deps.handlers agentId, deps.definitions agentId with
  | none, _ => ended .missingHandler "no handler for selected agent"
  | some _, none => ended .missingHandler "no definition for selected agent"
  | some handler, some definition => do
      let resolution ← Script.ask fun env => env.resolver.resolve
        ⟨definition, handler.actions, input.event, input.intent, input.context, none⟩
      match resolution with
      | .missingAction reason => ended .missingAction reason
      | .resolved action _ => do
          let bundle ← Script.ask fun env =>
            env.gather ctx.tenantId input.context definition.requiredEvidence
          let built := handler.build
            ⟨action, input.context.getD [], bundle, definition, decision.confidence⟩
          deps.carryOutWorker ctx jobId agentId action decision
            (deps.workerPlan agentId decision.executionMode bundle built)

/-- `routeAndPropose`. -/
def routeAndPropose (ctx : ServiceCallContext) (input : RoutingInput) (jobId : String) :
    RunScript RouteAndProposeResult := do
  let decision ← Script.ask fun env => env.route ctx input
  match decision.selectedAgentId with
  | none =>
      return { selectedAgentId := none, status := decision.policyStatus.status,
               reason := decision.reason }
  | some agentId => deps.routeSelected ctx input jobId agentId decision

end RouterDeps

end BrainCore.AgentRouter
