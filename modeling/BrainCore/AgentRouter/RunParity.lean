import BrainCore.AgentRouter.RunService

/-!
# The worker and the run service agree

Both are compared with one pipeline, which is told the tenant of the request or
no tenant.  The worker is the pipeline that is told none, and the run service
the one that is told the tenant, unless its key is taken; so what they do can
differ only in the actions that the tenant's allowlist denies.
-/

namespace BrainCore.AgentRouter

open BrainCore.Foundation

variable {deps : RouterDeps} {env : RunEnv} {db : RunDb} {call : RunCall}

/-! ## One pipeline -/

/-- Which agent was selected, and the status and the action at the end. -/
structure RunReport where
  selectedAgentId : Option String
  status : AgentRunStatus
  action : Option String
deriving DecidableEq

structure Outcome where
  requests : List ProposalRequest
  result : Except RunError RunReport

def runOutcome (ending : Ending RunDb ProposalRequest RunError AgentRunResult) : Outcome :=
  ⟨ending.history, ending.result.map fun result =>
    ⟨result.selectedAgentId, result.status, result.action⟩⟩

def workerOutcome (ending : Ending RunDb ProposalRequest RunError RouteAndProposeResult) : Outcome :=
  ⟨ending.history, ending.result.map fun result =>
    ⟨result.selectedAgentId, result.status, result.action⟩⟩

/-- How a plan ends: with a status, or by a proposal. -/
def RunPlan.settled : RunPlan → AgentRunStatus ⊕ ProposedAction
  | .terminal status _ _ => .inl status
  | .shadowCompleted => .inl .shadowCompleted
  | .propose proposed => .inr proposed

def WorkerPlan.settled : WorkerPlan → AgentRunStatus ⊕ ProposedAction
  | .ended status _ => .inl status
  | .propose proposed => .inr proposed

/-- The pipeline once the action is resolved. -/
def acted (deps : RouterDeps) (env : RunEnv) (ctx : ServiceCallContext) (input : RoutingInput)
    (agentId action : String) (handler : InternalAgentHandler)
    (definition : InternalAgentDefinition) (decision : RoutingDecision) : Outcome :=
  match env.gather ctx.tenantId input.context definition.requiredEvidence with
  | .error error => ⟨[], .error error⟩
  | .ok bundle =>
      match (deps.plan agentId (decision.executionMode.getD .notifyOnly) bundle (handler.build
        ⟨action, input.context.getD [], bundle, definition, decision.confidence⟩)).settled with
      | .inl status => ⟨[], .ok ⟨some agentId, status, some action⟩⟩
      | .inr proposed =>
          let request := deps.proposalRequest ctx agentId action proposed
          ⟨[request], (env.propose request).bind fun _ =>
            env.delivered.map fun _ => ⟨some agentId, .proposalCreated, some action⟩⟩

/-- The pipeline for the selected agent, when the resolver is told `tenant`. -/
def decidedFor (deps : RouterDeps) (env : RunEnv) (tenant : Option String)
    (ctx : ServiceCallContext) (input : RoutingInput) (agentId : String)
    (decision : RoutingDecision) : Outcome :=
  match deps.handlers agentId, deps.definitions agentId with
  | some handler, some definition =>
      match env.resolver.resolve
        ⟨definition, handler.actions, input.event, input.intent, input.context, tenant⟩ with
      | .error error => ⟨[], .error error⟩
      | .ok (.missingAction _) => ⟨[], .ok ⟨some agentId, .missingAction, none⟩⟩
      | .ok (.resolved action _) =>
          acted deps env ctx input agentId action handler definition decision
  | none, _ | _, none => ⟨[], .ok ⟨some agentId, .missingHandler, none⟩⟩

/-! ## The worker is the pipeline -/

theorem settled_workerPlanProposed (agentId : String) (mode : ExecutionMode)
    (proposed : ProposedAction) :
    (deps.workerPlanProposed agentId proposed).settled =
      (deps.planProposed agentId mode proposed).settled := by
  cases proposed with
  | agent action informational =>
      simp only [RouterDeps.workerPlanProposed, RouterDeps.planProposed, RouterDeps.payloadInvalid]
      split
      · rfl
      · split <;> rfl
  | paymentIntent intent =>
      simp only [RouterDeps.workerPlanProposed, RouterDeps.planProposed]
      split <;> rfl

theorem settled_workerPlanBuilt (agentId : String) (mode : ExecutionMode) (bundle : EvidenceBundle)
    (built : Except (Option String) ProposedAction) :
    (deps.workerPlanBuilt agentId (some mode) bundle built).settled =
      (deps.planBuilt agentId mode bundle built).settled := by
  unfold RouterDeps.workerPlanBuilt RouterDeps.planBuilt
  split
  · rfl
  · cases mode with
    | reject => rfl
    | notifyOnly => rfl
    | execute =>
        cases built with
        | error error => rfl
        | ok proposed => exact settled_workerPlanProposed agentId .execute proposed
    | propose =>
        cases built with
        | error error => rfl
        | ok proposed => exact settled_workerPlanProposed agentId .propose proposed
    | confirm =>
        cases built with
        | error error => rfl
        | ok proposed => exact settled_workerPlanProposed agentId .confirm proposed

theorem settled_workerPlan (agentId : String) (mode : ExecutionMode) (bundle : EvidenceBundle)
    (built : Except (Option String) ProposedAction) :
    (deps.workerPlan agentId (some mode) bundle built).settled =
      (deps.plan agentId mode bundle built).settled := by
  unfold RouterDeps.workerPlan RouterDeps.plan
  split
  · cases built with
    | error error => rfl
    | ok proposed =>
        cases proposed with
        | paymentIntent intent => rfl
        | agent action informational => exact settled_workerPlanBuilt agentId mode bundle _
  · exact settled_workerPlanBuilt agentId mode bundle built

/-- How asking for a proposal ends. -/
theorem runAlone_proposeAction (runId : String) (key : Option RunKey) (request : ProposalRequest) :
    ∃ next, (RouterDeps.proposeAction runId key request).runAlone runStore env db =
        ⟨next, [request], (env.propose request).bind fun result =>
          env.delivered.map fun _ => result⟩ ∧ next.runs = db.runs := by
  rw [RouterDeps.proposeAction, Script.runAlone_bind, Script.runAlone_callOut]
  cases hpropose : env.propose request with
  | error error => exact ⟨db, rfl, rfl⟩
  | ok result =>
      have hinsert : Program.runFrom runStore (insertProposal ⟨runId, key, result, request⟩) db [] =
          .ok ([.proposed ⟨runId, key, result, request⟩], ()) := rfl
      refine ⟨runStore.view db [.proposed ⟨runId, key, result, request⟩], ?_, rfl⟩
      rw [Ending.andThen]
      dsimp only
      rw [Script.runAlone_bind, Script.runAlone_transact _ _ _ hinsert, Ending.andThen]
      dsimp only
      rw [Script.runAlone_bind, Script.runAlone_ask, Ending.andThen]
      cases env.delivered <;> rfl

theorem workerOutcome_carryOut (ctx : ServiceCallContext) (jobId agentId action : String)
    (decision : RoutingDecision) (plan : WorkerPlan) :
    workerOutcome ((deps.carryOutWorker ctx jobId agentId action decision plan).runAlone runStore
      env db) =
        match plan.settled with
        | .inl status => ⟨[], .ok ⟨some agentId, status, some action⟩⟩
        | .inr proposed =>
            let request := deps.proposalRequest ctx agentId action proposed
            ⟨[request], (env.propose request).bind fun _ =>
              env.delivered.map fun _ => ⟨some agentId, .proposalCreated, some action⟩⟩ := by
  cases plan with
  | ended status reason => rfl
  | propose proposed =>
      obtain ⟨next, hpropose, -⟩ := @runAlone_proposeAction env db jobId none
        (deps.proposalRequest ctx agentId action proposed)
      rw [RouterDeps.carryOutWorker, Script.runAlone_bind, hpropose, WorkerPlan.settled]
      dsimp only
      cases env.propose (deps.proposalRequest ctx agentId action proposed) with
      | error error => rfl
      | ok result =>
          cases hdelivered : env.delivered with
          | error error => rfl
          | ok delivered => rfl

/-- The worker for an agent that has a mode. -/
theorem workerOutcome_routeSelected (ctx : ServiceCallContext) (input : RoutingInput)
    (jobId agentId : String) {decision : RoutingDecision} (hmode : decision.executionMode.isSome) :
    workerOutcome ((deps.routeSelected ctx input jobId agentId decision).runAlone runStore env db) =
      decidedFor deps env none ctx input agentId decision := by
  obtain ⟨mode, hmode⟩ := Option.isSome_iff_exists.mp hmode
  unfold RouterDeps.routeSelected decidedFor
  cases deps.handlers agentId with
  | none => rfl
  | some handler =>
      cases deps.definitions agentId with
      | none => rfl
      | some definition =>
          dsimp only
          rw [Script.runAlone_bind, Script.runAlone_ask]
          cases env.resolver.resolve
            ⟨definition, handler.actions, input.event, input.intent, input.context, none⟩ with
          | error error => rfl
          | ok resolution =>
              cases resolution with
              | missingAction reason => rfl
              | resolved action source =>
                  rw [Ending.andThen]
                  dsimp only
                  rw [Script.runAlone_bind, Script.runAlone_ask, acted]
                  cases env.gather ctx.tenantId input.context definition.requiredEvidence with
                  | error error => rfl
                  | ok bundle =>
                      rw [Ending.andThen]
                      dsimp only
                      rw [← settled_workerPlan, hmode, Option.getD_some]
                      exact workerOutcome_carryOut ctx jobId agentId action decision _

/-! ## The run service is the pipeline -/

/-- The store, the audit log and the allowlist answer. -/
structure Steady (env : RunEnv) (db : RunDb) (call : RunCall) : Prop where
  category : ∃ category, env.getTenantCategory call.ctx.tenantId = .ok category
  routingDecision : ∃ id, env.recordRoutingDecision = .ok id
  audit : env.audit = .ok ()
  fresh : db.runs.find? call.runId = none
  allowed : ∀ isActionAllowed, env.resolver.isActionAllowed = some isActionAllowed →
    ∀ tenant agentKey action, ∃ allowed, isActionAllowed tenant agentKey action = .ok allowed
  notified : ∀ tenant agentKey action source,
    env.resolver.onPolicyDenied tenant agentKey action source = .ok ()

/-- How recording a new run ends. -/
theorem runAlone_recordRun {row : AgentRunRow} (hfresh : db.runs.find? row.id = none)
    (proposed : Option ProposeResult) :
    ∃ next, (RouterDeps.recordRun row proposed).runAlone runStore env db =
      ⟨next, [], .ok (RouterDeps.resultOf row proposed)⟩ := by
  have hnew : (if (db.runs.find? row.id).isSome = true then
      .error ⟨"duplicate key value violates unique constraint"⟩
      else .ok ([.recorded row], row.id) : Except RunError (List RunWrite × String)) =
        .ok ([.recorded row], row.id) := by
    rw [hfresh]
    rfl
  have hinsert : Program.runFrom runStore (insertAgentRun row) db [] = .ok ([.recorded row], row.id) :=
    Program.runFrom_execute hnew
  refine ⟨runStore.view db [.recorded row], ?_⟩
  rw [RouterDeps.recordRun, Script.runAlone_bind, Script.runAlone_transact _ _ _ hinsert]
  rfl

theorem runAlone_terminalRun {row : AgentRunRow} (hfresh : db.runs.find? row.id = none)
    (haudit : env.audit = .ok ()) :
    ∃ next, (RouterDeps.terminalRun row).runAlone runStore env db =
      ⟨next, [], .ok (RouterDeps.resultOf row none)⟩ := by
  obtain ⟨next, hrecord⟩ := @runAlone_recordRun env db row hfresh none
  refine ⟨next, ?_⟩
  rw [RouterDeps.terminalRun, Script.runAlone_bind, hrecord, Ending.andThen]
  dsimp only
  split
  · rw [Script.runAlone_bind, Script.runAlone_ask, haudit]
    rfl
  · rfl

theorem runOutcome_carryOut (category agentId action routingDecisionId : String)
    (decision : RoutingDecision) (mode : ExecutionMode) (bundle : EvidenceBundle) (plan : RunPlan)
    (h : Steady env db call) :
    runOutcome ((deps.carryOut call category agentId action routingDecisionId decision mode bundle
      plan).runAlone runStore env db) =
        match plan.settled with
        | .inl status => ⟨[], .ok ⟨some agentId, status, some action⟩⟩
        | .inr proposed =>
            let request := deps.proposalRequest call.ctx agentId action proposed
            ⟨[request], (env.propose request).bind fun _ =>
              env.delivered.map fun _ => ⟨some agentId, .proposalCreated, some action⟩⟩ := by
  cases plan with
  | terminal status mode failureReason =>
      obtain ⟨next, hterminal⟩ := @runAlone_terminalRun env db
        { deps.runRow call category agentId routingDecisionId decision.confidence mode status with
          action := some action
          evidenceScore := some bundle.evidenceScore
          failureReason := some failureReason } h.fresh h.audit
      rw [RouterDeps.carryOut, hterminal]
      rfl
  | shadowCompleted =>
      obtain ⟨next, hrecord⟩ := @runAlone_recordRun env db
        { deps.runRow call category agentId routingDecisionId decision.confidence mode
            .shadowCompleted with
          action := some action
          evidenceScore := some bundle.evidenceScore
          shadowMode := true } h.fresh none
      rw [RouterDeps.carryOut, hrecord]
      rfl
  | propose proposed =>
      obtain ⟨middle, hpropose, hruns⟩ := @runAlone_proposeAction env db call.runId call.key
        (deps.proposalRequest call.ctx agentId action proposed)
      rw [RouterDeps.carryOut, Script.runAlone_bind, hpropose, RunPlan.settled]
      dsimp only
      cases env.propose (deps.proposalRequest call.ctx agentId action proposed) with
      | error error => rfl
      | ok result =>
          cases hdelivered : env.delivered with
          | error error => rfl
          | ok delivered =>
              have hfresh : middle.runs.find? call.runId = none := hruns ▸ h.fresh
              change runOutcome (Ending.andThen ⟨middle, _, .ok result⟩ _) = _
              rw [Ending.andThen]
              dsimp only
              obtain ⟨next, hrecord⟩ := @runAlone_recordRun env middle
                { deps.runRow call category agentId routingDecisionId decision.confidence mode
                    .proposalCreated with
                  action := some action
                  evidenceScore := some bundle.evidenceScore
                  shadowMode := deps.isShadowed agentId
                  proposalId := proposed.proposalId result
                  paymentIntentId := proposed.paymentIntentId result } hfresh (some result)
              rw [hrecord]
              rfl

/-- The run service once the key is its own. -/
theorem runOutcome_runClaimed (category agentId routingDecisionId : String)
    (decision : RoutingDecision) (h : Steady env db call) :
    runOutcome ((deps.runClaimed call category agentId routingDecisionId decision).runAlone runStore
      env db) =
        decidedFor deps env (some call.ctx.tenantId) call.ctx call.input agentId decision := by
  have hended : ∀ status failureReason,
      runOutcome ((RouterDeps.terminalRun
        { deps.runRow call category agentId routingDecisionId decision.confidence
            (decision.executionMode.getD .notifyOnly) status with
          failureReason := some failureReason }).runAlone runStore env db) =
        ⟨[], .ok ⟨some agentId, status, none⟩⟩ := by
    intro status failureReason
    obtain ⟨next, hterminal⟩ := @runAlone_terminalRun env db
      { deps.runRow call category agentId routingDecisionId decision.confidence
          (decision.executionMode.getD .notifyOnly) status with
        failureReason := some failureReason } h.fresh h.audit
    rw [hterminal]
    rfl
  unfold RouterDeps.runClaimed decidedFor
  cases deps.handlers agentId with
  | none => exact hended .missingHandler _
  | some handler =>
      cases deps.definitions agentId with
      | none => exact hended .missingHandler _
      | some definition =>
          dsimp only
          rw [Script.runAlone_bind, Script.runAlone_ask]
          cases env.resolver.resolve ⟨definition, handler.actions, call.input.event,
            call.input.intent, call.input.context, some call.ctx.tenantId⟩ with
          | error error => rfl
          | ok resolution =>
              cases resolution with
              | missingAction reason =>
                  rw [Ending.andThen]
                  exact hended .missingAction reason
              | resolved action source =>
                  rw [Ending.andThen]
                  dsimp only
                  rw [Script.runAlone_bind, Script.runAlone_ask, acted]
                  cases env.gather call.ctx.tenantId call.input.context
                    definition.requiredEvidence with
                  | error error => rfl
                  | ok bundle =>
                      rw [Ending.andThen]
                      exact runOutcome_carryOut category agentId action routingDecisionId decision _
                        bundle _ h

/-! ## The pipeline -/

/-- The key of the run is taken. -/
def KeyTaken (db : RunDb) (call : RunCall) : Prop :=
  ∃ key, call.key = some key ∧ (db.claims.find? key).isSome

/-- The routing that comes first. -/
theorem runOutcome_run (h : Steady env db call) :
    ∃ category routingDecisionId, runOutcome ((deps.run call).runAlone runStore env db) =
      match env.route call.ctx call.input with
      | .error error => ⟨[], .error error⟩
      | .ok decision =>
          match decision.selectedAgentId with
          | none => ⟨[], .ok ⟨none, decision.policyStatus.status, none⟩⟩
          | some agentId =>
              runOutcome ((deps.runSelected call category agentId routingDecisionId
                decision).runAlone runStore env db) := by
  obtain ⟨category, hcategory⟩ := h.category
  obtain ⟨routingDecisionId, hrouted⟩ := h.routingDecision
  refine ⟨category, routingDecisionId, ?_⟩
  rw [RouterDeps.run, Script.runAlone_bind, Script.runAlone_ask, hcategory, Ending.andThen]
  dsimp only
  rw [Script.runAlone_bind, Script.runAlone_ask]
  cases env.route call.ctx call.input with
  | error error => rfl
  | ok decision =>
      rw [Ending.andThen]
      dsimp only
      rw [Script.runAlone_bind, Script.runAlone_ask, hrouted, Ending.andThen]
      dsimp only
      cases decision.selectedAgentId with
      | none => rfl
      | some agentId => rfl

theorem runFrom_taken (runId : String) {key : RunKey} {claim : KeyClaim}
    (hclaim : db.claims.find? key = some claim) :
    Program.runFrom runStore (claimEventIdempotencyKey key runId) db [] =
      .ok ([], ⟨false, some claim.runId⟩) := by
  have hinsert : (if (db.claims.find? key).isSome = true then .ok ([], false)
      else .ok ([.claimed ⟨key, runId⟩], true) : Except RunError (List RunWrite × Bool)) =
        .ok ([], false) := by
    rw [hclaim]
    rfl
  rw [claimEventIdempotencyKey, Program.runFrom_execute_bind hinsert]
  change Except.ok (_, (⟨false, (db.claims.find? key).map KeyClaim.runId⟩ : ClaimResult)) = _
  rw [hclaim]
  rfl

theorem runFrom_free (runId : String) {key : RunKey} (hclaim : db.claims.find? key = none) :
    Program.runFrom runStore (claimEventIdempotencyKey key runId) db [] =
      .ok ([.claimed ⟨key, runId⟩], ⟨true, some runId⟩) := by
  have hinsert : (if (db.claims.find? key).isSome = true then .ok ([], false)
      else .ok ([.claimed ⟨key, runId⟩], true) : Except RunError (List RunWrite × Bool)) =
        .ok ([.claimed ⟨key, runId⟩], true) := by
    rw [hclaim]
    rfl
  rw [claimEventIdempotencyKey, Program.runFrom_execute_bind hinsert]
  rfl

theorem runOutcome_runSelected (category agentId routingDecisionId : String)
    (decision : RoutingDecision) (h : Steady env db call) :
    (KeyTaken db call →
      runOutcome ((deps.runSelected call category agentId routingDecisionId decision).runAlone
        runStore env db) = ⟨[], .ok ⟨some agentId, .duplicateSkipped, none⟩⟩) ∧
      (¬KeyTaken db call →
        runOutcome ((deps.runSelected call category agentId routingDecisionId decision).runAlone
          runStore env db) =
            decidedFor deps env (some call.ctx.tenantId) call.ctx call.input agentId decision) := by
  unfold RouterDeps.runSelected
  cases hkey : call.key with
  | none =>
      refine ⟨?_, fun _ => runOutcome_runClaimed category agentId routingDecisionId decision h⟩
      rintro ⟨key, hsome, -⟩
      rw [hkey] at hsome
      cases hsome
  | some key =>
      cases hclaim : db.claims.find? key with
      | some claim =>
          have hinsert := runFrom_taken call.runId hclaim
          refine ⟨fun _ => ?_, fun hfree => ?_⟩
          · dsimp only
            rw [Script.runAlone_bind, Script.runAlone_transact _ _ _ hinsert]
            rfl
          · exact absurd ⟨key, hkey, by rw [hclaim]; rfl⟩ hfree
      | none =>
          have hinsert := runFrom_free call.runId hclaim
          refine ⟨?_, fun _ => ?_⟩
          · rintro ⟨other, hother, hsome⟩
            rw [hkey] at hother
            cases hother
            rw [hclaim] at hsome
            cases hsome
          · have hsteady : Steady env (runStore.view db [.claimed ⟨key, call.runId⟩]) call :=
              ⟨h.category, h.routingDecision, h.audit, h.fresh, h.allowed, h.notified⟩
            dsimp only
            rw [Script.runAlone_bind, Script.runAlone_transact _ _ _ hinsert, Ending.andThen]
            exact runOutcome_runClaimed category agentId routingDecisionId decision hsteady

/-! ## What the pipeline does -/

section Pipeline

variable {ctx : ServiceCallContext} {input : RoutingInput} {agentId action : String}
  {handler : InternalAgentHandler} {definition : InternalAgentDefinition}
  {decision : RoutingDecision} {tenant : Option String} {report : RunReport}

/-- A plan is not to skip the run. -/
theorem settled_ne_duplicate {mode : ExecutionMode} {bundle : EvidenceBundle}
    {built : Except (Option String) ProposedAction} {status : AgentRunStatus}
    (h : (deps.plan agentId mode bundle built).settled = .inl status) :
    status ≠ .duplicateSkipped := by
  cases hplan : deps.plan agentId mode bundle built with
  | terminal other otherMode failureReason =>
      rw [hplan] at h
      cases h
      exact deps.plan_status hplan
  | shadowCompleted =>
      rw [hplan] at h
      cases h
      decide
  | propose proposed =>
      rw [hplan] at h
      cases h

/-- An action that is acted on is reported. -/
theorem acted_report
    (h : (acted deps env ctx input agentId action handler definition decision).result =
      .ok report) :
    report.action = some action ∧ report.status ≠ .duplicateSkipped := by
  unfold acted at h
  split at h
  · cases h
  · split at h
    · rename_i hsettled
      cases h
      exact ⟨rfl, settled_ne_duplicate hsettled⟩
    · rename_i proposed _
      dsimp only at h
      cases hpropose : env.propose (deps.proposalRequest ctx agentId action proposed) with
      | error error =>
          rw [hpropose] at h
          cases h
      | ok result =>
          rw [hpropose] at h
          cases hdelivered : env.delivered with
          | error error =>
              rw [hdelivered] at h
              cases h
          | ok delivered =>
              rw [hdelivered] at h
              cases h
              exact ⟨rfl, fun hsame => by cases hsame⟩

theorem decidedFor_report
    (h : (decidedFor deps env tenant ctx input agentId decision).result = .ok report) :
    report.status ≠ .duplicateSkipped := by
  unfold decidedFor at h
  split at h
  · split at h
    · cases h
    · cases h
      exact fun hsame => by cases hsame
    · exact (acted_report h).2
  · cases h
    exact fun hsame => by cases hsame
  · cases h
    exact fun hsame => by cases hsame

/-- What the hook of the resolver says of an action. -/
theorem resolve_of_candidate {resolver : ActionResolverDeps} {request : ActionResolutionInput}
    {source : ActionSource}
    (hcandidate : resolver.candidate request = .ok (.ok (action, source)))
    {isActionAllowed : Option String → String → String → Except RunError Bool}
    (hhook : resolver.isActionAllowed = some isActionAllowed) {allowed : Bool}
    (hallowed : isActionAllowed request.tenantId request.definition.agentKey action = .ok allowed)
    (hnotified : resolver.onPolicyDenied request.tenantId request.definition.agentKey action source =
      .ok ()) :
    resolver.resolve request = .ok (if allowed = true then .resolved action source
      else .missingAction ("action \"" ++ action ++ "\" is denied by policy for " ++
        request.definition.agentKey ++ " (source=" ++ source.name ++ ")")) := by
  unfold ActionResolverDeps.resolve
  rw [hcandidate]
  change resolver.authorize request action source = _
  unfold ActionResolverDeps.authorize
  rw [hhook]
  change (isActionAllowed request.tenantId request.definition.agentKey action >>= _) = _
  rw [hallowed]
  cases allowed with
  | true => rfl
  | false =>
      change (resolver.onPolicyDenied request.tenantId request.definition.agentKey action source >>=
        _) = _
      rw [hnotified]
      rfl

/-- An action that is resolved is allowed. -/
theorem allowed_of_resolve {resolver : ActionResolverDeps} {request : ActionResolutionInput}
    {source : ActionSource} (h : resolver.resolve request = .ok (.resolved action source))
    {isActionAllowed : Option String → String → String → Except RunError Bool}
    (hhook : resolver.isActionAllowed = some isActionAllowed) :
    isActionAllowed request.tenantId request.definition.agentKey action = .ok true := by
  unfold ActionResolverDeps.resolve at h
  cases hcandidate : resolver.candidate request with
  | error error =>
      rw [hcandidate] at h
      cases h
  | ok found =>
      rw [hcandidate] at h
      cases found with
      | error reason => cases h
      | ok found =>
          obtain ⟨candidate, origin⟩ := found
          change resolver.authorize request candidate origin = _ at h
          unfold ActionResolverDeps.authorize at h
          rw [hhook] at h
          change (isActionAllowed request.tenantId request.definition.agentKey candidate >>= _) = _
            at h
          cases hallowed :
              isActionAllowed request.tenantId request.definition.agentKey candidate with
          | error error =>
              rw [hallowed] at h
              cases h
          | ok allowed =>
              rw [hallowed] at h
              cases allowed with
              | true =>
                  cases h
                  exact hallowed
              | false =>
                  change (resolver.onPolicyDenied request.tenantId request.definition.agentKey
                    candidate origin >>= _) = _ at h
                  cases hnotified : resolver.onPolicyDenied request.tenantId
                      request.definition.agentKey candidate origin with
                  | error error =>
                      rw [hnotified] at h
                      cases h
                  | ok done =>
                      rw [hnotified] at h
                      cases h

/-- A financial proposal is one of a live agent, over an allowed rail. -/
theorem settled_paymentIntent {mode : ExecutionMode} {bundle : EvidenceBundle}
    {built : Except (Option String) ProposedAction} {intent : PaymentIntentInput}
    (h : (deps.plan agentId mode bundle built).settled = .inr (.paymentIntent intent)) :
    deps.isShadowed agentId = false ∧ deps.railBlocked agentId intent = false := by
  have hproposed : ∀ proposed, (deps.planProposed agentId mode proposed).settled =
      .inr (.paymentIntent intent) →
        deps.isShadowed agentId = false ∧ deps.railBlocked agentId intent = false := by
    intro proposed h
    cases proposed with
    | agent action informational =>
        simp only [RouterDeps.planProposed] at h
        split at h
        · cases h
        · split at h <;> cases h
    | paymentIntent other =>
        simp only [RouterDeps.planProposed] at h
        split at h
        · cases h
        · rename_i hlive
          cases h
          rw [Bool.not_eq_true, Bool.or_eq_false_iff] at hlive
          exact hlive
  have hbuilt : ∀ built, (deps.planBuilt agentId mode bundle built).settled =
      .inr (.paymentIntent intent) →
        deps.isShadowed agentId = false ∧ deps.railBlocked agentId intent = false := by
    intro built h
    unfold RouterDeps.planBuilt at h
    split at h
    · cases h
    · cases built with
      | error error => cases mode <;> cases h
      | ok proposed =>
          cases mode with
          | reject => cases h
          | notifyOnly => cases h
          | execute => exact hproposed proposed h
          | propose => exact hproposed proposed h
          | confirm => exact hproposed proposed h
  unfold RouterDeps.plan at h
  split at h
  · split at h
    · cases h
    · cases h
    · exact hbuilt _ h
  · exact hbuilt _ h

end Pipeline

/-! ## What neither may do -/

/-- The tenant's allowlist does not deny the action to the agent. -/
def AllowedFor (deps : RouterDeps) (env : RunEnv) (tenantId agentId action : String) : Prop :=
  ∀ definition, deps.definitions agentId = some definition →
    ∀ isActionAllowed, env.resolver.isActionAllowed = some isActionAllowed →
      isActionAllowed (some tenantId) definition.agentKey action = .ok true

/-- No financial proposal of a shadowed agent or over a rail that is not allowlisted, and nothing
done for an action that the tenant's allowlist denies. -/
structure Safe (deps : RouterDeps) (env : RunEnv) (ctx : ServiceCallContext) (outcome : Outcome) :
    Prop where
  payments : ∀ request ∈ outcome.requests, ∀ intent, request.call = .paymentIntents intent →
    deps.isShadowed request.agentId = false ∧ ∀ checkRail, deps.checkRail = some checkRail →
      checkRail request.agentId intent.actionType = true
  requests : ∀ request ∈ outcome.requests,
    AllowedFor deps env ctx.tenantId request.agentId request.action
  reported : ∀ report agentId action, outcome.result = .ok report →
    report.selectedAgentId = some agentId → report.action = some action →
      AllowedFor deps env ctx.tenantId agentId action

theorem Safe.of_quiet {ctx : ServiceCallContext} {result : Except RunError RunReport}
    (h : ∀ report, result = .ok report → report.action = none) :
    Safe deps env ctx ⟨[], result⟩ where
  payments request hmem := by cases hmem
  requests request hmem := by cases hmem
  reported report agentId action hreport _ haction := by
    rw [h report hreport] at haction
    cases haction

theorem railAllowed {agentId : String} {intent : PaymentIntentInput}
    (hlive : deps.isShadowed agentId = false) (hrail : deps.railBlocked agentId intent = false)
    (checkRail : String → String → Bool) (hcheck : deps.checkRail = some checkRail) :
    checkRail agentId intent.actionType = true := by
  rw [RouterDeps.railBlocked, hlive, hcheck] at hrail
  simpa using hrail

theorem acted_safe {ctx : ServiceCallContext} {input : RoutingInput} {agentId action : String}
    {handler : InternalAgentHandler} {definition : InternalAgentDefinition}
    {decision : RoutingDecision} (hallowed : AllowedFor deps env ctx.tenantId agentId action) :
    Safe deps env ctx (acted deps env ctx input agentId action handler definition decision) := by
  unfold acted
  split
  · exact .of_quiet fun report hreport => by cases hreport
  · split
    · refine ⟨(fun request hmem => by cases hmem), (fun request hmem => by cases hmem), ?_⟩
      rintro report other name ⟨⟩ ⟨⟩ ⟨⟩
      exact hallowed
    · rename_i proposed hsettled
      refine ⟨?_, ?_, ?_⟩
      · intro request hmem intent hcall
        obtain rfl := List.mem_singleton.mp hmem
        cases proposed with
        | agent fields informational => cases hcall
        | paymentIntent other =>
            cases hcall
            obtain ⟨hlive, hrail⟩ := settled_paymentIntent hsettled
            exact ⟨hlive, railAllowed hlive hrail⟩
      · intro request hmem
        obtain rfl := List.mem_singleton.mp hmem
        exact hallowed
      · intro report other name hreport hother hname
        dsimp only at hreport
        cases hpropose : env.propose (deps.proposalRequest ctx agentId action proposed) with
        | error error =>
            rw [hpropose] at hreport
            cases hreport
        | ok result =>
            rw [hpropose] at hreport
            cases hdelivered : env.delivered with
            | error error =>
                rw [hdelivered] at hreport
                cases hreport
            | ok delivered =>
                rw [hdelivered] at hreport
                cases hreport
                cases hother
                cases hname
                exact hallowed

theorem decidedFor_safe (ctx : ServiceCallContext) (input : RoutingInput) (agentId : String)
    (decision : RoutingDecision) :
    Safe deps env ctx (decidedFor deps env (some ctx.tenantId) ctx input agentId decision) := by
  unfold decidedFor
  split
  · rename_i handler definition _ hdefinition
    split
    · exact .of_quiet fun report hreport => by cases hreport
    · refine .of_quiet fun report hreport => ?_
      cases hreport
      rfl
    · rename_i action source hresolved
      refine acted_safe fun other hother isActionAllowed hhook => ?_
      rw [hdefinition] at hother
      cases hother
      exact allowed_of_resolve hresolved hhook
  · refine .of_quiet fun report hreport => ?_
    cases hreport
    rfl
  · refine .of_quiet fun report hreport => ?_
    cases hreport
    rfl

/-! ## Agreement -/

/-- No agent is selected; or the key is free, and the allowlist says the same of the action the
agent comes to whether or not it is told the tenant. -/
def Alike (deps : RouterDeps) (env : RunEnv) (db : RunDb) (call : RunCall) : Prop :=
  ∀ decision agentId, env.route call.ctx call.input = .ok decision →
    decision.selectedAgentId = some agentId →
      ¬KeyTaken db call ∧
        ∀ handler definition isActionAllowed action source, deps.handlers agentId = some handler →
          deps.definitions agentId = some definition →
            env.resolver.isActionAllowed = some isActionAllowed →
              env.resolver.candidate ⟨definition, handler.actions, call.input.event,
                call.input.intent, call.input.context, none⟩ = .ok (.ok (action, source)) →
                isActionAllowed none definition.agentKey action =
                  isActionAllowed (some call.ctx.tenantId) definition.agentKey action

theorem workerOutcome_routeAndPropose (ctx : ServiceCallContext) (input : RoutingInput)
    (jobId : String) :
    workerOutcome ((deps.routeAndPropose ctx input jobId).runAlone runStore env db) =
      match env.route ctx input with
      | .error error => ⟨[], .error error⟩
      | .ok decision =>
          match decision.selectedAgentId with
          | none => ⟨[], .ok ⟨none, decision.policyStatus.status, none⟩⟩
          | some agentId => decidedFor deps env none ctx input agentId decision := by
  rw [RouterDeps.routeAndPropose, Script.runAlone_bind, Script.runAlone_ask]
  cases env.route ctx input with
  | error error => rfl
  | ok decision =>
      rw [Ending.andThen]
      dsimp only
      cases hselected : decision.selectedAgentId with
      | none => rfl
      | some agentId =>
          have hmode := decision.moded (by rw [hselected]; rfl)
          exact workerOutcome_routeSelected ctx input jobId agentId hmode

theorem resolve_congr {definition : InternalAgentDefinition} {actions : List String}
    (hsteady : Steady env db call)
    (h : ∀ isActionAllowed action source, env.resolver.isActionAllowed = some isActionAllowed →
      env.resolver.candidate ⟨definition, actions, call.input.event, call.input.intent,
        call.input.context, none⟩ = .ok (.ok (action, source)) →
        isActionAllowed none definition.agentKey action =
          isActionAllowed (some call.ctx.tenantId) definition.agentKey action) :
    env.resolver.resolve ⟨definition, actions, call.input.event, call.input.intent,
      call.input.context, some call.ctx.tenantId⟩ =
        env.resolver.resolve ⟨definition, actions, call.input.event, call.input.intent,
          call.input.context, none⟩ := by
  -- The candidate does not depend on the tenant.
  have hsame : env.resolver.candidate ⟨definition, actions, call.input.event, call.input.intent,
      call.input.context, some call.ctx.tenantId⟩ =
        env.resolver.candidate ⟨definition, actions, call.input.event, call.input.intent,
          call.input.context, none⟩ := rfl
  cases hcandidate : env.resolver.candidate ⟨definition, actions, call.input.event,
      call.input.intent, call.input.context, none⟩ with
  | error error =>
      unfold ActionResolverDeps.resolve
      rw [hsame, hcandidate]
      rfl
  | ok found =>
      cases found with
      | error reason =>
          unfold ActionResolverDeps.resolve
          rw [hsame, hcandidate]
          rfl
      | ok found =>
          obtain ⟨action, source⟩ := found
          cases hhook : env.resolver.isActionAllowed with
          | none =>
              unfold ActionResolverDeps.resolve
              rw [hsame, hcandidate]
              change env.resolver.authorize _ action source = env.resolver.authorize _ action source
              unfold ActionResolverDeps.authorize
              rw [hhook]
          | some isActionAllowed =>
              have halike := h isActionAllowed action source hhook hcandidate
              obtain ⟨allowed, hallowed⟩ :=
                hsteady.allowed isActionAllowed hhook none definition.agentKey action
              rw [resolve_of_candidate (hsame.trans hcandidate) hhook (halike.symm.trans hallowed)
                (hsteady.notified _ _ _ _),
                resolve_of_candidate hcandidate hhook hallowed (hsteady.notified _ _ _ _)]

/-- The pipeline does the same whichever tenant it is told, when the allowlist does. -/
theorem decidedFor_congr {decision : RoutingDecision} {agentId : String} (hsteady : Steady env db call)
    (h : ∀ handler definition isActionAllowed action source, deps.handlers agentId = some handler →
      deps.definitions agentId = some definition →
        env.resolver.isActionAllowed = some isActionAllowed →
          env.resolver.candidate ⟨definition, handler.actions, call.input.event,
            call.input.intent, call.input.context, none⟩ = .ok (.ok (action, source)) →
            isActionAllowed none definition.agentKey action =
              isActionAllowed (some call.ctx.tenantId) definition.agentKey action) :
    decidedFor deps env (some call.ctx.tenantId) call.ctx call.input agentId decision =
      decidedFor deps env none call.ctx call.input agentId decision := by
  unfold decidedFor
  cases hhandler : deps.handlers agentId with
  | none => rfl
  | some handler =>
      cases hdefinition : deps.definitions agentId with
      | none => rfl
      | some definition =>
          dsimp only
          rw [resolve_congr hsteady fun isActionAllowed action source hhook hcandidate =>
            h handler definition isActionAllowed action source hhandler hdefinition hhook hcandidate]

/-- An action that the allowlist denies in one case and not in the other is seen in the report. -/
theorem alike_of_decidedFor {decision : RoutingDecision} {agentId : String}
    (hsteady : Steady env db call)
    (h : decidedFor deps env (some call.ctx.tenantId) call.ctx call.input agentId decision =
      decidedFor deps env none call.ctx call.input agentId decision)
    {handler : InternalAgentHandler} {definition : InternalAgentDefinition}
    {isActionAllowed : Option String → String → String → Except RunError Bool} {action : String}
    {source : ActionSource} (hhandler : deps.handlers agentId = some handler)
    (hdefinition : deps.definitions agentId = some definition)
    (hhook : env.resolver.isActionAllowed = some isActionAllowed)
    (hcandidate : env.resolver.candidate ⟨definition, handler.actions, call.input.event,
      call.input.intent, call.input.context, none⟩ = .ok (.ok (action, source))) :
    isActionAllowed none definition.agentKey action =
      isActionAllowed (some call.ctx.tenantId) definition.agentKey action := by
  obtain ⟨without, hwithout⟩ := hsteady.allowed isActionAllowed hhook none definition.agentKey action
  obtain ⟨allowed, hallowed⟩ := hsteady.allowed isActionAllowed hhook (some call.ctx.tenantId)
    definition.agentKey action
  have htold : env.resolver.candidate ⟨definition, handler.actions, call.input.event,
      call.input.intent, call.input.context, some call.ctx.tenantId⟩ = .ok (.ok (action, source)) :=
    hcandidate
  have hreported : acted deps env call.ctx call.input agentId action handler definition decision ≠
      ⟨[], .ok ⟨some agentId, .missingAction, none⟩⟩ := by
    intro hacted
    have hnone := (acted_report (congrArg Outcome.result hacted)).1
    cases hnone
  unfold decidedFor at h
  rw [hhandler, hdefinition] at h
  dsimp only at h
  rw [resolve_of_candidate htold hhook hallowed (hsteady.notified _ _ _ _),
    resolve_of_candidate hcandidate hhook hwithout (hsteady.notified _ _ _ _)] at h
  rw [hwithout, hallowed]
  cases without with
  | true =>
      cases allowed with
      | true => rfl
      | false => exact absurd h.symm hreported
  | false =>
      cases allowed with
      | true => exact absurd h hreported
      | false => rfl

/-- The worker and the run service end alike, ask for the same proposals and keep to the promotion
policy and the allowlist exactly when no agent is selected, or the key of the run is free and the
allowlist says the same with and without the tenant. -/
theorem worker_agrees_iff (hsteady : Steady env db call) (jobId : String) :
    (runOutcome ((deps.run call).runAlone runStore env db) =
        workerOutcome ((deps.routeAndPropose call.ctx call.input jobId).runAlone runStore env db) ∧
      Safe deps env call.ctx (runOutcome ((deps.run call).runAlone runStore env db)) ∧
        Safe deps env call.ctx
          (workerOutcome ((deps.routeAndPropose call.ctx call.input jobId).runAlone runStore env
            db))) ↔
      Alike deps env db call := by
  obtain ⟨category, routingDecisionId, hrun⟩ := @runOutcome_run deps env db call hsteady
  have hworker := @workerOutcome_routeAndPropose deps env db call.ctx call.input jobId
  rw [hrun, hworker]
  constructor
  · rintro ⟨hagree, -, -⟩ decision agentId hroute hselected
    rw [hroute] at hagree
    dsimp only at hagree
    rw [hselected] at hagree
    dsimp only at hagree
    obtain ⟨htaken, hfree⟩ :=
      @runOutcome_runSelected deps env db call category agentId routingDecisionId decision hsteady
    have hkey : ¬KeyTaken db call := by
      intro hkey
      rw [htaken hkey] at hagree
      exact decidedFor_report (congrArg Outcome.result hagree).symm rfl
    rw [hfree hkey] at hagree
    exact ⟨hkey, fun _ _ _ _ _ hhandler hdefinition hhook hcandidate =>
      alike_of_decidedFor hsteady hagree hhandler hdefinition hhook hcandidate⟩
  · intro halike
    cases hroute : env.route call.ctx call.input with
    | error error =>
        have hquiet : Safe deps env call.ctx ⟨[], .error error⟩ :=
          .of_quiet fun report hreport => by cases hreport
        exact ⟨rfl, hquiet, hquiet⟩
    | ok decision =>
        dsimp only
        cases hselected : decision.selectedAgentId with
        | none =>
            have hquiet : Safe deps env call.ctx
                ⟨[], .ok ⟨none, decision.policyStatus.status, none⟩⟩ := by
              refine .of_quiet fun report hreport => ?_
              cases hreport
              rfl
            exact ⟨rfl, hquiet, hquiet⟩
        | some agentId =>
            obtain ⟨hkey, hallowed⟩ := halike decision agentId hroute hselected
            have hfree := (@runOutcome_runSelected deps env db call category agentId
              routingDecisionId decision hsteady).2 hkey
            dsimp only
            rw [hfree, ← @decidedFor_congr deps env db call decision agentId hsteady hallowed]
            have hsafe := @decidedFor_safe deps env call.ctx call.input agentId decision
            exact ⟨rfl, hsafe, hsafe⟩

/-! ## A tenant without an allowlist -/

namespace UntoldTenant

def treasury : InternalAgentDefinition where
  agentKey := "treasury"
  defaultAction := some "propose_transfer"

def handler : InternalAgentHandler where
  actions := ["propose_transfer"]
  build _ := .error none

def treasuryDeps : RouterDeps where
  handlers _ := some handler
  definitions _ := some treasury
  isShadowed _ := false

def decision : RoutingDecision where
  selectedAgentId := some "treasury"
  policyStatus := .routed
  executionMode := some .reject
  reason := "matched"
  moded _ := rfl

/-- The hook as it is wired: `unknown` is what it says without a tenant, and the tenant has no
allowlist. -/
def wired (unknown : Bool) : RunEnv where
  getTenantCategory _ := .ok "business"
  route _ _ := .ok decision
  recordRoutingDecision := .ok "agrd_1"
  resolver :=
    { classify := fun _ _ => .ok 0
      isActionAllowed := some fun tenant _ _ => .ok (tenant.isSome || unknown) }
  gather _ _ _ := .ok {}
  propose _ := .error ⟨"not asked"⟩
  delivered := .ok ()
  audit := .ok ()

def request : RunCall where
  ctx := ⟨"tnt_1", "worker"⟩
  input := { tenantId := "tnt_1", event := some "balance.low" }
  runId := "agnr_1"

/-- In production every event of the worker ends without an action. -/
theorem worker_denies_everything :
    (runOutcome ((treasuryDeps.run request).runAlone runStore (wired false) {})).result =
        .ok ⟨some "treasury", .rejected, some "propose_transfer"⟩ ∧
      (workerOutcome ((treasuryDeps.routeAndPropose request.ctx request.input "job_1").runAlone
        runStore (wired false) {})).result = .ok ⟨some "treasury", .missingAction, none⟩ ∧
        runOutcome ((treasuryDeps.run request).runAlone runStore (wired false) {}) ≠
          workerOutcome ((treasuryDeps.routeAndPropose request.ctx request.input "job_1").runAlone
            runStore (wired false) {}) := by
  refine ⟨rfl, rfl, fun hagree => ?_⟩
  have hresult := congrArg Outcome.result hagree
  cases hresult

theorem steady_wired (unknown : Bool) : Steady (wired unknown) {} request where
  category := ⟨_, rfl⟩
  routingDecision := ⟨_, rfl⟩
  audit := rfl
  fresh := rfl
  allowed isActionAllowed hhook tenant agentKey action := by
    cases hhook
    exact ⟨_, rfl⟩
  notified _ _ _ _ := rfl

theorem worker_agrees_when_known :
    runOutcome ((treasuryDeps.run request).runAlone runStore (wired true) {}) =
        workerOutcome ((treasuryDeps.routeAndPropose request.ctx request.input "job_1").runAlone
          runStore (wired true) {}) := by
  have halike : Alike treasuryDeps (wired true) {} request := by
    intro found agentId _ _
    constructor
    · rintro ⟨key, hkey, -⟩
      cases hkey
    · intro other definition isActionAllowed action source _ _ hhook _
      cases hhook
      rfl
  exact ((worker_agrees_iff (steady_wired true) "job_1").mpr halike).1

end UntoldTenant

end BrainCore.AgentRouter
