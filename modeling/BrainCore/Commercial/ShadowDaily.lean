import BrainCore.Foundation.Json
import BrainCore.Foundation.Ports
import BrainCore.Foundation.Text
import BrainCore.Usage.Billing

/-!
# The daily run of the commercial shadow

`services/api/src/commercial/shadow-daily.ts`: on each day of the window the run
issues the requests that the meters still lack, reconciles the period from the
start of the shadow up to the instant at which it was done, and records the day.
Instants are in milliseconds, and a date is a number of days.
-/

namespace BrainCore.Commercial.ShadowDaily

open BrainCore.Foundation

/-! ## Days -/

/-- 2026-10-01. -/
def COMMERCIAL_SHADOW_FIRST_RUN_DATE : Int := 20727

/-- 2026-11-01. -/
def COMMERCIAL_SHADOW_LAST_RUN_DATE_EXCLUSIVE : Int := 20758

/-- 01:15 UTC. -/
def COMMERCIAL_SHADOW_SCHEDULE_MS : Int := 75 * 60 * 1000

def utcDate (date : Int) : Int := Usage.utcDate date

/-- `getUTCDay()`: the first day of all was a Thursday. -/
def utcDay (date : Int) : Int := (utcDate date + 4) % 7

structure ShadowDailyTargets where
  api : Nat
  mcp : Nat

def targetsForDate (date : Int) : ShadowDailyTargets :=
  if utcDay date = 0 ∨ utcDay date = 6 then ⟨500, 50⟩ else ⟨1000, 100⟩

def scheduledForDate (date : Int) : Int :=
  utcDate date * Usage.DAY_MS + COMMERCIAL_SHADOW_SCHEDULE_MS

def nextScheduledRun (now : Int) : Int :=
  if scheduledForDate now > now then scheduledForDate now
  else scheduledForDate (now + Usage.DAY_MS)

/-! ## The state of the shadow -/

structure Provenance where
  kind : Option String
  dataProfile : Option String
  accessStage : Option String

structure ShadowState where
  state : String
  tenantId : Option String := none
  shadowPeriodId : Option String := none
  startedAt : Option String := none
  growthEntitlementValid : Option Bool := none
  apiRateEntitlementValid : Option Bool := none
  billingExclusionPresent : Option Bool := none
  zeroBillingState : Option Bool := none
  bffAgentKeyActive : Option Bool := none
  commercialApiKeyActive : Option Bool := none
  protectedTenantMatch : Option Bool := none
  provenance : Option Provenance := none

namespace ShadowState

/-- The conditions in the order in which they are asked for. -/
def conditions (state : ShadowState) : List (String × Option Bool) :=
  [("growth_entitlement_valid", state.growthEntitlementValid),
    ("api_rate_entitlement_valid", state.apiRateEntitlementValid),
    ("billing_exclusion_present", state.billingExclusionPresent),
    ("zero_billing_state", state.zeroBillingState),
    ("bff_agent_key_active", state.bffAgentKeyActive),
    ("commercial_api_key_active", state.commercialApiKeyActive)]

def hasProvenance (state : ShadowState) : Bool :=
  match state.provenance with
  | none => false
  | some provenance =>
      provenance.kind = some "production" &&
        provenance.dataProfile = some "internal_commercial_shadow_v1" &&
        provenance.accessStage = some "production"

end ShadowState

def assertRunningStateSafe (state : ShadowState) : Except String Unit :=
  match state.conditions.find? fun condition => condition.2 ≠ some true with
  | some condition => .error ("shadow workload safety check failed: " ++ condition.1)
  | none =>
      if state.protectedTenantMatch ≠ some false then
        .error "shadow workload safety check failed: protected tenant match"
      else if !state.hasProvenance then
        .error "shadow workload safety check failed: tenant provenance"
      else .ok ()

def requiredState (value : Option String) (name : String) : Except String String :=
  match value with
  | some text => if text = "" then .error ("shadow state is missing " ++ name) else .ok text
  | none => .error ("shadow state is missing " ++ name)

/-- `/^[0-9a-f]{40}$/`. -/
def isSha (value : String) : Bool :=
  value.toList.length == 40 && value.toList.all fun c => c.isDigit || ('a' ≤ c && c ≤ 'f')

def assertSha (value : String) : Except String Unit :=
  if isSha value then .ok () else .error "deployed SHA must be 40 lowercase hex"

/-! ## Credentials -/

structure ShadowDailyCredentialBundle where
  tenantId : String
  shadowPeriodId : String
  agentId : String
  agentKeyId : String
  apiKeyId : String
  brainAgentApiKey : String
  brainApiKey : String

/-- What the file system says of a file that could be opened. -/
structure CredentialFile where
  isFile : Bool
  mode : Nat
  /-- `JSON.parse(contents)`. -/
  contents : Except String Json

def bundleField (parsed : Json) (name : String) : Except String String :=
  match parsed.field? name with
  | some (.str text) =>
      if text = "" then .error ("commercial shadow credential bundle is missing " ++ name)
      else .ok text
  | _ => .error ("commercial shadow credential bundle is missing " ++ name)

def readCredentialBundle (file : CredentialFile) : Except String ShadowDailyCredentialBundle := do
  if !file.isFile || file.mode % 0o1000 ≠ 0o600 then
    .error "commercial shadow credential file must be a regular mode-0600 file"
  else
    let parsed ← file.contents
    let tenantId ← bundleField parsed "tenant_id"
    let shadowPeriodId ← bundleField parsed "shadow_period_id"
    let agentId ← bundleField parsed "agent_id"
    let agentKeyId ← bundleField parsed "agent_key_id"
    let apiKeyId ← bundleField parsed "api_key_id"
    let brainAgentApiKey ← bundleField parsed "BRAIN_AGENT_API_KEY"
    let brainApiKey ← bundleField parsed "BRAIN_API_KEY"
    if ¬"brain_ak_live_".toList <+: brainAgentApiKey.toList then
      .error "commercial shadow agent credential is not live"
    else if ¬"brain_sk_live_".toList <+: brainApiKey.toList then
      .error "commercial shadow API credential is not live"
    else
      .ok { tenantId, shadowPeriodId, agentId, agentKeyId, apiKeyId, brainAgentApiKey, brainApiKey }

/-! ## The workload -/

def apiPath (ordinal : Nat) : String :=
  let slot := ordinal % 10
  if slot < 4 then "/v1/ledger/accounts?limit=25"
  else if slot < 7 then "/v1/ledger/transactions?limit=25"
  else if slot = 7 then "/v1/ledger/obligations?limit=25"
  else if slot = 8 then "/v1/audit/events?limit=25"
  else "/v1/governance/agents"

/-- The name of the tool; its arguments are the same for all. -/
def mcpTool (ordinal : Nat) : String :=
  let slot := ordinal % 10
  if slot < 5 then "ledger.accounts.list"
  else if slot < 8 then "ledger.transactions.list"
  else "ledger.obligations.list"

/-- One more of a value, at its place or behind the others. -/
def countOne (value : String) : List (String × Nat) → List (String × Nat)
  | [] => [(value, 1)]
  | (name, count) :: rest =>
      if name = value then (name, count + 1) :: rest else (name, count) :: countOne value rest

def summarizeMix (total : Nat) (valueAt : Nat → String) : Json :=
  .obj (((List.range total).foldl (fun mix index => countOne (valueAt index) mix) []).map
    fun entry => (entry.1, .num entry.2))

/-! ## Ports -/

structure Reconciliation where
  id : String
  status : Usage.ReconciliationStatus

structure ShadowObservation where
  id : String
  apiEvidenceComplete : Bool
  mcpEvidenceComplete : Bool
  apiUnits : Nat
  mcpUnits : Nat
  apiUnitResult : String
  mcpUnitResult : String

structure ShadowDailyInput where
  deployedSha : String
  runReference : String
  credentialPath : String
  apiBase : String := "https://api.brain.fi"
  authTokenUrl : String := "https://auth.brain.fi/token"
  mcpUrl : String := "https://mcp.brain.fi/"

structure Heartbeat where
  deployedSha : String
  state : String
  now : Int
  nextRunAt : Int
  runReference : String

/-- The parts of the text of a key. -/
structure ShadowIdempotencyKey where
  kind : String
  shadowPeriodId : String
  runDate : Int
  completedAt : Int

/-- What both reconciliations are asked for; `none` is no date. -/
structure ReconcileCall where
  tenantId : String
  environment : String := "live"
  periodStart : Option Int
  periodEnd : Int
  idempotencyKey : ShadowIdempotencyKey
  actor : String := "system:commercial-shadow-daily"

/-- A row of `commercial_shadow_daily_runs`. -/
structure DailyRunRow where
  tenantId : String
  shadowPeriodId : String
  runDate : Int
  scheduledFor : Int
  deployedSha : String
  startedAt : Int
  completedAt : Int
  apiExpectedRequests : Nat
  apiCompletedRequests : Nat
  mcpExpectedRequests : Nat
  mcpCompletedRequests : Nat
  apiReconciliationRunId : String
  mcpReconciliationRunId : String
  observationId : String
  runReference : String
  evidence : Json

inductive ShadowCall where
  | inspect
  | heartbeat (beat : Heartbeat)
  | selectRun (tenantId shadowPeriodId : String) (runDate : Int)
  | readCredentialBundle (path : String)
  | countApiRequests (tenantId keyId : String) (start end_ : Int)
  | countMcpRequests (tenantId shadowPeriodId agentId : String) (start end_ : Int)
  | exchangeAgentCredential (url subjectToken : String)
  | callApi (url credential : String)
  | callMcp (url token : String) (id : Nat) (tool : String)
  | reconcileUsagePeriod (input : ReconcileCall)
  | reconcileMcpShadowUsage (shadowPeriodId : String) (input : ReconcileCall)
  | observe (tenantId shadowPeriodId : String)
  | record (row : DailyRunRow)

/-- A request over the network. -/
def ShadowCall.isRequest : ShadowCall → Bool
  | exchangeAgentCredential _ _ => true
  | callApi _ _ => true
  | callMcp _ _ _ _ => true
  | _ => false

/-- What a run finds: the rows of earlier runs, the clock, and the answers of its calls. -/
structure ShadowEnvironment where
  runs : List DailyRunRow
  now : Int
  startedAt : Int
  completedAt : Int
  /-- `new Date(text).getTime()`, unless that is no number. -/
  dateOf : String → Option Int
  inspected : Except String (Option ShadowState)
  credentialFile : Except String CredentialFile
  apiObserved : Except String Nat
  mcpObserved : Except String Nat
  accessToken : Except String String
  callApi : Nat → Except String Unit
  callMcp : Nat → Except String Unit
  apiCompleted : Except String Nat
  mcpCompleted : Except String Nat
  apiReconciliation : Except String Reconciliation
  mcpReconciliation : Except String Reconciliation
  observation : Except String ShadowObservation
  recorded : Except String Unit
  heartbeat : Except String Unit

abbrev Shadow := Ported ShadowCall String

inductive ShadowDailyStatus where
  | notRunning
  | outsideWindow
  | alreadyComplete
  | completed
deriving DecidableEq

structure ShadowDailyRunResult where
  status : ShadowDailyStatus
  tenantId : Option String := none
  shadowPeriodId : Option String := none
  runDate : Option Int := none
  apiRequests : Option Nat := none
  mcpRequests : Option Nat := none
  apiReconciliationStatus : Option Usage.ReconciliationStatus := none
  mcpReconciliationStatus : Option Usage.ReconciliationStatus := none
  observationId : Option String := none

/-- A check in between calls. -/
def require {α : Type} (checked : Except String α) : Shadow α := ⟨checked, []⟩

/-! ## The run -/

/-- `reconcileUsagePeriod`, with the answer of what follows its precondition. -/
def reconcileUsagePeriod (call : ReconcileCall) (body : Except String Reconciliation) :
    Except String Reconciliation := do
  match call.periodStart with
  | none => .error "period must contain valid ascending timestamps"
  | some periodStart => Usage.assertPeriod periodStart call.periodEnd
  body

/-- The other reconciliation has a precondition of its own with the same bounds. -/
def reconcileMcpShadowUsage (call : ReconcileCall) (body : Except String Reconciliation) :
    Except String Reconciliation := do
  match call.periodStart with
  | none => .error "invalid start"
  | some periodStart =>
      if call.periodEnd ≤ periodStart then .error "invalid end"
      else if periodStart % Usage.DAY_MS ≠ 0 ∨ call.periodEnd % Usage.DAY_MS ≠ 0 then
        .error "MCP reconciliation periods must use UTC day boundaries"
      else .ok ()
  body

/-- The shadow that a run is for. -/
structure ActiveShadow where
  tenantId : String
  shadowPeriodId : String
  periodStart : Option Int

def runTasks (task : Nat → Shadow Unit) : List Nat → Shadow Unit
  | [] => pure ()
  | index :: rest => do
      task index
      runTasks task rest

/-- The tasks one after the other. -/
def runBounded (count : Nat) (task : Nat → Shadow Unit) : Shadow Unit :=
  runTasks task (List.range count)

section Run

variable (env : ShadowEnvironment) (input : ShadowDailyInput)

def writeSchedulerHeartbeat (now : Int) : Shadow Unit :=
  .call (.heartbeat
    { deployedSha := input.deployedSha
      state := "ready"
      now := now
      nextRunAt := nextScheduledRun now
      runReference := input.runReference }) env.heartbeat

/-- Both meters of the day up to an instant. -/
def countRequests (shadow : ActiveShadow) (credential : ShadowDailyCredentialBundle) (end_ : Int)
    (api mcp : Except String Nat) : Shadow (Nat × Nat) := do
  let dayStart := utcDate env.now * Usage.DAY_MS
  let apiCount ← .call (.countApiRequests shadow.tenantId credential.apiKeyId dayStart end_) api
  let mcpCount ← .call (.countMcpRequests shadow.tenantId shadow.shadowPeriodId credential.agentId
    dayStart end_) mcp
  pure (apiCount, mcpCount)

/-- The requests that the meters lack. -/
def issueRequests (credential : ShadowDailyCredentialBundle) (targets : ShadowDailyTargets)
    (observed : Nat × Nat) : Shadow Unit := do
  let token ← .call (.exchangeAgentCredential input.authTokenUrl credential.brainAgentApiKey)
    env.accessToken
  runBounded (targets.api - observed.1) fun index =>
    .call (.callApi (input.apiBase ++ apiPath (observed.1 + index)) credential.brainApiKey)
      (env.callApi (observed.1 + index))
  runBounded (targets.mcp - observed.2) fun index =>
    .call (.callMcp input.mcpUrl token (observed.2 + index + 1) (mcpTool (observed.2 + index)))
      (env.callMcp (observed.2 + index))

/-- From the credential to the meters that show the whole workload. -/
def workload (shadow : ActiveShadow) : Shadow (Nat × Nat) := do
  let file ← .call (.readCredentialBundle input.credentialPath) env.credentialFile
  let credential ← require (readCredentialBundle file)
  if credential.tenantId ≠ shadow.tenantId ∨ credential.shadowPeriodId ≠ shadow.shadowPeriodId then
    .throw "credential bundle does not match the active shadow contract"
  else
    let targets := targetsForDate env.now
    let observed ← countRequests env shadow credential env.now env.apiObserved env.mcpObserved
    if observed.1 > targets.api ∨ observed.2 > targets.mcp then
      .throw "commercial shadow daily request count exceeds its deterministic target"
    else
      issueRequests env input credential targets observed
      let completed ← countRequests env shadow credential env.completedAt env.apiCompleted
        env.mcpCompleted
      if completed.1 ≠ targets.api ∨ completed.2 ≠ targets.mcp then
        .throw "durable meters do not contain the complete deterministic daily workload"
      else pure completed

/-- The reconciliations, the observation and the record of the day. -/
def closeDay (shadow : ActiveShadow) (completed : Nat × Nat) : Shadow ShadowDailyRunResult := do
  let runDate := utcDate env.now
  let targets := targetsForDate env.now
  let call (kind : String) : ReconcileCall :=
    { tenantId := shadow.tenantId
      periodStart := shadow.periodStart
      periodEnd := env.completedAt
      idempotencyKey := ⟨kind, shadow.shadowPeriodId, runDate, env.completedAt⟩ }
  let api ← .call (.reconcileUsagePeriod (call "commercial-shadow-api"))
    (reconcileUsagePeriod (call "commercial-shadow-api") env.apiReconciliation)
  let mcp ← .call (.reconcileMcpShadowUsage shadow.shadowPeriodId (call "commercial-shadow-mcp"))
    (reconcileMcpShadowUsage (call "commercial-shadow-mcp") env.mcpReconciliation)
  if api.status ≠ .matched ∨ mcp.status ≠ .matched then
    .throw "commercial shadow reconciliation did not match independent observations"
  else
    let observation ← .call (.observe shadow.tenantId shadow.shadowPeriodId) env.observation
    if !observation.apiEvidenceComplete || !observation.mcpEvidenceComplete then
      .throw "commercial shadow observation evidence is incomplete"
    else
      .call (.record
        { tenantId := shadow.tenantId
          shadowPeriodId := shadow.shadowPeriodId
          runDate
          scheduledFor := scheduledForDate env.now
          deployedSha := input.deployedSha
          startedAt := env.startedAt
          completedAt := env.completedAt
          apiExpectedRequests := targets.api
          apiCompletedRequests := completed.1
          mcpExpectedRequests := targets.mcp
          mcpCompletedRequests := completed.2
          apiReconciliationRunId := api.id
          mcpReconciliationRunId := mcp.id
          observationId := observation.id
          runReference := input.runReference
          evidence := .obj [("workload_revision", .str "commercial_shadow_daily_v1"),
            ("api_route_mix", summarizeMix targets.api apiPath),
            ("mcp_tool_mix", summarizeMix targets.mcp mcpTool),
            ("api_units", .str (toString observation.apiUnits)),
            ("mcp_units", .str (toString observation.mcpUnits)),
            ("api_unit_result", .str observation.apiUnitResult),
            ("mcp_unit_result", .str observation.mcpUnitResult),
            ("enforcement_applied", .bool false)] }) env.recorded
      writeSchedulerHeartbeat env input env.completedAt
      pure {
        status := .completed
        tenantId := some shadow.tenantId
        shadowPeriodId := some shadow.shadowPeriodId
        runDate := some runDate
        apiRequests := some completed.1
        mcpRequests := some completed.2
        apiReconciliationStatus := some api.status
        mcpReconciliationStatus := some mcp.status
        observationId := some observation.id }

/-- The shadow of a state that is safe, with all that a run needs of it. -/
def activeShadow (state : ShadowState) : Except String ActiveShadow := do
  assertRunningStateSafe state
  let tenantId ← requiredState state.tenantId "tenant_id"
  let shadowPeriodId ← requiredState state.shadowPeriodId "shadow_period_id"
  let startedAt ← requiredState state.startedAt "started_at"
  pure ⟨tenantId, shadowPeriodId, env.dateOf startedAt⟩

/-- The day is recorded. -/
def alreadyRecorded (shadow : ActiveShadow) : Bool :=
  env.runs.any fun row => row.tenantId = shadow.tenantId &&
    row.shadowPeriodId = shadow.shadowPeriodId && row.runDate = utcDate env.now

/-- The run of a shadow that is running. -/
def runDay (shadow : ActiveShadow) : Shadow ShadowDailyRunResult := do
  let runDate := utcDate env.now
  if runDate < COMMERCIAL_SHADOW_FIRST_RUN_DATE ∨
      runDate ≥ COMMERCIAL_SHADOW_LAST_RUN_DATE_EXCLUSIVE then
    writeSchedulerHeartbeat env input env.now
    pure { status := .outsideWindow, tenantId := some shadow.tenantId,
           shadowPeriodId := some shadow.shadowPeriodId }
  else
    let existing ← .call (.selectRun shadow.tenantId shadow.shadowPeriodId runDate)
      (.ok (alreadyRecorded env shadow))
    if existing then
      writeSchedulerHeartbeat env input env.now
      pure { status := .alreadyComplete, tenantId := some shadow.tenantId,
             shadowPeriodId := some shadow.shadowPeriodId }
    else
      let completed ← workload env input shadow
      closeDay env input shadow completed

def runCommercialShadowDaily : Shadow ShadowDailyRunResult := do
  require (assertSha input.deployedSha)
  let inspected ← .call .inspect env.inspected
  let state := inspected.getD { state := "not_started" }
  if state.state ≠ "running" then
    writeSchedulerHeartbeat env input env.now
    pure { status := .notRunning }
  else
    let shadow ← require (activeShadow env state)
    runDay env input shadow

end Run

end BrainCore.Commercial.ShadowDaily
