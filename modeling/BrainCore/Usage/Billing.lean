import Mathlib
import BrainCore.Foundation.Grouping
import BrainCore.Foundation.Machine
import BrainCore.Foundation.Table

/-!
# Usage reconciliation and period close

`services/api/src/usage/billing-service.ts`, with the meter that feeds it.  A
reconciliation of a period rebuilds the daily rollups of its days, takes the
totals of the raw events and of the rollups, and compares them with what the
gateway observed; a run that matched can close its period.  A period is closed
once for its exact bounds.
-/

namespace BrainCore.Usage

open BrainCore.Foundation

def SHADOW_REQUEST_POLICY_VERSION : String := "requests_v1_shadow"

inductive ApiEnvironment where
  | sandbox
  | live
deriving DecidableEq

inductive AccessStage where
  | demo
  | productionReview
  | production
deriving DecidableEq

inductive MeterOutcome where
  | success
  | clientError
  | serverError
  | scopeRejected
  | authRejected
  | rateLimited
deriving DecidableEq

/-- A request as the gateway hands it to the meter; times are in milliseconds. -/
structure ApiRequestMeterEvent where
  requestId : String
  keyId : String
  occurredAt : Int
  environment : ApiEnvironment
  accessStage : Option AccessStage
  method : String
  operationId : String
  requiredScope : Option String
  productFamily : Option String
  statusCode : Nat
  outcome : MeterOutcome
  rateLimitCount : Option Nat
  meteringPolicyVersion : Option String := none
  billableUnits : Option Nat := none

/-- A row of `api_request_meter_events`, of one tenant. -/
structure MeterEventRow where
  requestId : String
  keyId : String
  occurredAt : Int
  environment : ApiEnvironment
  method : String
  operationId : String
  requiredScope : Option String
  productFamily : Option String
  outcome : MeterOutcome
  rateLimitCount : Option Nat
  meteringPolicyVersion : String
  billableUnits : Nat
deriving DecidableEq

/-- A row of `api_gateway_request_observations`. -/
structure GatewayObservationRow where
  requestId : String
  environment : ApiEnvironment
  occurredAt : Int
  limiterDecision : Bool
deriving DecidableEq

/-- A row of `api_meter_persistence_failure_events`. -/
structure MeterFailureRow where
  requestId : String
  environment : ApiEnvironment
  occurredAt : Int
deriving DecidableEq

/-- The primary key of `api_usage_daily_rollups`; a date is a number of days. -/
structure RollupKey where
  rollupDate : Int
  keyId : String
  environment : ApiEnvironment
  method : String
  operationId : String
  requiredScope : String
  productFamily : String
  outcome : MeterOutcome
  meteringPolicyVersion : String
deriving DecidableEq

structure DailyRollupRow where
  key : RollupKey
  requestCount : Nat
  billableUnits : Nat

inductive ReconciliationStatus where
  | matched
  | mismatch
  | incomplete
deriving DecidableEq

structure Discrepancy where
  name : String
  expected : Nat
  actual : Nat
deriving DecidableEq

/-- A row of `api_usage_reconciliation_runs`. -/
structure ReconciliationRunRow where
  id : String
  idempotencyKey : String
  environment : ApiEnvironment
  periodStart : Int
  periodEnd : Int
  meteringPolicyVersion : String
  rawRequestCount : Nat
  rawBillableUnits : Nat
  rawLimiterDecisionCount : Nat
  rollupRequestCount : Nat
  rollupBillableUnits : Nat
  gatewayRequestCount : Nat
  limiterDecisionCount : Nat
  meterPersistenceFailures : Nat
  status : ReconciliationStatus
  discrepancy : List Discrepancy
  actor : String

/-- A row of `api_billing_periods`; its mode is `shadow_closed`, its chargeable units are zero. -/
structure BillingPeriodRow where
  id : String
  environment : ApiEnvironment
  periodStart : Int
  periodEnd : Int
  meteringPolicyVersion : String
  requestCount : Nat
  billableUnits : Nat
  reconciliationRunId : String
  closedBy : String
  closeReason : String
deriving DecidableEq

structure BillingWorld where
  events : Table MeterEventRow.requestId := Table.empty
  observations : Table GatewayObservationRow.requestId := Table.empty
  failures : Table MeterFailureRow.requestId := Table.empty
  rollups : List DailyRollupRow := []
  runs : Table ReconciliationRunRow.id := Table.empty
  /-- In the order they were closed. -/
  periods : List BillingPeriodRow := []

/-! ## The meter -/

/-- One unit for a request of production that succeeded. -/
def classifyRequestUnits (event : ApiRequestMeterEvent) : Nat :=
  if event.environment = .live ∧ event.accessStage = some .production ∧ event.outcome = .success ∧
      200 ≤ event.statusCode ∧ event.statusCode < 400 then 1
  else 0

/-- The version and the units the event brings along, if it brings both, else the policy's. -/
def meteredUnits (event : ApiRequestMeterEvent) : String × Nat :=
  match event.meteringPolicyVersion, event.billableUnits with
  | some version, some units => (version, units)
  | _, _ => (SHADOW_REQUEST_POLICY_VERSION, classifyRequestUnits event)

def meterRow (event : ApiRequestMeterEvent) : MeterEventRow where
  requestId := event.requestId
  keyId := event.keyId
  occurredAt := event.occurredAt
  environment := event.environment
  method := event.method
  operationId := event.operationId
  requiredScope := event.requiredScope
  productFamily := event.productFamily
  outcome := event.outcome
  rateLimitCount := event.rateLimitCount
  meteringPolicyVersion := (meteredUnits event).1
  billableUnits := (meteredUnits event).2

namespace BillingWorld

/-- A request metered before stays as it is; a version that is no metering policy violates its
foreign key. -/
def record (s : BillingWorld) (event : ApiRequestMeterEvent) : Except String BillingWorld :=
  let row := meterRow event
  if row.meteringPolicyVersion ≠ SHADOW_REQUEST_POLICY_VERSION then
    .error "insert violates foreign key constraint on metering_policy_version"
  else
    match s.events.insert? row with
    | none => .ok s
    | some events => .ok { s with events }

def observe (s : BillingWorld) (row : GatewayObservationRow) : BillingWorld :=
  match s.observations.insert? row with
  | none => s
  | some observations => { s with observations }

/-- A failure is recorded for a request that was observed. -/
def recordFailure (s : BillingWorld) (row : MeterFailureRow) : BillingWorld :=
  if (s.observations.find? row.requestId).isSome then
    match s.failures.insert? row with
    | none => s
    | some failures => { s with failures }
  else s

end BillingWorld

/-! ## Days and periods -/

/-- The milliseconds of a day. -/
def DAY_MS : Int := 86400000

/-- `(t AT TIME ZONE 'UTC')::date`. -/
def utcDate (t : Int) : Int := t / DAY_MS

/-- In the environment, from the start on and before the end. -/
def inPeriod (environment : ApiEnvironment) (periodStart periodEnd : Int)
    (of : ApiEnvironment) (at_ : Int) : Bool :=
  of = environment && periodStart ≤ at_ && at_ < periodEnd

def assertPeriod (periodStart periodEnd : Int) : Except String Unit :=
  if periodEnd ≤ periodStart then .error "period must contain valid ascending timestamps"
  else if periodStart % DAY_MS ≠ 0 ∨ periodEnd % DAY_MS ≠ 0 then
    .error "reconciliation periods must use UTC day boundaries"
  else .ok ()

/-! ## The reconciliation -/

structure ReconcileUsageInput where
  environment : ApiEnvironment
  periodStart : Int
  periodEnd : Int
  idempotencyKey : String
  actor : String

structure UsageReconciliationResult where
  id : String
  status : ReconciliationStatus
  rawRequestCount : Nat
  rawBillableUnits : Nat
  rawLimiterDecisionCount : Nat
  rollupRequestCount : Nat
  rollupBillableUnits : Nat
  discrepancy : List Discrepancy

def serializeReconciliation (row : ReconciliationRunRow) : UsageReconciliationResult where
  id := row.id
  status := row.status
  rawRequestCount := row.rawRequestCount
  rawBillableUnits := row.rawBillableUnits
  rawLimiterDecisionCount := row.rawLimiterDecisionCount
  rollupRequestCount := row.rollupRequestCount
  rollupBillableUnits := row.rollupBillableUnits
  discrepancy := row.discrepancy

def rollupKey (row : MeterEventRow) : RollupKey where
  rollupDate := utcDate row.occurredAt
  keyId := row.keyId
  environment := row.environment
  method := row.method
  operationId := row.operationId
  requiredScope := row.requiredScope.getD "unclassified"
  productFamily := row.productFamily.getD "unclassified"
  outcome := row.outcome
  meteringPolicyVersion := row.meteringPolicyVersion

/-- The rollup rows of the period's days. -/
def inRollupPeriod (input : ReconcileUsageInput) (key : RollupKey) : Bool :=
  key.environment = input.environment && utcDate input.periodStart ≤ key.rollupDate &&
    key.rollupDate < utcDate input.periodEnd

def rollupRow (group : RollupKey × List MeterEventRow) : DailyRollupRow :=
  ⟨group.1, group.2.length, (group.2.map (·.billableUnits)).sum⟩

structure CountRow where
  requestCount : Nat
  billableUnits : Nat
deriving DecidableEq

structure GatewayObservationTotals where
  gatewayRequestCount : Nat
  limiterDecisionCount : Nat
  missingMeterCount : Nat
  explicitMeterFailureCount : Nat

namespace BillingWorld

/-- The raw events of a period. -/
def eventsIn (s : BillingWorld) (environment : ApiEnvironment) (periodStart periodEnd : Int) :
    List MeterEventRow :=
  s.events.rows.filter fun row => inPeriod environment periodStart periodEnd row.environment row.occurredAt

def rebuildDailyRollups (s : BillingWorld) (input : ReconcileUsageInput) : BillingWorld :=
  { s with
    rollups := (s.rollups.filter fun row => !inRollupPeriod input row.key) ++
      (Grouping.groups rollupKey
        (s.eventsIn input.environment input.periodStart input.periodEnd)).map rollupRow }

/-- The raw events of the period under the policy. -/
def shadowEventsIn (s : BillingWorld) (input : ReconcileUsageInput) : List MeterEventRow :=
  (s.eventsIn input.environment input.periodStart input.periodEnd).filter fun row =>
    row.meteringPolicyVersion = SHADOW_REQUEST_POLICY_VERSION

def rawTotals (s : BillingWorld) (input : ReconcileUsageInput) : CountRow :=
  ⟨(s.shadowEventsIn input).length, ((s.shadowEventsIn input).map (·.billableUnits)).sum⟩

def rawLimiterDecisionCount (s : BillingWorld) (input : ReconcileUsageInput) : Nat :=
  ((s.shadowEventsIn input).filter fun row => row.rateLimitCount.isSome).length

def rollupTotals (s : BillingWorld) (input : ReconcileUsageInput) : CountRow :=
  let rows := s.rollups.filter fun row =>
    inRollupPeriod input row.key && row.key.meteringPolicyVersion = SHADOW_REQUEST_POLICY_VERSION
  ⟨(rows.map (·.requestCount)).sum, (rows.map (·.billableUnits)).sum⟩

def gatewayObservationTotals (s : BillingWorld) (input : ReconcileUsageInput) :
    GatewayObservationTotals :=
  let observed := s.observations.rows.filter fun row =>
    inPeriod input.environment input.periodStart input.periodEnd row.environment row.occurredAt
  let failed := s.failures.rows.filter fun row =>
    inPeriod input.environment input.periodStart input.periodEnd row.environment row.occurredAt
  ⟨observed.length, (observed.filter (·.limiterDecision)).length,
    (observed.filter fun row => (s.events.find? row.requestId).isNone).length, failed.length⟩

end BillingWorld

/-- `compare`: an entry when the counts differ. -/
def compare (name : String) (expected actual : Nat) : List Discrepancy :=
  if expected ≠ actual then [⟨name, expected, actual⟩] else []

/-- The run a reconciliation records over rebuilt rollups. -/
def reconciliationRun (s : BillingWorld) (input : ReconcileUsageInput) (id : String) :
    ReconciliationRunRow :=
  let raw := s.rawTotals input
  let rollup := s.rollupTotals input
  let observed := s.gatewayObservationTotals input
  let limiterDecisions := s.rawLimiterDecisionCount input
  let meterPersistenceFailures := max observed.missingMeterCount observed.explicitMeterFailureCount
  let discrepancy :=
    compare "rollup_requests" raw.requestCount rollup.requestCount ++
    compare "rollup_units" raw.billableUnits rollup.billableUnits ++
    compare "gateway_requests" raw.requestCount observed.gatewayRequestCount ++
    compare "limiter_decisions" limiterDecisions observed.limiterDecisionCount ++
    compare "explicit_meter_failures" observed.missingMeterCount observed.explicitMeterFailureCount
  { id
    idempotencyKey := input.idempotencyKey
    environment := input.environment
    periodStart := input.periodStart
    periodEnd := input.periodEnd
    meteringPolicyVersion := SHADOW_REQUEST_POLICY_VERSION
    rawRequestCount := raw.requestCount
    rawBillableUnits := raw.billableUnits
    rawLimiterDecisionCount := limiterDecisions
    rollupRequestCount := rollup.requestCount
    rollupBillableUnits := rollup.billableUnits
    gatewayRequestCount := observed.gatewayRequestCount
    limiterDecisionCount := observed.limiterDecisionCount
    meterPersistenceFailures
    status := if 0 < meterPersistenceFailures then .incomplete
      else if discrepancy = [] then .matched else .mismatch
    discrepancy := if 0 < meterPersistenceFailures then
        discrepancy ++ [⟨"meter_persistence_failures", 0, meterPersistenceFailures⟩]
      else discrepancy
    actor := input.actor }

/-- A key used before answers with its run. -/
def reconcileUsagePeriod (s : BillingWorld) (input : ReconcileUsageInput) (id : String) :
    Except String (BillingWorld × UsageReconciliationResult) := do
  assertPeriod input.periodStart input.periodEnd
  match s.runs.rows.find? fun run => run.idempotencyKey = input.idempotencyKey with
  | some existing => pure (s, serializeReconciliation existing)
  | none =>
      let rebuilt := s.rebuildDailyRollups input
      let run := reconciliationRun rebuilt input id
      match rebuilt.runs.insert? run with
      | none => throw "duplicate key value violates unique constraint"
      | some runs => pure ({ rebuilt with runs }, serializeReconciliation run)

/-! ## Rollups and raw events -/

theorem assertPeriod_ok {periodStart periodEnd : Int} (h : assertPeriod periodStart periodEnd = .ok ()) :
    periodStart < periodEnd ∧ periodStart % DAY_MS = 0 ∧ periodEnd % DAY_MS = 0 := by
  unfold assertPeriod at h
  split at h
  · cases h
  · split at h
    · cases h
    · rename_i hascends haligned
      rw [not_or, not_not, not_not] at haligned
      exact ⟨by omega, haligned⟩

/-- Between day boundaries, the days of a period are those its instants fall on. -/
theorem utcDate_inPeriod {periodStart periodEnd t : Int} (hstart : periodStart % DAY_MS = 0)
    (hend : periodEnd % DAY_MS = 0) :
    (utcDate periodStart ≤ utcDate t ∧ utcDate t < utcDate periodEnd) ↔
      periodStart ≤ t ∧ t < periodEnd := by
  unfold utcDate
  unfold DAY_MS at *
  omega

/-- The totals taken through rebuilt rollups are those of the raw events. -/
theorem rollupTotals_rebuilt (s : BillingWorld) (input : ReconcileUsageInput)
    (hperiod : assertPeriod input.periodStart input.periodEnd = .ok ()) :
    (s.rebuildDailyRollups input).rollupTotals input = s.rawTotals input := by
  obtain ⟨-, hstart, hend⟩ := assertPeriod_ok hperiod
  let counted : RollupKey → Bool := fun key =>
    inRollupPeriod input key && key.meteringPolicyVersion = SHADOW_REQUEST_POLICY_VERSION
  let events := s.eventsIn input.environment input.periodStart input.periodEnd
  -- the rows of these days are the new ones
  have hrows : ((s.rebuildDailyRollups input).rollups.filter fun row => counted row.key) =
      ((Grouping.groups rollupKey events).filter fun group => counted group.1).map rollupRow := by
    have hold : ((s.rollups.filter fun row => !inRollupPeriod input row.key).filter fun row =>
        counted row.key) = [] := by
      rw [List.filter_filter, List.filter_eq_nil_iff]
      intro row _
      simp only [counted]
      cases inRollupPeriod input row.key <;> simp
    unfold BillingWorld.rebuildDailyRollups
    rw [List.filter_append, hold, List.nil_append, List.filter_map]
    rfl
  -- and they are counted for the events under the policy
  have hevents : (events.filter fun row => counted (rollupKey row)) = s.shadowEventsIn input := by
    refine List.filter_congr fun row hrow => ?_
    have hin := (List.mem_filter.mp hrow).2
    simp only [inPeriod, Bool.and_eq_true, decide_eq_true_eq] at hin
    have hdate := (utcDate_inPeriod (t := row.occurredAt) hstart hend).mpr ⟨hin.1.2, hin.2⟩
    simp [counted, inRollupPeriod, rollupKey, hin.1.1, hdate]
  have hcount := Grouping.sum_groups rollupKey (fun _ => 1) counted events
  have hunits := Grouping.sum_groups rollupKey (·.billableUnits) counted events
  rw [hevents] at hcount hunits
  unfold BillingWorld.rollupTotals BillingWorld.rawTotals
  dsimp only
  rw [hrows, List.map_map, List.map_map]
  refine congrArg₂ CountRow.mk ?_ hunits
  simpa [Function.comp_def, rollupRow] using hcount

/-- A request of the first of two days. -/
def meteredDay : BillingWorld where
  events := ⟨[meterRow
    { requestId := "req_1", keyId := "key_1", occurredAt := 3600000, environment := .live
      accessStage := some .production, method := "GET", operationId := "listAccounts"
      requiredScope := some "accounts:read", productFamily := none, statusCode := 200
      outcome := .success, rateLimitCount := some 1 }], by decide⟩

theorem meteredDay_rebuilt :
    (meteredDay.rebuildDailyRollups ⟨.live, 0, 172800000, "close_1", "operator"⟩).rollupTotals
        ⟨.live, 0, 172800000, "close_1", "operator"⟩ =
      meteredDay.rawTotals ⟨.live, 0, 172800000, "close_1", "operator"⟩ :=
  rollupTotals_rebuilt meteredDay _ rfl

/-! ## The close -/

structure CloseUsagePeriodInput where
  environment : ApiEnvironment
  reconciliationRunId : String
  actor : String
  reason : String

structure CloseResult where
  id : String
  existing : Bool
  chargeableUnits : Nat

/-- The run that is to close its period. -/
def closableRun (s : BillingWorld) (input : CloseUsagePeriodInput) :
    Except String ReconciliationRunRow :=
  match s.runs.find? input.reconciliationRunId with
  | none => .error "reconciliation run not found for tenant"
  | some run =>
      if run.environment ≠ input.environment then .error "reconciliation environment mismatch"
      else if run.status ≠ .matched ∨ run.meterPersistenceFailures ≠ 0 then
        .error "only a complete matched reconciliation run can close a period"
      else if run.meteringPolicyVersion ≠ SHADOW_REQUEST_POLICY_VERSION then
        .error "only the approved shadow policy can be closed by this command"
      else .ok run

/-- The period closed with exactly the bounds of the run. -/
def existingPeriod (s : BillingWorld) (run : ReconciliationRunRow) : Option BillingPeriodRow :=
  s.periods.find? fun period => period.environment = run.environment &&
    period.periodStart = run.periodStart && period.periodEnd = run.periodEnd

def closedPeriod (run : ReconciliationRunRow) (input : CloseUsagePeriodInput) (id : String) :
    BillingPeriodRow where
  id := id
  environment := input.environment
  periodStart := run.periodStart
  periodEnd := run.periodEnd
  meteringPolicyVersion := run.meteringPolicyVersion
  requestCount := run.rawRequestCount
  billableUnits := run.rawBillableUnits
  reconciliationRunId := input.reconciliationRunId
  closedBy := input.actor
  closeReason := input.reason

def closeShadowUsagePeriod (s : BillingWorld) (input : CloseUsagePeriodInput) (id : String) :
    Except String (BillingWorld × CloseResult) := do
  let run ← closableRun s input
  match existingPeriod s run with
  | some existing => pure (s, ⟨existing.id, true, 0⟩)
  | none =>
      if s.periods.any fun period => period.id = id then
        throw "duplicate key value violates unique constraint"
      else pure ({ s with periods := s.periods ++ [closedPeriod run input id] }, ⟨id, false, 0⟩)

/-! ## Sequences of calls -/

inductive BillingLabel where
  | record (event : ApiRequestMeterEvent)
  | observe (row : GatewayObservationRow)
  | recordFailure (row : MeterFailureRow)
  | reconcile (input : ReconcileUsageInput) (id : String)
  | close (input : CloseUsagePeriodInput) (id : String)

/-- A call that throws leaves nothing behind. -/
def afterCall {α : Type} (s : BillingWorld) : Except String (BillingWorld × α) → BillingWorld
  | .ok (next, _) => next
  | .error _ => s

def afterRecord (s : BillingWorld) : Except String BillingWorld → BillingWorld
  | .ok next => next
  | .error _ => s

def billingStep (s : BillingWorld) : BillingLabel → BillingWorld
  | .record event => afterRecord s (s.record event)
  | .observe row => s.observe row
  | .recordFailure row => s.recordFailure row
  | .reconcile input id => afterCall s (reconcileUsagePeriod s input id)
  | .close input id => afterCall s (closeShadowUsagePeriod s input id)

def billingMachine : Machine BillingWorld BillingLabel where
  step s label := some (billingStep s label)

end BrainCore.Usage
