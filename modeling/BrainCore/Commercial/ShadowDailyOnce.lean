import BrainCore.Commercial.ShadowDaily
import BrainCore.Foundation.Result

/-!
# A day of the shadow is done once

When a run in which every call succeeds ends with a recorded day, after which a
later run of the day issues no request.
-/

namespace BrainCore.Commercial.ShadowDaily

open BrainCore.Foundation

variable {env : ShadowEnvironment} {input : ShadowDailyInput} {shadow : ActiveShadow}

/-! ## Conditions -/

/-- The shadow that the run finds is running and safe. -/
def RunsFor (env : ShadowEnvironment) (shadow : ActiveShadow) : Prop :=
  ∃ state, env.inspected = .ok (some state) ∧ state.state = "running" ∧
    activeShadow env state = .ok shadow

/-- The date of the clock is in the window of the runs. -/
def InWindow (env : ShadowEnvironment) : Prop :=
  COMMERCIAL_SHADOW_FIRST_RUN_DATE ≤ utcDate env.now ∧
    utcDate env.now < COMMERCIAL_SHADOW_LAST_RUN_DATE_EXCLUSIVE

/-- Every call of the workload succeeds, and the meters show what is to be shown. -/
structure WorkloadSucceeds (env : ShadowEnvironment) (shadow : ActiveShadow) : Prop where
  credential : ∃ file credential, env.credentialFile = .ok file ∧
    readCredentialBundle file = .ok credential ∧ credential.tenantId = shadow.tenantId ∧
    credential.shadowPeriodId = shadow.shadowPeriodId
  observed : ∃ api mcp, env.apiObserved = .ok api ∧ env.mcpObserved = .ok mcp ∧
    api ≤ (targetsForDate env.now).api ∧ mcp ≤ (targetsForDate env.now).mcp
  token : ∃ token, env.accessToken = .ok token
  callApi : ∀ ordinal, env.callApi ordinal = .ok ()
  callMcp : ∀ ordinal, env.callMcp ordinal = .ok ()
  completed : env.apiCompleted = .ok (targetsForDate env.now).api ∧
    env.mcpCompleted = .ok (targetsForDate env.now).mcp

/-- The calls that close the day succeed, as far as the periods they are made with let them. -/
structure ClosingSucceeds (env : ShadowEnvironment) : Prop where
  api : ∃ id, env.apiReconciliation = .ok ⟨id, .matched⟩
  mcp : ∃ id, env.mcpReconciliation = .ok ⟨id, .matched⟩
  observation : ∃ observation, env.observation = .ok observation ∧
    observation.apiEvidenceComplete = true ∧ observation.mcpEvidenceComplete = true
  recorded : env.recorded = .ok ()
  heartbeat : env.heartbeat = .ok ()

/-- A first run of a day of the shadow, in which every call succeeds. -/
structure Succeeds (env : ShadowEnvironment) (input : ShadowDailyInput) (shadow : ActiveShadow) :
    Prop where
  sha : isSha input.deployedSha = true
  running : RunsFor env shadow
  window : InWindow env
  fresh : alreadyRecorded env shadow = false
  workload : WorkloadSucceeds env shadow
  closing : ClosingSucceeds env

/-- The shadow started, and the workload was done, at the first instants of days. -/
def AtDayBoundaries (env : ShadowEnvironment) (shadow : ActiveShadow) : Prop :=
  ∃ periodStart, shadow.periodStart = some periodStart ∧ periodStart < env.completedAt ∧
    periodStart % Usage.DAY_MS = 0 ∧ env.completedAt % Usage.DAY_MS = 0

/-! ## Stages -/

theorem require_bind {α β : Type} {checked : Except String α} {value : α} (h : checked = .ok value)
    (next : α → Shadow β) : require checked >>= next = next value := by
  subst h
  rfl

/-- A run of a shadow that is running is the run of its day. -/
theorem runCommercialShadowDaily_eq (hsha : isSha input.deployedSha = true)
    (h : RunsFor env shadow) :
    runCommercialShadowDaily env input =
      ⟨(runDay env input shadow).result, .inspect :: (runDay env input shadow).calls⟩ := by
  obtain ⟨state, hinspected, hrunning, hactive⟩ := h
  have hassert : assertSha input.deployedSha = .ok () := if_pos hsha
  unfold runCommercialShadowDaily
  rw [require_bind hassert, hinspected]
  change (⟨_, [.inspect] ++ _⟩ : Shadow _) = _
  simp only [Option.getD_some, hrunning, ne_eq, not_true_eq_false, if_false]
  rw [require_bind hactive]
  rfl

theorem InWindow.not_outside (h : InWindow env) :
    ¬(utcDate env.now < COMMERCIAL_SHADOW_FIRST_RUN_DATE ∨
      utcDate env.now ≥ COMMERCIAL_SHADOW_LAST_RUN_DATE_EXCLUSIVE) := by
  obtain ⟨hfirst, hlast⟩ := h
  omega

/-- The run of a day that is recorded reads the record, and is done. -/
theorem runDay_recorded (hwindow : InWindow env) (h : alreadyRecorded env shadow = true)
    (hbeat : env.heartbeat = .ok ()) :
    ∃ beat, runDay env input shadow =
      ⟨.ok { status := .alreadyComplete, tenantId := some shadow.tenantId,
             shadowPeriodId := some shadow.shadowPeriodId },
        [.selectRun shadow.tenantId shadow.shadowPeriodId (utcDate env.now), .heartbeat beat]⟩ := by
  unfold runDay
  simp only [if_neg hwindow.not_outside, h, writeSchedulerHeartbeat, hbeat]
  exact ⟨_, rfl⟩

theorem runDay_fresh (hwindow : InWindow env) (h : alreadyRecorded env shadow = false) :
    runDay env input shadow =
      ⟨(workload env input shadow >>= closeDay env input shadow).result,
        .selectRun shadow.tenantId shadow.shadowPeriodId (utcDate env.now) ::
          (workload env input shadow >>= closeDay env input shadow).calls⟩ := by
  unfold runDay
  simp only [if_neg hwindow.not_outside, h]
  rfl

/-! ## The workload -/

theorem runTasks_ok {task : Nat → Shadow Unit} (h : ∀ index, (task index).result = .ok ())
    (indices : List Nat) : (runTasks task indices).result = .ok () := by
  induction indices with
  | nil => rfl
  | cons index rest ih => exact Ported.result_bind_ok.mpr ⟨(), h index, ih⟩

theorem countRequests_ok {credential : ShadowDailyCredentialBundle} {end_ : Int}
    {api mcp : Except String Nat} {apiCount mcpCount : Nat} (hapi : api = .ok apiCount)
    (hmcp : mcp = .ok mcpCount) :
    (countRequests env shadow credential end_ api mcp).result = .ok (apiCount, mcpCount) := by
  subst hapi hmcp
  rfl

theorem issueRequests_ok (h : WorkloadSucceeds env shadow)
    (credential : ShadowDailyCredentialBundle) (targets : ShadowDailyTargets) (observed : Nat × Nat) :
    (issueRequests env input credential targets observed).result = .ok () := by
  obtain ⟨token, htoken⟩ := h.token
  refine Ported.result_bind_ok.mpr ⟨token, htoken, Ported.result_bind_ok.mpr ⟨(), ?_, ?_⟩⟩
  · exact runTasks_ok (fun index => h.callApi _) _
  · exact runTasks_ok (fun index => h.callMcp _) _

/-- A workload of which every call succeeds ends with the targets. -/
theorem workload_ok (h : WorkloadSucceeds env shadow) :
    (workload env input shadow).result =
      .ok ((targetsForDate env.now).api, (targetsForDate env.now).mcp) := by
  obtain ⟨file, credential, hfile, hread, htenant, hperiod⟩ := h.credential
  obtain ⟨api, mcp, hapi, hmcp, hapi_le, hmcp_le⟩ := h.observed
  unfold workload
  refine Ported.result_bind_ok.mpr ⟨file, hfile, ?_⟩
  rw [require_bind hread, if_neg (by simp [htenant, hperiod])]
  refine Ported.result_bind_ok.mpr ⟨(api, mcp), countRequests_ok hapi hmcp, ?_⟩
  rw [if_neg (by omega)]
  refine Ported.result_bind_ok.mpr ⟨(), issueRequests_ok h credential _ _, ?_⟩
  refine Ported.result_bind_ok.mpr
    ⟨_, countRequests_ok h.completed.1 h.completed.2, ?_⟩
  rw [if_neg (by simp)]
  rfl

/-! ## The end of the day -/

theorem assertPeriod_iff {periodStart periodEnd : Int} :
    Usage.assertPeriod periodStart periodEnd = .ok () ↔
      periodStart < periodEnd ∧ periodStart % Usage.DAY_MS = 0 ∧ periodEnd % Usage.DAY_MS = 0 := by
  refine ⟨Usage.assertPeriod_ok, fun ⟨hlt, hstart, hend⟩ => ?_⟩
  unfold Usage.assertPeriod
  rw [if_neg (not_le.mpr hlt), if_neg (by simp [hstart, hend])]

/-- A period that the reconciliation accepts. -/
def Accepted (call : ReconcileCall) : Prop :=
  ∃ periodStart, call.periodStart = some periodStart ∧
    Usage.assertPeriod periodStart call.periodEnd = .ok ()

theorem accepted_iff {call : ReconcileCall} (hstart : call.periodStart = shadow.periodStart)
    (hend : call.periodEnd = env.completedAt) : Accepted call ↔ AtDayBoundaries env shadow := by
  unfold Accepted AtDayBoundaries
  simp only [hstart, hend, assertPeriod_iff]

/-- An answer of the reconciliation is one for an accepted period. -/
theorem reconcileUsagePeriod_ok_iff {call : ReconcileCall} {body : Except String Reconciliation}
    {reconciliation : Reconciliation} :
    reconcileUsagePeriod call body = .ok reconciliation ↔
      Accepted call ∧ body = .ok reconciliation := by
  unfold reconcileUsagePeriod Accepted
  cases call.periodStart with
  | none => exact ⟨fun h => (by cases h), fun ⟨⟨_, h, _⟩, _⟩ => (by cases h)⟩
  | some periodStart =>
      rw [bind_ok]
      constructor
      · rintro ⟨⟨⟩, hperiod, hbody⟩
        exact ⟨⟨periodStart, rfl, hperiod⟩, hbody⟩
      · rintro ⟨⟨_, hstart, hperiod⟩, hbody⟩
        cases hstart
        exact ⟨(), hperiod, hbody⟩

theorem reconcileMcpShadowUsage_ok {call : ReconcileCall} {body : Except String Reconciliation}
    (h : Accepted call) : reconcileMcpShadowUsage call body = body := by
  obtain ⟨periodStart, hstart, hperiod⟩ := h
  obtain ⟨hlt, haligned, haligned'⟩ := assertPeriod_iff.mp hperiod
  unfold reconcileMcpShadowUsage
  rw [hstart]
  simp only [if_neg (not_le.mpr hlt)]
  rw [if_neg (by simp [haligned, haligned'])]
  rfl

theorem closeDay_boundaries {completed : Nat × Nat} {result : ShadowDailyRunResult}
    (h : (closeDay env input shadow completed).result = .ok result) : AtDayBoundaries env shadow := by
  obtain ⟨api, hapi, -⟩ := Ported.result_bind_ok.mp h
  exact (accepted_iff rfl rfl).mp (reconcileUsagePeriod_ok_iff.mp hapi).1

/-- At day boundaries the day is closed, with a period that is accepted and a row that is recorded. -/
theorem closeDay_ok (h : ClosingSucceeds env) (hbounds : AtDayBoundaries env shadow)
    (completed : Nat × Nat) :
    ∃ call row result, ShadowCall.reconcileUsagePeriod call ∈ (closeDay env input shadow completed).calls ∧
      Accepted call ∧ ShadowCall.record row ∈ (closeDay env input shadow completed).calls ∧
      (row.tenantId = shadow.tenantId ∧ row.shadowPeriodId = shadow.shadowPeriodId ∧
        row.runDate = utcDate env.now) ∧
      (closeDay env input shadow completed).result = .ok result ∧ result.status = .completed := by
  obtain ⟨apiId, hapi⟩ := h.api
  obtain ⟨mcpId, hmcp⟩ := h.mcp
  obtain ⟨⟨id, apiComplete, mcpComplete, apiUnits, mcpUnits, apiResult, mcpResult⟩,
    hobservation, hapiComplete, hmcpComplete⟩ := h.observation
  obtain rfl : apiComplete = true := hapiComplete
  obtain rfl : mcpComplete = true := hmcpComplete
  let call (kind : String) : ReconcileCall :=
    { tenantId := shadow.tenantId
      periodStart := shadow.periodStart
      periodEnd := env.completedAt
      idempotencyKey := ⟨kind, shadow.shadowPeriodId, utcDate env.now, env.completedAt⟩ }
  have haccepted (kind : String) : Accepted (call kind) := (accepted_iff rfl rfl).mpr hbounds
  have hfirst : reconcileUsagePeriod (call "commercial-shadow-api") env.apiReconciliation =
      .ok ⟨apiId, .matched⟩ := reconcileUsagePeriod_ok_iff.mpr ⟨haccepted _, hapi⟩
  have hsecond : reconcileMcpShadowUsage (call "commercial-shadow-mcp") env.mcpReconciliation =
      .ok ⟨mcpId, .matched⟩ := (reconcileMcpShadowUsage_ok (haccepted _)).trans hmcp
  have hclose : ∃ row beat result, closeDay env input shadow completed =
      ⟨.ok result, [.reconcileUsagePeriod (call "commercial-shadow-api"),
        .reconcileMcpShadowUsage shadow.shadowPeriodId (call "commercial-shadow-mcp"),
        .observe shadow.tenantId shadow.shadowPeriodId, .record row, .heartbeat beat]⟩ ∧
      (row.tenantId = shadow.tenantId ∧ row.shadowPeriodId = shadow.shadowPeriodId ∧
        row.runDate = utcDate env.now) ∧ result.status = .completed := by
    unfold closeDay
    simp only [call] at hfirst hsecond
    simp only [hfirst, hsecond, hobservation, h.recorded, h.heartbeat, writeSchedulerHeartbeat]
    exact ⟨_, _, _, rfl, ⟨rfl, rfl, rfl⟩, rfl⟩
  obtain ⟨row, beat, result, hclose, hrow, hstatus⟩ := hclose
  rw [hclose]
  exact ⟨_, row, result, List.mem_cons_self, haccepted _, by simp, hrow, rfl, hstatus⟩

/-! ## Once a day -/

/-- The rows that a run records. -/
def recordedRows (calls : List ShadowCall) : List DailyRunRow :=
  calls.filterMap fun
    | .record row => some row
    | _ => none

/-- The rows after a run. -/
def runsAfter (env : ShadowEnvironment) (run : Shadow ShadowDailyRunResult) : List DailyRunRow :=
  env.runs ++ if env.recorded.isOk then recordedRows run.calls else []

/-- A run of the same shadow later on the same date, whose calls succeed as well. -/
structure LaterRun (env : ShadowEnvironment) (shadow : ActiveShadow)
    (run : Shadow ShadowDailyRunResult) (later : ShadowEnvironment) (input : ShadowDailyInput)
    (found : ActiveShadow) : Prop where
  runs : later.runs = runsAfter env run
  date : utcDate later.now = utcDate env.now
  sha : isSha input.deployedSha = true
  running : RunsFor later found
  same : found.tenantId = shadow.tenantId ∧ found.shadowPeriodId = shadow.shadowPeriodId
  heartbeat : later.heartbeat = .ok ()

/-- The run reconciles an accepted period, records the day and ends with it completed, and a later
run of the date finds it complete and issues no request. -/
structure CompletesOnce (env : ShadowEnvironment) (shadow : ActiveShadow)
    (run : Shadow ShadowDailyRunResult) : Prop where
  accepted : ∃ call, ShadowCall.reconcileUsagePeriod call ∈ run.calls ∧ Accepted call
  recorded : ∃ row, ShadowCall.record row ∈ run.calls
  completed : ∃ result, run.result = .ok result ∧ result.status = .completed
  once : ∀ later input found, LaterRun env shadow run later input found →
    (∃ result, (runCommercialShadowDaily later input).result = .ok result ∧
      result.status = .alreadyComplete) ∧
    ∀ call ∈ (runCommercialShadowDaily later input).calls, call.isRequest = false

/-- Up to the end of the day nothing keeps a run from it whose calls succeed. -/
theorem run_of_succeeds (h : Succeeds env input shadow) :
    ∃ calls, runCommercialShadowDaily env input =
      ⟨(closeDay env input shadow ((targetsForDate env.now).api, (targetsForDate env.now).mcp)).result,
        calls ++ (closeDay env input shadow
          ((targetsForDate env.now).api, (targetsForDate env.now).mcp)).calls⟩ := by
  rw [runCommercialShadowDaily_eq h.sha h.running, runDay_fresh h.window h.fresh,
    Ported.bind_of_ok (workload_ok h.workload)]
  exact ⟨.inspect :: .selectRun shadow.tenantId shadow.shadowPeriodId (utcDate env.now) ::
    (workload env input shadow).calls, rfl⟩

/-- Once a row of the day is recorded, a later run of the date is done without a request. -/
theorem later_alreadyComplete {run : Shadow ShadowDailyRunResult} {row : DailyRunRow}
    (hwindow : InWindow env) (hok : env.recorded = .ok ())
    (hrow : ShadowCall.record row ∈ run.calls)
    (hday : row.tenantId = shadow.tenantId ∧ row.shadowPeriodId = shadow.shadowPeriodId ∧
      row.runDate = utcDate env.now)
    {later : ShadowEnvironment} {laterInput : ShadowDailyInput} {found : ActiveShadow}
    (h : LaterRun env shadow run later laterInput found) :
    (∃ result, (runCommercialShadowDaily later laterInput).result = .ok result ∧
      result.status = .alreadyComplete) ∧
    ∀ call ∈ (runCommercialShadowDaily later laterInput).calls, call.isRequest = false := by
  have hmem : row ∈ later.runs := by
    rw [h.runs, runsAfter, hok]
    exact List.mem_append_right _ (List.mem_filterMap.mpr ⟨_, hrow, rfl⟩)
  have hrecorded : alreadyRecorded later found = true :=
    List.any_eq_true.mpr ⟨row, hmem, by simp [hday, h.same, h.date]⟩
  have hlater : InWindow later := by
    unfold InWindow
    rw [h.date]
    exact hwindow
  obtain ⟨beat, hrun⟩ := @runDay_recorded later laterInput found hlater hrecorded h.heartbeat
  rw [runCommercialShadowDaily_eq h.sha h.running, hrun]
  refine ⟨⟨_, rfl, rfl⟩, fun call hcall => ?_⟩
  simp only [List.mem_cons, List.not_mem_nil, or_false] at hcall
  rcases hcall with rfl | rfl | rfl <;> rfl

/-- A run in which every call succeeds completes its day, once, exactly when the shadow started and
the workload was done at the first instants of days. -/
theorem shadow_day_once_iff (env : ShadowEnvironment) (input : ShadowDailyInput)
    (shadow : ActiveShadow) :
    (Succeeds env input shadow →
        CompletesOnce env shadow (runCommercialShadowDaily env input)) ↔
      (Succeeds env input shadow → AtDayBoundaries env shadow) := by
  refine imp_congr_right fun h => ?_
  obtain ⟨calls, hrun⟩ := run_of_succeeds h
  constructor
  · intro hall
    obtain ⟨result, hresult, -⟩ := hall.completed
    rw [hrun] at hresult
    exact closeDay_boundaries hresult
  · intro hbounds
    obtain ⟨call, row, result, hcall, haccepted, hrow, hday, hresult, hstatus⟩ :=
      @closeDay_ok env input shadow h.closing hbounds
        ((targetsForDate env.now).api, (targetsForDate env.now).mcp)
    have hrecord : ShadowCall.record row ∈ (runCommercialShadowDaily env input).calls := by
      rw [hrun]
      exact List.mem_append_right calls hrow
    refine ⟨⟨call, ?_, haccepted⟩, ⟨row, hrecord⟩, ⟨result, ?_, hstatus⟩, fun later input found hlater =>
      later_alreadyComplete h.window h.closing.recorded hrecord hday hlater⟩
    · rw [hrun]
      exact List.mem_append_right calls hcall
    · rw [hrun]
      exact hresult

/-- The shadow that the tests run. -/
def runningShadow : ActiveShadow := ⟨"tnt", "csp", some (COMMERCIAL_SHADOW_FIRST_RUN_DATE * Usage.DAY_MS)⟩

def runningState : ShadowState where
  state := "running"
  tenantId := some "tnt"
  shadowPeriodId := some "csp"
  startedAt := some "2026-10-01T00:00:00.000Z"
  growthEntitlementValid := some true
  apiRateEntitlementValid := some true
  billingExclusionPresent := some true
  zeroBillingState := some true
  bffAgentKeyActive := some true
  commercialApiKeyActive := some true
  protectedTenantMatch := some false
  provenance := some ⟨some "production", some "internal_commercial_shadow_v1", some "production"⟩

def liveCredentials : Json :=
  .obj [("tenant_id", .str "tnt"), ("shadow_period_id", .str "csp"), ("agent_id", .str "agent"),
    ("agent_key_id", .str "agkey"), ("api_key_id", .str "akey"),
    ("BRAIN_AGENT_API_KEY", .str "brain_ak_live_example"), ("BRAIN_API_KEY", .str "brain_sk_live_example")]

/-- 2026-10-03 at 01:15 UTC, a Saturday. -/
def saturdayMorning : Int := 20729 * Usage.DAY_MS + COMMERCIAL_SHADOW_SCHEDULE_MS

/-- A run that is on schedule and takes five minutes. -/
def saturdayRun : ShadowEnvironment where
  runs := []
  now := saturdayMorning
  startedAt := saturdayMorning
  completedAt := saturdayMorning + 5 * 60 * 1000
  dateOf text := if text = "2026-10-01T00:00:00.000Z" then runningShadow.periodStart else none
  inspected := .ok (some runningState)
  credentialFile := .ok ⟨true, 0o600, .ok liveCredentials⟩
  apiObserved := .ok 0
  mcpObserved := .ok 0
  accessToken := .ok "token"
  callApi _ := .ok ()
  callMcp _ := .ok ()
  apiCompleted := .ok 500
  mcpCompleted := .ok 50
  apiReconciliation := .ok ⟨"urr", .matched⟩
  mcpReconciliation := .ok ⟨"murr", .matched⟩
  observation := .ok ⟨"cso", true, true, 500, 50, "within", "within"⟩
  recorded := .ok ()
  heartbeat := .ok ()

def saturdayInput : ShadowDailyInput where
  deployedSha := "aaaaaaaaaaaaaaaaaaaaaaaaaaaaaaaaaaaaaaaa"
  runReference := "unit-success"
  credentialPath := "/run/credentials"

theorem saturdayRun_succeeds : Succeeds saturdayRun saturdayInput runningShadow where
  sha := by decide
  running := ⟨runningState, rfl, rfl, rfl⟩
  window := by unfold InWindow; decide
  fresh := rfl
  workload := by
    constructor
    · exact ⟨_, _, rfl, rfl, rfl, rfl⟩
    · exact ⟨0, 0, rfl, rfl, Nat.zero_le _, Nat.zero_le _⟩
    · exact ⟨"token", rfl⟩
    · exact fun _ => rfl
    · exact fun _ => rfl
    · exact ⟨rfl, rfl⟩
  closing := ⟨⟨"urr", rfl⟩, ⟨"murr", rfl⟩, ⟨_, rfl, rfl, rfl⟩, rfl, rfl⟩

/-- The paid workload is done, and then its period is refused. -/
theorem saturdayRun_refused :
    Succeeds saturdayRun saturdayInput runningShadow ∧
      ¬CompletesOnce saturdayRun runningShadow (runCommercialShadowDaily saturdayRun saturdayInput) := by
  refine ⟨saturdayRun_succeeds, fun h => ?_⟩
  obtain ⟨calls, hrun⟩ := run_of_succeeds saturdayRun_succeeds
  obtain ⟨result, hresult, -⟩ := h.completed
  rw [hrun] at hresult
  obtain ⟨periodStart, -, -, -, haligned⟩ := closeDay_boundaries hresult
  revert haligned
  decide

end BrainCore.Commercial.ShadowDaily
