import BrainCore.Foundation.Result
import BrainCore.Usage.Billing

/-!
# Closed periods

A period is closed for exact bounds and with the totals of its run.  The closed
periods count each event once as long as no close overlaps an earlier one, and
no event arrives for a period between its run and ever after.
-/

namespace BrainCore.Usage

open BrainCore.Foundation

variable {s next : BillingWorld}

def BillingPeriodRow.covers (period : BillingPeriodRow) (row : MeterEventRow) : Bool :=
  inPeriod period.environment period.periodStart period.periodEnd row.environment row.occurredAt

/-- The raw events a period covers. -/
def BillingWorld.covered (s : BillingWorld) (period : BillingPeriodRow) : List MeterEventRow :=
  s.events.rows.filter period.covers

/-- The bounds do not overlap those of a closed period of the environment. -/
def Apart (period : BillingPeriodRow) (environment : ApiEnvironment) (periodStart periodEnd : Int) :
    Prop :=
  period.environment = environment →
    period.periodEnd ≤ periodStart ∨ periodEnd ≤ period.periodStart

/-- The totals of the period are those of its raw events. -/
structure Exact (s : BillingWorld) (period : BillingPeriodRow) : Prop where
  requests : period.requestCount = (s.covered period).length
  units : period.billableUnits = ((s.covered period).map (·.billableUnits)).sum

structure BillsOnce (s : BillingWorld) : Prop where
  apart : s.periods.Pairwise fun period other =>
    Apart period other.environment other.periodStart other.periodEnd
  once : ∀ row ∈ s.events.rows, ∀ period ∈ s.periods, ∀ other ∈ s.periods,
    period.covers row = true → other.covers row = true → period = other
  /-- The events of two adjacent periods are those of the first and those of the second. -/
  adjacent : ∀ period ∈ s.periods, ∀ other ∈ s.periods, period.environment = other.environment →
    period.periodEnd = other.periodStart →
      (s.covered period ++ s.covered other).Perm
        (s.eventsIn period.environment period.periodStart other.periodEnd)
  totals : ∀ period ∈ s.periods, Exact s period

/-- Bounds ascend. -/
structure Ascending (s : BillingWorld) : Prop where
  runs : ∀ run ∈ s.runs.rows, run.periodStart < run.periodEnd
  periods : ∀ period ∈ s.periods, period.periodStart < period.periodEnd

theorem covers_iff {period : BillingPeriodRow} {row : MeterEventRow} :
    period.covers row = true ↔ row.environment = period.environment ∧
      period.periodStart ≤ row.occurredAt ∧ row.occurredAt < period.periodEnd := by
  simp [BillingPeriodRow.covers, inPeriod, and_assoc]

/-- Periods that do not overlap cover no event in common. -/
theorem Apart.not_covers {period other : BillingPeriodRow} {row : MeterEventRow}
    (h : Apart period other.environment other.periodStart other.periodEnd)
    (hcovers : period.covers row = true) : other.covers row = false := by
  rw [Bool.eq_false_iff]
  intro hother
  obtain ⟨henv, hfrom, hto⟩ := covers_iff.mp hcovers
  obtain ⟨henv', hfrom', hto'⟩ := covers_iff.mp hother
  rcases h (henv.symm.trans henv') with hle | hle <;> omega

theorem apart_symm {period other : BillingPeriodRow}
    (h : Apart period other.environment other.periodStart other.periodEnd) :
    Apart other period.environment period.periodStart period.periodEnd :=
  fun hsame => (h hsame.symm).symm

/-- A half-open boundary leaves each event on one side. -/
theorem covered_adjacent {period other : BillingPeriodRow}
    (hsame : period.environment = other.environment) (hadjacent : period.periodEnd = other.periodStart)
    (hperiod : period.periodStart < period.periodEnd) (hother : other.periodStart < other.periodEnd) :
    (s.covered period ++ s.covered other).Perm
      (s.eventsIn period.environment period.periodStart other.periodEnd) := by
  have hfirst : s.covered period =
      (s.eventsIn period.environment period.periodStart other.periodEnd).filter fun row =>
        decide (row.occurredAt < period.periodEnd) := by
    unfold BillingWorld.covered BillingWorld.eventsIn
    rw [List.filter_filter]
    refine List.filter_congr fun row _ => ?_
    rw [Bool.eq_iff_iff, covers_iff]
    simp only [inPeriod, Bool.and_eq_true, decide_eq_true_eq]
    constructor
    · rintro ⟨henv, hfrom, hto⟩
      exact ⟨hto, ⟨henv, hfrom⟩, by omega⟩
    · rintro ⟨hto, ⟨henv, hfrom⟩, -⟩
      exact ⟨henv, hfrom, hto⟩
  have hsecond : s.covered other =
      (s.eventsIn period.environment period.periodStart other.periodEnd).filter fun row =>
        !decide (row.occurredAt < period.periodEnd) := by
    unfold BillingWorld.covered BillingWorld.eventsIn
    rw [List.filter_filter]
    refine List.filter_congr fun row _ => ?_
    rw [Bool.eq_iff_iff, covers_iff, hsame]
    simp only [inPeriod, Bool.and_eq_true, Bool.not_eq_true', decide_eq_false_iff_not,
      decide_eq_true_eq]
    constructor
    · rintro ⟨henv, hfrom, hto⟩
      exact ⟨by omega, ⟨henv, by omega⟩, hto⟩
    · rintro ⟨hfrom, ⟨henv, -⟩, hto⟩
      exact ⟨henv, by omega, hto⟩
  rw [hfirst, hsecond]
  exact List.filter_append_perm _ _

/-- Over ascending bounds, periods that do not overlap and have exact totals bill once. -/
theorem billsOnce_iff (ascending : Ascending s) :
    BillsOnce s ↔ (s.periods.Pairwise fun period other =>
      Apart period other.environment other.periodStart other.periodEnd) ∧
        ∀ period ∈ s.periods, Exact s period := by
  constructor
  · exact fun h => ⟨h.apart, h.totals⟩
  · rintro ⟨apart, totals⟩
    refine ⟨apart, fun row _ period hperiod other hother hcovers hcovers' => ?_,
      fun period hperiod other hother hsame hadjacent => ?_, totals⟩
    · -- two different rows of the list do not overlap, whichever comes first
      have hsplit : period = other ∨
          Apart period other.environment other.periodStart other.periodEnd :=
        List.Pairwise.forall_of_forall_of_flip
          (R := fun period other => period = other ∨
            Apart period other.environment other.periodStart other.periodEnd)
          (fun _ _ => Or.inl rfl) (apart.imp Or.inr)
          (apart.imp fun h => Or.inr (apart_symm h)) hperiod hother
      rcases hsplit with hsame | hapart
      · exact hsame
      · rw [hapart.not_covers hcovers] at hcovers'
        cases hcovers'
    · exact covered_adjacent hsame hadjacent (ascending.periods period hperiod)
        (ascending.periods other hother)

/-! ## Steps -/

/-- An event is recorded outside the closed periods, and a period is closed apart from them and
with the totals its raw events have now. -/
def KeepsPeriods (s : BillingWorld) : BillingLabel → Prop
  | .record event =>
      (meterRow event).meteringPolicyVersion = SHADOW_REQUEST_POLICY_VERSION →
        s.events.find? event.requestId = none →
          ∀ period ∈ s.periods, period.covers (meterRow event) = false
  | .close input id => ∀ run, closableRun s input = .ok run → existingPeriod s run = none →
      (∀ period ∈ s.periods, period.id ≠ id) →
        (∀ period ∈ s.periods, Apart period run.environment run.periodStart run.periodEnd) ∧
          run.rawRequestCount =
            (s.eventsIn run.environment run.periodStart run.periodEnd).length ∧
          run.rawBillableUnits = ((s.eventsIn run.environment run.periodStart run.periodEnd).map
            (·.billableUnits)).sum
  | .observe _ | .recordFailure _ | .reconcile _ _ => True

/-- What the steps are checked against: no overlap, and exact totals. -/
def Counts (s : BillingWorld) : Prop :=
  (s.periods.Pairwise fun period other =>
    Apart period other.environment other.periodStart other.periodEnd) ∧
      ∀ period ∈ s.periods, Exact s period

/-- Only the events and the closed periods matter. -/
theorem counts_congr (hevents : next.events = s.events) (hperiods : next.periods = s.periods) :
    Counts next ↔ Counts s := by
  have hexact : ∀ period, Exact next period ↔ Exact s period := fun period => by
    have hcovered : next.covered period = s.covered period := by
      unfold BillingWorld.covered
      rw [hevents]
    exact ⟨fun h => ⟨hcovered ▸ h.requests, hcovered ▸ h.units⟩,
      fun h => ⟨hcovered ▸ h.requests, hcovered ▸ h.units⟩⟩
  simp only [Counts, hperiods, hexact]

/-- An event that is recorded keeps the totals exact when no closed period covers it. -/
theorem record_counts {row : MeterEventRow} {events : Table MeterEventRow.requestId}
    (h : Counts s) (hinsert : s.events.insert? row = some events) :
    Counts { s with events } ↔ ∀ period ∈ s.periods, period.covers row = false := by
  have hrows : events.rows = s.events.rows ++ [row] := Table.insert?_rows hinsert
  have hcovered : ∀ period, BillingWorld.covered { s with events } period =
      s.covered period ++ if period.covers row then [row] else [] := by
    intro period
    unfold BillingWorld.covered
    rw [hrows, List.filter_append]
    cases hcase : period.covers row <;> simp [hcase]
  constructor
  · intro hnext period hperiod
    rw [Bool.eq_false_iff]
    intro hcovers
    have hnow := (hnext.2 period hperiod).requests
    rw [hcovered, hcovers, (h.2 period hperiod).requests] at hnow
    simp at hnow
  · intro houtside
    refine ⟨h.1, fun period hperiod => ?_⟩
    have hsame : BillingWorld.covered { s with events } period = s.covered period := by
      rw [hcovered, houtside period hperiod]
      simp
    exact ⟨hsame ▸ (h.2 period hperiod).requests, hsame ▸ (h.2 period hperiod).units⟩

/-- A close keeps the periods apart and exact when its own is. -/
theorem close_counts {period : BillingPeriodRow} (h : Counts s) :
    Counts { s with periods := s.periods ++ [period] } ↔
      (∀ old ∈ s.periods, Apart old period.environment period.periodStart period.periodEnd) ∧
        Exact s period := by
  have hexact : ∀ other, Exact { s with periods := s.periods ++ [period] } other ↔ Exact s other :=
    fun other => ⟨fun h => ⟨h.requests, h.units⟩, fun h => ⟨h.requests, h.units⟩⟩
  simp only [Counts, List.pairwise_append, List.pairwise_singleton, true_and, List.mem_append,
    List.mem_singleton, forall_eq, hexact]
  constructor
  · rintro ⟨⟨-, hapart⟩, hall⟩
    exact ⟨hapart, hall period (.inr rfl)⟩
  · rintro ⟨hapart, hnew⟩
    refine ⟨⟨h.1, hapart⟩, fun other hother => ?_⟩
    rcases hother with hold | rfl
    · exact h.2 other hold
    · exact hnew

/-- What a reconciliation does to the state: nothing, or rollups and a run. -/
theorem reconcile_cases {input : ReconcileUsageInput} {id : String}
    {answer : BillingWorld × UsageReconciliationResult}
    (h : reconcileUsagePeriod s input id = .ok answer) :
    input.periodStart < input.periodEnd ∧ (answer.1 = s ∨
      ∃ runs, answer.1 = { s.rebuildDailyRollups input with runs } ∧
        s.runs.insert? (reconciliationRun (s.rebuildDailyRollups input) input id) = some runs) := by
  unfold reconcileUsagePeriod at h
  obtain ⟨_, hassert, h⟩ := bind_ok.mp h
  refine ⟨?_, ?_⟩
  · unfold assertPeriod at hassert
    split at hassert
    · cases hassert
    · omega
  · split at h
    · cases h
      exact .inl rfl
    · dsimp only at h
      split at h
      · cases h
      · rename_i runs hinsert
        cases h
        exact .inr ⟨runs, rfl, hinsert⟩

theorem closableRun_ok {input : CloseUsagePeriodInput} {run : ReconciliationRunRow}
    (h : closableRun s input = .ok run) : run ∈ s.runs.rows ∧ run.environment = input.environment := by
  unfold closableRun at h
  split at h
  · cases h
  · rename_i found hfound
    split at h
    · cases h
    · rename_i henv
      split at h
      · cases h
      · split at h
        · cases h
        · cases h
          exact ⟨Table.mem_of_find? hfound, not_not.mp henv⟩

/-- What a close does to the state: one more period, or nothing. -/
theorem close_step (s : BillingWorld) (input : CloseUsagePeriodInput) (id : String) :
    (∃ run, closableRun s input = .ok run ∧ existingPeriod s run = none ∧
        (∀ period ∈ s.periods, period.id ≠ id) ∧
        billingStep s (.close input id) =
          { s with periods := s.periods ++ [closedPeriod run input id] }) ∨
      ((¬∃ run, closableRun s input = .ok run ∧ existingPeriod s run = none ∧
          ∀ period ∈ s.periods, period.id ≠ id) ∧ billingStep s (.close input id) = s) := by
  have hstep : billingStep s (.close input id) = afterCall s (closeShadowUsagePeriod s input id) := rfl
  rw [hstep]
  unfold closeShadowUsagePeriod
  cases hrun : closableRun s input with
  | error message =>
      refine .inr ⟨?_, rfl⟩
      rintro ⟨run, hok, -⟩
      cases hok
  | ok run =>
      have hbind : ∀ next : ReconciliationRunRow → Except String (BillingWorld × CloseResult),
          (Except.ok run >>= next) = next run := fun _ => rfl
      rw [hbind]
      cases hexisting : existingPeriod s run with
      | some existing =>
          refine .inr ⟨?_, rfl⟩
          rintro ⟨other, hother, hnone, -⟩
          rw [← Except.ok.inj hother, hexisting] at hnone
          cases hnone
      | none =>
          by_cases htaken : (s.periods.any fun period => period.id = id) = true
          · obtain ⟨period, hperiod, hsame⟩ := List.any_eq_true.mp htaken
            dsimp only
            rw [if_pos htaken]
            refine .inr ⟨?_, rfl⟩
            rintro ⟨-, -, -, hfresh⟩
            exact hfresh period hperiod (of_decide_eq_true hsame)
          · dsimp only
            rw [if_neg htaken]
            refine .inl ⟨run, rfl, hexisting, fun period hperiod hsame => htaken ?_, rfl⟩
            exact List.any_eq_true.mpr ⟨period, hperiod, decide_eq_true hsame⟩

/-! ## Every step -/

/-- The events, the periods and the runs are what they were. -/
structure Leaves (s next : BillingWorld) : Prop where
  events : next.events = s.events
  periods : next.periods = s.periods
  runs : next.runs = s.runs

theorem observe_leaves (s : BillingWorld) (row : GatewayObservationRow) : Leaves s (s.observe row) := by
  unfold BillingWorld.observe
  split <;> exact ⟨rfl, rfl, rfl⟩

theorem recordFailure_leaves (s : BillingWorld) (row : MeterFailureRow) :
    Leaves s (s.recordFailure row) := by
  unfold BillingWorld.recordFailure
  split
  · split <;> exact ⟨rfl, rfl, rfl⟩
  · exact ⟨rfl, rfl, rfl⟩

/-- A reconciliation adds a run at most. -/
theorem reconcile_step (s : BillingWorld) (input : ReconcileUsageInput) (id : String) :
    (billingStep s (.reconcile input id)).events = s.events ∧
      (billingStep s (.reconcile input id)).periods = s.periods ∧
      ∀ run ∈ (billingStep s (.reconcile input id)).runs.rows,
        run ∈ s.runs.rows ∨ run.periodStart < run.periodEnd := by
  cases hcall : reconcileUsagePeriod s input id with
  | error message =>
      have hstep : billingStep s (.reconcile input id) = s := by
        rw [billingStep, hcall]
        rfl
      rw [hstep]
      exact ⟨rfl, rfl, fun run hrun => .inl hrun⟩
  | ok answer =>
      have hstep : billingStep s (.reconcile input id) = answer.1 := by
        rw [billingStep, hcall]
        rfl
      rw [hstep]
      obtain ⟨hperiod, hsame | ⟨runs, hsame, hinsert⟩⟩ := reconcile_cases hcall
      · rw [hsame]
        exact ⟨rfl, rfl, fun run hrun => .inl hrun⟩
      · rw [hsame]
        refine ⟨rfl, rfl, fun run hrun => ?_⟩
        have hrows := Table.insert?_rows hinsert
        change run ∈ runs.rows at hrun
        rw [hrows] at hrun
        rcases List.mem_append.mp hrun with hold | hnew
        · exact .inl hold
        · rw [List.mem_singleton.mp hnew]
          exact .inr hperiod

/-- What a record does to the state: nothing, or one more event. -/
theorem record_step (s : BillingWorld) (event : ApiRequestMeterEvent) :
    ((meterRow event).meteringPolicyVersion = SHADOW_REQUEST_POLICY_VERSION ∧
        s.events.find? event.requestId = none ∧
        ∃ events, s.events.insert? (meterRow event) = some events ∧
          billingStep s (.record event) = { s with events }) ∨
      (((meterRow event).meteringPolicyVersion = SHADOW_REQUEST_POLICY_VERSION →
        s.events.find? event.requestId ≠ none) ∧ billingStep s (.record event) = s) := by
  have hstep : billingStep s (.record event) = afterRecord s (s.record event) := rfl
  rw [hstep]
  unfold BillingWorld.record
  dsimp only
  by_cases hversion : (meterRow event).meteringPolicyVersion = SHADOW_REQUEST_POLICY_VERSION
  · rw [if_neg (not_not.mpr hversion)]
    cases hinsert : s.events.insert? (meterRow event) with
    | none =>
        refine .inr ⟨fun _ hnone => ?_, rfl⟩
        have hinserted : ∃ next, s.events.insert? (meterRow event) = some next :=
          Table.exists_insert hnone
        obtain ⟨next, hnext⟩ := hinserted
        rw [hinsert] at hnext
        cases hnext
    | some events =>
        exact .inl ⟨hversion, Table.insert?_fresh hinsert, events, rfl, rfl⟩
  · rw [if_pos hversion]
    exact .inr ⟨fun h => absurd h hversion, rfl⟩

theorem Ascending.step (h : Ascending s) (label : BillingLabel) : Ascending (billingStep s label) := by
  cases label with
  | record event =>
      rcases record_step s event with ⟨-, -, events, -, hstep⟩ | ⟨-, hstep⟩
      · rw [hstep]
        exact ⟨h.runs, h.periods⟩
      · rw [hstep]
        exact h
  | observe row =>
      have hleaves := observe_leaves s row
      exact ⟨hleaves.runs.symm ▸ h.runs, hleaves.periods.symm ▸ h.periods⟩
  | recordFailure row =>
      have hleaves := recordFailure_leaves s row
      exact ⟨hleaves.runs.symm ▸ h.runs, hleaves.periods.symm ▸ h.periods⟩
  | reconcile input id =>
      obtain ⟨-, hperiods, hruns⟩ := reconcile_step s input id
      exact ⟨fun run hrun => (hruns run hrun).elim (h.runs run) fun hlt => hlt, hperiods.symm ▸ h.periods⟩
  | close input id =>
      rcases close_step s input id with ⟨run, hrun, -, -, hstep⟩ | ⟨-, hstep⟩
      · rw [hstep]
        refine ⟨h.runs, fun period hperiod => ?_⟩
        rcases List.mem_append.mp hperiod with hold | hnew
        · exact h.periods period hold
        · rw [List.mem_singleton.mp hnew]
          exact h.runs run (closableRun_ok hrun).1
      · rw [hstep]
        exact h

/-- A step keeps billing once exactly when it is admitted. -/
theorem step_decides (ascending : Ascending s) (h : BillsOnce s) (label : BillingLabel) :
    BillsOnce (billingStep s label) ↔ KeepsPeriods s label := by
  have hcounts : Counts s := (billsOnce_iff ascending).mp h
  rw [billsOnce_iff (ascending.step label)]
  change Counts _ ↔ _
  cases label with
  | record event =>
      rcases record_step s event with ⟨hversion, hnone, events, hinsert, hstep⟩ | ⟨hrefused, hstep⟩
      · rw [hstep, record_counts hcounts hinsert, KeepsPeriods]
        exact ⟨fun h _ _ => h, fun h => h hversion hnone⟩
      · rw [hstep]
        exact iff_of_true hcounts fun hversion hnone => absurd hnone (hrefused hversion)
  | close input id =>
      rcases close_step s input id with ⟨run, hrun, hexisting, hfresh, hstep⟩ | ⟨hrefused, hstep⟩
      · rw [hstep, close_counts hcounts, KeepsPeriods]
        have henv := (closableRun_ok hrun).2
        have hcovered : s.covered (closedPeriod run input id) =
            s.eventsIn run.environment run.periodStart run.periodEnd := by
          rw [henv]
          rfl
        constructor
        · rintro ⟨hapart, hexact⟩ other hother - -
          obtain rfl := Except.ok.inj (hrun.symm.trans hother)
          rw [henv]
          refine ⟨hapart, ?_, ?_⟩
          · exact henv ▸ hcovered ▸ hexact.requests
          · exact henv ▸ hcovered ▸ hexact.units
        · intro hguard
          obtain ⟨hapart, hrequests, hunits⟩ := hguard run hrun hexisting hfresh
          rw [henv] at hapart
          exact ⟨hapart, hcovered ▸ hrequests, hcovered ▸ hunits⟩
      · rw [hstep]
        exact iff_of_true hcounts fun run hrun hexisting hfresh =>
          absurd ⟨run, hrun, hexisting, hfresh⟩ hrefused
  | observe row =>
      have hleaves := observe_leaves s row
      exact iff_of_true ((counts_congr hleaves.events hleaves.periods).mpr hcounts) trivial
  | recordFailure row =>
      have hleaves := recordFailure_leaves s row
      exact iff_of_true ((counts_congr hleaves.events hleaves.periods).mpr hcounts) trivial
  | reconcile input id =>
      obtain ⟨hevents, hperiods, -⟩ := reconcile_step s input id
      exact iff_of_true ((counts_congr hevents hperiods).mpr hcounts) trivial

/-! ## Sequences -/

theorem ascending_empty : Ascending {} :=
  ⟨fun _ hrun => absurd hrun List.not_mem_nil, fun _ hperiod => absurd hperiod List.not_mem_nil⟩

theorem billsOnce_empty : BillsOnce {} :=
  (billsOnce_iff ascending_empty).mpr
    ⟨List.Pairwise.nil, fun _ hperiod => absurd hperiod List.not_mem_nil⟩

namespace OverlappingPeriods

def request : ApiRequestMeterEvent :=
  { requestId := "req_1", keyId := "key_1", occurredAt := 86400000, environment := .live
    accessStage := some .production, method := "GET", operationId := "ledger.list"
    requiredScope := none, productFamily := some "ledger", statusCode := 200, outcome := .success
    rateLimitCount := none }

def metered : List BillingLabel :=
  [.record request, .observe ⟨"req_1", .live, 86400000, false⟩]

/-- Reconcile a period of two days, and close it. -/
def closeDays (first : Int) (id : String) : List BillingLabel :=
  [.reconcile ⟨.live, first * 86400000, (first + 2) * 86400000, id, "operator"⟩ ("run_" ++ id),
    .close ⟨.live, "run_" ++ id, "operator", "monthly close"⟩ ("per_" ++ id)]

def firstPeriod : BillingPeriodRow :=
  ⟨"per_a", .live, 0, 172800000, "requests_v1_shadow", 1, 1, "run_a", "operator", "monthly close"⟩

def secondPeriod : BillingPeriodRow :=
  ⟨"per_b", .live, 86400000, 259200000, "requests_v1_shadow", 1, 1, "run_b", "operator",
    "monthly close"⟩

end OverlappingPeriods

end BrainCore.Usage
