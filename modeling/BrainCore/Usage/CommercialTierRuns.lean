import BrainCore.Usage.CommercialTierSafety

/-!
# What upgrade calls can lose

Every step keeps what is sound.  Two things can be lost: a commit can lower a
limit, and the emit of a repeated call can be refused; no later step makes good
for either.
-/

namespace BrainCore.Usage

open BrainCore.Foundation Upgrades

section Steps

variable {tenantId : String} {tables : TierTables} {toIso : Nat → String} {s next : Upgrades}
  {call : UpgradeCall} {i : Nat} {begun : Option Entitlement}

/-! ## Every step -/

theorem UpgradesSound.start (h : UpgradesSound tenantId tables s begun) (input : UpgradeInput)
    (now : Nat) : UpgradesSound tenantId tables (s.start tenantId input now) begun where
  log := h.log
  locked := fun j other hother hholds => by
    rcases snoc_cases hother with ⟨-, rfl⟩ | hold
    · cases hholds
    · exact h.locked j other hold hholds
  before := fun other hother row hbefore => by
    rcases List.mem_append.mp hother with hold | hnew
    · exact h.before other hold row hbefore
    · rw [List.mem_singleton.mp hnew] at hbefore ⊢
      exact ⟨List.mem_of_find?_eq_some hbefore, by simpa using List.find?_some hbefore⟩
  stages := fun other hother => by
    rcases List.mem_append.mp hother with hold | hnew
    · exact (h.stages other hold).mono ⟨fun _ => id, fun _ => id⟩ fun _ => ⟨rfl, rfl⟩
    · rw [List.mem_singleton.mp hnew]
      trivial

theorem crash_eq (hcrash : s.crash i call call.stage = some next) :
    next = s.settle i call .crashed ∧ ∀ outcome, call.stage ≠ .ended outcome := by
  cases hstage : call.stage with
  | ended outcome =>
      rw [hstage] at hcrash
      cases hcrash
  | crashed =>
      rw [hstage] at hcrash
      cases hcrash
  | _ =>
      rw [hstage] at hcrash
      cases hcrash
      exact ⟨rfl, fun _ hcontra => by cases hcontra⟩

theorem AdvanceCase.sound (hcase : AdvanceCase tenantId tables s i call next)
    (h : UpgradesSound tenantId tables s begun) (hcall : s.calls[i]? = some call) :
    UpgradesSound tenantId tables next begun := by
  cases hcase with
  | settle stage own free first safe => exact h.settle hcall free own
  | commit tier current updated row hstage => exact h.commit hcall hstage
  | emit result hstage => exact h.emit hcall hstage

theorem upgrade_sound {label : UpgradeLabel} (h : UpgradesSound tenantId tables s begun)
    (hstep : (upgradeMachine tenantId tables toIso).step s label = some next) :
    UpgradesSound tenantId tables next begun := by
  change s.step tenantId tables toIso label = some next at hstep
  cases label with
  | start input now =>
      cases hstep
      exact h.start input now
  | advance j drawn =>
      obtain ⟨call, hcall, hadvance⟩ := Option.bind_eq_some_iff.mp hstep
      exact (advance_cases h hcall hadvance).sound h hcall
  | crash j =>
      obtain ⟨call, hcall, hcrash⟩ := Option.bind_eq_some_iff.mp hstep
      rw [(crash_eq hcrash).1]
      exact h.settle hcall (fun hholds => by cases hholds) trivial

/-! ## What can be lost -/

/-- A repeated call has not failed. -/
def CallAnswered (call : UpgradeCall) : Prop :=
  ∀ row, call.before = some row → SameBody call.input row → ∀ e, call.stage ≠ .ended (.error e)

/-- The change lowers neither limit. -/
def RowKeepsRequests (tables : TierTables) (row : ChangeLogRow) : Prop :=
  ∃ old new, tables.tierOf row.beforeState = some old ∧
    tables.tierOf row.afterState = some new ∧ KeepsRequests old new

structure NothingLost (tables : TierTables) (s : Upgrades) : Prop where
  answered : ∀ call ∈ s.calls, CallAnswered call
  limits : ∀ row ∈ s.changes, RowKeepsRequests tables row

theorem countP_key_eq_one {events : List UpgradeEvent} {key : String}
    (hkeys : (events.map (·.idempotencyKey)).Nodup)
    (hmem : ∃ event ∈ events, event.idempotencyKey = key) :
    (events.countP fun event => event.idempotencyKey = key) = 1 := by
  obtain ⟨event, hevent, rfl⟩ := hmem
  have hcount := List.count_eq_one_of_mem hkeys (List.mem_map_of_mem hevent)
  rw [List.count, List.countP_map] at hcount
  rw [← hcount]
  apply List.countP_congr
  intro other _
  simp

theorem upgradesSafe_iff (h : UpgradesSound tenantId tables s begun) :
    UpgradesSafe tables begun s ↔ NothingLost tables s := by
  constructor
  · intro hsafe
    refine ⟨fun call hcall row hbefore hbody e hended => ?_, hsafe.limits⟩
    obtain ⟨result, -, hok, -⟩ := hsafe.repeated call hcall row hbefore hbody _ hended
    cases hok
  · intro hkept
    refine ⟨h.log.version, h.log.keys, fun call hcall row hbefore hbody outcome hended => ?_,
      hkept.limits⟩
    have hsound := h.stages call hcall
    cases outcome with
    | error e => exact absurd hended (hkept.answered call hcall row hbefore hbody e)
    | ok result =>
        rw [hended] at hsound
        obtain ⟨found, ⟨-, hresult, hknown⟩, hevent⟩ := hsound
        obtain rfl := hknown row hbefore
        exact ⟨result, hresult, rfl, countP_key_eq_one h.log.eventKeys hevent⟩

theorem answered_set {calls : List UpgradeCall} (hcall : calls[i]? = some call)
    (hopen : ∀ outcome, call.stage ≠ .ended outcome) (latest : UpgradeCall) :
    (∀ c ∈ calls.set i latest, CallAnswered c) ↔
      (∀ c ∈ calls, CallAnswered c) ∧ CallAnswered latest := by
  constructor
  · intro h
    refine ⟨fun c hc => ?_, h latest (List.mem_of_getElem? (set_self hcall))⟩
    obtain ⟨j, hj⟩ := List.mem_iff_getElem?.mp hc
    by_cases hji : j = i
    · subst hji
      cases hcall.symm.trans hj
      exact fun _ _ _ e => hopen _
    · exact h c (List.mem_of_getElem? (set_other hji hj))
  · rintro ⟨hold, hlatest⟩ c hc
    rcases List.mem_or_eq_of_mem_set hc with hmem | rfl
    · exact hold c hmem
    · exact hlatest

theorem callAnswered_of_open {stage : UpgradeStage} (hopen : ∀ outcome, stage ≠ .ended outcome) :
    CallAnswered { call with stage } := fun _ _ _ _ => hopen _

theorem nothingLost_commit {tier : CatalogRow} {current : EntitlementRow} {updated : Entitlement}
    {row : ChangeLogRow} (h : UpgradesSound tenantId tables s begun)
    (hcall : s.calls[i]? = some call) (hstage : call.stage = .committing tier current updated row) :
    NothingLost tables (s.commit i call tier current updated row) ↔
      NothingLost tables s ∧ RaisesLimits current.rateTier tier.rateTier := by
  have hsound := h.stages call (List.mem_of_getElem? hcall)
  rw [hstage] at hsound
  obtain ⟨hold, hnew⟩ := committing_tiers hsound
  have hrow : RowKeepsRequests tables row ↔ RaisesLimits current.rateTier tier.rateTier := by
    rw [← keepsRequests_iff]
    constructor
    · rintro ⟨old, new, hold', hnew', hkeeps⟩
      cases hold.symm.trans hold'
      cases hnew.symm.trans hnew'
      exact hkeeps
    · exact fun hkeeps => ⟨_, _, hold, hnew, hkeeps⟩
  have hset := answered_set hcall (fun _ hcontra => by rw [hstage] at hcontra; cases hcontra)
    { call with
      stage := .emitting (upgradeResult row.id current.entitlement.tierId tier updated) }
  constructor
  · intro hnext
    refine ⟨⟨(hset.mp hnext.answered).1, fun old hmem => ?_⟩, ?_⟩
    · exact hnext.limits old (List.mem_append_left _ hmem)
    · exact hrow.mp (hnext.limits row (List.mem_append_right _ (List.mem_singleton.mpr rfl)))
  · rintro ⟨hkept, hraises⟩
    refine ⟨hset.mpr ⟨hkept.answered, callAnswered_of_open fun _ hcontra => by cases hcontra⟩,
      fun old hmem => ?_⟩
    rcases List.mem_append.mp hmem with hin | hlast
    · exact hkept.limits old hin
    · rw [List.mem_singleton.mp hlast]
      exact hrow.mpr hraises

theorem nothingLost_emit {result : CommercialTierUpgradeResult}
    (h : UpgradesSound tenantId tables s begun) (hcall : s.calls[i]? = some call)
    (hstage : call.stage = .emitting result) :
    NothingLost tables (s.emit i call result) ↔
      NothingLost tables s ∧ SafeStage s call (.emitting result) := by
  have hsound := h.stages call (List.mem_of_getElem? hcall)
  rw [hstage] at hsound
  obtain ⟨row, hrow, hresult, hknown⟩ := hsound
  have hid := existingUpgrade_changeId hresult
  have hopen : ∀ outcome, call.stage ≠ .ended outcome := fun _ hcontra => by
    rw [hstage] at hcontra
    cases hcontra
  have hmoved : ∀ (outcome : Except UpgradeError CommercialTierUpgradeResult)
      (events : List UpgradeEvent),
      NothingLost tables { s.settle i call (.ended outcome) with events } ↔
        NothingLost tables s ∧ CallAnswered { call with stage := .ended outcome } := by
    intro outcome events
    have hset := answered_set hcall hopen { call with stage := .ended outcome }
    constructor
    · exact fun hnext => ⟨⟨(hset.mp hnext.answered).1, hnext.limits⟩, (hset.mp hnext.answered).2⟩
    · exact fun hkept => ⟨hset.mpr ⟨hkept.1.answered, hkept.2⟩, hkept.1.limits⟩
  have hok : ∀ value, CallAnswered { call with stage := .ended (.ok value) } :=
    fun value _ _ _ e hcontra => by cases hcontra
  unfold Upgrades.emit
  rcases emitUpgrade_cases (upgradeEvent call.input result) s.events with
    ⟨hnext, hfresh⟩ | ⟨hnext, hmem⟩ | ⟨hnext, hit, hhit, hkey, hne⟩ <;> rw [hnext] <;> dsimp only
  · rw [hmoved]
    refine and_congr_right fun _ => iff_of_true (hok result) ?_
    intro known hbefore _ event hevent hname
    obtain rfl := hknown known hbefore
    exact absurd (hname.trans (congrArg auditKey hid.symm)) (hfresh event hevent)
  · rw [hmoved]
    refine and_congr_right fun _ => iff_of_true (hok result) ?_
    intro known hbefore _ event hevent hname
    obtain rfl := hknown known hbefore
    obtain rfl : event = upgradeEvent call.input result :=
      List.inj_on_of_nodup_map h.log.eventKeys hevent hmem
        (hname.trans (congrArg auditKey hid.symm))
    exact ⟨rfl, rfl, rfl⟩
  · refine (hmoved (.error _) s.events).trans (and_congr_right fun _ => ?_)
    have hname : hit.idempotencyKey = auditKey row.id := hkey.trans (congrArg auditKey hid)
    have hreports := h.log.reports_of_key hrow hresult hhit hname
    constructor
    · intro hanswered known hbefore hbody
      exact absurd rfl (hanswered known hbefore hbody _)
    · intro hguard known hbefore hbody e _
      obtain rfl := hknown known hbefore
      exact hne ((eq_upgradeEvent_iff hreports).mpr (hguard known hbefore hbody hit hhit hname))

theorem nothingLost_step {label : UpgradeLabel} (h : UpgradesSound tenantId tables s begun)
    (hstep : (upgradeMachine tenantId tables toIso).step s label = some next) :
    NothingLost tables next ↔ NothingLost tables s ∧ KeepsUpgradesSafe s label := by
  change s.step tenantId tables toIso label = some next at hstep
  cases label with
  | start input now =>
      cases hstep
      constructor
      · exact fun hnext => ⟨⟨fun c hc => hnext.answered c (List.mem_append_left _ hc),
          hnext.limits⟩, trivial⟩
      · rintro ⟨hkept, -⟩
        refine ⟨fun c hc => ?_, hkept.limits⟩
        rcases List.mem_append.mp hc with hold | hnew
        · exact hkept.answered c hold
        · rw [List.mem_singleton.mp hnew]
          exact fun _ _ _ _ hcontra => by cases hcontra
  | advance j drawn =>
      obtain ⟨call, hcall, hadvance⟩ := Option.bind_eq_some_iff.mp hstep
      have hguard : KeepsUpgradesSafe s (.advance j drawn) ↔ SafeStage s call call.stage := by
        constructor
        · exact fun hall => hall call hcall
        · intro hsafe other hother
          cases hcall.symm.trans hother
          exact hsafe
      rw [hguard]
      cases advance_cases h hcall hadvance with
      | settle stage own free first safe =>
          have hopen : ∀ outcome, call.stage ≠ .ended outcome := fun outcome hcontra => by
            rw [hcontra] at hadvance
            cases hadvance
          have hset := answered_set hcall hopen { call with stage }
          have hlatest : CallAnswered { call with stage } := by
            rcases first with hnone | ⟨result, rfl⟩
            · intro row hbefore
              cases hnone.symm.trans hbefore
            · exact callAnswered_of_open fun _ hcontra => by cases hcontra
          constructor
          · exact fun hnext => ⟨⟨(hset.mp hnext.answered).1, hnext.limits⟩, safe⟩
          · exact fun hkept => ⟨hset.mpr ⟨hkept.1.answered, hlatest⟩, hkept.1.limits⟩
      | commit tier current updated row hstage =>
          rw [hstage]
          exact nothingLost_commit h hcall hstage
      | emit result hstage =>
          rw [hstage]
          exact nothingLost_emit h hcall hstage
  | crash j =>
      obtain ⟨call, hcall, hcrash⟩ := Option.bind_eq_some_iff.mp hstep
      obtain ⟨rfl, hopen⟩ := crash_eq hcrash
      have hset := answered_set hcall hopen { call with stage := .crashed }
      constructor
      · exact fun hnext => ⟨⟨(hset.mp hnext.answered).1, hnext.limits⟩, trivial⟩
      · exact fun hkept => ⟨hset.mpr ⟨hkept.1.answered,
          callAnswered_of_open fun _ hcontra => by cases hcontra⟩, hkept.1.limits⟩

end Steps

/-! ## The claim -/

theorem upgradesSound_start (tenantId : String) (tables : TierTables) (begun : Option Entitlement) :
    UpgradesSound tenantId tables { entitlement := begun } begun where
  log := ⟨by cases begun <;> rfl, fun _ h => (by cases h), List.nodup_nil, List.nodup_nil,
    fun _ h => (by cases h), List.nodup_nil⟩
  locked := fun _ _ h => by cases h
  before := fun _ h => by cases h
  stages := fun _ h => by cases h

/-- Upgrades of a tenant are safe in every interleaving exactly when each change that commits makes
up for longer windows, and each repeated call that finds the event of its change is by the actor
and with the body of the event. -/
theorem upgrades_safe_iff (tenantId : String) (tables : TierTables) (toIso : Nat → String)
    (begun : Option Entitlement) {labels : List UpgradeLabel} {s : Upgrades}
    (hrun : (upgradeMachine tenantId tables toIso).run { entitlement := begun } labels = some s) :
    UpgradesSafe tables begun s ↔
      (upgradeMachine tenantId tables toIso).Meets KeepsUpgradesSafe { entitlement := begun }
        labels := by
  have hstart := upgradesSound_start tenantId tables begun
  have hsound : UpgradesSound tenantId tables s begun :=
    (upgradeMachine tenantId tables toIso).invariant_of_run (fun _ _ _ h hstep =>
      upgrade_sound h hstep) hstart hrun
  rw [upgradesSafe_iff hsound]
  refine (upgradeMachine tenantId tables toIso).last_iff_meets
    (fun _ _ _ (h : UpgradesSound tenantId tables _ begun) hstep => upgrade_sound h hstep)
    (fun _ _ _ h hstep hnext => ((nothingLost_step h hstep).mp hnext).1)
    (fun _ _ _ h hgood hstep => ?_) hstart
    ⟨fun _ h => (by cases h), fun _ h => (by cases h)⟩ hrun
  rw [nothingLost_step h hstep]
  exact and_iff_right hgood

/-! ## A tier with longer windows -/

def starterTier : RateTier := ⟨"starter_v1", 60, 60, 600, by decide, by decide, by decide⟩

/-- More requests, in an hour instead of a minute. -/
def hourlyTier : RateTier := ⟨"hourly_v1", 3600, 100, 1000, by decide, by decide, by decide⟩

def hourlyTables : TierTables where
  catalog := [⟨"hourly_rev1", "hourly_v1", .unpaid, false, true, true, 0, none⟩]
  rateTiers := [starterTier, hourlyTier]

def starterEntitlement : Entitlement := ⟨"starter_v1", 1, .active, "0"⟩

def hourlyInput : UpgradeInput := ⟨"user_admin", "tier-upgrade-1", "hourly_rev1", 1⟩

/-- One call, up to its commit. -/
def hourlyRun : List UpgradeLabel := .start hourlyInput 5 :: List.replicate 7 (.advance 0 "ctchg_1")

theorem hourly_change : ∃ s row, (upgradeMachine "tnt_1" hourlyTables toString).run
      { entitlement := some starterEntitlement } hourlyRun = some s ∧ s.changes = [row] ∧
    hourlyTables.tierOf row.beforeState = some starterTier ∧
    hourlyTables.tierOf row.afterState = some hourlyTier :=
  ⟨_, _, rfl, rfl, rfl, rfl⟩

/-- In an hour the old tier lets 3600 requests of a key through, and the new one 100. -/
theorem hourly_upgrade_lowers_limits : ∃ s, (upgradeMachine "tnt_1" hourlyTables toString).run
      { entitlement := some starterEntitlement } hourlyRun = some s ∧
    ¬UpgradesSafe hourlyTables (some starterEntitlement) s := by
  obtain ⟨s, row, hrun, hchanges, hold, hnew⟩ := hourly_change
  refine ⟨s, hrun, fun hsafe => ?_⟩
  obtain ⟨old, new, hold', hnew', hkeeps⟩ :=
    hsafe.limits row (by rw [hchanges]; exact List.mem_singleton.mpr rfl)
  cases hold.symm.trans hold'
  cases hnew.symm.trans hnew'
  exact absurd (keepsRequests_iff.mp hkeeps).key (by decide)

theorem upgrades_safe_iff_hourly : ∃ s, (upgradeMachine "tnt_1" hourlyTables toString).run
      { entitlement := some starterEntitlement } hourlyRun = some s ∧
    (UpgradesSafe hourlyTables (some starterEntitlement) s ↔
      (upgradeMachine "tnt_1" hourlyTables toString).Meets KeepsUpgradesSafe
        { entitlement := some starterEntitlement } hourlyRun) := by
  obtain ⟨s, -, hrun, -⟩ := hourly_change
  exact ⟨s, hrun, upgrades_safe_iff "tnt_1" hourlyTables toString (some starterEntitlement) hrun⟩

end BrainCore.Usage
