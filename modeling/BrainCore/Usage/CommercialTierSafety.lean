import BrainCore.Foundation.Parties
import BrainCore.Foundation.SlidingWindows
import BrainCore.Usage.CommercialTiers

/-!
# Self-serve upgrades over all interleavings

The row lock leaves one call at a time between reading the entitlement and
committing, so the version counts the rows of the log.  A tier with longer
windows can pass for an upgrade and let fewer requests through; and the event of
a change is that of the first call that gets to emit it.
-/

namespace BrainCore.Usage

open BrainCore.Foundation Upgrades

/-! ## Limits -/

section Limits

def RateTier.windowMs (tier : RateTier) : Nat := tier.windowSeconds * 1000

/-- In every span of time the new tier lets through as many requests as the old one. -/
structure KeepsRequests (old new : RateTier) : Prop where
  key : ∀ span count, Permits old.windowMs old.keyLimit span count →
    Permits new.windowMs new.keyLimit span count
  tenant : ∀ span count, Permits old.windowMs old.tenantLimit span count →
    Permits new.windowMs new.tenantLimit span count

/-- The new limits make up for the old windows that begin in a new one. -/
structure RaisesLimits (old new : RateTier) : Prop where
  key : old.keyLimit * windowsIn old.windowSeconds new.windowSeconds ≤ new.keyLimit
  tenant : old.tenantLimit * windowsIn old.windowSeconds new.windowSeconds ≤ new.tenantLimit

theorem RateTier.windowMs_pos (tier : RateTier) : 0 < tier.windowMs :=
  Nat.mul_pos tier.window_pos (by decide)

theorem keepsRequests_iff {old new : RateTier} : KeepsRequests old new ↔ RaisesLimits old new := by
  have hwindows : windowsIn old.windowMs new.windowMs =
      windowsIn old.windowSeconds new.windowSeconds := windowsIn_mul (by decide) new.window_pos
  constructor
  · intro h
    have hkey := (permits_mono_iff old.windowMs_pos new.windowMs_pos).mp h.key
    have htenant := (permits_mono_iff old.windowMs_pos new.windowMs_pos).mp h.tenant
    rw [hwindows] at hkey htenant
    exact ⟨hkey, htenant⟩
  · intro h
    refine ⟨(permits_mono_iff old.windowMs_pos new.windowMs_pos).mpr ?_,
      (permits_mono_iff old.windowMs_pos new.windowMs_pos).mpr ?_⟩ <;> rw [hwindows]
    · exact h.key
    · exact h.tenant

/-- Windows that are no longer leave the check of the service right. -/
theorem raisesLimits_of_isStrictUpgrade {old new : RateTier} (h : isStrictUpgrade old new = true)
    (hwindow : new.windowSeconds ≤ old.windowSeconds) : RaisesLimits old new := by
  have hlimits : old.keyLimit ≤ new.keyLimit ∧ old.tenantLimit ≤ new.tenantLimit := by
    simp only [isStrictUpgrade, decide_eq_true_eq] at h
    exact h.1
  constructor <;> rw [windowsIn_of_le old.window_pos hwindow, Nat.mul_one]
  · exact hlimits.1
  · exact hlimits.2

end Limits

/-! ## The promise -/

/-- The body of the call is the one the change was made with. -/
def SameBody (input : UpgradeInput) (row : ChangeLogRow) : Prop :=
  row.afterState.field? "catalog_revision_id" = some (.str input.catalogRevisionId) ∧
    row.beforeState.field? "version" = some (.num input.expectedEntitlementVersion)

structure UpgradesSafe (tables : TierTables) (begun : Option Entitlement) (s : Upgrades) : Prop where
  version : s.entitlement.map (·.version) = begun.map fun e => e.version + s.changes.length
  /-- No key is applied twice. -/
  once : (s.changes.map (·.idempotencyKey)).Nodup
  /-- A call that began after the change of its key and body returns the change, and leaves one
  event for it. -/
  repeated : ∀ call ∈ s.calls, ∀ row, call.before = some row → SameBody call.input row →
    ∀ outcome, call.stage = .ended outcome → ∃ result, existingUpgrade row = .ok result ∧
      outcome = .ok result ∧
        (s.events.countP fun event => event.idempotencyKey = auditKey row.id) = 1
  limits : ∀ row ∈ s.changes, ∃ old new, tables.tierOf row.beforeState = some old ∧
    tables.tierOf row.afterState = some new ∧ KeepsRequests old new

/-- The event was made by a call of this actor and body. -/
structure UpgradeEvent.MadeBy (event : UpgradeEvent) (input : UpgradeInput) : Prop where
  actor : event.actor = input.actorMemberId
  catalogRevisionId : event.catalogRevisionId = input.catalogRevisionId
  expectedEntitlementVersion :
    event.expectedEntitlementVersion = input.expectedEntitlementVersion

/-- What a commit and a repeated emit need. -/
def SafeStage (s : Upgrades) (call : UpgradeCall) : UpgradeStage → Prop
  | .committing tier current _ _ => RaisesLimits current.rateTier tier.rateTier
  | .emitting _ => ∀ row, call.before = some row → SameBody call.input row →
      ∀ event ∈ s.events, event.idempotencyKey = auditKey row.id → event.MadeBy call.input
  | _ => True

def KeepsUpgradesSafe (s : Upgrades) : UpgradeLabel → Prop
  | .start _ _ | .crash _ => True
  | .advance i _ => ∀ call, s.calls[i]? = some call → SafeStage s call call.stage

/-! ## What every run keeps -/

/-- The event tells the result. -/
structure UpgradeEvent.Reports (event : UpgradeEvent) (result : CommercialTierUpgradeResult) :
    Prop where
  idempotencyKey : event.idempotencyKey = auditKey result.changeId
  rateTierId : event.rateTierId = result.rateTierId
  entitlementVersion : event.entitlementVersion = result.entitlementVersion
  placeholder : event.placeholder = result.placeholder

/-- The row is a change from one rate tier to another. -/
structure ChangeSound (tables : TierTables) (row : ChangeLogRow) : Prop where
  result : ∃ result, existingUpgrade row = .ok result
  tiers : ∃ old new, tables.tierOf row.beforeState = some old ∧ tables.tierOf row.afterState = some new

/-- What is committed. -/
structure LogSound (tables : TierTables) (begun entitlement : Option Entitlement)
    (changes : List ChangeLogRow) (events : List UpgradeEvent) : Prop where
  version : entitlement.map (·.version) = begun.map fun e => e.version + changes.length
  rows : ∀ row ∈ changes, ChangeSound tables row
  ids : (changes.map (·.id)).Nodup
  keys : (changes.map (·.idempotencyKey)).Nodup
  reports : ∀ event ∈ events, ∃ row ∈ changes, ∃ result, existingUpgrade row = .ok result ∧
    event.Reports result
  eventKeys : (events.map (·.idempotencyKey)).Nodup

/-- The catalog row of a call. -/
structure TierSound (tables : TierTables) (before : Option ChangeLogRow) (tier : CatalogRow) :
    Prop where
  first : before = none
  rateTier : tables.rateTier? tier.revision.targetRateTierId = some tier.rateTier

/-- The locked row of a call. -/
structure RowSound (tables : TierTables) (s : Upgrades) (current : EntitlementRow) : Prop where
  entitlement : s.entitlement = some current.entitlement
  rateTier : tables.rateTier? current.entitlement.tierId = some current.rateTier

/-- The change that a call has made or found. -/
def Found (s : Upgrades) (call : UpgradeCall) (result : CommercialTierUpgradeResult)
    (row : ChangeLogRow) : Prop :=
  row ∈ s.changes ∧ existingUpgrade row = .ok result ∧ ∀ known, call.before = some known → known = row

section Sound

variable (tenantId : String) (tables : TierTables) (s : Upgrades) (call : UpgradeCall)

def StageSound : UpgradeStage → Prop
  | .looking | .crashed => True
  | .choosing => call.before = none
  | .reading tier => TierSound tables call.before tier
  | .locking tier seen => TierSound tables call.before tier ∧ tables.rateTier? seen.id = some seen
  | .updating tier current => TierSound tables call.before tier ∧ RowSound tables s current
  | .inserting tier current updated => TierSound tables call.before tier ∧ RowSound tables s current ∧
      updated.version = current.entitlement.version + 1 ∧
        updated.tierId = tier.revision.targetRateTierId
  | .committing tier current updated row => TierSound tables call.before tier ∧ RowSound tables s current ∧
      updated.version = current.entitlement.version + 1 ∧
        updated.tierId = tier.revision.targetRateTierId ∧
          row = changeLogRow tenantId row.id call.input tier current.entitlement updated ∧
            ∀ old ∈ s.changes, old.id ≠ row.id ∧ old.idempotencyKey ≠ row.idempotencyKey
  | .emitting result => ∃ row, Found s call result row
  | .ended (.ok result) => ∃ row, Found s call result row ∧
      ∃ event ∈ s.events, event.idempotencyKey = auditKey row.id
  | .ended (.error _) => True

structure UpgradesSound (begun : Option Entitlement) : Prop where
  log : LogSound tables begun s.entitlement s.changes s.events
  locked : ∀ i call, s.calls[i]? = some call → call.stage.holdsRow = true → s.lock = some i
  before : ∀ call ∈ s.calls, ∀ row, call.before = some row → row ∈ s.changes ∧
    row.idempotencyKey = durableIdempotencyKey tenantId call.input.idempotencyKey
  stages : ∀ call ∈ s.calls, StageSound tenantId tables s call call.stage

end Sound

section Steps

variable {tenantId : String} {tables : TierTables} {toIso : Nat → String} {s next : Upgrades}
  {call : UpgradeCall} {i : Nat} {begun : Option Entitlement}

/-! ### Rows -/

theorem field?_cons (name other : String) (value : Json) (members : List (String × Json)) :
    (Json.obj ((name, value) :: members)).field? other =
      if name = other then some value else (Json.obj members).field? other := by
  unfold Json.field?
  dsimp only
  rw [List.find?_cons]
  by_cases h : name = other
  · simp [h]
  · simp [h]

theorem existingUpgrade_changeLogRow (changeId : String) (input : UpgradeInput) (tier : CatalogRow)
    (current updated : Entitlement) :
    existingUpgrade (changeLogRow tenantId changeId input tier current updated) =
      .ok (upgradeResult changeId current.tierId tier updated) := by
  unfold existingUpgrade changeLogRow beforeState afterState
  simp only [field?_cons]
  cases hplaceholder : tier.revision.placeholder <;> simp [upgradeResult, hplaceholder]

theorem existingUpgrade_changeId {row : ChangeLogRow} {result : CommercialTierUpgradeResult}
    (h : existingUpgrade row = .ok result) : result.changeId = row.id := by
  unfold existingUpgrade at h
  split at h
  · cases h
    rfl
  · cases h

theorem tierOf_beforeState (current : Entitlement) :
    tables.tierOf (beforeState current) = tables.rateTier? current.tierId := by
  unfold TierTables.tierOf beforeState
  rw [field?_cons]
  rfl

theorem tierOf_afterState (tier : CatalogRow) (updated : Entitlement) :
    tables.tierOf (afterState tier updated) = tables.rateTier? updated.tierId := by
  unfold TierTables.tierOf afterState
  rw [field?_cons]
  rfl

/-! ### One call -/

/-- What only grows. -/
structure Grows (s next : Upgrades) : Prop where
  changes : ∀ row ∈ s.changes, row ∈ next.changes
  events : ∀ event ∈ s.events, event ∈ next.events

theorem Grows.refl (s : Upgrades) : Grows s s := ⟨fun _ => id, fun _ => id⟩

theorem Found.mono {result : CommercialTierUpgradeResult} {row : ChangeLogRow}
    (h : Found s call result row) (grows : Grows s next) : Found next call result row :=
  ⟨grows.changes row h.1, h.2⟩

/-- What is said of a stage stays true while the log grows; a call that holds the row needs the
row to stand still. -/
theorem StageSound.mono {stage : UpgradeStage} (h : StageSound tenantId tables s call stage)
    (grows : Grows s next)
    (still : stage.holdsRow = true → next.entitlement = s.entitlement ∧ next.changes = s.changes) :
    StageSound tenantId tables next call stage := by
  cases stage with
  | looking => trivial
  | crashed => trivial
  | choosing => exact h
  | reading tier => exact h
  | locking tier seen => exact h
  | updating tier current =>
      obtain ⟨htier, hrow⟩ := h
      exact ⟨htier, (still rfl).1.trans hrow.entitlement, hrow.rateTier⟩
  | inserting tier current updated =>
      obtain ⟨htier, hrow, hupdated⟩ := h
      exact ⟨htier, ⟨(still rfl).1.trans hrow.entitlement, hrow.rateTier⟩, hupdated⟩
  | committing tier current updated row =>
      obtain ⟨htier, hrow, hversion, htarget, hmade, hfresh⟩ := h
      refine ⟨htier, ⟨(still rfl).1.trans hrow.entitlement, hrow.rateTier⟩, hversion, htarget,
        hmade, ?_⟩
      rw [(still rfl).2]
      exact hfresh
  | emitting result =>
      obtain ⟨row, hfound⟩ := h
      exact ⟨row, hfound.mono grows⟩
  | ended outcome =>
      cases outcome with
      | error e => trivial
      | ok result =>
          obtain ⟨row, hfound, event, hevent, hkey⟩ := h
          exact ⟨row, hfound.mono grows, event, grows.events event hevent, hkey⟩

theorem stageSound_stage {stage other : UpgradeStage} :
    StageSound tenantId tables s { call with stage := other } stage ↔
      StageSound tenantId tables s call stage := by
  cases stage with
  | ended outcome => cases outcome <;> exact Iff.rfl
  | _ => exact Iff.rfl

/-- A call moves on to a stage that is sound, and what is committed stays sound. -/
theorem UpgradesSound.move (h : UpgradesSound tenantId tables s begun) (hcall : s.calls[i]? = some call)
    {stage : UpgradeStage} (entitlement : Option Entitlement) (changes : List ChangeLogRow)
    (events : List UpgradeEvent)
    (log : LogSound tables begun entitlement changes events)
    (grows : Grows s { s.settle i call stage with entitlement, changes, events })
    (still : s.lock = some i ∨ entitlement = s.entitlement ∧ changes = s.changes)
    (free : stage.holdsRow = true → s.lock = none ∨ s.lock = some i)
    (own : StageSound tenantId tables { s.settle i call stage with entitlement, changes, events }
      call stage) :
    UpgradesSound tenantId tables { s.settle i call stage with entitlement, changes, events }
      begun where
  log := log
  locked := fun j other hother hholds => by
    change (if stage.holdsRow then some i else if s.lock = some i then none else s.lock) = some j
    rcases set_cases hcall hother with ⟨rfl, rfl⟩ | ⟨hne, hold⟩
    · rw [if_pos hholds]
    · have hlock := h.locked j other hold hholds
      have hfar : s.lock ≠ some i := fun hi => hne (Option.some.inj (hlock.symm.trans hi))
      rw [if_neg, if_neg hfar, hlock]
      intro hstage
      rcases free hstage with hnone | hi
      · rw [hnone] at hlock
        cases hlock
      · exact hfar hi
  before := fun other hother row hbefore => by
    rcases List.mem_or_eq_of_mem_set hother with hold | rfl
    · obtain ⟨hrow, hkey⟩ := h.before other hold row hbefore
      exact ⟨grows.changes row hrow, hkey⟩
    · obtain ⟨hrow, hkey⟩ := h.before call (List.mem_of_getElem? hcall) row hbefore
      exact ⟨grows.changes row hrow, hkey⟩
  stages := fun other hother => by
    obtain ⟨j, hj⟩ := List.mem_iff_getElem?.mp hother
    rcases set_cases hcall hj with ⟨rfl, rfl⟩ | ⟨hne, hold⟩
    · exact stageSound_stage.mpr own
    · refine (h.stages other (List.mem_of_getElem? hold)).mono grows fun hholds => ?_
      refine still.resolve_left fun hi => ?_
      exact hne (Option.some.inj ((h.locked j other hold hholds).symm.trans hi))

theorem UpgradesSound.settle (h : UpgradesSound tenantId tables s begun)
    (hcall : s.calls[i]? = some call) {stage : UpgradeStage}
    (free : stage.holdsRow = true → s.lock = none ∨ s.lock = some i)
    (own : StageSound tenantId tables s call stage) :
    UpgradesSound tenantId tables (s.settle i call stage) begun :=
  h.move hcall s.entitlement s.changes s.events h.log ⟨fun _ => id, fun _ => id⟩ (.inr ⟨rfl, rfl⟩) free
    (own.mono ⟨fun _ => id, fun _ => id⟩ fun _ => ⟨rfl, rfl⟩)

/-! ### Statements -/

theorem rateTier?_id {id : String} {tier : RateTier} (h : tables.rateTier? id = some tier) :
    tier.id = id := by
  have hfound := List.find?_some h
  simpa using hfound

/-- The lookup finds the change that was there when the call began, or there was none. -/
theorem lookUp_cases (h : UpgradesSound tenantId tables s begun) (hcall : call ∈ s.calls) :
    (call.before = none ∧ s.lookUp tenantId call = .choosing) ∨
      ∃ result row, s.lookUp tenantId call = .emitting result ∧ Found s call result row := by
  unfold Upgrades.lookUp
  cases hchange : s.change? tenantId call.input with
  | none =>
      refine .inl ⟨?_, rfl⟩
      cases hbefore : call.before with
      | none => rfl
      | some row =>
          obtain ⟨hrow, hkey⟩ := h.before call hcall row hbefore
          have hmiss := List.find?_eq_none.mp hchange row hrow
          exact absurd (decide_eq_true hkey) hmiss
  | some row =>
      have hrow : row ∈ s.changes := List.mem_of_find?_eq_some hchange
      have hkey : row.idempotencyKey = durableIdempotencyKey tenantId call.input.idempotencyKey := by
        simpa using List.find?_some hchange
      obtain ⟨result, hresult⟩ := (h.log.rows row hrow).result
      refine .inr ⟨result, row, by dsimp only; rw [hresult], hrow, hresult, fun known hknown => ?_⟩
      obtain ⟨hmem, hsame⟩ := h.before call hcall known hknown
      exact List.inj_on_of_nodup_map h.log.keys hmem hrow (hsame.trans hkey.symm)

theorem choose_sound (tenantId : String) (tables : TierTables) (s : Upgrades)
    (first : call.before = none) :
    StageSound tenantId tables s call (choose tables call) ∧
      (choose tables call).holdsRow = false := by
  unfold choose TierTables.getCatalogRevision
  cases hrow : tables.catalogRow? call.now call.input.catalogRevisionId with
  | none => exact ⟨trivial, rfl⟩
  | some tier =>
      dsimp only
      cases assertSelfServeTier tier with
      | error e => exact ⟨trivial, rfl⟩
      | ok _ =>
          refine ⟨⟨first, ?_⟩, rfl⟩
          obtain ⟨revision, -, htier⟩ := Option.bind_eq_some_iff.mp hrow
          obtain ⟨rateTier, hrate, rfl⟩ := Option.map_eq_some_iff.mp htier
          exact hrate

theorem read_sound (tenantId : String) (s : Upgrades) {tier : CatalogRow}
    (h : TierSound tables call.before tier) :
    StageSound tenantId tables s call (s.read tables tier) ∧
      (s.read tables tier).holdsRow = false := by
  unfold Upgrades.read
  cases hrow : s.entitlementRow? tables with
  | none => exact ⟨trivial, rfl⟩
  | some row =>
      refine ⟨⟨h, ?_⟩, rfl⟩
      obtain ⟨entitlement, -, hjoined⟩ := Option.bind_eq_some_iff.mp hrow
      obtain ⟨rateTier, hrate, rfl⟩ := Option.map_eq_some_iff.mp hjoined
      dsimp only
      rw [rateTier?_id hrate]
      exact hrate

theorem lockRow_sound {tier : CatalogRow} {seen : RateTier} (h : TierSound tables call.before tier)
    (hseen : tables.rateTier? seen.id = some seen) :
    StageSound tenantId tables s call (s.lockRow call tier seen) := by
  unfold Upgrades.lockRow
  cases hrow : s.lockedRow? seen with
  | none => trivial
  | some current =>
      dsimp only
      cases checkCurrent call.input tier current with
      | error e => trivial
      | ok _ =>
          obtain ⟨entitlement, hentitlement, hjoined⟩ := Option.bind_eq_some_iff.mp hrow
          split at hjoined
          · rename_i hid
            cases hjoined
            exact ⟨h, hentitlement, hid ▸ hseen⟩
          · cases hjoined

theorem update_sound {tier : CatalogRow} {current : EntitlementRow} (h : TierSound tables call.before tier)
    (hrow : RowSound tables s current) :
    StageSound tenantId tables s call (s.update toIso call tier current) := by
  unfold Upgrades.update
  rw [hrow.entitlement]
  dsimp only
  split
  · trivial
  · split
    · trivial
    · exact ⟨h, hrow, rfl, rfl⟩

theorem insert_sound {drawn : String} {tier : CatalogRow} {current : EntitlementRow}
    {updated : Entitlement} (h : TierSound tables call.before tier) (hrow : RowSound tables s current)
    (hversion : updated.version = current.entitlement.version + 1)
    (htarget : updated.tierId = tier.revision.targetRateTierId) :
    StageSound tenantId tables s call (s.insert tenantId call drawn tier current updated) := by
  unfold Upgrades.insert
  dsimp only
  split
  · trivial
  · rename_i hfresh
    refine ⟨h, hrow, hversion, htarget, rfl, fun old hold => ?_⟩
    exact not_or.mp fun hclash =>
      hfresh (List.any_eq_true.mpr ⟨old, hold, decide_eq_true hclash⟩)

/-- What a statement of a call does: it moves the call on, commits its change, or emits its
event. -/
inductive AdvanceCase (tenantId : String) (tables : TierTables) (s : Upgrades) (i : Nat)
    (call : UpgradeCall) : Upgrades → Prop where
  | settle (stage : UpgradeStage) (own : StageSound tenantId tables s call stage)
      (free : stage.holdsRow = true → s.lock = none ∨ s.lock = some i)
      (first : call.before = none ∨ ∃ result, stage = .emitting result)
      (safe : SafeStage s call call.stage) : AdvanceCase tenantId tables s i call (s.settle i call stage)
  | commit (tier : CatalogRow) (current : EntitlementRow) (updated : Entitlement)
      (row : ChangeLogRow) (hstage : call.stage = .committing tier current updated row) :
      AdvanceCase tenantId tables s i call (s.commit i call tier current updated row)
  | emit (result : CommercialTierUpgradeResult) (hstage : call.stage = .emitting result) :
      AdvanceCase tenantId tables s i call (s.emit i call result)

theorem advance_cases (h : UpgradesSound tenantId tables s begun) (hcall : s.calls[i]? = some call)
    {drawn : String}
    (hstep : s.advance tenantId tables toIso i call drawn call.stage = some next) :
    AdvanceCase tenantId tables s i call next := by
  have hmem := List.mem_of_getElem? hcall
  have hsound := h.stages call hmem
  have hlock := h.locked i call hcall
  cases hstage : call.stage with
  | looking =>
      rw [hstage] at hstep
      cases hstep
      obtain ⟨hfirst, hnext⟩ | ⟨result, row, hnext, hfound⟩ := lookUp_cases h hmem
      · rw [hnext]
        exact .settle _ hfirst (fun hholds => by cases hholds) (.inl hfirst) (by rw [hstage]; trivial)
      · rw [hnext]
        exact .settle _ ⟨row, hfound⟩ (fun hholds => by cases hholds) (.inr ⟨result, rfl⟩)
          (by rw [hstage]; trivial)
  | choosing =>
      rw [hstage] at hstep hsound
      cases hstep
      obtain ⟨hown, hholds⟩ := choose_sound tenantId tables s hsound
      exact .settle _ hown (fun hheld => absurd (hholds.symm.trans hheld) (by decide)) (.inl hsound)
        (by rw [hstage]; trivial)
  | reading tier =>
      rw [hstage] at hstep hsound
      cases hstep
      obtain ⟨hown, hholds⟩ := read_sound tenantId s hsound
      exact .settle _ hown (fun hheld => absurd (hholds.symm.trans hheld) (by decide))
        (.inl hsound.first) (by rw [hstage]; trivial)
  | locking tier seen =>
      rw [hstage] at hstep hsound
      obtain ⟨htier, hseen⟩ := hsound
      unfold Upgrades.advance at hstep
      dsimp only at hstep
      split at hstep
      · rename_i hnone
        cases hstep
        exact .settle _ (lockRow_sound htier hseen) (fun _ => .inl hnone) (.inl htier.first)
          (by rw [hstage]; trivial)
      · cases hstep
  | updating tier current =>
      rw [hstage] at hstep hsound hlock
      obtain ⟨htier, hrow⟩ := hsound
      cases hstep
      exact .settle _ (update_sound htier hrow) (fun _ => .inr (hlock rfl)) (.inl htier.first)
        (by rw [hstage]; trivial)
  | inserting tier current updated =>
      rw [hstage] at hstep hsound hlock
      obtain ⟨htier, hrow, hversion, htarget⟩ := hsound
      cases hstep
      exact .settle _ (insert_sound htier hrow hversion htarget) (fun _ => .inr (hlock rfl))
        (.inl htier.first) (by rw [hstage]; trivial)
  | committing tier current updated row =>
      rw [hstage] at hstep
      cases hstep
      exact .commit tier current updated row hstage
  | emitting result =>
      rw [hstage] at hstep
      cases hstep
      exact .emit result hstage
  | ended outcome =>
      rw [hstage] at hstep
      cases hstep
  | crashed =>
      rw [hstage] at hstep
      cases hstep

/-! ### Commits -/

section Commit

variable {tier : CatalogRow} {current : EntitlementRow} {updated : Entitlement} {row : ChangeLogRow}

/-- The tiers of a change that commits. -/
theorem committing_tiers (hsound : StageSound tenantId tables s call (.committing tier current updated row)) :
    tables.tierOf row.beforeState = some current.rateTier ∧
      tables.tierOf row.afterState = some tier.rateTier := by
  obtain ⟨htier, hrow, -, htarget, hmade, -⟩ := hsound
  rw [hmade]
  change tables.tierOf (beforeState _) = _ ∧ tables.tierOf (afterState _ _) = _
  rw [tierOf_beforeState, tierOf_afterState, htarget]
  exact ⟨hrow.rateTier, htier.rateTier⟩

theorem LogSound.commit (h : LogSound tables begun s.entitlement s.changes s.events)
    (hsound : StageSound tenantId tables s call (.committing tier current updated row)) :
    LogSound tables begun (some updated) (s.changes ++ [row]) s.events := by
  have htiers := committing_tiers hsound
  obtain ⟨htier, hrow, hversion, htarget, hmade, hfresh⟩ := hsound
  refine ⟨?_, fun old hold => ?_, ?_, ?_, fun event hevent => ?_, h.eventKeys⟩
  · have hbefore := h.version
    rw [hrow.entitlement] at hbefore
    cases hbegun : begun with
    | none =>
        rw [hbegun] at hbefore
        cases hbefore
    | some first =>
        rw [hbegun] at hbefore
        have hcount : current.entitlement.version = first.version + s.changes.length :=
          Option.some.inj hbefore
        rw [List.length_append, List.length_singleton]
        change some updated.version = some (first.version + (s.changes.length + 1))
        rw [hversion, hcount, Nat.add_assoc]
  · rcases List.mem_append.mp hold with hin | hnew
    · exact h.rows old hin
    · rw [List.mem_singleton.mp hnew]
      refine ⟨⟨upgradeResult row.id current.entitlement.tierId tier updated, ?_⟩, _, _, htiers⟩
      rw [hmade]
      exact existingUpgrade_changeLogRow _ _ _ _ _
  · rw [List.map_append]
    refine List.nodup_append.mpr ⟨h.ids, List.nodup_singleton _, fun id hid other hother => ?_⟩
    obtain ⟨old, hold, rfl⟩ := List.mem_map.mp hid
    rw [List.mem_singleton.mp hother]
    exact (hfresh old hold).1
  · rw [List.map_append]
    refine List.nodup_append.mpr ⟨h.keys, List.nodup_singleton _, fun key hkey other hother => ?_⟩
    obtain ⟨old, hold, rfl⟩ := List.mem_map.mp hkey
    rw [List.mem_singleton.mp hother]
    exact (hfresh old hold).2
  · obtain ⟨old, hold, hreports⟩ := h.reports event hevent
    exact ⟨old, List.mem_append_left _ hold, hreports⟩

theorem UpgradesSound.commit (h : UpgradesSound tenantId tables s begun)
    (hcall : s.calls[i]? = some call) (hstage : call.stage = .committing tier current updated row) :
    UpgradesSound tenantId tables (s.commit i call tier current updated row) begun := by
  have hsound := h.stages call (List.mem_of_getElem? hcall)
  rw [hstage] at hsound
  have hlock := h.locked i call hcall (by rw [hstage]; rfl)
  refine h.move hcall (some updated) (s.changes ++ [row]) s.events (h.log.commit hsound)
    ⟨fun _ => List.mem_append_left _, fun _ => id⟩ (.inl hlock) (fun hholds => by cases hholds)
    ⟨row, List.mem_append_right _ (List.mem_singleton.mpr rfl), ?_, fun known hknown => ?_⟩
  · rw [hsound.2.2.2.2.1]
    exact existingUpgrade_changeLogRow _ _ _ _ _
  · rw [hsound.1.first] at hknown
    cases hknown

end Commit

/-! ### Events -/

section Emit

variable {result : CommercialTierUpgradeResult} {row : ChangeLogRow}

/-- What an emit leaves. -/
theorem emitUpgrade_cases (event : UpgradeEvent) (events : List UpgradeEvent) :
    (emitUpgrade event events = .ok (events ++ [event]) ∧
        ∀ hit ∈ events, hit.idempotencyKey ≠ event.idempotencyKey) ∨
      (emitUpgrade event events = .ok events ∧ event ∈ events) ∨
      (emitUpgrade event events = .error (.auditIdempotencyConflict event.idempotencyKey) ∧
        ∃ hit ∈ events, hit.idempotencyKey = event.idempotencyKey ∧ hit ≠ event) := by
  unfold emitUpgrade
  cases hfound : events.find? fun hit => hit.idempotencyKey = event.idempotencyKey with
  | none =>
      refine .inl ⟨rfl, fun hit hhit hkey => ?_⟩
      exact List.find?_eq_none.mp hfound hit hhit (decide_eq_true hkey)
  | some hit =>
      have hmem := List.mem_of_find?_eq_some hfound
      have hkey : hit.idempotencyKey = event.idempotencyKey := by
        simpa using List.find?_some hfound
      dsimp only
      by_cases hsame : hit = event
      · rw [if_pos hsame]
        exact .inr (.inl ⟨rfl, hsame ▸ hmem⟩)
      · rw [if_neg hsame]
        exact .inr (.inr ⟨rfl, hit, hmem, hkey, hsame⟩)

theorem reports_upgradeEvent (input : UpgradeInput) (result : CommercialTierUpgradeResult) :
    (upgradeEvent input result).Reports result := ⟨rfl, rfl, rfl, rfl⟩

/-- Two events of one result are the same when their calls have one actor and body. -/
theorem eq_upgradeEvent_iff {event : UpgradeEvent} {input : UpgradeInput}
    (h : event.Reports result) : event = upgradeEvent input result ↔ event.MadeBy input := by
  constructor
  · rintro rfl
    exact ⟨rfl, rfl, rfl⟩
  · intro hmade
    cases event
    obtain ⟨hactor, hrevision, hversion⟩ := hmade
    obtain ⟨hkey, htier, hentitlement, hplaceholder⟩ := h
    dsimp only at hactor hrevision hversion hkey htier hentitlement hplaceholder
    rw [upgradeEvent, hactor, hrevision, hversion, hkey, htier, hentitlement, hplaceholder]

theorem auditKey_inj {id other : String} (h : auditKey id = auditKey other) : id = other := by
  unfold auditKey at h
  exact String.append_right_inj _ |>.mp h

/-- An event of the key of a change reports that change. -/
theorem LogSound.reports_of_key {entitlement : Option Entitlement} {changes : List ChangeLogRow}
    {events : List UpgradeEvent} (h : LogSound tables begun entitlement changes events)
    (hrow : row ∈ changes) (hresult : existingUpgrade row = .ok result) {event : UpgradeEvent}
    (hevent : event ∈ events) (hkey : event.idempotencyKey = auditKey row.id) :
    event.Reports result := by
  obtain ⟨other, hother, result', hresult', hreports⟩ := h.reports event hevent
  have hid : other.id = row.id := by
    rw [← existingUpgrade_changeId hresult']
    exact auditKey_inj (hreports.idempotencyKey.symm.trans hkey)
  obtain rfl := List.inj_on_of_nodup_map h.ids hother hrow hid
  cases hresult.symm.trans hresult'
  exact hreports

theorem LogSound.emit (h : LogSound tables begun s.entitlement s.changes s.events)
    (hfound : Found s call result row)
    (hfresh : ∀ hit ∈ s.events, hit.idempotencyKey ≠ auditKey result.changeId) :
    LogSound tables begun s.entitlement s.changes (s.events ++ [upgradeEvent call.input result]) := by
  refine ⟨h.version, h.rows, h.ids, h.keys, fun event hevent => ?_, ?_⟩
  · rcases List.mem_append.mp hevent with hold | hnew
    · exact h.reports event hold
    · rw [List.mem_singleton.mp hnew]
      exact ⟨row, hfound.1, result, hfound.2.1, reports_upgradeEvent _ _⟩
  · rw [List.map_append]
    refine List.nodup_append.mpr ⟨h.eventKeys, List.nodup_singleton _, fun key hkey other hother => ?_⟩
    obtain ⟨hit, hhit, rfl⟩ := List.mem_map.mp hkey
    rw [List.mem_singleton.mp hother]
    exact hfresh hit hhit

theorem UpgradesSound.emit (h : UpgradesSound tenantId tables s begun)
    (hcall : s.calls[i]? = some call) (hstage : call.stage = .emitting result) :
    UpgradesSound tenantId tables (s.emit i call result) begun := by
  have hsound := h.stages call (List.mem_of_getElem? hcall)
  rw [hstage] at hsound
  obtain ⟨row, hfound⟩ := hsound
  have hid := existingUpgrade_changeId hfound.2.1
  unfold Upgrades.emit
  rcases emitUpgrade_cases (upgradeEvent call.input result) s.events with
    ⟨hnext, hfresh⟩ | ⟨hnext, hmem⟩ | ⟨hnext, -⟩ <;> rw [hnext] <;> dsimp only
  · exact h.move hcall s.entitlement s.changes _ (h.log.emit hfound hfresh)
      ⟨fun _ => id, fun _ => List.mem_append_left _⟩ (.inr ⟨rfl, rfl⟩)
      (fun hholds => by cases hholds) ⟨row, hfound, _, List.mem_append_right _
        (List.mem_singleton.mpr rfl), congrArg auditKey hid⟩
  · exact h.move hcall s.entitlement s.changes s.events h.log ⟨fun _ => id, fun _ => id⟩
      (.inr ⟨rfl, rfl⟩) (fun hholds => by cases hholds)
      ⟨row, hfound, _, hmem, congrArg auditKey hid⟩
  · exact h.settle hcall (fun hholds => by cases hholds) trivial

end Emit

end Steps

end BrainCore.Usage
