import BrainCore.Foundation.Json
import BrainCore.Foundation.Machine

/-!
# Self-serve commercial tiers

`upgrade` of `api/src/usage/commercial-tiers.ts` for the live entitlement of one
tenant, statement by statement, any number of calls at once.  The catalog and
the rate tiers are immutable tables; how a time is printed is a parameter.
-/

namespace BrainCore.Usage

open BrainCore.Foundation

/-! ## Tables -/

/-- A row of `api_rate_limit_tiers`, with its checks. -/
structure RateTier where
  id : String
  windowSeconds : Nat
  keyLimit : Nat
  tenantLimit : Nat
  window_pos : 0 < windowSeconds
  keyLimit_pos : 0 < keyLimit
  keyLimit_le : keyLimit ≤ tenantLimit
deriving Repr, DecidableEq

inductive BillingMode where
  | unpaid
  | stripeSubscription
  | stripeInvoice
deriving Repr, DecidableEq

/-- A row of `api_commercial_tier_catalog`. -/
structure CatalogRevision where
  id : String
  targetRateTierId : String
  billingMode : BillingMode
  placeholder : Bool
  isPublic : Bool
  selfServeEnabled : Bool
  effectiveAt : Nat
  retiredAt : Option Nat
deriving Repr, DecidableEq

structure TierTables where
  catalog : List CatalogRevision
  rateTiers : List RateTier

/-- A catalog revision joined with its rate tier. -/
structure CatalogRow where
  revision : CatalogRevision
  rateTier : RateTier
deriving Repr, DecidableEq

inductive EntitlementStatus where
  | active
  | suspended
deriving Repr, DecidableEq

def EntitlementStatus.text : EntitlementStatus → String
  | .active => "active"
  | .suspended => "suspended"

/-- The row of `tenant_api_entitlements` for the live environment. -/
structure Entitlement where
  tierId : String
  version : Nat
  status : EntitlementStatus
  effectiveAt : String
deriving Repr, DecidableEq

/-- The entitlement joined with its rate tier. -/
structure EntitlementRow where
  entitlement : Entitlement
  rateTier : RateTier
deriving Repr, DecidableEq

/-- A row of `api_entitlement_change_log`. -/
structure ChangeLogRow where
  id : String
  idempotencyKey : String
  beforeState : Json
  afterState : Json
  actor : String

/-! ## What a call reads and checks -/

structure UpgradeInput where
  actorMemberId : String
  idempotencyKey : String
  catalogRevisionId : String
  expectedEntitlementVersion : Nat
deriving Repr, DecidableEq

structure CommercialTierUpgradeResult where
  changeId : String
  catalogRevisionId : String
  previousRateTierId : String
  rateTierId : String
  entitlementVersion : Rat
  effectiveAt : String
  placeholder : Bool
deriving DecidableEq

inductive UpgradeError where
  | transitionDenied (reason : String)
  | internalServerError (message : String)
  /-- An error of the database, which rolls the transaction back. -/
  | database (message : String)
  | auditIdempotencyConflict (key : String)
deriving DecidableEq

def durableIdempotencyKey (tenantId idempotencyKey : String) : String :=
  "self-serve-tier:" ++ tenantId ++ ":" ++ idempotencyKey

/-- The key of the audit event of a change. -/
def auditKey (changeId : String) : String := "commercial-tier-upgrade:" ++ changeId

namespace TierTables

variable (tables : TierTables)

def rateTier? (id : String) : Option RateTier := tables.rateTiers.find? fun tier => tier.id = id

/-- `CATALOG_SELECT` with the conditions of `getCatalogRevision`. -/
def catalogRow? (now : Nat) (id : String) : Option CatalogRow :=
  (tables.catalog.find? fun revision => revision.id = id ∧ revision.effectiveAt ≤ now ∧
    revision.retiredAt.all fun retiredAt => now < retiredAt).bind fun revision =>
      (tables.rateTier? revision.targetRateTierId).map (CatalogRow.mk revision)

def getCatalogRevision (now : Nat) (id : String) : Except UpgradeError CatalogRow :=
  match tables.catalogRow? now id with
  | none => .error (.transitionDenied "catalog_revision_not_available")
  | some tier => .ok tier

/-- The rate tier that the `tier_id` of a recorded state names. -/
def tierOf (state : Json) : Option RateTier :=
  ((state.field? "tier_id").bind Json.str?).bind tables.rateTier?

end TierTables

def assertSelfServeTier (tier : CatalogRow) : Except UpgradeError Unit :=
  if !tier.revision.isPublic || !tier.revision.selfServeEnabled then
    .error (.transitionDenied "catalog_revision_not_self_serve")
  else if tier.revision.billingMode ≠ .unpaid then .error (.transitionDenied "payment_required")
  else .ok ()

def isStrictUpgrade (current target : RateTier) : Bool :=
  let noLowerLimit := target.keyLimit ≥ current.keyLimit ∧ target.tenantLimit ≥ current.tenantLimit
  let raisesLimit := target.keyLimit > current.keyLimit ∨ target.tenantLimit > current.tenantLimit
  noLowerLimit ∧ raisesLimit

/-- The checks once the row is locked. -/
def checkCurrent (input : UpgradeInput) (tier : CatalogRow) (current : EntitlementRow) :
    Except UpgradeError Unit :=
  if current.entitlement.status ≠ .active then
    .error (.transitionDenied "tenant_entitlement_not_active")
  else if current.entitlement.version ≠ input.expectedEntitlementVersion then
    .error (.transitionDenied "stale_entitlement_version")
  else if !isStrictUpgrade current.rateTier tier.rateTier then
    .error (.transitionDenied "catalog_transition_not_upgrade")
  else .ok ()

/-! ## What a call writes -/

def beforeState (current : Entitlement) : Json :=
  .obj [("tier_id", .str current.tierId), ("version", .num current.version),
    ("status", .str current.status.text), ("effective_at", .str current.effectiveAt)]

def afterState (tier : CatalogRow) (updated : Entitlement) : Json :=
  .obj [("tier_id", .str updated.tierId), ("version", .num updated.version),
    ("status", .str "active"), ("effective_at", .str updated.effectiveAt),
    ("catalog_revision_id", .str tier.revision.id),
    ("placeholder", .bool tier.revision.placeholder), ("payment_required", .bool false)]

def changeLogRow (tenantId changeId : String) (input : UpgradeInput) (tier : CatalogRow)
    (current updated : Entitlement) : ChangeLogRow where
  id := changeId
  idempotencyKey := durableIdempotencyKey tenantId input.idempotencyKey
  beforeState := beforeState current
  afterState := afterState tier updated
  actor := input.actorMemberId

def upgradeResult (changeId previousRateTierId : String) (tier : CatalogRow) (updated : Entitlement) :
    CommercialTierUpgradeResult where
  changeId := changeId
  catalogRevisionId := tier.revision.id
  previousRateTierId := previousRateTierId
  rateTierId := updated.tierId
  entitlementVersion := updated.version
  effectiveAt := updated.effectiveAt
  placeholder := tier.revision.placeholder

/-- The result of a change that is in the log. -/
def existingUpgrade (row : ChangeLogRow) : Except UpgradeError CommercialTierUpgradeResult :=
  match row.beforeState.field? "tier_id", row.afterState.field? "tier_id",
    row.afterState.field? "version", row.afterState.field? "effective_at",
    row.afterState.field? "catalog_revision_id" with
  | some (.str beforeTier), some (.str rateTier), some (.num version), some (.str effectiveAt),
    some (.str catalogRevisionId) => .ok {
      changeId := row.id
      catalogRevisionId
      previousRateTierId := beforeTier
      rateTierId := rateTier
      entitlementVersion := version
      effectiveAt
      placeholder := match row.afterState.field? "placeholder" with
        | some (.bool true) => true
        | _ => false }
  | _, _, _, _, _ => .error (.internalServerError "stored commercial tier change is malformed")

/-- The event of a call, under its key. -/
structure UpgradeEvent where
  idempotencyKey : String
  actor : String
  catalogRevisionId : String
  expectedEntitlementVersion : Nat
  rateTierId : String
  entitlementVersion : Rat
  placeholder : Bool
deriving DecidableEq

def upgradeEvent (input : UpgradeInput) (result : CommercialTierUpgradeResult) : UpgradeEvent where
  idempotencyKey := auditKey result.changeId
  actor := input.actorMemberId
  catalogRevisionId := input.catalogRevisionId
  expectedEntitlementVersion := input.expectedEntitlementVersion
  rateTierId := result.rateTierId
  entitlementVersion := result.entitlementVersion
  placeholder := result.placeholder

/-- An event of the same key stands for the new one only when it is the same event. -/
def emitUpgrade (event : UpgradeEvent) (events : List UpgradeEvent) :
    Except UpgradeError (List UpgradeEvent) :=
  match events.find? fun hit => hit.idempotencyKey = event.idempotencyKey with
  | none => .ok (events ++ [event])
  | some hit =>
      if hit = event then .ok events else .error (.auditIdempotencyConflict event.idempotencyKey)

/-! ## Calls -/

inductive UpgradeStage where
  /-- Looks for a change under its key. -/
  | looking
  | choosing
  /-- Selects the entitlement for update. -/
  | reading (tier : CatalogRow)
  /-- Has found the row with its rate tier, and waits for the lock of the row. -/
  | locking (tier : CatalogRow) (seen : RateTier)
  | updating (tier : CatalogRow) (current : EntitlementRow)
  | inserting (tier : CatalogRow) (current : EntitlementRow) (updated : Entitlement)
  | committing (tier : CatalogRow) (current : EntitlementRow) (updated : Entitlement)
      (row : ChangeLogRow)
  | emitting (result : CommercialTierUpgradeResult)
  | ended (outcome : Except UpgradeError CommercialTierUpgradeResult)
  | crashed

/-- The call holds the lock of the row. -/
def UpgradeStage.holdsRow : UpgradeStage → Bool
  | .updating _ _ | .inserting _ _ _ | .committing _ _ _ _ => true
  | .looking | .choosing | .reading _ | .locking _ _ | .emitting _ | .ended _ | .crashed => false

/-- A call, the time its transaction began, and the change that was in the log under its key when
the call began. -/
structure UpgradeCall where
  input : UpgradeInput
  now : Nat
  before : Option ChangeLogRow
  stage : UpgradeStage

/-- The committed rows of the tenant, the events, and the calls. -/
structure Upgrades where
  entitlement : Option Entitlement
  changes : List ChangeLogRow := []
  events : List UpgradeEvent := []
  calls : List UpgradeCall := []
  /-- The call that holds the lock of the entitlement. -/
  lock : Option Nat := none

inductive UpgradeLabel where
  | start (input : UpgradeInput) (now : Nat)
  /-- The next statement of a call, and the identifier it draws. -/
  | advance (i : Nat) (drawn : String)
  | crash (i : Nat)
deriving Repr, DecidableEq

/-- The largest value of an `INTEGER` column. -/
def maxInteger : Nat := 2147483647

namespace Upgrades

variable (tenantId : String) (tables : TierTables) (toIso : Nat → String) (s : Upgrades)

/-- The change under a key. -/
def change? (input : UpgradeInput) : Option ChangeLogRow :=
  s.changes.find? fun row => row.idempotencyKey = durableIdempotencyKey tenantId input.idempotencyKey

/-- The entitlement with its rate tier, in one snapshot. -/
def entitlementRow? : Option EntitlementRow :=
  s.entitlement.bind fun entitlement =>
    (tables.rateTier? entitlement.tierId).map (EntitlementRow.mk entitlement)

/-- The row once it is locked: a row that has moved on is joined with the tier seen before. -/
def lockedRow? (seen : RateTier) : Option EntitlementRow :=
  s.entitlement.bind fun entitlement =>
    if entitlement.tierId = seen.id then some ⟨entitlement, seen⟩ else none

/-- The next stage of a call; the lock ends with the transaction. -/
def settle (i : Nat) (call : UpgradeCall) (stage : UpgradeStage) : Upgrades :=
  { s with
    calls := s.calls.set i { call with stage }
    lock := if stage.holdsRow then some i else if s.lock = some i then none else s.lock }

def missingEntitlement : UpgradeError :=
  .internalServerError "live tenant entitlement does not exist"

def lookUp (call : UpgradeCall) : UpgradeStage :=
  match s.change? tenantId call.input with
  | none => .choosing
  | some row => match existingUpgrade row with
    | .error e => .ended (.error e)
    | .ok result => .emitting result

def choose (call : UpgradeCall) : UpgradeStage :=
  match tables.getCatalogRevision call.now call.input.catalogRevisionId with
  | .error e => .ended (.error e)
  | .ok tier => match assertSelfServeTier tier with
    | .error e => .ended (.error e)
    | .ok () => .reading tier

def read (tier : CatalogRow) : UpgradeStage :=
  match s.entitlementRow? tables with
  | none => .ended (.error missingEntitlement)
  | some row => .locking tier row.rateTier

def lockRow (call : UpgradeCall) (tier : CatalogRow) (seen : RateTier) : UpgradeStage :=
  match s.lockedRow? seen with
  | none => .ended (.error missingEntitlement)
  | some current => match checkCurrent call.input tier current with
    | .error e => .ended (.error e)
    | .ok () => .updating tier current

def update (call : UpgradeCall) (tier : CatalogRow) (current : EntitlementRow) : UpgradeStage :=
  match s.entitlement with
  | none => .ended (.error (.transitionDenied "stale_entitlement_version"))
  | some entitlement =>
      if entitlement.version ≠ call.input.expectedEntitlementVersion then
        .ended (.error (.transitionDenied "stale_entitlement_version"))
      else if maxInteger < entitlement.version + 1 then
        .ended (.error (.database "integer out of range"))
      else .inserting tier current { entitlement with
        tierId := tier.revision.targetRateTierId
        version := entitlement.version + 1
        effectiveAt := toIso call.now }

def insert (call : UpgradeCall) (drawn : String) (tier : CatalogRow) (current : EntitlementRow)
    (updated : Entitlement) : UpgradeStage :=
  let row := changeLogRow tenantId drawn call.input tier current.entitlement updated
  if s.changes.any fun old => old.id = row.id ∨ old.idempotencyKey = row.idempotencyKey then
    .ended (.error (.database "duplicate key value violates unique constraint"))
  else .committing tier current updated row

def commit (i : Nat) (call : UpgradeCall) (tier : CatalogRow) (current : EntitlementRow)
    (updated : Entitlement) (row : ChangeLogRow) : Upgrades :=
  { s.settle i call (.emitting (upgradeResult row.id current.entitlement.tierId tier updated)) with
    entitlement := some updated
    changes := s.changes ++ [row] }

def emit (i : Nat) (call : UpgradeCall) (result : CommercialTierUpgradeResult) : Upgrades :=
  match emitUpgrade (upgradeEvent call.input result) s.events with
  | .error e => s.settle i call (.ended (.error e))
  | .ok events => { s.settle i call (.ended (.ok result)) with events }

/-- The next statement of a call; the lock of the row is waited for. -/
def advance (i : Nat) (call : UpgradeCall) (drawn : String) : UpgradeStage → Option Upgrades
  | .looking => some (s.settle i call (s.lookUp tenantId call))
  | .choosing => some (s.settle i call (choose tables call))
  | .reading tier => some (s.settle i call (s.read tables tier))
  | .locking tier seen =>
      if s.lock = none then some (s.settle i call (s.lockRow call tier seen)) else none
  | .updating tier current => some (s.settle i call (s.update toIso call tier current))
  | .inserting tier current updated =>
      some (s.settle i call (s.insert tenantId call drawn tier current updated))
  | .committing tier current updated row => some (s.commit i call tier current updated row)
  | .emitting result => some (s.emit i call result)
  | .ended _ | .crashed => none

def start (input : UpgradeInput) (now : Nat) : Upgrades :=
  { s with calls := s.calls ++ [⟨input, now, s.change? tenantId input, .looking⟩] }

/-- A crash leaves no trace of a transaction that has not committed. -/
def crash (i : Nat) (call : UpgradeCall) : UpgradeStage → Option Upgrades
  | .ended _ | .crashed => none
  | .looking | .choosing | .reading _ | .locking _ _ | .updating _ _ | .inserting _ _ _
  | .committing _ _ _ _ | .emitting _ => some (s.settle i call .crashed)

def step : UpgradeLabel → Option Upgrades
  | .start input now => some (s.start tenantId input now)
  | .advance i drawn =>
      s.calls[i]?.bind fun call => s.advance tenantId tables toIso i call drawn call.stage
  | .crash i => s.calls[i]?.bind fun call => s.crash i call call.stage

end Upgrades

/-- The upgrade calls of one tenant. -/
def upgradeMachine (tenantId : String) (tables : TierTables) (toIso : Nat → String) :
    Machine Upgrades UpgradeLabel :=
  ⟨fun s label => s.step tenantId tables toIso label⟩

end BrainCore.Usage
