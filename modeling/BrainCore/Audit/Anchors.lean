import BrainCore.Audit.Merkle
import BrainCore.Foundation.Machine
import Mathlib.Data.List.Sort
import Mathlib.Logic.Function.Basic

/-!
# Anchors of the audit log

`services/audit/src`: `anchorWindow.ts`, `publisher.ts`, `repository.ts` and the
proof route of `routes.ts`.  Emits, publishers and broadcasts take their steps
in any order; a clock is read at one step and what was read may be used later.
Times are in milliseconds.
-/

namespace BrainCore.Audit

open BrainCore.Foundation

/-- The columns of `audit_events` that anchors are made of. -/
structure LoggedEvent where
  id : String
  tenantId : String
  createdAt : Int
  eventHash : Buffer
deriving DecidableEq

inductive AnchorOnchainStatus where
  | pending
  | confirmed
  | reverted
deriving DecidableEq

/-- A row of `audit_anchors`, with the events whose hashes are the leaves of its root. -/
structure AuditAnchorRow where
  id : String
  tenantId : String
  merkleRoot : Buffer
  eventCount : Nat
  periodStart : Int
  periodEnd : Int
  onchainTxHash : Option Buffer := none
  onchainBlockNumber : Option Nat := none
  onchainStatus : AnchorOnchainStatus := .pending
  onchainContractAddress : Option String := none
  leaves : List LoggedEvent

/-- `onchain_status <> 'reverted'`. -/
def AuditAnchorRow.live (anchor : AuditAnchorRow) : Bool := anchor.onchainStatus ≠ .reverted

/-! ## Windows -/

def MAX_ANCHOR_WINDOW_MS : Int := 7 * 24 * 60 * 60 * 1000

structure AnchorWindow where
  periodStart : Int
  periodEnd : Int

def nextAnchorWindow (coveredTo : Option Int) (oldestUnanchored now : Int)
    (maxWindowMs : Int := MAX_ANCHOR_WINDOW_MS) : AnchorWindow :=
  let afterCovered := match coveredTo with
    | none => oldestUnanchored
    | some coveredTo => coveredTo + 1
  let periodStart := max afterCovered oldestUnanchored
  if now - periodStart > maxWindowMs then ⟨periodStart, periodStart + maxWindowMs⟩
  else ⟨periodStart, now⟩

/-- `MAX(period_end)` over the anchors of a tenant that are not reverted. -/
def coveredTo (anchors : List AuditAnchorRow) (tenantId : String) : Option Int :=
  ((anchors.filter fun anchor => anchor.tenantId = tenantId ∧ anchor.live).map
    AuditAnchorRow.periodEnd).max?

/-- `MIN(created_at)` over the events after what is covered. -/
def oldestUnanchored (events : List LoggedEvent) (tenantId : String) (covered : Option Int) :
    Option Int :=
  ((events.filter fun event => event.tenantId = tenantId ∧ covered.all (· < event.createdAt)).map
    LoggedEvent.createdAt).min?

/-! ## Queries -/

/-- `ORDER BY created_at ASC, id ASC`. -/
def LoggedEvent.before (a b : LoggedEvent) : Prop :=
  a.createdAt < b.createdAt ∨ a.createdAt = b.createdAt ∧ a.id ≤ b.id

instance decidableBefore : DecidableRel LoggedEvent.before := fun _ _ => inferInstanceAs (Decidable (_ ∨ _))

def listEventsForAnchor (events : List LoggedEvent) (tenantId : String)
    (periodStart periodEnd : Int) : List LoggedEvent :=
  (events.filter fun event =>
    event.tenantId = tenantId ∧ periodStart ≤ event.createdAt ∧ event.createdAt ≤ periodEnd
      ).insertionSort LoggedEvent.before

def findAnchorByRoot (anchors : List AuditAnchorRow) (tenantId : String) (root : Buffer) :
    Option AuditAnchorRow :=
  anchors.find? fun anchor => anchor.tenantId = tenantId ∧ anchor.merkleRoot = root

/-- The anchor with the earliest end of those whose window contains the time. -/
def findAnchorForEvent (anchors : List AuditAnchorRow) (tenantId : String) (time : Int) :
    Option AuditAnchorRow :=
  ((anchors.filter fun anchor =>
    anchor.tenantId = tenantId ∧ anchor.periodStart ≤ time ∧ time ≤ anchor.periodEnd ∧ anchor.live
      ).insertionSort fun a b => a.periodEnd ≤ b.periodEnd).head?

/-! ## Publishing -/

section Publishing

variable (keccak256 : Buffer → Buffer)

inductive CreatedAnchor where
  | noEvents
  | existing (row : AuditAnchorRow)
  | inserted (row : AuditAnchorRow)
  /-- The identifier is in use. -/
  | uniqueViolation

/-- `createPendingAnchor`, once its window is listed. -/
def createPendingAnchor (anchors : List AuditAnchorRow) (id tenantId : String)
    (window : AnchorWindow) (events : List LoggedEvent) : CreatedAnchor :=
  if events.isEmpty then .noEvents
  else
    let root := (buildTree keccak256 (events.map LoggedEvent.eventHash)).root
    match findAnchorByRoot anchors tenantId root with
    | some existing => .existing existing
    | none =>
        if anchors.any fun anchor => anchor.id = id then .uniqueViolation
        else .inserted {
          id, tenantId
          merkleRoot := root
          eventCount := events.length
          periodStart := window.periodStart
          periodEnd := window.periodEnd
          leaves := events }

inductive BroadcastStatus where
  | confirmed
  | alreadyAnchored
  | reverted
  | unresolved
deriving DecidableEq

structure BroadcastResult where
  txHash : Buffer
  blockNumber : Nat
  status : BroadcastStatus
  contractAddress : Option String

def updateAnchor (anchors : List AuditAnchorRow) (id : String)
    (update : AuditAnchorRow → AuditAnchorRow) : List AuditAnchorRow :=
  anchors.map fun anchor => if anchor.id = id then update anchor else anchor

def setAnchorTxHash (result : BroadcastResult) (anchor : AuditAnchorRow) : AuditAnchorRow :=
  { anchor with
    onchainTxHash := some result.txHash
    onchainBlockNumber := some result.blockNumber
    onchainStatus := .confirmed
    onchainContractAddress := result.contractAddress.or anchor.onchainContractAddress }

def setAnchorReverted (anchor : AuditAnchorRow) : AuditAnchorRow :=
  { anchor with onchainStatus := .reverted }

/-- The row needs no broadcast. -/
def AuditAnchorRow.terminal (row : AuditAnchorRow) : Bool :=
  row.onchainTxHash.isSome ∨ row.onchainStatus = .reverted

/-- `publishPendingAnchor` of a row that was read before, with the outcome of its broadcast. -/
def publishPendingAnchor (anchors : List AuditAnchorRow) (row : AuditAnchorRow)
    (result : BroadcastResult) : List AuditAnchorRow :=
  if row.terminal then anchors
  else match result.status with
    | .reverted => updateAnchor anchors row.id setAnchorReverted
    | .unresolved => anchors
    | .confirmed | .alreadyAnchored => updateAnchor anchors row.id (setAnchorTxHash result)

/-! ## The proof of an event -/

structure InclusionProof where
  merkleRoot : Option Buffer := none
  merkleProof : List Buffer := []
  anchorTxHash : Option Buffer := none
  anchorBlock : Option Nat := none

/-- The proof against an anchor, from the rows that are in its window now. -/
def proofAgainst (events : List LoggedEvent) (event : LoggedEvent) (anchor : AuditAnchorRow) :
    InclusionProof :=
  let window := listEventsForAnchor events anchor.tenantId anchor.periodStart anchor.periodEnd
  match window.findIdx? fun e => e.id = event.id with
  | none => {}
  | some index =>
      let tree := buildTree keccak256 (window.map LoggedEvent.eventHash)
      { merkleRoot := some tree.root
        merkleProof := makeProof tree index
        anchorTxHash := anchor.onchainTxHash
        anchorBlock := anchor.onchainBlockNumber }

/-- `GET /audit/event/:id`; `none` when there is no such event. -/
def inclusionProof (events : List LoggedEvent) (anchors : List AuditAnchorRow)
    (tenantId id : String) : Option (LoggedEvent × InclusionProof) :=
  (events.find? fun event => event.tenantId = tenantId ∧ event.id = id).map fun event =>
    match findAnchorForEvent anchors tenantId event.createdAt with
    | none => (event, {})
    | some anchor => (event, proofAgainst keccak256 events event anchor)

end Publishing

/-! ## Emits, publishers and broadcasts -/

/-- Where a publisher is in its cycle for a tenant. -/
inductive Publisher where
  | idle
  | windowed (tenantId : String) (window : AnchorWindow)
  | listed (tenantId : String) (window : AnchorWindow) (events : List LoggedEvent)
  | broadcasting (row : AuditAnchorRow)

structure AnchorWorld where
  events : List LoggedEvent := []
  anchors : List AuditAnchorRow := []
  /-- The event that is stamped and not committed; the lock of the tenant allows one. -/
  emits : String → Option LoggedEvent := fun _ => none
  publishers : Nat → Publisher := fun _ => .idle

inductive AnchorLabel where
  | stamp (event : LoggedEvent)
  | commitEmit (tenantId : String)
  | abortEmit (tenantId : String)
  | readCoverage (i : Nat) (tenantId : String) (now : Int)
  | listEvents (i : Nat)
  | createAnchor (i : Nat) (id : String)
  | readAnchor (i : Nat) (id : String)
  | broadcast (i : Nat) (result : BroadcastResult)
  | crash (i : Nat)

namespace AnchorWorld

variable (s : AnchorWorld)

def setEmit (tenantId : String) (event : Option LoggedEvent) : AnchorWorld :=
  { s with emits := Function.update s.emits tenantId event }

def setPublisher (i : Nat) (publisher : Publisher) : AnchorWorld :=
  { s with publishers := Function.update s.publishers i publisher }

/-- The identifier is in use, or the hash by the tenant. -/
def clashes (event : LoggedEvent) : Bool :=
  s.events.any fun other => other.id = event.id ∨
    other.tenantId = event.tenantId ∧ other.eventHash = event.eventHash

/-- An event enters the log; one that clashes fails the emit. -/
def log (event : LoggedEvent) : AnchorWorld :=
  if s.clashes event then s else { s with events := s.events ++ [event] }

def step (keccak256 : Buffer → Buffer) : AnchorLabel → Option AnchorWorld
  | .stamp event =>
      match s.emits event.tenantId with
      | none => some (s.setEmit event.tenantId (some event))
      | some _ => none
  | .commitEmit tenantId =>
      match s.emits tenantId with
      | none => none
      | some event => some ((s.log event).setEmit tenantId none)
  | .abortEmit tenantId => some (s.setEmit tenantId none)
  | .readCoverage i tenantId now =>
      match s.publishers i with
      | .idle =>
          let covered := coveredTo s.anchors tenantId
          let oldest := (oldestUnanchored s.events tenantId covered).getD now
          some (s.setPublisher i (.windowed tenantId (nextAnchorWindow covered oldest now)))
      | _ => none
  | .listEvents i =>
      match s.publishers i with
      | .windowed tenantId window =>
          some (s.setPublisher i (.listed tenantId window
            (listEventsForAnchor s.events tenantId window.periodStart window.periodEnd)))
      | _ => none
  | .createAnchor i id =>
      match s.publishers i with
      | .listed tenantId window events =>
          match createPendingAnchor keccak256 s.anchors id tenantId window events with
          | .noEvents => some (s.setPublisher i .idle)
          | .uniqueViolation => some (s.setPublisher i .idle)
          | .existing row => some (s.setPublisher i (.broadcasting row))
          | .inserted row =>
              some ({ s with anchors := s.anchors ++ [row] }.setPublisher i (.broadcasting row))
      | _ => none
  | .readAnchor i id =>
      match s.publishers i, s.anchors.find? fun anchor => anchor.id = id with
      | .idle, some row => some (s.setPublisher i (.broadcasting row))
      | _, _ => none
  | .broadcast i result =>
      match s.publishers i with
      | .broadcasting row =>
          some ({ s with anchors := publishPendingAnchor s.anchors row result }.setPublisher i .idle)
      | _ => none
  | .crash i => some (s.setPublisher i .idle)

end AnchorWorld

def anchorMachine (keccak256 : Buffer → Buffer) : Machine AnchorWorld AnchorLabel :=
  ⟨fun s label => s.step keccak256 label⟩

end BrainCore.Audit
