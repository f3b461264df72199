import BrainCore.Foundation.Json
import BrainCore.Foundation.Machine

/-!
# The domain event bus

`shared/src/events/bus.ts`: a transaction that publishes an event inserts its
row and notifies a pointer to it, both with its commit.  A subscription listens,
catches up on the rows committed before, handles them one after the other, and
only then adds its listener.  A notification that arrives before that is passed
to nobody.
-/

namespace BrainCore.Shared.Events

open BrainCore.Foundation

inductive DomainEventType where
  | rawArtifactIngested
  | rawArtifactTombstoned
  | ledgerTransactionCreated
  | ledgerInvoiceCreated
  | ledgerObligationDueSoon
  | ledgerCounterpartyRiskChanged
  | ledgerReconciliationMatched
  | policyDecisionCreated
  | agentRouteSelected
  | agentRunStarted
  | agentRunCompleted
  | paymentIntentCreated
  | paymentIntentGateFailed
  | paymentIntentExecuted
  | paymentIntentShadowCompleted
  | executionRailDispatched
  | executionOutboxStuck
  | auditRootAnchored
  | auditAnchorOrphanDetected
deriving DecidableEq

namespace DomainEventType

/-- `DOMAIN_EVENT_TYPES`. -/
def all : List DomainEventType :=
  [.rawArtifactIngested, .rawArtifactTombstoned, .ledgerTransactionCreated, .ledgerInvoiceCreated,
    .ledgerObligationDueSoon, .ledgerCounterpartyRiskChanged, .ledgerReconciliationMatched,
    .policyDecisionCreated, .agentRouteSelected, .agentRunStarted, .agentRunCompleted,
    .paymentIntentCreated, .paymentIntentGateFailed, .paymentIntentExecuted,
    .paymentIntentShadowCompleted, .executionRailDispatched, .executionOutboxStuck,
    .auditRootAnchored, .auditAnchorOrphanDetected]

def text : DomainEventType → String
  | .rawArtifactIngested => "raw.artifact.ingested"
  | .rawArtifactTombstoned => "raw.artifact.tombstoned"
  | .ledgerTransactionCreated => "ledger.transaction.created"
  | .ledgerInvoiceCreated => "ledger.invoice.created"
  | .ledgerObligationDueSoon => "ledger.obligation.due_soon"
  | .ledgerCounterpartyRiskChanged => "ledger.counterparty.risk_changed"
  | .ledgerReconciliationMatched => "ledger.reconciliation.matched"
  | .policyDecisionCreated => "policy.decision.created"
  | .agentRouteSelected => "agent.route.selected"
  | .agentRunStarted => "agent.run.started"
  | .agentRunCompleted => "agent.run.completed"
  | .paymentIntentCreated => "payment_intent.created"
  | .paymentIntentGateFailed => "payment_intent.gate_failed"
  | .paymentIntentExecuted => "payment_intent.executed"
  | .paymentIntentShadowCompleted => "payment_intent.shadow_completed"
  | .executionRailDispatched => "execution.rail_dispatched"
  | .executionOutboxStuck => "execution.outbox.stuck"
  | .auditRootAnchored => "audit.root_anchored"
  | .auditAnchorOrphanDetected => "audit.anchor.orphan_detected"

/-- `isDomainEventType`, with the type the text names. -/
def ofText (s : String) : Option DomainEventType := all.find? fun type => type.text = s

theorem ofText_text (type : DomainEventType) : ofText type.text = some type := by
  cases type <;> rfl

end DomainEventType

structure DomainEventRow where
  id : String
  tenantId : String
  eventType : DomainEventType
  payload : Json

/-- The pointer a notification carries. -/
structure DomainEventNotification where
  id : String
  tenantId : String
  eventType : DomainEventType
deriving DecidableEq

/-- What `publishDomainEvent` notifies for a row. -/
def DomainEventRow.note (row : DomainEventRow) : DomainEventNotification :=
  ⟨row.id, row.tenantId, row.eventType⟩

/-- The payload of the notification, as JSON. -/
def DomainEventNotification.json (note : DomainEventNotification) : Json :=
  .obj [("id", .str note.id), ("tenant_id", .str note.tenantId),
    ("event_type", .str note.eventType.text)]

/-- A notification is an object of three texts, the last of which names an event type. -/
def parseDomainEventNotification (value : Json) : Option DomainEventNotification := do
  let id ← (value.field? "id").bind Json.str?
  let tenantId ← (value.field? "tenant_id").bind Json.str?
  let eventType ← (value.field? "event_type").bind Json.str?
  let type ← DomainEventType.ofText eventType
  pure ⟨id, tenantId, type⟩

/-- What is published is read back. -/
theorem parseDomainEventNotification_json (note : DomainEventNotification) :
    parseDomainEventNotification note.json = some note := by
  have htype := note.eventType.ofText_text
  simp [parseDomainEventNotification, DomainEventNotification.json, Json.field?, Json.str?, htype]

/-- No type subscribed to is every type. -/
def shouldDeliver (eventType : DomainEventType) (subscribed : List DomainEventType) : Bool :=
  subscribed.isEmpty || eventType ∈ subscribed

/-! ## One subscription -/

inductive SubscribePhase where
  | start
  | listened
  /-- The catch-up query has read these rows. -/
  | querying (rows : List DomainEventRow)
  /-- The handler is at work on a caught-up row; these come after it. -/
  | handling (rest : List DomainEventRow)
  | registered
  | stopped

/-- The caught-up rows still to be gone through. -/
def SubscribePhase.caughtUp : SubscribePhase → List DomainEventRow
  | .querying rows => rows
  | .handling rest => rest
  | _ => []

/-- The connection listens on the channel. -/
def SubscribePhase.listening : SubscribePhase → Bool
  | .start => false
  | _ => true

structure BusWorld where
  /-- The committed rows, the oldest first. -/
  events : List DomainEventRow := []
  phase : SubscribePhase := .start
  /-- Sent to the listening connection, and not arrived. -/
  inFlight : List DomainEventNotification := []
  /-- Accepted by the listener; their rows are being loaded. -/
  loading : List String := []
  /-- What the handler was called with. -/
  handed : List DomainEventRow := []
  /-- How many rows were committed when `stop` was called. -/
  stoppedAt : Option Nat := none

namespace BusWorld

/-- The rows committed before `stop`. -/
def beforeStop (s : BusWorld) : List DomainEventRow :=
  match s.stoppedAt with
  | none => s.events
  | some count => s.events.take count

def lookup (s : BusWorld) (id : String) : Option DomainEventRow :=
  s.events.find? fun row => row.id = id

def hasId (s : BusWorld) (id : String) : Bool := s.events.any fun row => row.id = id

/-- The rest of the catch-up loop, up to the next call of the handler or to the listener. -/
def catchUpFrom (subscribed : List DomainEventType) (s : BusWorld) : List DomainEventRow → BusWorld
  | [] => { s with phase := .registered }
  | row :: rest =>
      if shouldDeliver row.eventType subscribed then
        { s with phase := .handling rest, handed := s.handed ++ [row] }
      else catchUpFrom subscribed s rest

/-- A transaction commits the events it published, each under an id of its own. -/
def commit (s : BusWorld) (rows : List DomainEventRow) : Option BusWorld :=
  if (rows.map (·.id)).Nodup ∧ ∀ row ∈ rows, s.hasId row.id = false then
    some { s with
      events := s.events ++ rows
      inFlight := if s.phase.listening then s.inFlight ++ rows.map (·.note) else s.inFlight }
  else none

def listen (s : BusWorld) : Option BusWorld :=
  match s.phase with
  | .start => some { s with phase := .listened }
  | _ => none

/-- The catch-up query reads the rows of these ids, each row not handled yet among them. -/
def query (s : BusWorld) (ids : List String) : Option BusWorld :=
  match s.phase with
  | .listened =>
      if s.events.all fun row => row.id ∈ ids || s.handed.any (fun handled => handled.id = row.id) then
        some { s with phase := .querying (ids.filterMap s.lookup) }
      else none
  | _ => none

/-- The awaited query or handler comes back. -/
def resume (subscribed : List DomainEventType) (s : BusWorld) : Option BusWorld :=
  match s.phase with
  | .querying rows => some (s.catchUpFrom subscribed rows)
  | .handling rest => some (s.catchUpFrom subscribed rest)
  | _ => none

/-- `onNotification`, if it is registered. -/
def onNotification (subscribed : List DomainEventType) (s : BusWorld) (payload : Json) : BusWorld :=
  match s.phase with
  | .registered =>
      match parseDomainEventNotification payload with
      | none => s
      | some note =>
          if shouldDeliver note.eventType subscribed then { s with loading := s.loading ++ [note.id] }
          else s
  | _ => s

def arrive (subscribed : List DomainEventType) (s : BusWorld) : Option BusWorld :=
  match s.inFlight with
  | [] => none
  | note :: rest => some ({ s with inFlight := rest }.onNotification subscribed note.json)

/-- `loadEvent` answers for one of the accepted notifications, and a row found is handled. -/
def load (s : BusWorld) (i : Nat) : Option BusWorld :=
  s.loading[i]?.map fun id =>
    { s with loading := s.loading.eraseIdx i, handed := s.handed ++ (s.lookup id).toList }

def stop (s : BusWorld) : Option BusWorld :=
  match s.phase with
  | .registered => some { s with phase := .stopped, stoppedAt := some s.events.length }
  | _ => none

end BusWorld

inductive BusLabel where
  | commit (rows : List DomainEventRow)
  | listen
  | query (ids : List String)
  | resume
  | arrive
  | load (i : Nat)
  | stop

def busStep (subscribed : List DomainEventType) (s : BusWorld) : BusLabel → Option BusWorld
  | .commit rows => s.commit rows
  | .listen => s.listen
  | .query ids => s.query ids
  | .resume => s.resume subscribed
  | .arrive => s.arrive subscribed
  | .load i => s.load i
  | .stop => s.stop

/-- One run of `subscribeDomainEvents` among the transactions that publish. -/
def busMachine (subscribed : List DomainEventType) : Machine BusWorld BusLabel where
  step := busStep subscribed

end BrainCore.Shared.Events
