import BrainCore.Foundation.Machine
import BrainCore.Surfaces.PolicyEngine

/-!
# The approval pipeline of the surfaces

`packages/surfaces/src/core/approval.ts`, `ApprovalService.handle`, over the decision
store, the audit log and the canonical actions of `services/surface-gateway`: the
clicks on one proposal run side by side, each await is a step of its own, and any of
them can throw.
-/

namespace BrainCore.Surfaces

open Foundation

inductive SurfaceName where
  | slack | teams | email
deriving DecidableEq

def TerminalDecision.text : TerminalDecision → String
  | .approved => "approved"
  | .rejected => "rejected"

/-- An incoming decision. -/
structure IncomingDecision where
  surface : SurfaceName
  externalActorId : String
  decision : TerminalDecision
  context : List (String × String) := []
deriving DecidableEq

/-- A row of `surface_decisions`. -/
structure DecisionRecord where
  decision : TerminalDecision
  actorId : String
  decidedAt : String
  approverRole : Option String
  context : List (String × String)
  applied : Bool := false
deriving DecidableEq

/-- An event `surface.approval.decided` of the audit log. -/
structure DecidedEvent where
  idempotencyKey : String
  surface : SurfaceName
  contentHash : String
  actorId : String
  decision : TerminalDecision
  decidedAt : String
  context : List (String × String)
deriving DecidableEq

inductive ApprovalOutcome where
  | applied (decision : TerminalDecision)
  | awaitingSecondApproval
  | alreadyDecided (decision : TerminalDecision) (decidedAt : String)
  | denied (reason : String)
  | expired
  | unknownActor
deriving DecidableEq

/-- The proposal as a click loads it. -/
structure LoadedProposal where
  contentHash : String
  expired : Bool
  /-- `executionTarget` is there. -/
  linked : Bool
deriving DecidableEq

/-- What the reads of a click answer. -/
structure ClickReads where
  proposal : Option LoadedProposal
  actorId : Option String
  verdict : EngineAnswer
  decidedAt : String
deriving DecidableEq

/-- A click that may decide. -/
structure AdmittedClick where
  incoming : IncomingDecision
  contentHash : String
  actorId : String
  approverRole : Option String
  decidedAt : String
deriving DecidableEq

/-- The checks before anything is written: expiry, identity, policy, and the execution target. -/
def admitClick (incoming : IncomingDecision) (reads : ClickReads) :
    Except ApprovalOutcome AdmittedClick :=
  match reads.proposal with
  | none => .error .unknownActor
  | some proposal =>
      if proposal.expired then .error .expired
      else
        match reads.actorId with
        | none => .error .unknownActor
        | some actorId =>
            if !reads.verdict.allowed then
              .error (.denied (reads.verdict.reason.getD "Not authorized"))
            else if incoming.decision = .approved ∧ !proposal.linked then
              .error (.denied "This proposal is not linked to a canonical executable action")
            else .ok ⟨incoming, proposal.contentHash, actorId, reads.verdict.approverRole,
              reads.decidedAt⟩

/-- The terminal decision the click claims. -/
def AdmittedClick.record (click : AdmittedClick) : DecisionRecord where
  decision := click.incoming.decision
  actorId := click.actorId
  decidedAt := click.decidedAt
  approverRole := click.approverRole
  context := click.incoming.context

/-! ## A call -/

inductive PipelineStage where
  /-- A rejection before its terminal claim. -/
  | rejecting
  /-- A rejection before its audit record, of its own claim or of one left unapplied. -/
  | anchoring (record : DecisionRecord) (outcome : ApprovalOutcome)
  /-- Before `markTerminalApplied`. -/
  | marking (record : DecisionRecord) (outcome : ApprovalOutcome)
  /-- An approval before its audit record. -/
  | approving
  /-- Before `recordApproval`. -/
  | signing
  /-- The quorum is met, before the terminal claim. -/
  | claiming
  /-- Before `execution.enqueue`. -/
  | enqueueing (record : DecisionRecord) (outcome : ApprovalOutcome)
  | done (outcome : ApprovalOutcome)
  /-- The audit log holds another event under the key, and its error ends the call. -/
  | refused
  /-- The process has died, or a port has thrown. -/
  | thrown
deriving DecidableEq

structure PipelineCall where
  click : AdmittedClick
  /-- At the click the decision was claimed, not applied, and no call was applying it. -/
  resumes : Bool
  stage : PipelineStage
deriving DecidableEq

/-- The claim the call is applying. -/
def PipelineStage.record : PipelineStage → Option DecisionRecord
  | .anchoring record _ | .marking record _ | .enqueueing record _ => some record
  | .rejecting | .approving | .signing | .claiming | .done _ | .refused | .thrown => none

/-- The call has come to its end, and neither died nor met a port that threw. -/
def PipelineStage.finished : PipelineStage → Bool
  | .done _ | .refused => true
  | .rejecting | .anchoring _ _ | .marking _ _ | .approving | .signing | .claiming
  | .enqueueing _ _ | .thrown => false

/-- A signature recorded for the quorum. -/
structure Signature where
  actorId : String
  afterRejection : Bool

/-- A call of `execution.enqueue`, with what held then. -/
structure Handoff where
  actorId : String
  quorumMet : Bool
  approvalClaimed : Bool

structure PipelineWorld where
  tenantId : String
  proposalId : String
  row : Option DecisionRecord := none
  audit : List DecidedEvent := []
  calls : List PipelineCall := []
  claims : List DecisionRecord := []
  signatures : List Signature := []
  /-- A signature has been answered with the quorum met. -/
  quorumMet : Bool := false
  handoffs : List Handoff := []
  /-- An `execution.enqueue` has returned. -/
  handedOff : Bool := false

/-! ## The ports -/

def surfaceDecisionAuditKey (tenantId proposalId : String) (decision : TerminalDecision)
    (actorId contentHash : String) : String :=
  String.intercalate ":"
    ["surface-decision", tenantId, proposalId, decision.text, actorId, contentHash]

namespace PipelineWorld

/-- The event a record of the claim emits. -/
def decidedEvent (s : PipelineWorld) (click : AdmittedClick) (record : DecisionRecord) :
    DecidedEvent where
  idempotencyKey :=
    surfaceDecisionAuditKey s.tenantId s.proposalId record.decision record.actorId click.contentHash
  surface := click.incoming.surface
  contentHash := click.contentHash
  actorId := record.actorId
  decision := record.decision
  decidedAt := record.decidedAt
  context := record.context

/-- The emitter under an idempotency key: the same event once, another event refused. -/
def append (event : DecidedEvent) (audit : List DecidedEvent) : Option (List DecidedEvent) :=
  match audit.find? fun e => e.idempotencyKey = event.idempotencyKey with
  | none => some (audit ++ [event])
  | some hit => if hit = event then some audit else none

def settle (s : PipelineWorld) (i : Nat) (call : PipelineCall) (stage : PipelineStage) :
    PipelineWorld :=
  { s with calls := s.calls.set i { call with stage := stage } }

/-- `claimTerminal`, and the stage after it. -/
def claim (s : PipelineWorld) (i : Nat) (call : PipelineCall) (own : PipelineStage)
    (taken : DecisionRecord → PipelineStage) : PipelineWorld :=
  match s.row with
  | none =>
      { s.settle i call own with
        row := some call.click.record
        claims := s.claims ++ [call.click.record] }
  | some row => s.settle i call (taken row)

def claimRejection (s : PipelineWorld) (i : Nat) (call : PipelineCall) : PipelineWorld :=
  s.claim i call (.anchoring call.click.record (.applied .rejected)) fun row =>
    if row.applied then .done (.alreadyDecided row.decision row.decidedAt)
    else .anchoring row (.alreadyDecided row.decision row.decidedAt)

def claimApproval (s : PipelineWorld) (i : Nat) (call : PipelineCall) : PipelineWorld :=
  s.claim i call (.enqueueing call.click.record (.applied .approved)) fun row =>
    if row.decision = .approved ∧ row.applied = false then
      .enqueueing row (.alreadyDecided row.decision row.decidedAt)
    else .done (.alreadyDecided row.decision row.decidedAt)

/-- `audit.record` of a claim, and the stage after it. -/
def record (s : PipelineWorld) (i : Nat) (call : PipelineCall) (record : DecisionRecord)
    (stage : PipelineStage) : PipelineWorld :=
  match append (s.decidedEvent call.click record) s.audit with
  | none => s.settle i call .refused
  | some audit => { s.settle i call stage with audit := audit }

/-- The claim is a rejection. -/
def rejected (s : PipelineWorld) : Bool := s.row.any fun row => row.decision = .rejected

/-- `recordApproval`, answered with the quorum. -/
def sign (s : PipelineWorld) (i : Nat) (call : PipelineCall) (quorumMet : Bool) : PipelineWorld :=
  { s.settle i call (if quorumMet then .claiming else .done .awaitingSecondApproval) with
    signatures := s.signatures ++ [⟨call.click.actorId, s.rejected⟩]
    quorumMet := s.quorumMet || quorumMet }

/-- `execution.enqueue`; one that throws may have been called all the same. -/
def enqueue (s : PipelineWorld) (i : Nat) (call : PipelineCall) (record : DecisionRecord)
    (outcome : ApprovalOutcome) (returns : Bool) : PipelineWorld :=
  { s.settle i call (if returns then .marking record outcome else .thrown) with
    handoffs := s.handoffs ++ [⟨record.actorId, s.quorumMet,
      s.row.any fun row => row.decision = .approved⟩]
    handedOff := s.handedOff || returns }

/-- The row the update finds: the claim of this decision, actor and time. -/
def markRow (record row : DecisionRecord) : DecisionRecord :=
  if row.decision = record.decision ∧ row.actorId = record.actorId ∧
      row.decidedAt = record.decidedAt then { row with applied := true }
  else row

def mark (s : PipelineWorld) (i : Nat) (call : PipelineCall) (record : DecisionRecord)
    (outcome : ApprovalOutcome) : PipelineWorld :=
  { s.settle i call (.done outcome) with row := s.row.map (markRow record) }

/-- The decision is claimed, not applied, and no call is applying it. -/
def interrupted (s : PipelineWorld) : Bool :=
  s.row.any fun row => !row.applied && s.calls.all fun call => call.stage.record.isNone

end PipelineWorld

/-! ## The machine -/

inductive PipelineLabel where
  | click (incoming : IncomingDecision) (reads : ClickReads)
  | claim (i : Nat)
  | audit (i : Nat)
  | sign (i : Nat) (quorumMet : Bool)
  | enqueue (i : Nat) (returns : Bool)
  | mark (i : Nat)
  | throws (i : Nat)

def firstStage : TerminalDecision → PipelineStage
  | .approved => .approving
  | .rejected => .rejecting

def PipelineWorld.start (s : PipelineWorld) (incoming : IncomingDecision) (reads : ClickReads) :
    PipelineWorld :=
  match admitClick incoming reads with
  | .error _ => s
  | .ok click => { s with calls := s.calls ++ [⟨click, s.interrupted, firstStage incoming.decision⟩] }

def PipelineWorld.callStep (s : PipelineWorld) (i : Nat) (call : PipelineCall) :
    PipelineLabel → PipelineStage → Option PipelineWorld
  | .claim _, .rejecting => some (s.claimRejection i call)
  | .claim _, .claiming => some (s.claimApproval i call)
  | .audit _, .anchoring record outcome =>
      some (s.record i call record (.marking record outcome))
  | .audit _, .approving => some (s.record i call call.click.record .signing)
  | .sign _ quorumMet, .signing => some (s.sign i call quorumMet)
  | .enqueue _ returns, .enqueueing record outcome =>
      some (s.enqueue i call record outcome returns)
  | .mark _, .marking record outcome => some (s.mark i call record outcome)
  | .throws _, stage => if stage.finished then none else some (s.settle i call .thrown)
  | _, _ => none

/-- The call a label is a step of. -/
def PipelineLabel.of : PipelineLabel → Option Nat
  | .claim i | .audit i | .sign i _ | .enqueue i _ | .mark i | .throws i => some i
  | .click _ _ => none

def pipelineStep (s : PipelineWorld) : PipelineLabel → Option PipelineWorld
  | .click incoming reads => some (s.start incoming reads)
  | label =>
      label.of.bind fun i => (s.calls[i]?).bind fun call => s.callStep i call label call.stage

def pipelineMachine : Machine PipelineWorld PipelineLabel := ⟨pipelineStep⟩

end BrainCore.Surfaces
