import BrainCore.Foundation.Machine
import BrainCore.Graduation.Provisioning

/-!
# Completing a graduation

`UnpaidGraduationService.complete` of `provisioning.ts`: the reservation, the
provisioning, the finalization, the token and the audit events of a call are steps
of their own, and a call can break off between any two.  The calls of one source
tenant run side by side, with the verification, the members and the keys changing
in between.
-/

namespace BrainCore.Graduation

open Foundation

/-! ## Calls -/

inductive Stage where
  | started
  | reserved (reservation : Reservation)
  /-- The provisioning transaction is open and has read the service agent and its key. -/
  | provisioning (reservation : Reservation) (seen : ServiceSeen)
  | provisioned (reservation : Reservation) (p : Provisioned)
  | finalized (reservation : Reservation) (p : Provisioned) (lineage : LineageRow)
  /-- The audit events still under way, and whether one of them has failed. -/
  | auditing (reservation : Reservation) (p : Provisioned) (lineage : LineageRow)
      (pending : List AuditEvent) (refused : Bool)
  | succeeded
  | failed
deriving DecidableEq

structure Call where
  actorMemberId : String
  idempotencyKey : String
  stage : Stage
deriving DecidableEq

def Stage.reservation : Stage → Option Reservation
  | .reserved reservation | .provisioning reservation _ | .provisioned reservation _
  | .finalized reservation _ _ | .auditing reservation _ _ _ _ => some reservation
  | .started | .succeeded | .failed => none

def Stage.lineage : Stage → Option LineageRow
  | .finalized _ _ lineage | .auditing _ _ lineage _ _ => some lineage
  | .started | .reserved _ | .provisioning _ _ | .provisioned _ _ | .succeeded | .failed => none

/-- The key the call has issued and has not recorded. -/
def Stage.pendingKey : Stage → Option String
  | .provisioned _ p | .finalized _ p _ => if p.issuedNow then some p.credentialId else none
  | .auditing reservation p _ pending _ =>
      if keyIssuedEvent reservation p ∈ pending then some p.credentialId else none
  | .started | .reserved _ | .provisioning _ _ | .succeeded | .failed => none

/-- What a reservation of a request that had not graduated read. -/
structure Approval where
  destinationTenantId : String
  assessment : Option Outcome
  review : Option Outcome

/-- A refresh token or an access token of the destination member. -/
structure IssuedSession where
  actorMemberId : String
  initiatedByMemberId : Option String
  memberActive : Bool

/-- What a call that succeeds returns of the destination. -/
structure Completion where
  lineage : LineageRow
  sessionTenantId : String
  sessionMemberId : String

structure GraduationWorld where
  source : SourceRows
  destination : DestinationRows := {}
  audit : List AuditEvent := []
  calls : List Call := []
  approvals : List Approval := []
  sessions : List IssuedSession := []
  completions : List Completion := []

namespace GraduationWorld

/-- The call at `i` comes to another stage. -/
def settle (s : GraduationWorld) (i : Nat) (call : Call) (stage : Stage) : GraduationWorld :=
  { s with calls := s.calls.set i { call with stage := stage } }

/-- A session handed to the caller, with the rows as they are. -/
def issued (s : GraduationWorld) (call : Call) (d : DestinationRows) (reservation : Reservation) :
    IssuedSession :=
  ⟨call.actorMemberId, s.source.request.map GraduationRequest.initiatedByMemberId,
    d.activeMember reservation.destinationTenantId reservation.destinationMemberId⟩

def approvals' (s : GraduationWorld) (reservation : Reservation) : List Approval :=
  match s.source.request with
  | none => s.approvals
  | some r =>
      if r.status = .graduated then s.approvals
      else s.approvals ++ [⟨reservation.destinationTenantId,
        assessmentOutcome s.source.assessments r, reviewDecision s.source.reviews r⟩]

def reserve (s : GraduationWorld) (i : Nat) (call : Call) (tenantId memberId : String) :
    GraduationWorld :=
  match Graduation.reserve ⟨call.actorMemberId, call.idempotencyKey, tenantId, memberId⟩ s.source with
  | .error _ => s.settle i call .failed
  | .ok (reservation, source) =>
      { s.settle i call (.reserved reservation) with
        source := source
        approvals := s.approvals' reservation }

/-- Another provisioning holds the destination's row, not yet committed. -/
def rowHeld (s : GraduationWorld) (tenantId : String) : Bool :=
  s.calls.any fun call =>
    match call.stage with
    | .provisioning other _ => other.destinationTenantId = tenantId
    | _ => false

/-- The reads of the provisioning; the insert of the destination's row waits for another's. -/
def look (s : GraduationWorld) (i : Nat) (call : Call) (reservation : Reservation) :
    Option GraduationWorld :=
  match s.destination.tenant reservation.destinationTenantId with
  | none =>
      if s.rowHeld reservation.destinationTenantId then none
      else some (s.settle i call (.provisioning reservation (seeService s.destination reservation)))
  | some row =>
      if row.classified then
        some (s.settle i call (.provisioning reservation (seeService s.destination reservation)))
      else some (s.settle i call .failed)

def provision (s : GraduationWorld) (i : Nat) (call : Call) (reservation : Reservation)
    (seen : ServiceSeen) (draws : Draws) : GraduationWorld :=
  let destination := Graduation.provision reservation seen draws s.destination
  { s.settle i call (.provisioned reservation (provisioned seen draws)) with
    destination := destination
    sessions := s.sessions ++ [s.issued call destination reservation] }

def finalize (s : GraduationWorld) (i : Nat) (call : Call) (reservation : Reservation)
    (p : Provisioned) (lineageId : String) : GraduationWorld :=
  match Graduation.finalize reservation lineageId s.source with
  | none => s.settle i call .failed
  | some (lineage, source) =>
      { s.settle i call (.finalized reservation p lineage) with source := source }

def sign (s : GraduationWorld) (i : Nat) (call : Call) (reservation : Reservation)
    (p : Provisioned) (lineage : LineageRow) : GraduationWorld :=
  { s.settle i call (.auditing reservation p lineage
      (completionEvents call.actorMemberId reservation p) false) with
    sessions := s.sessions ++ [s.issued call s.destination reservation] }

/-- An emit that goes through; the last one ends the call. -/
def emitted (s : GraduationWorld) (i : Nat) (call : Call) (reservation : Reservation)
    (p : Provisioned) (lineage : LineageRow) (rest : List AuditEvent) (refused : Bool)
    (audit : List AuditEvent) : GraduationWorld :=
  if rest = [] ∧ refused = false then
    { s.settle i call .succeeded with
      audit := audit
      completions := s.completions ++
        [⟨lineage, reservation.destinationTenantId, reservation.destinationMemberId⟩] }
  else { s.settle i call (.auditing reservation p lineage rest refused) with audit := audit }

def emit (s : GraduationWorld) (i : Nat) (call : Call) (reservation : Reservation)
    (p : Provisioned) (lineage : LineageRow) (pending : List AuditEvent) (refused : Bool)
    (k : Nat) (event : AuditEvent) : GraduationWorld :=
  match Graduation.emit event s.audit with
  | none => s.settle i call (.auditing reservation p lineage (pending.eraseIdx k) true)
  | some audit => s.emitted i call reservation p lineage (pending.eraseIdx k) refused audit

end GraduationWorld

/-! ## The other writers -/

/-- What verification and the reviewers do to the latest request. -/
inductive VerificationChange where
  | start (id initiatedByMemberId verificationPolicyVersion : String) (evidence : Json)
  | reassess (verificationPolicyVersion : String)
  | assess (verificationPolicyVersion : String) (outcome : Outcome)
  | verificationError
  | review (decision : Outcome)
  /-- A reviewer's update of a request that is not being completed. -/
  | conclude (status : RequestStatus)

def RequestStatus.canReassess (status : RequestStatus) : Bool :=
  status = .evaluating || status = .verificationError || status = .manualReview ||
    status = .needsInformation

/-- The completion has reserved the request's destination. -/
def RequestStatus.settled (status : RequestStatus) : Bool :=
  status = .graduating || status = .graduated

/-- A request that is over leaves room for another one. -/
def RequestStatus.closed (status : RequestStatus) : Bool := status = .blocked || status = .cancelled

def insertAssessment (a : Assessment) (assessments : List Assessment) : List Assessment :=
  match assessments.find? fun b => b.requestId = a.requestId ∧
      b.verificationPolicyVersion = a.verificationPolicyVersion with
  | some _ => assessments
  | none => assessments ++ [a]

/-- `none`: the change is not made in this state. -/
def SourceRows.verify (s : SourceRows) : VerificationChange → Option SourceRows
  | .start id initiatedByMemberId verificationPolicyVersion evidence =>
      if (s.request.all fun r => r.status.closed) ∧ lineageOf s.lineage id = none then
        some { s with
          request := some
            { id, initiatedByMemberId, verificationPolicyVersion, status := .evaluating, evidence } }
      else none
  | .reassess verificationPolicyVersion =>
      s.request.bind fun r =>
        if r.status.canReassess then
          some { s with
            request := some { r with
              verificationPolicyVersion := verificationPolicyVersion
              status := .evaluating
              version := r.version + 1 } }
        else none
  | .assess verificationPolicyVersion outcome =>
      s.request.map fun r =>
        { s with
          assessments := insertAssessment ⟨r.id, verificationPolicyVersion, outcome⟩ s.assessments
          request := some
            (if r.verificationPolicyVersion = verificationPolicyVersion ∧
                (r.status = .evaluating ∨ r.status = .verificationError) then
              { r with status := outcome.status, version := r.version + 1 }
            else r) }
  | .verificationError =>
      s.request.map fun r =>
        { s with
          request := some
            (if r.status = .evaluating then
              { r with status := .verificationError, version := r.version + 1 }
            else r) }
  | .review decision =>
      s.request.map fun r => { s with reviews := ⟨r.id, decision⟩ :: s.reviews }
  | .conclude status =>
      s.request.bind fun r =>
        if r.status.settled ∨ status.settled then none
        else some { s with request := some { r with status := status, version := r.version + 1 } }

/-- What members, operators and other services do to the rows. -/
inductive RowChange where
  | sourceMembers (members : List SourceMember)
  | sourceTenant (provisioningState dataProfile accessStage : Option String)
  | destinationMember (tenantId id status : String) (active : Bool)
  | destinationTenant (id kind : String) (sandbox : Bool) (dataProfile accessStage : Option String)
  | agentState (id state : String)
  /-- The key is revoked, or its expiry has come. -/
  | endKey (id : String)

def DestinationRows.change (d : DestinationRows) : RowChange → DestinationRows
  | .destinationMember tenantId id status active =>
      { d with
        members := d.members.map fun m =>
          if m.tenantId = tenantId ∧ m.id = id then { m with status := status, active := active }
          else m }
  | .destinationTenant id kind sandbox dataProfile accessStage =>
      { d with
        tenants := d.tenants.map fun t =>
          if t.id = id then { t with kind, sandbox, dataProfile, accessStage } else t }
  | .agentState id state =>
      { d with
        agents := d.agents.map fun agent => if agent.id = id then { agent with state := state } else agent }
  | .endKey id =>
      { d with keys := d.keys.map fun key => if key.id = id then { key with live := false } else key }
  | .sourceMembers _ | .sourceTenant _ _ _ => d

def SourceRows.change (s : SourceRows) : RowChange → SourceRows
  | .sourceMembers members => { s with members := members }
  | .sourceTenant provisioningState dataProfile accessStage =>
      { s with tenant := { s.tenant with provisioningState, dataProfile, accessStage } }
  | .destinationMember _ _ _ _ | .destinationTenant _ _ _ _ _ | .agentState _ _ | .endKey _ => s

/-! ## The machine -/

inductive GraduationLabel where
  | call (actorMemberId idempotencyKey : String)
  | reserve (i : Nat) (tenantId memberId : String)
  | look (i : Nat)
  | provision (i : Nat) (draws : Draws)
  | finalize (i : Nat) (lineageId : String)
  | sign (i : Nat)
  | emit (i k : Nat)
  /-- The emit does not go through; the others go on. -/
  | emitFails (i k : Nat)
  /-- The process dies, or an await of the call throws. -/
  | breakOff (i : Nat)
  | verification (change : VerificationChange)
  | rows (change : RowChange)

/-- The step of a call at its stage. -/
def GraduationWorld.callStep (s : GraduationWorld) (i : Nat) (call : Call) :
    GraduationLabel → Stage → Option GraduationWorld
  | .reserve _ tenantId memberId, .started => some (s.reserve i call tenantId memberId)
  | .look _, .reserved reservation => s.look i call reservation
  | .provision _ draws, .provisioning reservation seen =>
      some (s.provision i call reservation seen draws)
  | .finalize _ lineageId, .provisioned reservation p =>
      some (s.finalize i call reservation p lineageId)
  | .sign _, .finalized reservation p lineage => some (s.sign i call reservation p lineage)
  | .emit _ k, .auditing reservation p lineage pending refused =>
      (pending[k]?).map fun event => s.emit i call reservation p lineage pending refused k event
  | .emitFails _ k, .auditing reservation p lineage pending _ =>
      (pending[k]?).map fun _ =>
        s.settle i call (.auditing reservation p lineage (pending.eraseIdx k) true)
  | .breakOff _, .succeeded => none
  | .breakOff _, _ => some (s.settle i call .failed)
  | _, _ => none

/-- The call a label is a step of. -/
def GraduationLabel.of : GraduationLabel → Option Nat
  | .reserve i _ _ | .look i | .provision i _ | .finalize i _ | .sign i | .emit i _
  | .emitFails i _ | .breakOff i => some i
  | .call _ _ | .verification _ | .rows _ => none

def graduationStep (s : GraduationWorld) : GraduationLabel → Option GraduationWorld
  | .call actorMemberId idempotencyKey =>
      some { s with calls := s.calls ++ [⟨actorMemberId, idempotencyKey, .started⟩] }
  | .verification change => (s.source.verify change).map fun source => { s with source := source }
  | .rows change =>
      some { s with source := s.source.change change, destination := s.destination.change change }
  | label =>
      label.of.bind fun i => (s.calls[i]?).bind fun call => s.callStep i call label call.stage

def graduationMachine : Machine GraduationWorld GraduationLabel := ⟨graduationStep⟩

end BrainCore.Graduation
