import BrainCore.Audit.EmittedKeys
import BrainCore.Members.AuthorizeApproval

/-!
# Decisions on agent proposals

`decideAgentProposal` of `services/execution/src/proposals/decision-service.ts`
and the transitions of `state-machines.ts`.  A decision locks the row of the
proposal, emits its audit event on a connection of its own, and then updates the
row and commits; so the event is committed before the transition is.
-/

namespace BrainCore.Proposals

open BrainCore.Audit BrainCore.Foundation BrainCore.Members

inductive ProposalState where
  | pending
  | approved
  | acknowledged
  | reconciling
  | rejected
  | executed
  | failed
  | undone
  | superseded
  | unknown
deriving DecidableEq

def ProposalState.text : ProposalState → String
  | pending => "pending"
  | approved => "approved"
  | acknowledged => "acknowledged"
  | reconciling => "reconciling"
  | rejected => "rejected"
  | executed => "executed"
  | failed => "failed"
  | undone => "undone"
  | superseded => "superseded"
  | unknown => "unknown"

inductive ProposalDecision where
  | approve
  | reject
  | acknowledge
  | undo
deriving DecidableEq

def ProposalDecision.text : ProposalDecision → String
  | approve => "approve"
  | reject => "reject"
  | acknowledge => "acknowledge"
  | undo => "undo"

def isValidProposalTransition : ProposalState → ProposalState → Bool
  | .pending, to_ => to_ = .approved || to_ = .rejected || to_ = .acknowledged || to_ = .superseded
  | .approved, to_ => to_ = .executed || to_ = .rejected || to_ = .undone || to_ = .reconciling
  | .reconciling, to_ => to_ = .executed || to_ = .failed
  | .executed, to_ => to_ = .failed
  | .acknowledged, _ | .rejected, _ | .failed, _ | .undone, _ | .superseded, _ | .unknown, _ => false

inductive ActorVerification where
  | session
  | idpVerified
  | surfaceLinked
  | signedToken
  | tenantAsserted
deriving DecidableEq

def ActorVerification.text : ActorVerification → String
  | session => "session"
  | idpVerified => "idp_verified"
  | surfaceLinked => "surface_linked"
  | signedToken => "signed_token"
  | tenantAsserted => "tenant_asserted"

structure ActorContext where
  memberId : String
  role : MemberRole
  active : Bool
  verification : ActorVerification
deriving DecidableEq

/-- The columns of `proposals` that a decision reads or writes; `action` by its fields. -/
structure ProposalRow where
  id : String
  tenantId : String
  proposingAgent : String
  action : List (String × JsonbValue)
  status : ProposalState
  policyDecision : String
  requiredApprovers : List String
  approversSigned : List String
  decision : Option ProposalDecision := none
  decisionAuditId : Option String := none
  decidedAt : Option String := none

inductive DecisionError where
  | approvalInvalid (reason : ApprovalRejectionReason)
  | invalidState (message : String)
  | audit (error : EmitError)
  /-- The database, a lost answer or the actor resolver. -/
  | unavailable (message : String)

structure ProposalDecisionResult where
  id : String
  decision : ProposalDecision
  status : ProposalState
  auditId : Option String

/-! ## Keys -/

def proposalDecisionAuditPrefix (proposalId : String) (decision : ProposalDecision) : String :=
  "proposal.decided:" ++ proposalId ++ ":" ++ decision.text ++ ":"

def proposalDecisionAuditKey (proposalId : String) (decision : ProposalDecision)
    (beforeStatus : ProposalState) : String :=
  "proposal.decided:" ++ proposalId ++ ":" ++ decision.text ++ ":" ++ beforeStatus.text

/-! ## What is emitted -/

def PROPOSAL_SNAPSHOT_KEYS : List String :=
  ["narrative", "summary", "risk_band", "finding_type", "severity", "rule_id", "affected_entities",
    "evidence_refs", "recommended_remediation"]

def proposalActionSnapshot (row : ProposalRow) : List (String × JsValue) :=
  PROPOSAL_SNAPSHOT_KEYS.filterMap fun key =>
    (row.action.lookup key).map fun value => (key, value.data.value)

def texts (values : List String) : JsValue := .arr (values.map JsValue.str)

def proposalAuditEnvelope (row : ProposalRow) (status : ProposalState) : List (String × JsValue) :=
  [("id", .str row.id), ("proposing_agent", .str row.proposingAgent), ("status", .str status.text),
    ("policy_decision", .str row.policyDecision),
    ("required_approvers", texts row.requiredApprovers),
    ("approvers_signed", texts row.approversSigned)] ++ proposalActionSnapshot row

def decisionInputs (row : ProposalRow) (decision : ProposalDecision) : List (String × JsValue) :=
  [("proposal_id", .str row.id), ("decision", .str decision.text)]

def decisionOutputs (row : ProposalRow) (actor : ActorContext) (target : ProposalState) :
    List (String × JsValue) :=
  [("status", .str target.text),
    ("actor", .obj [("member_id", .str actor.memberId),
      ("verification", .str actor.verification.text)]),
    ("proposal_summary",
      .obj (("proposing_agent", .str row.proposingAgent) :: proposalActionSnapshot row))]

/-! ### Distinct names -/

theorem snapshot_names (row : ProposalRow) :
    ((proposalActionSnapshot row).map Prod.fst).Sublist PROPOSAL_SNAPSHOT_KEYS := by
  rw [proposalActionSnapshot]
  induction PROPOSAL_SNAPSHOT_KEYS with
  | nil => exact .slnil
  | cons key keys ih =>
      cases hlookup : row.action.lookup key with
      | none => simpa [hlookup] using ih.cons key
      | some value => simpa [hlookup] using ih.cons_cons key

theorem distinct_snapshot (row : ProposalRow) :
    JsValue.DistinctMembers (proposalActionSnapshot row) := by
  rw [proposalActionSnapshot]
  induction PROPOSAL_SNAPSHOT_KEYS with
  | nil => trivial
  | cons key keys ih =>
      rw [List.filterMap_cons]
      cases row.action.lookup key with
      | none => exact ih
      | some value => exact ⟨value.data.distinct, ih⟩

/-- The snapshot after other members. -/
theorem nodup_before_snapshot {names : List String} (row : ProposalRow)
    (h : (names ++ PROPOSAL_SNAPSHOT_KEYS).Nodup) :
    (names ++ (proposalActionSnapshot row).map Prod.fst).Nodup :=
  h.sublist ((List.Sublist.refl names).append (snapshot_names row))

theorem distinct_texts (values : List String) : (texts values).Distinct := by
  change JsValue.DistinctItems (values.map JsValue.str)
  induction values with
  | nil => trivial
  | cons value values ih => exact ⟨trivial, ih⟩

theorem nodup_envelope_names : (["id", "proposing_agent", "status", "policy_decision",
    "required_approvers", "approvers_signed"] ++ PROPOSAL_SNAPSHOT_KEYS).Nodup := by decide

theorem nodup_summary_names : (["proposing_agent"] ++ PROPOSAL_SNAPSHOT_KEYS).Nodup := by decide

theorem distinct_envelope (row : ProposalRow) (status : ProposalState) :
    (JsValue.obj (proposalAuditEnvelope row status)).Distinct :=
  ⟨nodup_before_snapshot row nodup_envelope_names,
    ⟨trivial, trivial, trivial, trivial, distinct_texts _, distinct_texts _, distinct_snapshot row⟩,
    fun _ h => by cases h⟩

theorem nodup_inputs_names : ["proposal_id", "decision"].Nodup := by decide

theorem distinct_inputs (row : ProposalRow) (decision : ProposalDecision) :
    (JsValue.obj (decisionInputs row decision)).Distinct :=
  ⟨nodup_inputs_names, ⟨trivial, trivial, trivial⟩, fun _ h => by cases h⟩

theorem nodup_outputs_names : ["status", "actor", "proposal_summary"].Nodup := by decide

theorem nodup_actor_names : ["member_id", "verification"].Nodup := by decide

theorem distinct_outputs (row : ProposalRow) (actor : ActorContext) (target : ProposalState) :
    (JsValue.obj (decisionOutputs row actor target)).Distinct := by
  have hactor : (JsValue.obj [("member_id", .str actor.memberId),
      ("verification", .str actor.verification.text)]).Distinct :=
    ⟨nodup_actor_names, ⟨trivial, trivial, trivial⟩, fun _ h => by cases h⟩
  have hsummary : (JsValue.obj
      (("proposing_agent", .str row.proposingAgent) :: proposalActionSnapshot row)).Distinct :=
    ⟨nodup_before_snapshot row nodup_summary_names, ⟨trivial, distinct_snapshot row⟩,
      fun _ h => by cases h⟩
  exact ⟨nodup_outputs_names, ⟨trivial, hactor, hsummary, trivial⟩, fun _ h => by cases h⟩

/-- The event of a decision. -/
def decisionEvent (before : ProposalRow) (decision : ProposalDecision) (actor : ActorContext)
    (target : ProposalState) : AuditEventInput where
  tenantId := before.tenantId
  layer := .agent
  actor := actor.memberId
  action := "proposal.decided"
  inputs := ⟨.obj (decisionInputs before decision), distinct_inputs before decision⟩
  outputs := ⟨.obj (decisionOutputs before actor target), distinct_outputs before actor target⟩
  beforeState := ⟨.obj (proposalAuditEnvelope before before.status), distinct_envelope before _⟩
  afterState := ⟨.obj (proposalAuditEnvelope before target), distinct_envelope before _⟩
  idempotencyKey := some (proposalDecisionAuditKey before.id decision before.status)

/-! ## What is decided -/

def invalidDecision (row : ProposalRow) (decision : ProposalDecision) : DecisionError :=
  .invalidState ("cannot " ++ decision.text ++ " proposal in status " ++ row.status.text)

structure TargetStatus where
  status : ProposalState
  idempotent : Bool

def hasNotifyOnlyMode (row : ProposalRow) : Bool :=
  (row.action.lookup "mode").any fun value => value.json.str? = some "notify_only"

def targetStatusForDecision (row : ProposalRow) :
    ProposalDecision → Except DecisionError TargetStatus
  | .approve =>
      if row.status = .approved then .ok ⟨.approved, true⟩
      else if row.status ≠ .pending then .error (invalidDecision row .approve)
      else .ok ⟨.approved, false⟩
  | .reject =>
      if row.status = .rejected then .ok ⟨.rejected, true⟩
      else if row.status ≠ .pending ∧ row.status ≠ .approved then
        .error (invalidDecision row .reject)
      else .ok ⟨.rejected, false⟩
  | .acknowledge =>
      if row.status = .acknowledged then .ok ⟨.acknowledged, true⟩
      else if row.status ≠ .pending ∨ hasNotifyOnlyMode row = false then
        .error (invalidDecision row .acknowledge)
      else .ok ⟨.acknowledged, false⟩
  | .undo =>
      if row.status = .undone then .ok ⟨.undone, true⟩
      else if row.status ≠ .approved then .error (invalidDecision row .undo)
      else .ok ⟨.undone, false⟩

def assertAgentDecisionAuthority (actor : ActorContext) (decision : ProposalDecision) :
    Except DecisionError Unit :=
  if actor.active = false then .error (.approvalInvalid .actorInactive)
  else if decision ≠ .acknowledge ∧ isApprovalCapableRole actor.role = false then
    .error (.approvalInvalid .domainNotAuthorized)
  else .ok ()

/-! ## Interleaved calls -/

/-- Where a call of `decide` is; from `locked` to `updated` it holds the lock of the row. -/
inductive DecidePhase where
  | started
  | resolved (actor : ActorContext)
  | locked (actor : ActorContext) (before : ProposalRow) (target : ProposalState)
  | emitted (actor : ActorContext) (before : ProposalRow) (target : ProposalState)
      (event : AuditEventRow)
  | updated (actor : ActorContext) (before : ProposalRow) (target : ProposalState)
      (event : AuditEventRow)
  | returned (result : ProposalDecisionResult)
  | thrown (error : DecisionError)
  | crashed

namespace DecidePhase

/-- The row that the call has locked. -/
def held : DecidePhase → Option ProposalRow
  | .locked _ before _ | .emitted _ before _ _ | .updated _ before _ _ => some before
  | .started | .resolved _ | .returned _ | .thrown _ | .crashed => none

/-- The event that the call has emitted for a transition it has yet to commit. -/
def pending : DecidePhase → Option AuditEventRow
  | .emitted _ _ _ event | .updated _ _ _ event => some event
  | .started | .resolved _ | .locked _ _ _ | .returned _ | .thrown _ | .crashed => none

def ended : DecidePhase → Bool
  | .returned _ | .thrown _ | .crashed => true
  | .started | .resolved _ | .locked _ _ _ | .emitted _ _ _ _ | .updated _ _ _ _ => false

end DecidePhase

structure DecideCall where
  decision : ProposalDecision
  phase : DecidePhase

/-- A transition that a decision has committed. -/
structure Transition where
  decision : ProposalDecision
  actor : String
  before : ProposalState
  after : ProposalState
  auditId : String

/-- The committed row and log, the calls, and as history the transitions of decisions. -/
structure DecisionWorld where
  row : ProposalRow
  audit : AuditDatabase := {}
  calls : List DecideCall := []
  transitions : List Transition := []

/-- How the emit of a call ends for it. -/
inductive EmitEnd where
  | answered
  /-- The event is committed, and the answer does not come back. -/
  | lost
  | refused (message : String)

inductive DecisionLabel where
  | begin (decision : ProposalDecision)
  | resolve (i : Nat) (actor : ActorContext)
  | lock (i : Nat)
  | emit (i : Nat) (id createdAt : String) (ending : EmitEnd)
  | update (i : Nat)
  /-- The commit, whose outcome may stay unknown to the call. -/
  | commit (i : Nat) (known : Bool)
  | fail (i : Nat) (message : String)
  | crash (i : Nat)
  /-- Another component commits the next version of the row. -/
  | other (row : ProposalRow)
  | otherEmit (call : EmitCall)

def ProposalDecision.all : List ProposalDecision := [.approve, .reject, .acknowledge, .undo]

def ProposalState.all : List ProposalState :=
  [.pending, .approved, .acknowledged, .reconciling, .rejected, .executed, .failed, .undone,
    .superseded, .unknown]

/-- The key is one of the decisions on the proposal. -/
def isDecisionKey (proposalId key : String) : Bool :=
  ProposalDecision.all.any fun decision => ProposalState.all.any fun status =>
    key = proposalDecisionAuditKey proposalId decision status

/-- The latest event whose key begins with `start`. -/
def findDecisionAuditId (db : AuditDatabase) (tenantId start : String) : Option String :=
  let later (first second : AuditEventRow) : Bool :=
    first.createdAt < second.createdAt || first.createdAt = second.createdAt && first.id < second.id
  let found := (db.ofTenant tenantId).filter fun event =>
    event.idempotencyKey.any fun key => start.toList.isPrefixOf key.toList
  (found.foldl (fun latest event => match latest with
    | none => some event
    | some best => some (if later best event then event else best)) none).map AuditEventRow.id

/-- What another component may make of the row: its id stays, and its status is as valid transitions
leave it. -/
def otherRow (row next : ProposalRow) : Bool :=
  next.id = row.id && next.tenantId = row.tenantId &&
    (next.status = row.status || isValidProposalTransition row.status next.status)

namespace DecisionWorld

variable (s : DecisionWorld)

def setPhase (i : Nat) (call : DecideCall) (phase : DecidePhase) : DecisionWorld :=
  { s with calls := s.calls.set i { call with phase } }

/-- Nobody holds the lock of the row. -/
def free : Bool := s.calls.all fun call => call.phase.held.isNone

/-- From the lock of the row to the emit, or to the end when there is nothing to emit. -/
def openTransaction (decision : ProposalDecision) (actor : ActorContext) : DecidePhase :=
  match assertAgentDecisionAuthority actor decision with
  | .error error => .thrown error
  | .ok _ =>
      match targetStatusForDecision s.row decision with
      | .error error => .thrown error
      | .ok target =>
          if target.idempotent then
            .returned ⟨s.row.id, decision, s.row.status,
              findDecisionAuditId s.audit s.row.tenantId
                (proposalDecisionAuditPrefix s.row.id decision)⟩
          else .locked actor s.row target.status

end DecisionWorld

/-- The assignments of `transitionProposalStatus`. -/
def ProposalRow.decided (row : ProposalRow) (target : ProposalState) (decision : ProposalDecision)
    (event : AuditEventRow) : ProposalRow :=
  { row with
    status := target
    decision := some decision
    decisionAuditId := some event.id
    decidedAt := some event.createdAt }

section Machine

variable (sha256 : List Char → String) (hashtext : String → Int)

/-- The emit of a decision. -/
def decisionEmit (before : ProposalRow) (decision : ProposalDecision) (actor : ActorContext)
    (target : ProposalState) (id createdAt : String) (db : AuditDatabase) :
    Except EmitError (AuditDatabase × AuditEventRow) :=
  (emit sha256 hashtext ⟨decisionEvent before decision actor target, id, createdAt⟩).runAlone
    auditStore db

namespace DecisionWorld

variable (s : DecisionWorld)

def emitStep (i : Nat) (call : DecideCall) (id createdAt : String) (ending : EmitEnd) :
    Option DecisionWorld :=
  match call.phase with
  | .locked actor before target =>
      match ending with
      | .refused message => some (s.setPhase i call (.thrown (.unavailable message)))
      | .answered =>
          match decisionEmit sha256 hashtext before call.decision actor target id createdAt s.audit with
          | .error error => some (s.setPhase i call (.thrown (.audit error)))
          | .ok (audit, event) =>
              some { s.setPhase i call (.emitted actor before target event) with audit }
      | .lost =>
          match decisionEmit sha256 hashtext before call.decision actor target id createdAt s.audit with
          | .error error => some (s.setPhase i call (.thrown (.audit error)))
          | .ok (audit, _) =>
              some { s.setPhase i call (.thrown (.unavailable "answer lost")) with audit }
  | _ => none

/-- The check of the transition and the update of the locked row. -/
def updateStep (i : Nat) (call : DecideCall) : Option DecisionWorld :=
  match call.phase with
  | .emitted actor before target event =>
      if isValidProposalTransition before.status target = false then
        some (s.setPhase i call (.thrown (.invalidState ("invalid proposal transition " ++
          before.status.text ++ " → " ++ target.text))))
      else if s.row.status ≠ before.status then
        some (s.setPhase i call (.thrown (.invalidState "proposal moved during decision")))
      else some (s.setPhase i call (.updated actor before target event))
  | _ => none

def commitStep (i : Nat) (call : DecideCall) (known : Bool) : Option DecisionWorld :=
  match call.phase with
  | .updated actor before target event =>
      some { s.setPhase i call (if known then
                .returned ⟨before.id, call.decision, target, some event.id⟩
              else .thrown (.unavailable "answer lost")) with
        row := s.row.decided target call.decision event
        transitions := s.transitions ++
          [⟨call.decision, actor.memberId, before.status, target, event.id⟩] }
  | _ => none

def step : DecisionLabel → Option DecisionWorld
  | .begin decision => some { s with calls := s.calls ++ [⟨decision, .started⟩] }
  | .resolve i actor => s.calls[i]?.bind fun call =>
      match call.phase with
      | .started => some (s.setPhase i call (.resolved actor))
      | _ => none
  | .lock i => s.calls[i]?.bind fun call =>
      match call.phase with
      | .resolved actor =>
          if s.free then some (s.setPhase i call (s.openTransaction call.decision actor)) else none
      | _ => none
  | .emit i id createdAt ending => s.calls[i]?.bind fun call =>
      s.emitStep sha256 hashtext i call id createdAt ending
  | .update i => s.calls[i]?.bind fun call => s.updateStep i call
  | .commit i known => s.calls[i]?.bind fun call => s.commitStep i call known
  | .fail i message => s.calls[i]?.bind fun call =>
      if call.phase.ended then none
      else some (s.setPhase i call (.thrown (.unavailable message)))
  | .crash i => s.calls[i]?.bind fun call =>
      if call.phase.ended then none else some (s.setPhase i call .crashed)
  | .other row =>
      if s.free && otherRow s.row row then some { s with row } else none
  | .otherEmit call =>
      if call.event.tenantId = s.row.tenantId &&
          call.event.idempotencyKey.any (isDecisionKey s.row.id) then none
      else
        match (emit sha256 hashtext call).runAlone auditStore s.audit with
        | .error _ => some s
        | .ok (audit, _) => some { s with audit }

end DecisionWorld

def decisionMachine : Machine DecisionWorld DecisionLabel :=
  ⟨DecisionWorld.step sha256 hashtext⟩

end Machine

end BrainCore.Proposals
