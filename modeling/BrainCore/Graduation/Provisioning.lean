import BrainCore.Foundation.Json

/-!
# Graduating a demo tenant

`services/api/src/graduation/provisioning-repository.ts` and the builders of
`provisioning.ts`: the rows of one source tenant's latest graduation request and of
the destinations, and what each transaction of a completion does to them.
-/

namespace BrainCore.Graduation

open Foundation

inductive RequestStatus where
  | evaluating | clear | manualReview | needsInformation | blocked | verificationError
  | graduating | graduated | cancelled
deriving DecidableEq

inductive Outcome where
  | clear | manualReview | needsInformation | blocked
deriving DecidableEq

def Outcome.status : Outcome → RequestStatus
  | .clear => .clear
  | .manualReview => .manualReview
  | .needsInformation => .needsInformation
  | .blocked => .blocked

/-- A row of `tenant_graduation_requests`, with the payload of its latest evidence. -/
structure GraduationRequest where
  id : String
  initiatedByMemberId : String
  verificationPolicyVersion : String
  status : RequestStatus
  version : Nat := 1
  reservedDestinationTenantId : Option String := none
  reservedDestinationMemberId : Option String := none
  provisioningIdempotencyKey : Option String := none
  evidence : Json

structure Assessment where
  requestId : String
  verificationPolicyVersion : String
  outcome : Outcome
deriving DecidableEq

structure ReviewDecision where
  requestId : String
  decision : Outcome
deriving DecidableEq

structure SourceTenant where
  id : String
  provisioningState : Option String
  dataProfile : Option String
  accessStage : Option String
deriving DecidableEq

structure SourceMember where
  id : String
  email : String
  displayName : String
  role : String
  status : String
  active : Bool
deriving DecidableEq

structure CarryForward where
  legalBusinessName : String
  registrationCountry : String
  companyRegistrationNumber : Option String
  website : String
  businessEmail : String
  memberEmail : String
  memberDisplayName : String
deriving DecidableEq

structure Reservation where
  requestId : String
  sourceTenantId : String
  destinationTenantId : String
  destinationMemberId : String
  copiedFields : CarryForward
  alreadyGraduated : Bool
deriving DecidableEq

structure TenantRow where
  id : String
  kind : String
  sandbox : Bool
  dataProfile : Option String
  accessStage : Option String
  businessName : String
deriving DecidableEq

structure MemberRow where
  tenantId : String
  id : String
  email : String
  displayName : String
  status : String
  active : Bool
deriving DecidableEq

structure RefreshToken where
  tenantId : String
  memberId : String
  tokenHash : String
  familyId : String
  tokenId : String
deriving DecidableEq

structure AgentRow where
  id : String
  tenantId : String
  displayName : String
  state : String
deriving DecidableEq

structure AgentApiKeyRow where
  id : String
  tenantId : String
  agentId : String
  name : String
  expiresAt : String
  /-- Neither revoked nor past its expiry. -/
  live : Bool := true
deriving DecidableEq

structure LineageRow where
  id : String
  requestId : String
  destinationTenantId : String
  destinationMemberId : String
  copiedFields : CarryForward
deriving DecidableEq

inductive AuditDetails where
  | graduationCompleted (requestId destinationTenantId : String)
  | tenantCreated (requestId tenantId memberId agentId : String)
  | memberBootstrapped (memberId tenantId email displayName : String)
  | agentApiKeyIssued (agentCreated : Bool) (tenantId agentId credentialId expiresAt : String)
deriving DecidableEq

structure AuditEvent where
  tenantId : String
  actor : String
  action : String
  outcome : String
  idempotencyKey : String
  details : AuditDetails
deriving DecidableEq

/-! ## Reserving the destination -/

def requiredEvidenceString : Option Json → Option String
  | some (.str value) => if value.length = 0 then none else some value
  | _ => none

/-- The company number is a text or JSON null. -/
def companyNumber : Option Json → Option (Option String)
  | some (.str value) => some (some value)
  | some .null => some none
  | _ => none

/-- `none` is the error of malformed evidence. -/
def carryForward (evidence : Json) (member : SourceMember) : Option CarryForward := do
  let legalBusinessName ← requiredEvidenceString (evidence.field? "legalBusinessName")
  let registrationCountry ← requiredEvidenceString (evidence.field? "registrationCountry")
  let website ← requiredEvidenceString (evidence.field? "website")
  let businessEmail ← requiredEvidenceString (evidence.field? "businessEmail")
  let companyRegistrationNumber ← companyNumber (evidence.field? "companyRegistrationNumber")
  return ⟨legalBusinessName, registrationCountry, companyRegistrationNumber, website,
    businessEmail.toLower, member.email.toLower, member.displayName⟩

/-- The assessment under the request's own policy version. -/
def assessmentOutcome (assessments : List Assessment) (r : GraduationRequest) : Option Outcome :=
  (assessments.find? fun a => a.requestId = r.id ∧
    a.verificationPolicyVersion = r.verificationPolicyVersion).map Assessment.outcome

/-- The latest review of the request; the newest one stands first. -/
def reviewDecision (reviews : List ReviewDecision) (r : GraduationRequest) : Option Outcome :=
  (reviews.find? fun review => review.requestId = r.id).map ReviewDecision.decision

def lineageOf (lineage : List LineageRow) (requestId : String) : Option LineageRow :=
  lineage.find? fun row => row.requestId = requestId

/-- The source tenant still is the demo a graduation starts from. -/
def SourceTenant.readyDemo (t : SourceTenant) : Bool :=
  t.provisioningState = some "ready_demo" && t.dataProfile = some "synthetic_brightline_v1" &&
    t.accessStage = some "demo"

def SourceMember.activeAdmin (m : SourceMember) : Bool :=
  m.active && m.status = "active" && m.role = "admin"

inductive ReserveError where
  /-- `graduation_request_not_found`. -/
  | notFound
  /-- `graduation_source_not_ready_demo`. -/
  | notReadyDemo
  /-- `graduation_verification_not_clear`. -/
  | verificationNotClear (status : RequestStatus)
  /-- `graduation_assessment_not_clear`. -/
  | assessmentNotClear
  /-- `approved graduation evidence is malformed`. -/
  | malformedEvidence
deriving DecidableEq

structure ReserveInput where
  actorMemberId : String
  idempotencyKey : String
  destinationTenantId : String
  destinationMemberId : String

/-- The rows the reservation reads and writes. -/
structure SourceRows where
  tenant : SourceTenant
  members : List SourceMember
  request : Option GraduationRequest
  assessments : List Assessment := []
  reviews : List ReviewDecision := []
  lineage : List LineageRow := []

def SourceRows.member (s : SourceRows) (id : String) : Option SourceMember :=
  s.members.find? fun m => m.id = id

/-- The request as the update of a `clear` one leaves it. -/
def GraduationRequest.reserve (r : GraduationRequest) (tenantId memberId idempotencyKey : String) :
    GraduationRequest :=
  { r with
    status := .graduating
    reservedDestinationTenantId := some tenantId
    reservedDestinationMemberId := some memberId
    provisioningIdempotencyKey := some idempotencyKey
    version := r.version + 1 }

/-- The status lets a completion go on. -/
def GraduationRequest.approved (r : GraduationRequest) : Bool :=
  r.status = .clear || r.status = .graduating

def reserve (input : ReserveInput) (s : SourceRows) :
    Except ReserveError (Reservation × SourceRows) :=
  match s.request, (s.members.find? fun m => m.id = input.actorMemberId ∧ m.activeAdmin),
      s.request.bind fun r => s.member r.initiatedByMemberId with
  | some r, some _, some initiator =>
      if !s.tenant.readyDemo then .error .notReadyDemo
      else if r.status ≠ .graduated ∧ !r.approved then .error (.verificationNotClear r.status)
      else if r.status ≠ .graduated ∧ assessmentOutcome s.assessments r ≠ some .clear ∧
          reviewDecision s.reviews r ≠ some .clear then .error .assessmentNotClear
      else
        let tenantId := (((lineageOf s.lineage r.id).map LineageRow.destinationTenantId).or
          r.reservedDestinationTenantId).getD input.destinationTenantId
        let memberId := r.reservedDestinationMemberId.getD input.destinationMemberId
        match carryForward r.evidence initiator with
        | none => .error .malformedEvidence
        | some copiedFields =>
            .ok (⟨r.id, s.tenant.id, tenantId, memberId, copiedFields, r.status = .graduated⟩,
              if r.status = .clear then
                { s with request := some (r.reserve tenantId memberId input.idempotencyKey) }
              else s)
  | _, _, _ => .error .notFound

/-! ## Provisioning the destination -/

/-- The rows of the destinations. -/
structure DestinationRows where
  tenants : List TenantRow := []
  members : List MemberRow := []
  refreshTokens : List RefreshToken := []
  agents : List AgentRow := []
  keys : List AgentApiKeyRow := []

def DestinationRows.tenant (d : DestinationRows) (id : String) : Option TenantRow :=
  d.tenants.find? fun t => t.id = id

def DestinationRows.member (d : DestinationRows) (tenantId id : String) : Option MemberRow :=
  d.members.find? fun m => m.tenantId = tenantId ∧ m.id = id

def MemberRow.isActive (m : MemberRow) : Bool := m.active && m.status = "active"

/-- The member is there and active. -/
def DestinationRows.activeMember (d : DestinationRows) (tenantId id : String) : Bool :=
  (d.member tenantId id).any MemberRow.isActive

def newTenant (reservation : Reservation) : TenantRow :=
  ⟨reservation.destinationTenantId, "production", false, some "customer", some "production",
    reservation.copiedFields.legalBusinessName⟩

/-- `ON CONFLICT (id) DO NOTHING`. -/
def insertTenant (reservation : Reservation) (d : DestinationRows) : DestinationRows :=
  match d.tenant reservation.destinationTenantId with
  | some _ => d
  | none => { d with tenants := d.tenants ++ [newTenant reservation] }

/-- `assertDestinationClassification`. -/
def TenantRow.classified (t : TenantRow) : Bool :=
  t.kind = "production" && !t.sandbox && t.dataProfile = some "customer" &&
    t.accessStage = some "production"

def bootstrapEmail (tenantId email : String) : String :=
  if email.trimAscii.toString.length = 0 then "bootstrap+" ++ tenantId ++ "@brain.invalid"
  else email.trimAscii.toString.toLower

def bootstrapDisplayName (email displayName : String) : String :=
  if displayName.trimAscii.toString.length ≠ 0 then displayName.trimAscii.toString
  else if email.trimAscii.toString.length ≠ 0 then email.trimAscii.toString
  else "Bootstrap Admin"

def bootstrapMember (reservation : Reservation) : MemberRow :=
  ⟨reservation.destinationTenantId, reservation.destinationMemberId,
    bootstrapEmail reservation.destinationTenantId reservation.copiedFields.memberEmail,
    bootstrapDisplayName reservation.copiedFields.memberEmail
      reservation.copiedFields.memberDisplayName,
    "active", true⟩

/-- `ON CONFLICT (tenant_id, id) DO NOTHING`. -/
def insertBootstrapAdminMember (reservation : Reservation) (d : DestinationRows) :
    DestinationRows :=
  match d.member reservation.destinationTenantId reservation.destinationMemberId with
  | some _ => d
  | none => { d with members := d.members ++ [bootstrapMember reservation] }

def BFF_SERVICE_AGENT_DISPLAY_NAME : String := "BFF Service Agent"

/-- The oldest active service agent. -/
def serviceAgent (d : DestinationRows) (tenantId : String) : Option String :=
  (d.agents.find? fun agent => agent.tenantId = tenantId ∧
    agent.displayName = BFF_SERVICE_AGENT_DISPLAY_NAME ∧ agent.state = "active").map AgentRow.id

def credentialName (requestId : String) : String := "graduation-bff:" ++ requestId

/-- The newest live key of the name. -/
def findActiveAgentApiKeyByName (d : DestinationRows) (tenantId agentId name : String) :
    Option AgentApiKeyRow :=
  (d.keys.filter fun key => key.tenantId = tenantId ∧ key.agentId = agentId ∧ key.name = name ∧
    key.live).getLast?

/-- What the reads of the provisioning transaction find. -/
structure ServiceSeen where
  agentId : Option String
  credential : Option AgentApiKeyRow
deriving DecidableEq

def seeService (d : DestinationRows) (reservation : Reservation) : ServiceSeen where
  agentId := serviceAgent d reservation.destinationTenantId
  credential := (serviceAgent d reservation.destinationTenantId).bind fun agentId =>
    findActiveAgentApiKeyByName d reservation.destinationTenantId agentId
      (credentialName reservation.requestId)

/-- The ids and secrets a provisioning draws. -/
structure Draws where
  tokenHash : String
  familyId : String
  tokenId : String
  agentId : String
  credentialId : String
  expiresAt : String
deriving DecidableEq

structure Provisioned where
  agentId : String
  agentCreated : Bool
  credentialId : String
  expiresAt : String
  issuedNow : Bool
deriving DecidableEq

def provisioned (seen : ServiceSeen) (draws : Draws) : Provisioned where
  agentId := seen.agentId.getD draws.agentId
  agentCreated := seen.agentId.isNone
  credentialId := (seen.credential.map AgentApiKeyRow.id).getD draws.credentialId
  expiresAt := (seen.credential.map AgentApiKeyRow.expiresAt).getD draws.expiresAt
  issuedNow := seen.credential.isNone

/-- What the provisioning transaction commits. -/
def provision (reservation : Reservation) (seen : ServiceSeen) (draws : Draws)
    (d : DestinationRows) : DestinationRows :=
  let d := insertBootstrapAdminMember reservation (insertTenant reservation d)
  let agentId := seen.agentId.getD draws.agentId
  { d with
    refreshTokens := d.refreshTokens ++ [⟨reservation.destinationTenantId,
      reservation.destinationMemberId, draws.tokenHash, draws.familyId, draws.tokenId⟩]
    agents := if seen.agentId.isSome then d.agents
      else d.agents ++ [⟨agentId, reservation.destinationTenantId,
        BFF_SERVICE_AGENT_DISPLAY_NAME, "active"⟩]
    keys := if seen.credential.isSome then d.keys
      else d.keys ++ [⟨draws.credentialId, reservation.destinationTenantId, agentId,
        credentialName reservation.requestId, draws.expiresAt, true⟩] }

/-! ## The lineage and the audit events -/

/-- `ON CONFLICT (tenant_id, request_id) DO NOTHING`. -/
def insertLineage (reservation : Reservation) (id : String) (lineage : List LineageRow) :
    List LineageRow :=
  match lineageOf lineage reservation.requestId with
  | some _ => lineage
  | none => lineage ++ [⟨id, reservation.requestId, reservation.destinationTenantId,
      reservation.destinationMemberId, reservation.copiedFields⟩]

/-- The update of the request the reservation is of. -/
def GraduationRequest.graduate (r : GraduationRequest) (reservation : Reservation) :
    GraduationRequest :=
  if r.id = reservation.requestId ∧
      r.reservedDestinationTenantId = some reservation.destinationTenantId ∧
      (r.status = .graduating ∨ r.status = .graduated) then
    { r with
      status := .graduated
      version := if r.status = .graduated then r.version else r.version + 1 }
  else r

/-- `none` is the error of a lineage that names another destination. -/
def finalize (reservation : Reservation) (id : String) (s : SourceRows) :
    Option (LineageRow × SourceRows) :=
  let lineage := insertLineage reservation id s.lineage
  match lineageOf lineage reservation.requestId with
  | none => none
  | some row =>
      if row.destinationTenantId ≠ reservation.destinationTenantId then none
      else some (row, { s with
        lineage := lineage
        request := s.request.map fun r => r.graduate reservation })

def keyIssuedEvent (reservation : Reservation) (p : Provisioned) : AuditEvent :=
  ⟨reservation.destinationTenantId, p.agentId, "auth.agent_api_key.issued", "created",
    "graduation-agent-api-key:" ++ reservation.requestId,
    .agentApiKeyIssued p.agentCreated reservation.destinationTenantId p.agentId p.credentialId
      p.expiresAt⟩

/-- The events a completion emits at its end. -/
def completionEvents (actorMemberId : String) (reservation : Reservation) (p : Provisioned) :
    List AuditEvent :=
  [⟨reservation.sourceTenantId, actorMemberId, "tenant.graduation.completed", "graduated",
      "graduation-completed:" ++ reservation.requestId,
      .graduationCompleted reservation.requestId reservation.destinationTenantId⟩,
    ⟨reservation.destinationTenantId, reservation.destinationMemberId, "tenant.created", "created",
      "graduation-destination-created:" ++ reservation.requestId,
      .tenantCreated reservation.requestId reservation.destinationTenantId
        reservation.destinationMemberId p.agentId⟩,
    ⟨reservation.destinationTenantId, reservation.destinationMemberId, "member.changed", "created",
      "graduation-bootstrap-member:" ++ reservation.requestId,
      .memberBootstrapped reservation.destinationMemberId reservation.destinationTenantId
        reservation.copiedFields.memberEmail reservation.copiedFields.memberDisplayName⟩] ++
    if p.issuedNow then [keyIssuedEvent reservation p] else []

/-- The emitter under an idempotency key: the same event once, another event refused. -/
def emit (event : AuditEvent) (events : List AuditEvent) : Option (List AuditEvent) :=
  match events.find? fun e => e.tenantId = event.tenantId ∧ e.idempotencyKey = event.idempotencyKey with
  | none => some (events ++ [event])
  | some hit => if hit = event then some events else none

end BrainCore.Graduation
