import BrainCore.Audit.RecordText
import BrainCore.Surfaces.ApprovalPipeline

/-!
# The content hash of a proposal

`packages/surfaces/src/proposal/schema.ts` and `hash.ts`.  The hash covers the fields an
approver is shown; the severity, the time of creation and the execution target are not
among them.
-/

namespace BrainCore.Surfaces

open BrainCore.Foundation BrainCore.Audit

inductive SurfaceAgent where
  | invoice | collections | cash | close
deriving DecidableEq

def SurfaceAgent.text : SurfaceAgent → String
  | .invoice => "invoice"
  | .collections => "collections"
  | .cash => "cash"
  | .close => "close"

theorem SurfaceAgent.text_injective : Function.Injective SurfaceAgent.text := by
  intro first second
  cases first <;> cases second <;> decide

def SurfacePayeeKind.text : SurfacePayeeKind → String
  | .vendor => "vendor"
  | .employee => "employee"
  | .payroll => "payroll"
  | .other => "other"

theorem SurfacePayeeKind.text_injective : Function.Injective SurfacePayeeKind.text := by
  intro first second
  cases first <;> cases second <;> decide

/-- One line of evidence behind a claim. -/
structure EvidenceItem where
  label : String
  value : String
  href : Option String := none
deriving DecidableEq

structure RecommendedAction where
  summary : String
  handoff : String
  payload : List (String × Json) := []
  amount : Option MinorAmount

/-- The payment intent that an accepted approval advances. -/
structure ExecutionTarget where
  id : String
deriving DecidableEq

structure ProposalPayee extends Payee where
  counterpartyId : Option String
deriving DecidableEq

structure PolicyResult where
  gates : List String
  approverRoles : List String
  requiresDualApproval : Bool := false
deriving DecidableEq

structure Proposal where
  id : String
  tenantId : String
  agent : SurfaceAgent
  severity : Severity := .warning
  title : String
  claim : String
  evidence : List EvidenceItem := []
  action : RecommendedAction
  executionTarget : Option ExecutionTarget := none
  payee : Option ProposalPayee := none
  policy : PolicyResult
  expiresAt : String
  createdAt : String
  contentHash : Option String := none

/-! ## What is hashed -/

def EvidenceItem.fields (item : EvidenceItem) : RecordFields :=
  [("label", some (.str item.label)), ("value", some (.str item.value)),
    ("href", item.href.map .str)]

def MinorAmount.fields (amount : MinorAmount) : RecordFields :=
  [("currency", some (.str amount.currency)), ("minorUnits", some (.num amount.minorUnits))]

def RecommendedAction.fields (action : RecommendedAction) : RecordFields :=
  [("summary", some (.str action.summary)), ("handoff", some (.str action.handoff)),
    ("payload", some (.obj action.payload)),
    ("amount", action.amount.map fun amount => record amount.fields)]

def ProposalPayee.fields (payee : ProposalPayee) : RecordFields :=
  [("kind", some (.str payee.kind.text)), ("email", payee.email.map .str),
    ("counterpartyId", payee.counterpartyId.map .str)]

def PolicyResult.fields (policy : PolicyResult) : RecordFields :=
  [("gates", some (.arr (policy.gates.map .str))),
    ("approverRoles", some (.arr (policy.approverRoles.map .str))),
    ("requiresDualApproval", some (.bool policy.requiresDualApproval))]

/-- The literal that `hashProposal` hands to `stableStringify`. -/
def Proposal.hashed (p : Proposal) : RecordFields :=
  [("id", some (.str p.id)), ("tenantId", some (.str p.tenantId)),
    ("agent", some (.str p.agent.text)), ("title", some (.str p.title)),
    ("claim", some (.str p.claim)),
    ("evidence", some (.arr (p.evidence.map fun item => record item.fields))),
    ("action", some (record p.action.fields)),
    ("payee", p.payee.map fun payee => record payee.fields),
    ("policy", some (record p.policy.fields)), ("expiresAt", some (.str p.expiresAt))]

def hashProposal (sha256 : List Char → String) (p : Proposal) : String :=
  sha256 (stringifyFields p.hashed)

def withContentHash (sha256 : List Char → String) (p : Proposal) : Proposal :=
  { p with contentHash := some (hashProposal sha256 p) }

/-! ## The names of each record -/

theorem EvidenceItem.names (item : EvidenceItem) :
    item.fields.map Prod.fst = ["label", "value", "href"] := rfl

theorem EvidenceItem.nodup : ["label", "value", "href"].Nodup := by decide

theorem MinorAmount.names (amount : MinorAmount) :
    amount.fields.map Prod.fst = ["currency", "minorUnits"] := rfl

theorem MinorAmount.nodup : ["currency", "minorUnits"].Nodup := by decide

theorem RecommendedAction.names (action : RecommendedAction) :
    action.fields.map Prod.fst = ["summary", "handoff", "payload", "amount"] := rfl

theorem RecommendedAction.nodup : ["summary", "handoff", "payload", "amount"].Nodup := by decide

theorem ProposalPayee.names (payee : ProposalPayee) :
    payee.fields.map Prod.fst = ["kind", "email", "counterpartyId"] := rfl

theorem ProposalPayee.nodup : ["kind", "email", "counterpartyId"].Nodup := by decide

theorem PolicyResult.names (policy : PolicyResult) :
    policy.fields.map Prod.fst = ["gates", "approverRoles", "requiresDualApproval"] := rfl

theorem PolicyResult.nodup : ["gates", "approverRoles", "requiresDualApproval"].Nodup := by decide

theorem Proposal.names (p : Proposal) : p.hashed.map Prod.fst =
    ["id", "tenantId", "agent", "title", "claim", "evidence", "action", "payee", "policy",
      "expiresAt"] := rfl

theorem Proposal.nodup : ["id", "tenantId", "agent", "title", "claim", "evidence", "action",
    "payee", "policy", "expiresAt"].Nodup := by decide

/-! ## Equal hashes -/

/-- The proposals are the same in all that is hashed; a payload is up to the order of its names. -/
structure Agrees (p q : Proposal) : Prop where
  id : p.id = q.id
  tenantId : p.tenantId = q.tenantId
  agent : p.agent = q.agent
  title : p.title = q.title
  claim : p.claim = q.claim
  evidence : p.evidence = q.evidence
  summary : p.action.summary = q.action.summary
  handoff : p.action.handoff = q.action.handoff
  payload : ordered (.obj p.action.payload) = ordered (.obj q.action.payload)
  amount : p.action.amount = q.action.amount
  payee : p.payee = q.payee
  policy : p.policy = q.policy
  expiresAt : p.expiresAt = q.expiresAt

theorem str_injective : Function.Injective Json.str := fun _ _ h => Json.str.inj h

@[simp]
theorem ordered_str (value : String) : ordered (.str value) = .str value := rfl

@[simp]
theorem ordered_bool (value : Bool) : ordered (.bool value) = .bool value := rfl

@[simp]
theorem ordered_num (value : Rat) : ordered (.num value) = .num value := rfl

theorem orderedItems_map {α : Type} (f : α → Json) (items : List α) :
    orderedItems (items.map f) = items.map fun item => ordered (f item) := by
  induction items with
  | nil => rfl
  | cons item rest ih => exact List.cons_eq_cons.mpr ⟨rfl, ih⟩

theorem ordered_strs (values : List String) :
    ordered (.arr (values.map .str)) = .arr (values.map .str) :=
  congrArg Json.arr (orderedItems_map _ values)

theorem ordered_optional (value : Option String) :
    (value.map Json.str).map ordered = value.map .str := by
  cases value <;> rfl

theorem optional_inj {first second : Option String}
    (h : first.map Json.str = second.map Json.str) : first = second :=
  Option.map_injective str_injective h

theorem record_evidence_injective :
    Function.Injective fun item : EvidenceItem => ordered (record item.fields) := by
  intro first second h
  have hfields := (ordered_record_eq_iff EvidenceItem.nodup first.names second.names).mp h
  simp only [EvidenceItem.fields, orderedFields, List.map_cons, List.map_nil, Option.map_some,
    ordered_str, ordered_optional, List.cons.injEq, Prod.mk.injEq, Option.some.injEq,
    Json.str.injEq, true_and, and_true] at hfields
  obtain ⟨hlabel, hvalue, hhref⟩ := hfields
  cases first
  cases second
  cases hlabel
  cases hvalue
  cases optional_inj hhref
  rfl

theorem record_amount_injective :
    Function.Injective fun amount : MinorAmount => ordered (record amount.fields) := by
  intro first second h
  have hfields := (ordered_record_eq_iff MinorAmount.nodup first.names second.names).mp h
  simp only [MinorAmount.fields, orderedFields, List.map_cons, List.map_nil, Option.map_some,
    ordered_str, ordered_num, List.cons.injEq, Prod.mk.injEq, Option.some.injEq,
    Json.str.injEq, Json.num.injEq, Int.cast_inj, true_and, and_true] at hfields
  obtain ⟨hcurrency, hunits⟩ := hfields
  cases first
  cases second
  cases hcurrency
  cases hunits
  rfl

theorem record_payee_injective :
    Function.Injective fun payee : ProposalPayee => ordered (record payee.fields) := by
  intro first second h
  have hfields := (ordered_record_eq_iff ProposalPayee.nodup first.names second.names).mp h
  simp only [ProposalPayee.fields, orderedFields, List.map_cons, List.map_nil, Option.map_some,
    ordered_str, ordered_optional, List.cons.injEq, Prod.mk.injEq, Option.some.injEq,
    Json.str.injEq, true_and, and_true] at hfields
  obtain ⟨hkind, hemail, hcounterparty⟩ := hfields
  obtain ⟨⟨kind, email⟩, counterpartyId⟩ := first
  obtain ⟨⟨kind', email'⟩, counterpartyId'⟩ := second
  cases SurfacePayeeKind.text_injective hkind
  cases optional_inj hemail
  cases optional_inj hcounterparty
  rfl

theorem record_policy_injective :
    Function.Injective fun policy : PolicyResult => ordered (record policy.fields) := by
  intro first second h
  have hfields := (ordered_record_eq_iff PolicyResult.nodup first.names second.names).mp h
  simp only [PolicyResult.fields, orderedFields, List.map_cons, List.map_nil, Option.map_some,
    ordered_strs, ordered_bool, List.cons.injEq, Prod.mk.injEq, Option.some.injEq,
    Json.arr.injEq, Json.bool.injEq, true_and, and_true] at hfields
  obtain ⟨hgates, hroles, hdual⟩ := hfields
  cases first
  cases second
  cases str_injective.list_map hgates
  cases str_injective.list_map hroles
  cases hdual
  rfl

theorem record_action_eq_iff {first second : RecommendedAction} :
    ordered (record first.fields) = ordered (record second.fields) ↔
      first.summary = second.summary ∧ first.handoff = second.handoff ∧
        ordered (.obj first.payload) = ordered (.obj second.payload) ∧
          first.amount = second.amount := by
  refine (ordered_record_eq_iff RecommendedAction.nodup first.names second.names).trans ?_
  have hamount : (first.amount.map fun amount => record amount.fields).map ordered =
      (second.amount.map fun amount => record amount.fields).map ordered ↔
        first.amount = second.amount := by
    rw [Option.map_map, Option.map_map]
    exact (Option.map_injective record_amount_injective).eq_iff
  simp only [RecommendedAction.fields, orderedFields, List.map_cons, List.map_nil,
    Option.map_some, ordered_str, List.cons.injEq, Prod.mk.injEq, Option.some.injEq,
    Json.str.injEq, true_and, and_true, hamount]

/-- With no collision, an equal hash is agreement on every hashed field. -/
theorem hashProposal_eq_iff {sha256 : List Char → String} (hsha : Function.Injective sha256)
    {p q : Proposal} : hashProposal sha256 p = hashProposal sha256 q ↔ Agrees p q := by
  refine hsha.eq_iff.trans ((stringifyFields_eq_iff Proposal.nodup p.names q.names).trans ?_)
  have hevidence : ordered (.arr (p.evidence.map fun item => record item.fields)) =
      ordered (.arr (q.evidence.map fun item => record item.fields)) ↔
        p.evidence = q.evidence := by
    rw [ordered, ordered, Json.arr.injEq, orderedItems_map, orderedItems_map]
    exact record_evidence_injective.list_map.eq_iff
  have hpayee : (p.payee.map fun payee => record payee.fields).map ordered =
      (q.payee.map fun payee => record payee.fields).map ordered ↔ p.payee = q.payee := by
    rw [Option.map_map, Option.map_map]
    exact (Option.map_injective record_payee_injective).eq_iff
  simp only [Proposal.hashed, orderedFields, List.map_cons, List.map_nil, Option.map_some,
    ordered_str, List.cons.injEq, Prod.mk.injEq, Option.some.injEq, Json.str.injEq, true_and,
    and_true, hevidence, hpayee, record_action_eq_iff, record_policy_injective.eq_iff,
    SurfaceAgent.text_injective.eq_iff]
  constructor
  · rintro ⟨hid, htenant, hagent, htitle, hclaim, hevidence,
      ⟨hsummary, hhandoff, hpayload, hamount⟩, hpayee, hpolicy, hexpires⟩
    exact ⟨hid, htenant, hagent, htitle, hclaim, hevidence, hsummary, hhandoff, hpayload, hamount,
      hpayee, hpolicy, hexpires⟩
  · intro h
    exact ⟨h.id, h.tenantId, h.agent, h.title, h.claim, h.evidence,
      ⟨h.summary, h.handoff, h.payload, h.amount⟩, h.payee, h.policy, h.expiresAt⟩

/-!
## Proposals saved, shown and approved

`PostgresSurfaceProposalStore` of `services/surface-gateway/src/storage.ts`, the
`Dispatcher` of `packages/surfaces/src/core/dispatcher.ts`, and the approval pipeline of
every proposal: saves, dispatches, clicks on delivered messages and the steps of the
calls they start come in any order.
-/

open Foundation

/-- The primary key of `surface_proposals`. -/
structure ProposalKey where
  tenantId : String
  proposalId : String
deriving DecidableEq

def Proposal.key (p : Proposal) : ProposalKey := ⟨p.tenantId, p.id⟩

/-- A row of `surface_proposals`. -/
structure ProposalRow where
  proposal : Proposal
  contentHash : String

/-- Where a proposal is delivered. -/
structure DeliveryTarget where
  surface : SurfaceName
  recipient : String
deriving DecidableEq

/-- A message that has reached its target. -/
structure Delivery where
  target : DeliveryTarget
  proposal : Proposal

/-- The message a click came from, and the proposal it loaded. -/
structure Load where
  shown : Proposal
  loaded : Proposal

/-- A call of `execution.enqueue`, with the event its click recorded. -/
structure ShownHandoff where
  key : ProposalKey
  shown : Proposal
  executed : Proposal
  event : DecidedEvent

structure SurfaceWorld where
  rows : ProposalKey → Option ProposalRow := fun _ => none
  deliveries : List Delivery := []
  pipelines : ProposalKey → PipelineWorld := fun key =>
    { tenantId := key.tenantId, proposalId := key.proposalId }
  /-- What the calls of each pipeline came from, by the number of the call. -/
  loads : ProposalKey → Nat → Option Load := fun _ _ => none
  /-- The proposals saved and dispatched, as they were. -/
  known : List Proposal := []
  handoffs : List ShownHandoff := []

/-- A content hash that comes with the proposal is kept. -/
def savedProposal (sha256 : List Char → String) (p : Proposal) : Proposal :=
  match p.contentHash with
  | none => withContentHash sha256 p
  | some hash => if hash = "" then withContentHash sha256 p else p

/-- What the identity and policy ports answer a click, and the clock. -/
structure ClickAnswers where
  expired : Bool
  actorId : Option String
  verdict : EngineAnswer
  decidedAt : String

inductive SurfaceLabel where
  | save (p : Proposal)
  | dispatch (p : Proposal) (expired : Bool) (reached : List DeliveryTarget)
  /-- A decision on a delivered message. -/
  | click (message : Nat) (incoming : IncomingDecision) (answers : ClickAnswers)
  /-- The next step of a call. -/
  | advance (key : ProposalKey) (label : PipelineLabel)

namespace SurfaceWorld

def save (sha256 : List Char → String) (s : SurfaceWorld) (p : Proposal) : SurfaceWorld :=
  let proposal := savedProposal sha256 p
  { s with
    rows := fun key =>
      if key = proposal.key then some ⟨proposal, proposal.contentHash.getD ""⟩ else s.rows key
    known := s.known ++ [proposal] }

/-- The row's hash takes the place of the proposal's. -/
def load (s : SurfaceWorld) (key : ProposalKey) : Option Proposal :=
  (s.rows key).map fun row => { row.proposal with contentHash := some row.contentHash }

/-- The dispatcher hashes once more, and refuses what has expired. -/
def dispatch (sha256 : List Char → String) (s : SurfaceWorld) (p : Proposal) (expired : Bool)
    (reached : List DeliveryTarget) : SurfaceWorld :=
  if expired then s
  else
    { s with
      deliveries := s.deliveries ++ reached.map fun target => ⟨target, withContentHash sha256 p⟩
      known := s.known ++ [withContentHash sha256 p] }

def clickReads (s : SurfaceWorld) (key : ProposalKey) (answers : ClickAnswers) : ClickReads where
  proposal := (s.load key).map fun proposal =>
    ⟨proposal.contentHash.getD "", answers.expired, proposal.executionTarget.isSome⟩
  actorId := answers.actorId
  verdict := answers.verdict
  decidedAt := answers.decidedAt

def setPipeline (s : SurfaceWorld) (key : ProposalKey) (pipeline : PipelineWorld) :
    ProposalKey → PipelineWorld := fun k => if k = key then pipeline else s.pipelines k

def click (s : SurfaceWorld) (shown : Proposal) (incoming : IncomingDecision)
    (answers : ClickAnswers) : SurfaceWorld :=
  { s with
    pipelines := s.setPipeline shown.key
      ((s.pipelines shown.key).start incoming (s.clickReads shown.key answers))
    loads := fun key i =>
      if key = shown.key ∧ i = (s.pipelines shown.key).calls.length then
        (s.load shown.key).map fun loaded => ⟨shown, loaded⟩
      else s.loads key i }

/-- What a step of a pipeline hands to execution. -/
def handsOff (s : SurfaceWorld) (key : ProposalKey) : PipelineLabel → Option ShownHandoff
  | .enqueue i _ =>
      (s.pipelines key).calls[i]?.bind fun call => (s.loads key i).map fun load =>
        ⟨key, load.shown, load.loaded,
          (s.pipelines key).decidedEvent call.click call.click.record⟩
  | _ => none

def advance (s : SurfaceWorld) (key : ProposalKey) (label : PipelineLabel) :
    Option SurfaceWorld :=
  (pipelineMachine.step (s.pipelines key) label).map fun pipeline =>
    { s with
      pipelines := s.setPipeline key pipeline
      handoffs := s.handoffs ++ (s.handsOff key label).toList }

end SurfaceWorld

def surfaceStep (sha256 : List Char → String) (s : SurfaceWorld) :
    SurfaceLabel → Option SurfaceWorld
  | .save p => some (s.save sha256 p)
  | .dispatch p expired reached => some (s.dispatch sha256 p expired reached)
  | .click message incoming answers =>
      s.deliveries[message]?.bind fun delivery =>
        if incoming.surface = delivery.target.surface then
          some (s.click delivery.proposal incoming answers)
        else none
  | .advance key label => if label.of.isSome then s.advance key label else none

def surfaceMachine (sha256 : List Char → String) : Machine SurfaceWorld SurfaceLabel :=
  ⟨surfaceStep sha256⟩

end BrainCore.Surfaces
