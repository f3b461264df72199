import BrainCore.Foundation.Json
import BrainCore.Foundation.Result
import BrainCore.Foundation.Text
import Mathlib.Data.Finset.Card

/-!
# Who may approve

`services/execution/src/members/authorizeApproval.ts`: whether a member may
approve a proposal, and whether the approval needs another one.
-/

namespace BrainCore.Members

open BrainCore.Foundation

inductive MemberRole where
  | admin
  | approver
  | viewer
deriving DecidableEq

def MemberRole.text : MemberRole → String
  | .admin => "admin"
  | .approver => "approver"
  | .viewer => "viewer"

inductive ApprovalDomain where
  | ap
  | ar
  | treasury
  | payroll
  | reconciliation
deriving DecidableEq

def ApprovalDomain.text : ApprovalDomain → String
  | .ap => "ap"
  | .ar => "ar"
  | .treasury => "treasury"
  | .payroll => "payroll"
  | .reconciliation => "reconciliation"

structure MemberAuthority where
  id : String
  email : String
  role : MemberRole
  active : Bool
  approvalDomains : List ApprovalDomain
  perItemLimitCents : Int
  requiresSecondApproverAboveCents : Option Int
deriving DecidableEq

inductive PayeeKind where
  | vendor
  | employee
deriving DecidableEq

structure ApprovalDomainSource where
  domain : ApprovalDomain
  amountCents : Int
  payeeKind : PayeeKind
  payeeEmail : Option String

inductive ApprovalRejectionReason where
  | actorUnresolved
  | actorInactive
  | domainNotAuthorized
  | actorLimitExceeded
  | secondApprovalRequired
  | selfApprovalBlocked
  | lastAdminProtected
deriving DecidableEq

def ApprovalRejectionReason.text : ApprovalRejectionReason → String
  | .actorUnresolved => "actor_unresolved"
  | .actorInactive => "actor_inactive"
  | .domainNotAuthorized => "domain_not_authorized"
  | .actorLimitExceeded => "actor_limit_exceeded"
  | .secondApprovalRequired => "second_approval_required"
  | .selfApprovalBlocked => "self_approval_blocked"
  | .lastAdminProtected => "last_admin_protected"

/-! ## The proposal of an intent -/

def paymentIntentPayeeKind (actionType : String) (counterpartyType : Option String) : PayeeKind :=
  if counterpartyType = some "employee" ∨ includes actionType.toList "payroll".toList then .employee
  else .vendor

def paymentIntentApprovalDomain (actionType : String) (payeeKind : PayeeKind) : ApprovalDomain :=
  if payeeKind = .employee ∨ includes actionType.toList "payroll".toList then .payroll
  else if actionType = "ach_inbound" then .ar
  else if actionType = "erp_writeback" then .reconciliation
  else .ap

/-- Larger than any limit, for an amount that cannot be read. -/
def unparseableAmountCents : Int := 9223372036854775808

/-- Cents of an amount, rounded up. -/
def decimalAmountToCents (value : String) : Int :=
  let trimmed := trim value.toList
  let int := trimmed.takeWhile Char.isDigit
  let rest := trimmed.dropWhile Char.isDigit
  let frac := rest.tail
  if int = [] ∨ ¬(rest = [] ∨ rest.head? = some '.' ∧ frac ≠ [] ∧ frac.all Char.isDigit) then
    unparseableAmountCents
  else
    let whole := natOf int * 100
    let cents := natOf (padEndSlice 2 frac)
    let roundUp := if (frac.drop 2).any fun c => c ≠ '0' then 1 else 0
    (whole + cents + roundUp : Nat)

/-- Trimmed, in lower case and without a tag; `none` when it is no address. -/
def normalizeApprovalEmail (email : Option String) : Option (List Char) :=
  email.bind fun email =>
    let trimmed := (trim email.toList).map Char.toLower
    let name := trimmed.takeWhile (· ≠ '@')
    let host := (trimmed.dropWhile (· ≠ '@')).tail
    if name = [] ∨ host = [] then none else some (name.takeWhile (· ≠ '+') ++ '@' :: host)

/-! ## The authorization -/

structure AuthorizeApprovalInput where
  actorMemberId : String
  member : Option MemberAuthority
  proposal : ApprovalDomainSource
  existingApproverMemberIds : List String
  requiredDistinctApprovals : Nat

structure ApprovalRejection where
  reason : ApprovalRejectionReason
  detail : List (String × Json)

def reject {α : Type} (reason : ApprovalRejectionReason) (detail : List (String × Json)) :
    Except ApprovalRejection α :=
  .error ⟨reason, ("reason", .str reason.text) :: detail⟩

structure ApprovalGrant where
  requiresAdditionalApproval : Bool
  approverRole : MemberRole

def isApprovalCapableRole : MemberRole → Bool
  | .admin | .approver => true
  | .viewer => false

/-- The payee is the member, or an employee nobody could identify. -/
def selfApproval (member : MemberAuthority) (proposal : ApprovalDomainSource) :
    Option (List (String × Json)) :=
  match normalizeApprovalEmail proposal.payeeEmail with
  | none =>
      if proposal.payeeKind = .employee then
        some [("member_id", .str member.id), ("payee_unresolved", .bool true)]
      else none
  | some payee =>
      if some payee = normalizeApprovalEmail (some member.email) then
        some [("member_id", .str member.id),
          ("payee_email", (proposal.payeeEmail.map Json.str).getD .null)]
      else none

/-- The checks on the member alone. -/
def checkAuthority (member : MemberAuthority) (proposal : ApprovalDomainSource) :
    Except ApprovalRejection Unit :=
  if ¬member.active then reject .actorInactive [("member_id", .str member.id)]
  else if ¬isApprovalCapableRole member.role then
    reject .domainNotAuthorized [("member_id", .str member.id), ("role", .str member.role.text)]
  else if proposal.domain ∉ member.approvalDomains then
    reject .domainNotAuthorized
      [("member_id", .str member.id), ("domain", .str proposal.domain.text),
        ("allowed_domains", .arr (member.approvalDomains.map fun d => .str d.text))]
  else if member.perItemLimitCents < proposal.amountCents then
    reject .actorLimitExceeded
      [("member_id", .str member.id), ("amount_cents", .str (toString proposal.amountCents)),
        ("limit_cents", .str (toString member.perItemLimitCents))]
  else
    match selfApproval member proposal with
    | some detail => reject .selfApprovalBlocked detail
    | none => .ok ()

/-- The amount is above the member's own dual-control threshold. -/
def aboveOwnThreshold (member : MemberAuthority) (proposal : ApprovalDomainSource) : Bool :=
  member.requiresSecondApproverAboveCents.any fun threshold => threshold < proposal.amountCents

/-- At least the policy's number, and two above the member's own threshold. -/
def distinctApprovals (member : MemberAuthority) (proposal : ApprovalDomainSource)
    (required : Nat) : Nat :=
  if aboveOwnThreshold member proposal then max (max 1 required) 2 else max 1 required

def authorizeApproval (input : AuthorizeApprovalInput) : Except ApprovalRejection ApprovalGrant :=
  match input.member with
  | none => reject .actorUnresolved [("member_id", .str input.actorMemberId)]
  | some member => do
      checkAuthority member input.proposal
      let required := distinctApprovals member input.proposal input.requiredDistinctApprovals
      let existing := input.existingApproverMemberIds.toFinset
      if 1 < required ∧ member.id ∈ existing then
        reject .secondApprovalRequired
          [("member_id", .str member.id), ("required_distinct_approvals", .num required)]
      else pure ⟨1 < required ∧ existing.card + 1 < required, member.role⟩

/-! ## What a grant says -/

/-- The member may approve the proposal, whoever else has. -/
def mayApprove (member : MemberAuthority) (proposal : ApprovalDomainSource) : Bool :=
  (checkAuthority member proposal).isOk

theorem mayApprove_iff {member : MemberAuthority} {proposal : ApprovalDomainSource} :
    mayApprove member proposal = true ↔ checkAuthority member proposal = .ok () := by
  unfold mayApprove
  cases checkAuthority member proposal <;> simp [Except.isOk, Except.toBool]

theorem role_of_mayApprove {member : MemberAuthority} {proposal : ApprovalDomainSource}
    (h : mayApprove member proposal = true) : member.role = .admin ∨ member.role = .approver := by
  rw [mayApprove_iff] at h
  have hcapable : isApprovalCapableRole member.role = true := by
    by_contra hviewer
    unfold checkAuthority at h
    split at h
    · cases h
    · cases h
  cases hrole : member.role with
  | admin => exact .inl rfl
  | approver => exact .inr rfl
  | viewer =>
      rw [hrole] at hcapable
      cases hcapable

/-- An authorization that is granted, and whether it asks for another approval. -/
theorem authorizeApproval_ok {input : AuthorizeApprovalInput} {grant : ApprovalGrant}
    (h : authorizeApproval input = .ok grant) :
    ∃ member, input.member = some member ∧ mayApprove member input.proposal = true ∧
      grant.approverRole = member.role ∧
      (grant.requiresAdditionalApproval = true ↔
        1 < distinctApprovals member input.proposal input.requiredDistinctApprovals ∧
          input.existingApproverMemberIds.toFinset.card + 1 <
            distinctApprovals member input.proposal input.requiredDistinctApprovals) := by
  unfold authorizeApproval at h
  cases hmember : input.member with
  | none =>
      rw [hmember] at h
      cases h
  | some member =>
      rw [hmember] at h
      obtain ⟨_, hauthority, h⟩ := bind_ok.mp h
      dsimp only at h
      split at h
      · cases h
      · obtain rfl := pure_ok.mp h
        exact ⟨member, rfl, mayApprove_iff.mpr hauthority, rfl, by simp⟩

/-- A member who may approve and has not signed is granted the approval. -/
theorem authorizeApproval_fresh {input : AuthorizeApprovalInput} {member : MemberAuthority}
    (hmember : input.member = some member) (hmay : mayApprove member input.proposal = true)
    (hfresh : member.id ∉ input.existingApproverMemberIds) :
    authorizeApproval input = .ok
      ⟨1 < distinctApprovals member input.proposal input.requiredDistinctApprovals ∧
        input.existingApproverMemberIds.toFinset.card + 1 <
          distinctApprovals member input.proposal input.requiredDistinctApprovals, member.role⟩ := by
  unfold authorizeApproval
  rw [hmember]
  refine bind_ok.mpr ⟨(), mayApprove_iff.mp hmay, ?_⟩
  dsimp only
  rw [if_neg fun h => hfresh (List.mem_toFinset.mp h.2)]
  rfl

end BrainCore.Members
