import BrainCore.Foundation.Machine
import BrainCore.Foundation.Table
import BrainCore.Ledger.PaymentIntents
import BrainCore.Members.AuthorizeApproval
import BrainCore.Shared.ApproverRoles

/-!
# Signed approvals

The rows of the `approvals` table for one payment intent, and
`services/execution/src/approvals/ApprovalService.ts` over them: a principal
signs once, and a signature counts while it is valid under the active policy
version.
-/

namespace BrainCore.Members

open BrainCore.Foundation

inductive ApprovalStatus where
  | valid
  | stale
  | revoked
deriving DecidableEq

structure ApprovalRow where
  id : String
  approverPrincipalId : String
  approverRole : Option String
  policyVersion : Option Nat
  revoked : Bool := false
  status : ApprovalStatus := .valid
deriving DecidableEq

/-- `UNIQUE (tenant_id, subject_type, subject_id, approver_principal_id)`. -/
abbrev Approvals := Table ApprovalRow.approverPrincipalId

namespace Approvals

/-- `sign`; `none` when the principal has signed before. -/
def sign (approvals : Approvals) (id principalId : String) (role : Option String)
    (policyVersion : Option Nat) : Option Approvals :=
  approvals.insert?
    { id, approverPrincipalId := principalId, approverRole := role, policyVersion }

/-- A valid signature under another version than the active one turns stale. -/
def markStaleForSupersededVersion (approvals : Approvals) (activeVersion : Nat) : Approvals :=
  approvals.updateWhere
    (fun row => row.status = .valid ∧ row.policyVersion ≠ none ∧
      row.policyVersion ≠ some activeVersion)
    (fun row => { row with status := .stale }) fun _ => rfl

/-- The signature counts under the active version. -/
def counts (activeVersion : Option Nat) (row : ApprovalRow) : Bool :=
  row.status = .valid && !row.revoked &&
    (activeVersion = none || row.policyVersion = none || row.policyVersion = activeVersion)

def listValidApprovals (approvals : Approvals) (activeVersion : Option Nat) : List ApprovalRow :=
  approvals.rows.filter (counts activeVersion)

/-- The roles of the gate's check 11; superseded signatures are marked stale on the way. -/
def signedValidRoles (approvals : Approvals) (activeVersion : Option Nat) :
    Approvals × List String :=
  let approvals := match activeVersion with
    | none => approvals
    | some version => approvals.markStaleForSupersededVersion version
  (approvals, (approvals.listValidApprovals activeVersion).filterMap (·.approverRole))

/-- Marking superseded signatures does not touch the ones that count. -/
theorem listValidApprovals_markStale (approvals : Approvals) (version : Nat) :
    (approvals.markStaleForSupersededVersion version).listValidApprovals (some version) =
      approvals.listValidApprovals (some version) := by
  unfold listValidApprovals markStaleForSupersededVersion Table.updateWhere
  dsimp only
  induction approvals.rows with
  | nil => rfl
  | cons row rest ih =>
      rw [List.map_cons]
      by_cases hstale : row.status = .valid ∧ row.policyVersion ≠ none ∧
          row.policyVersion ≠ some version
      · have hcount : counts (some version) row = false := by
          simp [counts, hstale.2.1, hstale.2.2]
        rw [if_pos (by simpa using hstale), List.filter_cons_of_neg (by simp [counts]),
          List.filter_cons_of_neg (by simp [hcount]), ih]
      · rw [if_neg (by simpa using hstale)]
        by_cases hcount : counts (some version) row = true
        · rw [List.filter_cons_of_pos hcount, List.filter_cons_of_pos hcount, ih]
        · rw [List.filter_cons_of_neg hcount, List.filter_cons_of_neg hcount, ih]

/-- The roles that count are those of the valid signatures. -/
theorem signedValidRoles_eq (approvals : Approvals) (version : Nat) :
    (approvals.signedValidRoles (some version)).2 =
      (approvals.listValidApprovals (some version)).filterMap (·.approverRole) := by
  unfold signedValidRoles
  dsimp only
  rw [listValidApprovals_markStale]

theorem sign_eq_some {approvals next : Approvals} {id principalId : String} {role : Option String}
    {policyVersion : Option Nat} (h : approvals.sign id principalId role policyVersion = some next) :
    principalId ∉ approvals.rows.map (·.approverPrincipalId) ∧
      next.rows = approvals.rows ++
        [{ id, approverPrincipalId := principalId, approverRole := role, policyVersion }] := by
  refine ⟨fun hmem => ?_, Table.insert?_rows h⟩
  obtain ⟨row, hrow, hid⟩ := List.mem_map.mp hmem
  have hfresh := Table.insert?_fresh h
  rw [← hid, Table.find?_key hrow] at hfresh
  cases hfresh

end Approvals

/-!
## Approving a payment intent

`approve` of `services/execution/src/payment-intents/PaymentIntentService.ts`
counts distinct approvers, while the gate asks for the role quorum.  A run is
any sequence of calls; a call may be cut short by a dependency that throws.
-/

open BrainCore.Foundation BrainCore.Gate BrainCore.Ledger BrainCore.Policy BrainCore.Shared

/-! ## The operation -/

/-- What `approve` reads and no call changes. -/
structure ApprovalDesk where
  intentId : String
  members : Table MemberAuthority.id
  counterpartyType : Option String
  payeeEmail : Option String
  activeVersion : Nat
  /-- `resolveActivePolicyVersion` is wired. -/
  recordsVersion : Bool

structure ApprovalState where
  intents : PaymentIntents
  approvals : Approvals

/-- Where a dependency throws. -/
inductive ApproveFault where
  | beforeSign
  | afterSign
  | afterAppend
  | afterDecision
deriving DecidableEq

structure ApproveCall where
  memberId : String
  approvalId : String
  /-- `required_approvers` of the fresh policy decision. -/
  requiredApprovers : List String
  now : Instant
  fault : Option ApproveFault := none

structure ApproveError where
  code : String
  message : String
deriving DecidableEq

def ApprovalDesk.proposal (desk : ApprovalDesk) (intent : PaymentIntentRow) :
    ApprovalDomainSource :=
  let payeeKind := paymentIntentPayeeKind intent.actionType.text desk.counterpartyType
  { domain := paymentIntentApprovalDomain intent.actionType.text payeeKind
    amountCents := decimalAmountToCents intent.amount.text.text
    payeeKind
    payeeEmail := desk.payeeEmail }

def ApprovalDesk.signedVersion (desk : ApprovalDesk) : Option Nat :=
  if desk.recordsVersion then some desk.activeVersion else none

def threw (message : String) : Except ApproveError PaymentIntentState :=
  .error ⟨"internal_server_error", message⟩

/-- The transition an approval leads to. -/
def settleApproval (desk : ApprovalDesk) (s : ApprovalState) (call : ApproveCall)
    (status : PaymentIntentState) (additional : Bool) :
    ApprovalState × Except ApproveError PaymentIntentState :=
  let source := if additional then .pendingApproval else status
  let target : PaymentIntentState := if additional then .awaitingSecondApproval else .approved
  match s.intents.transition desk.intentId source target call.now with
  | none =>
      (s, .error ⟨"payment_intent_invalid_state",
        "PaymentIntent moved between approve and authorization"⟩)
  | some intents =>
      ({ s with intents },
        if call.fault = some .afterDecision then threw "audit event lost" else .ok target)

/-- The signature, its id on the intent and the transition. -/
def signApproval (desk : ApprovalDesk) (s : ApprovalState) (call : ApproveCall)
    (status : PaymentIntentState) (grant : ApprovalGrant) :
    ApprovalState × Except ApproveError PaymentIntentState :=
  if call.fault = some .beforeSign then (s, threw "signer refused")
  else
    match s.approvals.sign call.approvalId call.memberId (some grant.approverRole.text)
        desk.signedVersion with
    | none =>
        (s, .error ⟨"approval_duplicate_signer", "principal has already signed this subject"⟩)
    | some approvals =>
        if call.fault = some .afterSign then ({ s with approvals }, threw "approval not appended")
        else
          let s := { s with
            approvals
            intents := s.intents.appendApprovalId desk.intentId call.approvalId call.now }
          if call.fault = some .afterAppend then (s, threw "decision not audited")
          else settleApproval desk s call status grant.requiresAdditionalApproval

def approve (desk : ApprovalDesk) (s : ApprovalState) (call : ApproveCall) :
    ApprovalState × Except ApproveError PaymentIntentState :=
  match s.intents.find? desk.intentId with
  | none => (s, .error ⟨"payment_intent_not_found", "PaymentIntent not found"⟩)
  | some intent =>
      if intent.status ≠ .pendingApproval ∧ intent.status ≠ .awaitingSecondApproval then
        (s, .error ⟨"payment_intent_invalid_state", "cannot approve PaymentIntent"⟩)
      else
        match authorizeApproval
          { actorMemberId := call.memberId
            member := desk.members.find? call.memberId
            proposal := desk.proposal intent
            existingApproverMemberIds := s.approvals.rows.map (·.approverPrincipalId)
            requiredDistinctApprovals := max 1 call.requiredApprovers.length } with
        | .error rejection => (s, .error ⟨"payment_intent_approval_invalid", rejection.reason.text⟩)
        | .ok grant => signApproval desk s call intent.status grant

/-- Calls one after the other; every call ends, with a result or an error. -/
def approveMachine (desk : ApprovalDesk) : Machine ApprovalState ApproveCall :=
  ⟨fun s call => some (approve desk s call).1⟩

/-!
## Signing again

`sign` and `signAndCheckRequiredApprovals` of
`services/execution/src/approvals/ApprovalService.ts` on the signatures of one
subject.  The second keeps the signature that it finds, whatever has become of
it, so that it succeeds for an approver whose earlier signature no longer
counts.
-/

open BrainCore.Foundation BrainCore.Shared

inductive SignError where
  | approvalSignerRevoked (signerId : String)
  | approvalCrossTenant (signerTenant ownerTenant : String)
  | approvalDuplicateSigner (signerId existingApprovalId : String)
  | uniqueViolation
deriving DecidableEq

/-- A call by the principal `ctx.actor`, with the answers of the collaborators; one that is not
configured is `none`. -/
structure SignCall where
  actor : String
  tenantId : String
  isApproverActive : Option Bool := none
  subjectOwnerTenant : Option String := none
  activePolicyVersion : Option Nat := none
  role : Option String := none
  resolvedRole : Option String := none
  approvalId : String

namespace SignCall

variable (call : SignCall)

/-- `role ?? (await resolveRole(…)) ?? null`. -/
def approverRole : Option String := call.role.or call.resolvedRole

/-- The guards before anything is written. -/
def guardSigner : Except SignError Unit :=
  if call.isApproverActive = some false then .error (.approvalSignerRevoked call.actor)
  else
    match call.subjectOwnerTenant with
    | none => .ok ()
    | some owner =>
        if owner ≠ call.tenantId then .error (.approvalCrossTenant call.tenantId owner) else .ok ()

def insertApproval (approvals : Approvals) : Except SignError Approvals :=
  match approvals.sign call.approvalId call.actor call.approverRole call.activePolicyVersion with
  | none => .error .uniqueViolation
  | some next => .ok next

end SignCall

namespace Approvals

/-- The signatures afterwards. -/
def signOnce (approvals : Approvals) (call : SignCall) : Except SignError Approvals :=
  match call.guardSigner with
  | .error error => .error error
  | .ok _ =>
      match approvals.find? call.actor with
      | some existing => .error (.approvalDuplicateSigner call.actor existing.id)
      | none => call.insertApproval approvals

/-- Signatures under another version are marked, when there is a version. -/
def markStale (approvals : Approvals) : Option Nat → Approvals
  | none => approvals
  | some version => approvals.markStaleForSupersededVersion version

/-- The signature that is found is kept. -/
def keepOrInsert (approvals : Approvals) (call : SignCall) : Except SignError Approvals :=
  match approvals.find? call.actor with
  | some _ => .ok approvals
  | none => call.insertApproval approvals

/-- The signatures afterwards, and whether the quorum is met. -/
def signAndCheckRequiredApprovals (approvals : Approvals) (call : SignCall)
    (requiredRoles : List String) : Except SignError (Approvals × Bool) :=
  match call.guardSigner with
  | .error error => .error error
  | .ok _ =>
      match approvals.keepOrInsert call with
      | .error error => .error error
      | .ok signed =>
          let next := signed.markStale call.activePolicyVersion
          let roles := (next.listValidApprovals call.activePolicyVersion).filterMap (·.approverRole)
          .ok (next, hasRequiredRoleQuorum requiredRoles roles.toFinset)

end Approvals

/-- The signatures that a successful call leaves. -/
inductive SignSucceeds (approvals : Approvals) (call : SignCall) (next : Approvals) : Prop where
  | once (h : approvals.signOnce call = .ok next) : SignSucceeds approvals call next
  | checked (requiredRoles : List String) (quorumMet : Bool)
      (h : approvals.signAndCheckRequiredApprovals call requiredRoles = .ok (next, quorumMet)) :
      SignSucceeds approvals call next

/-- The signer's role is among those that count under the active version. -/
def Counted (approvals : Approvals) (call : SignCall) : Prop :=
  ∃ row ∈ approvals.listValidApprovals call.activePolicyVersion,
    row.approverPrincipalId = call.actor ∧ row.approverRole = call.approverRole

/-- An earlier signature of the signer counts still, in the same role. -/
def Current (approvals : Approvals) (call : SignCall) : Prop :=
  ∀ row ∈ approvals.rows, row.approverPrincipalId = call.actor →
    Approvals.counts call.activePolicyVersion row = true ∧ row.approverRole = call.approverRole

variable {approvals next : Approvals} {call : SignCall}

theorem listValidApprovals_markStale (approvals : Approvals) (version : Option Nat) :
    (approvals.markStale version).listValidApprovals version =
      approvals.listValidApprovals version := by
  cases version with
  | none => rfl
  | some version => exact approvals.listValidApprovals_markStale version

theorem counted_markStale : Counted (approvals.markStale call.activePolicyVersion) call ↔
    Counted approvals call := by
  rw [Counted, listValidApprovals_markStale, Counted]

/-- A fresh signature counts. -/
theorem counted_of_insert (h : call.insertApproval approvals = .ok next) :
    (∀ row ∈ approvals.rows, row.approverPrincipalId ≠ call.actor) ∧ Counted next call := by
  unfold SignCall.insertApproval at h
  split at h
  · cases h
  · rename_i signed hsign
    cases h
    obtain ⟨hfresh, hrows⟩ := Approvals.sign_eq_some hsign
    refine ⟨fun row hrow hactor => hfresh (List.mem_map.mpr ⟨row, hrow, hactor⟩), ?_⟩
    refine ⟨_, List.mem_filter.mpr ⟨hrows ▸ List.mem_append_right _ List.mem_cons_self, ?_⟩,
      rfl, rfl⟩
    cases hversion : call.activePolicyVersion with
    | none => rfl
    | some version => simp [Approvals.counts]

/-- A signature that is there counts where it is current. -/
theorem counted_iff_of_find {existing : ApprovalRow}
    (h : approvals.find? call.actor = some existing) : Counted approvals call ↔ Current approvals call := by
  obtain ⟨hmem, hactor⟩ := Table.find?_eq_some_iff.mp h
  have honly : ∀ row ∈ approvals.rows, row.approverPrincipalId = call.actor → row = existing :=
    fun row hrow hsame =>
      List.inj_on_of_nodup_map approvals.nodup hrow hmem (hsame.trans hactor.symm)
  constructor
  · rintro ⟨row, hrow, hsame, hrole⟩ other hother hother'
    obtain ⟨hrow, hcounts⟩ := List.mem_filter.mp hrow
    rw [honly other hother hother', ← honly row hrow hsame]
    exact ⟨hcounts, hrole⟩
  · intro hcurrent
    obtain ⟨hcounts, hrole⟩ := hcurrent existing hmem hactor
    exact ⟨existing, List.mem_filter.mpr ⟨hmem, hcounts⟩, hactor, hrole⟩

theorem current_of_fresh (h : ∀ row ∈ approvals.rows, row.approverPrincipalId ≠ call.actor) :
    Current approvals call := fun row hrow hactor => absurd hactor (h row hrow)

theorem counted_iff_of_keepOrInsert (h : approvals.keepOrInsert call = .ok next) :
    Counted next call ↔ Current approvals call := by
  unfold Approvals.keepOrInsert at h
  split at h
  · rename_i existing hfind
    cases h
    exact counted_iff_of_find hfind
  · obtain ⟨hfresh, hcounted⟩ := counted_of_insert h
    exact iff_of_true hcounted (current_of_fresh hfresh)

/-- After a call that succeeds, the signer's role counts exactly when the signature that was there
before the call, if any, does. -/
theorem signer_counted_iff (h : SignSucceeds approvals call next) :
    Counted next call ↔ Current approvals call := by
  cases h with
  | once h =>
      unfold Approvals.signOnce at h
      split at h
      · cases h
      · split at h
        · cases h
        · obtain ⟨hfresh, hcounted⟩ := counted_of_insert h
          exact iff_of_true hcounted (current_of_fresh hfresh)
  | checked requiredRoles quorumMet h =>
      unfold Approvals.signAndCheckRequiredApprovals at h
      split at h
      · cases h
      · split at h
        · cases h
        · rename_i signed hsigned
          cases h
          rw [counted_markStale]
          exact counted_iff_of_keepOrInsert hsigned

namespace PolicyChange

/-- A call of the treasurer under a version of the policy. -/
def approval (version : Nat) : SignCall :=
  { actor := "mem_1", tenantId := "tnt_1", isApproverActive := some true,
    activePolicyVersion := some version, resolvedRole := some "approver", approvalId := "appr_1" }

/-- The signatures after the treasurer has signed under version 1. -/
def signedBefore : Approvals :=
  (Approvals.sign .empty "appr_1" "mem_1" (some "approver") (some 1)).getD .empty

theorem first_signature_counts : SignSucceeds .empty (approval 1) signedBefore ∧
    Counted signedBefore (approval 1) := by
  have hsigned : SignSucceeds .empty (approval 1) signedBefore := .once rfl
  exact ⟨hsigned, (signer_counted_iff hsigned).mpr fun row hrow => by cases hrow⟩

/-- Under version 2 the treasurer signs again with success, and counts for nothing. -/
theorem second_signature_lost : ∃ next,
    signedBefore.signAndCheckRequiredApprovals (approval 2) ["approver"] = .ok (next, false) ∧
      ¬Counted next (approval 2) := by
  refine ⟨_, rfl, ?_⟩
  rintro ⟨row, hrow, -⟩
  cases hrow

end PolicyChange

end BrainCore.Members
