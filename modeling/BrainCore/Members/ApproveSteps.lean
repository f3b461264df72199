import BrainCore.Members.SignatureRefresh

/-!
# What one approval does

A call of `approve` either leaves the state alone or records the signature of one
more member of the directory; it moves the intent to approved only when the
signatures reach the number of distinct approvers the last of them needs.
-/

namespace BrainCore.Members

open BrainCore.Foundation BrainCore.Gate BrainCore.Ledger BrainCore.Policy BrainCore.Shared

/-! ## The intent under approval -/

/-- The proposal reads only what no statement of `approve` writes. -/
theorem proposal_congr (desk : ApprovalDesk) {first second : PaymentIntentRow}
    (haction : first.actionType = second.actionType) (hamount : first.amount = second.amount) :
    desk.proposal first = desk.proposal second := by
  simp only [ApprovalDesk.proposal, haction, hamount]

/-- The intent stands at a status with a given proposal. -/
def Stands (desk : ApprovalDesk) (proposal : ApprovalDomainSource) (intents : PaymentIntents)
    (status : PaymentIntentState) : Prop :=
  ∃ row, intents.find? desk.intentId = some row ∧ desk.proposal row = proposal ∧
    row.status = status

theorem Stands.unique {desk : ApprovalDesk} {p q : ApprovalDomainSource} {intents : PaymentIntents}
    {first second : PaymentIntentState} (hfirst : Stands desk p intents first)
    (hsecond : Stands desk q intents second) : p = q ∧ first = second := by
  obtain ⟨row, hrow, rfl, rfl⟩ := hfirst
  obtain ⟨other, hother, rfl, rfl⟩ := hsecond
  obtain rfl := Option.some.inj (hrow.symm.trans hother)
  exact ⟨rfl, rfl⟩

theorem Stands.appendApprovalId {desk : ApprovalDesk} {p : ApprovalDomainSource}
    {intents : PaymentIntents} {status : PaymentIntentState} (h : Stands desk p intents status)
    (approvalId : String) (now : Instant) :
    Stands desk p (intents.appendApprovalId desk.intentId approvalId now) status := by
  obtain ⟨row, hrow, rfl, rfl⟩ := h
  refine ⟨_, by rw [PaymentIntents.appendApprovalId, Table.find?_updateWhere, hrow, Option.map_some],
    ?_, ?_⟩
  · split
    · exact proposal_congr desk rfl rfl
    · rfl
  · split <;> rfl

theorem Stands.transition {desk : ApprovalDesk} {p : ApprovalDomainSource}
    {intents next : PaymentIntents} {status source target : PaymentIntentState} {now : Instant}
    (h : Stands desk p intents status)
    (hmoved : intents.transition desk.intentId source target now = some next) :
    status = source ∧ Stands desk p next target := by
  obtain ⟨row, hrow, rfl, rfl⟩ := h
  obtain ⟨other, hother, hsource, rfl⟩ := PaymentIntents.transition_eq_some hmoved
  obtain rfl := Option.some.inj (hrow.symm.trans hother)
  refine ⟨hsource, PaymentIntents.withStatus target now row, ?_, proposal_congr desk rfl rfl, rfl⟩
  rw [Table.find?_put]
  exact if_pos (Table.key_of_find? hrow).symm

/-! ## The signatures so far -/

/-- The signatures on the intent are those of `signers`, in this order, and all of them count. -/
structure Signed (desk : ApprovalDesk) (proposal : ApprovalDomainSource)
    (signers : List MemberAuthority) (approvals : Approvals) : Prop where
  rows : approvals.rows.map (fun row => (row.approverPrincipalId, row.approverRole)) =
    signers.map fun m => (m.id, some m.role.text)
  count : ∀ row ∈ approvals.rows, Approvals.counts (some desk.activeVersion) row = true
  directory : ∀ m ∈ signers, m ∈ desk.members.rows
  may : ∀ m ∈ signers, mayApprove m proposal = true

namespace Signed

variable {desk : ApprovalDesk} {p : ApprovalDomainSource} {signers : List MemberAuthority}
  {approvals next : Approvals} {m : MemberAuthority}

theorem ids (h : Signed desk p signers approvals) :
    approvals.rows.map (·.approverPrincipalId) = signers.map (·.id) := by
  have hpairs := congrArg (List.map Prod.fst) h.rows
  rwa [List.map_map, List.map_map] at hpairs

theorem nodup (h : Signed desk p signers approvals) : (signers.map (·.id)).Nodup :=
  h.ids ▸ approvals.nodup

/-- The distinct principals are as many as the signers. -/
theorem card (h : Signed desk p signers approvals) :
    (approvals.rows.map (·.approverPrincipalId)).toFinset.card = signers.length := by
  rw [h.ids, List.toFinset_card_of_nodup h.nodup, List.length_map]

/-- The roles the gate resolves are those of the signers. -/
theorem roles (h : Signed desk p signers approvals) :
    (approvals.signedValidRoles (some desk.activeVersion)).2 = signers.map (·.role.text) := by
  rw [Approvals.signedValidRoles_eq, Approvals.listValidApprovals, List.filter_eq_self.mpr h.count]
  have hroles : approvals.rows.map (·.approverRole) = signers.map fun m => some m.role.text := by
    have hpairs := congrArg (List.map Prod.snd) h.rows
    rwa [List.map_map, List.map_map] at hpairs
  calc approvals.rows.filterMap (·.approverRole)
      = (approvals.rows.map (·.approverRole)).filterMap id := by rw [List.filterMap_map]; rfl
    _ = (signers.map fun m => some m.role.text).filterMap id := by rw [hroles]
    _ = signers.map (·.role.text) := by
        rw [List.filterMap_map, ← List.filterMap_eq_map]
        rfl

/-- A new signature of a member of the directory counts like the others. -/
theorem sign (h : Signed desk p signers approvals) {id : String}
    (hmember : m ∈ desk.members.rows) (hmay : mayApprove m p = true)
    (hsign : approvals.sign id m.id (some m.role.text) desk.signedVersion = some next) :
    Signed desk p (signers ++ [m]) next := by
  have hrows := (Approvals.sign_eq_some hsign).2
  refine ⟨by rw [hrows, List.map_append, List.map_append, h.rows]; rfl, ?_, ?_, ?_⟩
  · intro row hrow
    rw [hrows, List.mem_append, List.mem_singleton] at hrow
    obtain hold | rfl := hrow
    · exact h.count row hold
    · unfold Approvals.counts ApprovalDesk.signedVersion
      cases desk.recordsVersion <;> simp
  · intro other hother
    obtain hold | rfl := List.mem_append.mp hother |>.imp_right List.mem_singleton.mp
    · exact h.directory other hold
    · exact hmember
  · intro other hother
    obtain hold | rfl := List.mem_append.mp hother |>.imp_right List.mem_singleton.mp
    · exact h.may other hold
    · exact hmay

end Signed

/-- The distinct approvers a member's approval needs under a required list. -/
def neededApprovals (proposal : ApprovalDomainSource) (required : List String)
    (m : MemberAuthority) : Nat :=
  distinctApprovals m proposal (max 1 required.length)

/-! ## The steps -/

variable {desk : ApprovalDesk} {p : ApprovalDomainSource} {s : ApprovalState} {call : ApproveCall}
  {status : PaymentIntentState} {signers : List MemberAuthority}

/-- Where an approval leaves an open intent. -/
def settledStatus (additional : Bool) : PaymentIntentState :=
  if additional then .awaitingSecondApproval else .approved

def IsOpen (status : PaymentIntentState) : Prop :=
  status = .pendingApproval ∨ status = .awaitingSecondApproval

theorem settleApproval_spec (s : ApprovalState) (call : ApproveCall)
    (hstands : Stands desk p s.intents status) (hopen : IsOpen status) (additional : Bool) :
    (settleApproval desk s call status additional).1.approvals = s.approvals ∧
      Stands desk p (settleApproval desk s call status additional).1.intents
        (settledStatus additional) := by
  have hsame : (settleApproval desk s call status additional).1 =
      { s with intents := (s.intents.transition desk.intentId
          (if additional then .pendingApproval else status) (settledStatus additional)
          call.now).getD s.intents } := by
    unfold settleApproval settledStatus
    dsimp only
    cases s.intents.transition desk.intentId (if additional then .pendingApproval else status)
      (if additional then .awaitingSecondApproval else .approved) call.now <;> rfl
  rw [hsame]
  refine ⟨rfl, ?_⟩
  obtain ⟨row, hrow, hp, hstatus⟩ := id hstands
  by_cases hsource : row.status = (if additional then .pendingApproval else status)
  · have hmoved := PaymentIntents.transition_of_find? hrow (settledStatus additional) call.now
    rw [hsource] at hmoved
    rw [hmoved]
    exact (hstands.transition hmoved).2
  · -- a second additional approval finds the intent already waiting
    have hnone : s.intents.transition desk.intentId
        (if additional then .pendingApproval else status) (settledStatus additional) call.now =
          none := by
      rw [PaymentIntents.transition, PaymentIntents.transitioned, hrow]
      dsimp only
      rw [if_neg hsource, Option.map_none]
    rw [hnone]
    cases additional with
    | false => exact absurd hstatus hsource
    | true =>
        obtain rfl | rfl := hopen
        · exact absurd hstatus hsource
        · exact hstands

/-- What a call leaves behind: the old state, or one more signer who may approve, and an intent
that is approved only when the signers reach what the last of them needs. -/
inductive ApproveOutcome (desk : ApprovalDesk) (p : ApprovalDomainSource)
    (signers : List MemberAuthority) (status : PaymentIntentState) (required : List String)
    (next : ApprovalState) : Prop where
  | kept (signed : Signed desk p signers next.approvals) (stands : Stands desk p next.intents status)
  | signed (m : MemberAuthority) (signed : Signed desk p (signers ++ [m]) next.approvals)
      (final : PaymentIntentState) (stands : Stands desk p next.intents final)
      (approved : final = .approved → neededApprovals p required m ≤ signers.length + 1)

theorem signApproval_outcome {grant : ApprovalGrant} {m : MemberAuthority}
    (hsigned : Signed desk p signers s.approvals) (hstands : Stands desk p s.intents status)
    (hopen : IsOpen status) (hmember : m ∈ desk.members.rows) (hid : m.id = call.memberId)
    (hmay : mayApprove m p = true) (hrole : grant.approverRole = m.role)
    (henough : grant.requiresAdditionalApproval = false →
      neededApprovals p call.requiredApprovers m ≤ signers.length + 1) :
    ApproveOutcome desk p signers status call.requiredApprovers
      (signApproval desk s call status grant).1 := by
  have hnot : status ≠ .approved := by rintro rfl; obtain h | h := hopen <;> cases h
  unfold signApproval
  split
  · exact .kept hsigned hstands
  · rw [hrole, ← hid]
    cases hsign : s.approvals.sign call.approvalId m.id (some m.role.text) desk.signedVersion with
    | none => exact .kept hsigned hstands
    | some approvals =>
        have hmore := hsigned.sign hmember hmay hsign
        have happended := hstands.appendApprovalId call.approvalId call.now
        dsimp only
        split
        · exact .signed m hmore status hstands fun h => absurd h hnot
        · split
          · exact .signed m hmore status happended fun h => absurd h hnot
          · obtain ⟨hsame, hsettled⟩ := settleApproval_spec { s with approvals, intents := _ }
              call happended hopen
              grant.requiresAdditionalApproval
            refine .signed m (hsame ▸ hmore) _ hsettled fun happroved => henough ?_
            cases hadditional : grant.requiresAdditionalApproval with
            | false => rfl
            | true =>
                rw [hadditional] at happroved
                cases happroved

theorem approve_outcome (call : ApproveCall) (hsigned : Signed desk p signers s.approvals)
    (hstands : Stands desk p s.intents status) :
    ApproveOutcome desk p signers status call.requiredApprovers (approve desk s call).1 := by
  obtain ⟨row, hrow, rfl, rfl⟩ := id hstands
  unfold approve
  rw [hrow]
  dsimp only
  split
  · exact .kept hsigned hstands
  · rename_i hopen
    split
    · exact .kept hsigned hstands
    · rename_i grant hgrant
      obtain ⟨m, hfound, hmay, hrole, hadditional⟩ := authorizeApproval_ok hgrant
      dsimp only at hfound hmay hadditional
      obtain ⟨hmember, hid⟩ := Table.find?_eq_some_iff.mp hfound
      refine signApproval_outcome hsigned hstands ?_ hmember hid hmay hrole fun henough => ?_
      · unfold IsOpen
        tauto
      · rw [hsigned.card, ← neededApprovals, henough] at hadditional
        simp only [Bool.false_eq_true, false_iff] at hadditional
        omega

/-- A fault-free call of a member who may approve and has not signed. -/
theorem approve_fresh (call : ApproveCall) {m : MemberAuthority} (hsigned : Signed desk p signers s.approvals)
    (hstands : Stands desk p s.intents status) (hopen : IsOpen status)
    (hmember : m ∈ desk.members.rows) (hmay : mayApprove m p = true) (hfresh : m ∉ signers)
    (hcall : call.memberId = m.id) (hfault : call.fault = none) :
    Signed desk p (signers ++ [m]) (approve desk s call).1.approvals ∧
      Stands desk p (approve desk s call).1.intents
        (settledStatus (signers.length + 1 < neededApprovals p call.requiredApprovers m)) := by
  obtain ⟨row, hrow, rfl, rfl⟩ := id hstands
  have hunsigned : m.id ∉ s.approvals.rows.map (·.approverPrincipalId) := by
    rw [hsigned.ids]
    intro hmem
    obtain ⟨other, hother, hid⟩ := List.mem_map.mp hmem
    have hsame := List.inj_on_of_nodup_map desk.members.nodup
      (hsigned.directory other hother) hmember hid
    exact hfresh (hsame ▸ hother)
  have hgrant := @authorizeApproval_fresh
    ⟨call.memberId, desk.members.find? call.memberId, desk.proposal row,
      s.approvals.rows.map (·.approverPrincipalId), max 1 call.requiredApprovers.length⟩ _
    (by rw [hcall]; exact Table.find?_key hmember) hmay hunsigned
  obtain ⟨approvals, hsign⟩ : ∃ approvals, s.approvals.sign call.approvalId m.id
      (some m.role.text) desk.signedVersion = some approvals := by
    refine Table.exists_insert ?_
    rw [Table.find?, List.find?_eq_none]
    intro other hother
    simp only [decide_eq_true_eq]
    exact fun hid => hunsigned (List.mem_map.mpr ⟨other, hother, hid⟩)
  have hadditional : decide (1 < neededApprovals (desk.proposal row) call.requiredApprovers m ∧
        signers.length + 1 < neededApprovals (desk.proposal row) call.requiredApprovers m) =
      decide (signers.length + 1 < neededApprovals (desk.proposal row) call.requiredApprovers m) := by
    refine decide_eq_decide.mpr ?_
    omega
  dsimp only at hgrant
  rw [hsigned.card, ← neededApprovals, hadditional] at hgrant
  have hclosed : ¬(row.status ≠ .pendingApproval ∧ row.status ≠ .awaitingSecondApproval) := by
    unfold IsOpen at hopen
    tauto
  unfold approve
  rw [hrow]
  dsimp only
  rw [if_neg hclosed, hgrant]
  dsimp only
  unfold signApproval
  have hnever : ∀ fault, ¬(none : Option ApproveFault) = some fault := fun _ h => by cases h
  rw [hfault, if_neg (hnever _), hcall, hsign]
  dsimp only
  rw [if_neg (hnever _), if_neg (hnever _)]
  obtain ⟨hsame, hsettled⟩ := settleApproval_spec { s with approvals, intents := _ } call
    (hstands.appendApprovalId call.approvalId call.now) hopen
    (signers.length + 1 < neededApprovals (desk.proposal row) call.requiredApprovers m)
  exact ⟨hsame ▸ hsigned.sign hmember hmay hsign, hsettled⟩

end BrainCore.Members
