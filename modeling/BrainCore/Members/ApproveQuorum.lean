import BrainCore.Members.ApproveSteps

/-!
# Counting approvers and filling roles

`approve` moves an intent to approved when enough distinct members signed; the
gate's approval check asks for the role quorum of the same required list.  The
two agree exactly on the required lists that the directory of members cannot
tell apart.
-/

namespace BrainCore.Members

open BrainCore.Foundation BrainCore.Gate BrainCore.Ledger BrainCore.Policy BrainCore.Shared

/-! ## The property and the condition -/

/-- The gate's approval check over the signatures recorded so far. -/
def GateAccepts (desk : ApprovalDesk) (s : ApprovalState) (required : List String) : Prop :=
  hasRequiredRoleQuorum required
    (s.approvals.signedValidRoles (some desk.activeVersion)).2.toFinset = true

def intentStatus (desk : ApprovalDesk) (s : ApprovalState) : Option PaymentIntentState :=
  (s.intents.find? desk.intentId).map (·.status)

/-- A call under a policy that asks for one of `asked`, cut short at most as `faults` says. -/
def Admitted (asked : Set (List String)) (faults : Set ApproveFault) (call : ApproveCall) : Prop :=
  call.requiredApprovers ∈ asked ∧ ∀ fault ∈ call.fault, fault ∈ faults

/-- After any calls of distinct members, a call that moves the intent to approved leaves it in a
state the gate accepts. -/
def ApprovesOnQuorum (desk : ApprovalDesk) (start : ApprovalState) (asked : Set (List String))
    (faults : Set ApproveFault) : Prop :=
  ∀ calls call s, (approveMachine desk).run start calls = some s →
    ((calls ++ [call]).map (·.memberId)).Nodup →
    (∀ c ∈ calls ++ [call], Admitted asked faults c) →
    intentStatus desk s ≠ some .approved →
    intentStatus desk (approve desk s call).1 = some .approved →
    GateAccepts desk (approve desk s call).1 call.requiredApprovers

/-- The members who may approve a proposal. -/
def approversOf (desk : ApprovalDesk) (p : ApprovalDomainSource) : List MemberAuthority :=
  desk.members.rows.filter (mayApprove · p)

/-- Enough distinct approvers always fill the required list. -/
def CountFillsRoles (members : List MemberAuthority) (p : ApprovalDomainSource) :
    List String → Prop
  | [] => True
  | [role] =>
      role = "signer" ∨ ∀ m ∈ members,
        if aboveOwnThreshold m p then
          ∀ other ∈ members, other ≠ m → role = m.role.text ∨ role = other.role.text
        else role = m.role.text
  | [first, second] =>
      ∀ m ∈ members, ∀ other ∈ members, other ≠ m →
        m.role ≠ other.role ∧ (namedRoles [first, second]).Nodup ∧
          ∀ role ∈ namedRoles [first, second], role = "admin" ∨ role = "approver"
  | required => members.length < required.length

/-- The intent awaits its first approval. -/
structure AwaitsFirst (desk : ApprovalDesk) (intent : PaymentIntentRow) (start : ApprovalState) :
    Prop where
  found : start.intents.find? desk.intentId = some intent
  pending : intent.status = .pendingApproval
  unsigned : start.approvals.rows = []

/-! ## The numbers of approvers -/

variable {desk : ApprovalDesk} {p : ApprovalDomainSource} {m other : MemberAuthority}

theorem neededApprovals_one (role : String) :
    neededApprovals p [role] m = if aboveOwnThreshold m p then 2 else 1 := by
  unfold neededApprovals distinctApprovals
  split <;> rfl

theorem neededApprovals_of_two_le {required : List String} (h : 2 ≤ required.length) :
    neededApprovals p required m = required.length := by
  unfold neededApprovals distinctApprovals
  split <;> omega

theorem mem_approversOf : m ∈ approversOf desk p ↔ m ∈ desk.members.rows ∧ mayApprove m p = true :=
  List.mem_filter

/-- Only two roles may approve. -/
theorem role_text_of_mayApprove (h : mayApprove m p = true) :
    m.role.text = "admin" ∨ m.role.text = "approver" := by
  obtain hrole | hrole := role_of_mayApprove h <;> rw [hrole]
  · exact .inl rfl
  · exact .inr rfl

theorem roleText_injective : Function.Injective MemberRole.text := by
  intro first second h
  cases first <;> cases second <;> first | rfl | exact absurd h (by decide)

def rolesOf (signers : List MemberAuthority) : Finset String :=
  (signers.map (·.role.text)).toFinset

theorem mem_rolesOf {signers : List MemberAuthority} (h : m ∈ signers) :
    m.role.text ∈ rolesOf signers :=
  List.mem_toFinset.mpr (List.mem_map_of_mem h)

theorem card_rolesOf_le {signers : List MemberAuthority}
    (hmay : ∀ m ∈ signers, mayApprove m p = true) : (rolesOf signers).card ≤ 2 := by
  have hsub : rolesOf signers ⊆ {"admin", "approver"} := by
    intro role hrole
    obtain ⟨m, hm, rfl⟩ := List.mem_map.mp (List.mem_toFinset.mp hrole)
    simpa using role_text_of_mayApprove (hmay m hm)
  exact (Finset.card_le_card hsub).trans Finset.card_le_two

/-- Two approvers of different roles have both roles. -/
theorem roles_of_ne (hm : mayApprove m p = true) (hother : mayApprove other p = true)
    (hne : m.role ≠ other.role) {role : String} (hrole : role = "admin" ∨ role = "approver") :
    role = m.role.text ∨ role = other.role.text := by
  have htext : m.role.text ≠ other.role.text := fun h => hne (roleText_injective h)
  have h₁ := role_text_of_mayApprove hm
  have h₂ := role_text_of_mayApprove hother
  grind

/-! ## The condition is enough -/

theorem exists_other_signer {signers : List MemberAuthority} (hnodup : (signers ++ [m]).Nodup)
    (hlen : 1 ≤ signers.length) : ∃ other ∈ signers, other ≠ m := by
  obtain ⟨other, hother⟩ := List.exists_mem_of_length_pos hlen
  refine ⟨other, hother, ?_⟩
  rintro rfl
  exact (List.nodup_append.mp hnodup).2.2 other hother other (List.mem_singleton_self _) rfl

/-- Signers that reach the count of the last of them fill the roles. -/
theorem quorum_of_countFillsRoles {signers : List MemberAuthority} {required : List String}
    (hfills : CountFillsRoles (approversOf desk p) p required)
    (hmem : signers ++ [m] ⊆ approversOf desk p) (hnodup : (signers ++ [m]).Nodup)
    (henough : neededApprovals p required m ≤ signers.length + 1) :
    hasRequiredRoleQuorum required (rolesOf (signers ++ [m])) = true := by
  rw [hasRequiredRoleQuorum_iff]
  have hlast : m ∈ signers ++ [m] := List.mem_append_right _ (List.mem_singleton_self m)
  have hmayLast := (mem_approversOf.mp (hmem hlast)).2
  have hpos : 1 ≤ (rolesOf (signers ++ [m])).card := Finset.card_pos.mpr ⟨_, mem_rolesOf hlast⟩
  match required with
  | [] => exact ⟨List.nodup_nil, nofun, Nat.zero_le _⟩
  | [role] =>
      by_cases hslot : role = "signer"
      · subst hslot
        exact ⟨List.nodup_nil, nofun, hpos⟩
      · have hnamed : namedRoles [role] = [role] := by simp [namedRoles, hslot]
        rw [hnamed]
        refine ⟨List.nodup_singleton _, fun r hr => ?_, hpos⟩
        rw [List.mem_singleton] at hr
        subst hr
        rw [neededApprovals_one] at henough
        have hrole := hfills.resolve_left hslot m (hmem hlast)
        split at hrole
        · rename_i hdual
          rw [if_pos hdual] at henough
          obtain ⟨other, hother, hne⟩ := exists_other_signer hnodup (by omega)
          have hotherMem := List.mem_append_left [m] hother
          obtain rfl | rfl := hrole other (hmem hotherMem) hne
          · exact mem_rolesOf hlast
          · exact mem_rolesOf hotherMem
        · rw [hrole]
          exact mem_rolesOf hlast
  | [first, second] =>
      rw [neededApprovals_of_two_le (by simp)] at henough
      simp only [List.length_cons, List.length_nil] at henough
      obtain ⟨other, hother, hne⟩ := exists_other_signer hnodup (by omega)
      have hotherMem := List.mem_append_left [m] hother
      obtain ⟨hroles, hnamedNodup, hnamed⟩ :=
        hfills m (hmem hlast) other (hmem hotherMem) hne
      have hmayOther := (mem_approversOf.mp (hmem hotherMem)).2
      refine ⟨hnamedNodup, fun role hrole => ?_, ?_⟩
      · obtain rfl | rfl := roles_of_ne hmayLast hmayOther hroles (hnamed role hrole)
        · exact mem_rolesOf hlast
        · exact mem_rolesOf hotherMem
      · have htwo : ({m.role.text, other.role.text} : Finset String) ⊆ rolesOf (signers ++ [m]) := by
          rw [Finset.insert_subset_iff, Finset.singleton_subset_iff]
          exact ⟨mem_rolesOf hlast, mem_rolesOf hotherMem⟩
        have hcard := Finset.card_le_card htwo
        rwa [Finset.card_pair fun h => hroles (roleText_injective h)] at hcard
  | first :: second :: third :: rest =>
      -- the directory has fewer approvers than the list has entries
      rw [neededApprovals_of_two_le (by simp)] at henough
      have hle := (List.subperm_of_subset hnodup hmem).length_le
      have hlt : (approversOf desk p).length < (first :: second :: third :: rest).length := hfills
      rw [List.length_append, List.length_singleton] at hle
      omega

variable {intent : PaymentIntentRow} {start : ApprovalState} {asked : Set (List String)}
  {faults : Set ApproveFault}

/-- Some members signed, and the intent is where it is. -/
def Recorded (desk : ApprovalDesk) (p : ApprovalDomainSource) (s : ApprovalState) : Prop :=
  ∃ signers status, Signed desk p signers s.approvals ∧ Stands desk p s.intents status

theorem AwaitsFirst.signed (h : AwaitsFirst desk intent start) :
    Signed desk (desk.proposal intent) [] start.approvals :=
  ⟨by rw [h.unsigned]; rfl, by rw [h.unsigned]; exact nofun, nofun, nofun⟩

theorem AwaitsFirst.stands (h : AwaitsFirst desk intent start) :
    Stands desk (desk.proposal intent) start.intents .pendingApproval :=
  ⟨intent, h.found, rfl, h.pending⟩

theorem approve_recorded {s : ApprovalState} {call : ApproveCall} (h : Recorded desk p s) :
    Recorded desk p (approve desk s call).1 := by
  obtain ⟨signers, status, hsigned, hstands⟩ := h
  cases approve_outcome call hsigned hstands with
  | kept hkept hstands => exact ⟨signers, status, hkept, hstands⟩
  | signed m hmore final hstands _ => exact ⟨signers ++ [m], final, hmore, hstands⟩

theorem run_recorded {calls : List ApproveCall} {s : ApprovalState} (h : Recorded desk p start)
    (hrun : (approveMachine desk).run start calls = some s) : Recorded desk p s :=
  (approveMachine desk).invariant_of_run
    (fun _ _ _ hrecorded hstep => Option.some.inj hstep ▸ approve_recorded hrecorded) h hrun

theorem intentStatus_of_stands {s : ApprovalState} {status : PaymentIntentState}
    (h : Stands desk p s.intents status) : intentStatus desk s = some status := by
  obtain ⟨row, hrow, _, hstatus⟩ := h
  rw [intentStatus, hrow, Option.map_some, hstatus]

theorem gateAccepts_iff {s : ApprovalState} {signers : List MemberAuthority} {required : List String}
    (h : Signed desk p signers s.approvals) :
    GateAccepts desk s required ↔ hasRequiredRoleQuorum required (rolesOf signers) = true := by
  rw [GateAccepts, h.roles, rolesOf]

theorem Signed.subset_approversOf {signers : List MemberAuthority} {approvals : Approvals}
    (h : Signed desk p signers approvals) : signers ⊆ approversOf desk p :=
  fun m hm => mem_approversOf.mpr ⟨h.directory m hm, h.may m hm⟩

theorem approvesOnQuorum_of_countFillsRoles (h : AwaitsFirst desk intent start)
    (hfills : ∀ required ∈ asked,
      CountFillsRoles (approversOf desk (desk.proposal intent)) (desk.proposal intent) required) :
    ApprovesOnQuorum desk start asked faults := by
  intro calls call s hrun _ hadmitted hbefore hafter
  obtain ⟨signers, status, hsigned, hstands⟩ :=
    run_recorded ⟨[], .pendingApproval, h.signed, h.stands⟩ hrun
  have hasked := (hadmitted call (List.mem_append_right _ (List.mem_singleton_self _))).1
  cases approve_outcome call hsigned hstands with
  | kept _ hkept =>
      rw [intentStatus_of_stands hstands, ← intentStatus_of_stands hkept] at hbefore
      exact absurd hafter hbefore
  | signed m hmore final hfinal henough =>
      rw [intentStatus_of_stands hfinal] at hafter
      exact (gateAccepts_iff hmore).mpr (quorum_of_countFillsRoles (hfills _ hasked)
        hmore.subset_approversOf (List.Nodup.of_map _ hmore.nodup)
        (henough (Option.some.inj hafter)))

/-! ## The condition is needed -/

/-- The call by which a member signs. -/
def callOf (required : List String) (m : MemberAuthority) : ApproveCall :=
  { memberId := m.id, approvalId := m.id, requiredApprovers := required, now := 0 }

/-- Members that all need more approvers than sign leave the intent open. -/
theorem run_callOf (h : AwaitsFirst desk intent start) {required : List String}
    {signers : List MemberAuthority} {needed : Nat} (hlen : signers.length < needed)
    (hsub : signers ⊆ approversOf desk (desk.proposal intent)) (hnodup : signers.Nodup)
    (hneeded : ∀ m ∈ signers, needed ≤ neededApprovals (desk.proposal intent) required m) :
    ∃ s status, (approveMachine desk).run start (signers.map (callOf required)) = some s ∧
      Signed desk (desk.proposal intent) signers s.approvals ∧
      Stands desk (desk.proposal intent) s.intents status ∧ IsOpen status := by
  induction signers using List.reverseRecOn with
  | nil => exact ⟨start, .pendingApproval, rfl, h.signed, h.stands, .inl rfl⟩
  | append_singleton rest m ih =>
      rw [List.length_append, List.length_singleton] at hlen
      obtain ⟨hrest, hm⟩ := List.append_subset.mp hsub
      obtain ⟨hmember, hmay⟩ := mem_approversOf.mp (hm (List.mem_singleton_self m))
      have hfresh : m ∉ rest := fun hmem =>
        (List.nodup_append.mp hnodup).2.2 m hmem m (List.mem_singleton_self m) rfl
      obtain ⟨s, status, hrun, hsigned, hstands, hopen⟩ := ih (by omega) hrest
        (List.nodup_append.mp hnodup).1 fun x hx => hneeded x (List.mem_append_left _ hx)
      obtain ⟨hmore, hfinal⟩ := approve_fresh (callOf required m) hsigned hstands hopen hmember hmay hfresh rfl rfl
      have hmany := hneeded m (List.mem_append_right _ (List.mem_singleton_self m))
      refine ⟨_, .awaitingSecondApproval, ?_, hmore, ?_, .inr rfl⟩
      · rw [List.map_append, Machine.run_append]
        exact Option.bind_eq_some_iff.mpr ⟨s, hrun, rfl⟩
      · rwa [callOf, decide_eq_true (by dsimp only; omega), settledStatus, if_pos rfl] at hfinal

/-- A call that reaches the count of its member has the quorum, when every approval has. -/
theorem quorum_of_approvesOnQuorum (signers : List MemberAuthority) (h : AwaitsFirst desk intent start)
    (hsafe : ApprovesOnQuorum desk start asked faults) {required : List String}
    (hasked : required ∈ asked)
    (hsub : signers ++ [m] ⊆ approversOf desk (desk.proposal intent)) (hnodup : (signers ++ [m]).Nodup)
    (hneeded : ∀ x ∈ signers,
      signers.length + 1 ≤ neededApprovals (desk.proposal intent) required x)
    (henough : neededApprovals (desk.proposal intent) required m ≤ signers.length + 1) :
    hasRequiredRoleQuorum required (rolesOf (signers ++ [m])) = true := by
  obtain ⟨hrest, hm⟩ := List.append_subset.mp hsub
  obtain ⟨hmember, hmay⟩ := mem_approversOf.mp (hm (List.mem_singleton_self m))
  have hfresh : m ∉ signers := fun hmem =>
    (List.nodup_append.mp hnodup).2.2 m hmem m (List.mem_singleton_self m) rfl
  obtain ⟨s, status, hrun, hsigned, hstands, hopen⟩ :=
    run_callOf h (Nat.lt_succ_self _) hrest (List.nodup_append.mp hnodup).1 hneeded
  obtain ⟨hmore, hfinal⟩ := approve_fresh (callOf required m) hsigned hstands hopen hmember hmay hfresh rfl rfl
  rw [callOf, decide_eq_false (by dsimp only; omega), settledStatus, if_neg Bool.false_ne_true] at hfinal
  have hids : (signers.map (callOf required) ++ [callOf required m]).map (·.memberId) =
      (signers ++ [m]).map (·.id) := by
    simp [callOf, Function.comp_def]
  refine (gateAccepts_iff hmore).mp (hsafe (signers.map (callOf required)) _ s hrun ?_ ?_ ?_ ?_)
  · rw [hids]
    exact hmore.nodup
  · intro call hcall
    obtain hold | hlast := List.mem_append.mp hcall
    · obtain ⟨x, _, rfl⟩ := List.mem_map.mp hold
      exact ⟨hasked, nofun⟩
    · rw [List.mem_singleton.mp hlast]
      exact ⟨hasked, nofun⟩
  · rw [intentStatus_of_stands hstands]
    obtain rfl | rfl := hopen <;> nofun
  · exact intentStatus_of_stands hfinal

theorem role_of_quorum {role : String} (hslot : role ≠ "signer") {signers : List MemberAuthority}
    (h : hasRequiredRoleQuorum [role] (rolesOf signers) = true) :
    ∃ m ∈ signers, role = m.role.text := by
  have hmem := ((hasRequiredRoleQuorum_iff _ _).mp h).2.1 role (by simp [namedRoles, hslot])
  obtain ⟨m, hm, hrole⟩ := List.mem_map.mp (List.mem_toFinset.mp hmem)
  exact ⟨m, hm, hrole.symm⟩

theorem nodup_approversOf : (approversOf desk p).Nodup :=
  (List.Nodup.of_map _ desk.members.nodup).filter _

theorem countFillsRoles_of_approvesOnQuorum (h : AwaitsFirst desk intent start)
    (hsafe : ApprovesOnQuorum desk start asked faults) {required : List String}
    (hasked : required ∈ asked) :
    CountFillsRoles (approversOf desk (desk.proposal intent)) (desk.proposal intent) required := by
  have halone : ∀ x ∈ approversOf desk (desk.proposal intent),
      neededApprovals (desk.proposal intent) required x ≤ 1 →
        hasRequiredRoleQuorum required (rolesOf [x]) = true := fun x hx henough =>
    quorum_of_approvesOnQuorum [] h hsafe hasked (by simpa using hx)
      (List.nodup_singleton x) nofun henough
  have hpair : ∀ x ∈ approversOf desk (desk.proposal intent),
      ∀ y ∈ approversOf desk (desk.proposal intent), y ≠ x →
      neededApprovals (desk.proposal intent) required y = 2 →
      neededApprovals (desk.proposal intent) required x = 2 →
        hasRequiredRoleQuorum required (rolesOf [y, x]) = true := by
    intro x hx y hy hne hneeded henough
    refine quorum_of_approvesOnQuorum [y] h hsafe hasked ?_ ?_ ?_ henough.le
    · simp [hx, hy]
    · simpa using hne
    · simp [hneeded]
  match required, hasked with
  | [], _ => trivial
  | [role], hasked =>
      by_cases hslot : role = "signer"
      · exact .inl hslot
      refine .inr fun m hm => ?_
      split
      · rename_i hdual
        intro other hother hne
        by_cases hdualOther : aboveOwnThreshold other (desk.proposal intent) = true
        · obtain ⟨x, hx, rfl⟩ := role_of_quorum hslot
            (hpair m hm other hother hne (by rw [neededApprovals_one, if_pos hdualOther])
              (by rw [neededApprovals_one, if_pos hdual]))
          rw [List.mem_pair] at hx
          obtain rfl | rfl := hx
          · exact .inr rfl
          · exact .inl rfl
        · obtain ⟨x, hx, rfl⟩ := role_of_quorum hslot
            (halone other hother (by rw [neededApprovals_one, if_neg hdualOther]))
          exact .inr (by rw [List.mem_singleton.mp hx])
      · rename_i hdual
        obtain ⟨x, hx, rfl⟩ := role_of_quorum hslot
          (halone m hm (by rw [neededApprovals_one, if_neg hdual]))
        rw [List.mem_singleton.mp hx]
  | [first, second], hasked =>
      intro m hm other hother hne
      have hquorum := hpair m hm other hother hne (neededApprovals_of_two_le le_rfl)
        (neededApprovals_of_two_le le_rfl)
      obtain ⟨hnodup, hnamed, hcard⟩ := (hasRequiredRoleQuorum_iff _ _).mp hquorum
      refine ⟨fun hsame => ?_, hnodup, fun role hrole => ?_⟩
      · have hone : rolesOf [other, m] = {m.role.text} := by
          simp [rolesOf, hsame]
        rw [hone, Finset.card_singleton] at hcard
        simp at hcard
      · obtain ⟨x, hx, rfl⟩ := List.mem_map.mp (List.mem_toFinset.mp (hnamed role hrole))
        rw [List.mem_pair] at hx
        obtain rfl | rfl := hx
        · exact role_text_of_mayApprove (mem_approversOf.mp hother).2
        · exact role_text_of_mayApprove (mem_approversOf.mp hm).2
  | first :: second :: third :: rest, hasked =>
      by_contra hmany
      obtain ⟨n, hn⟩ : ∃ n, (first :: second :: third :: rest).length = n + 1 := ⟨_, rfl⟩
      have hlen : n + 1 ≤ (approversOf desk (desk.proposal intent)).length := by
        rw [← hn]
        exact Nat.le_of_not_lt hmany
      -- the first entries-many approvers, split at the last of them
      obtain ⟨signers, m, hsplit⟩ : ∃ signers m,
          (approversOf desk (desk.proposal intent)).take (n + 1) = signers ++ [m] :=
        ⟨_, _, (List.take_append_getElem (Nat.lt_of_succ_le hlen)).symm⟩
      have hcount : signers.length + 1 = n + 1 := by
        have := congrArg List.length hsplit
        rw [List.length_take, List.length_append, List.length_singleton] at this
        omega
      have hsub : signers ++ [m] ⊆ approversOf desk (desk.proposal intent) :=
        hsplit ▸ List.take_subset _ _
      have hneeded : ∀ x, neededApprovals (desk.proposal intent)
          (first :: second :: third :: rest) x = signers.length + 1 := fun x => by
        rw [neededApprovals_of_two_le (by simp), hn, hcount]
      have hquorum := quorum_of_approvesOnQuorum signers h hsafe hasked hsub
        (hsplit ▸ nodup_approversOf.sublist (List.take_sublist _ _))
        (fun x _ => (hneeded x).ge) (hneeded m).le
      have hcard := ((hasRequiredRoleQuorum_iff _ _).mp hquorum).2.2
      have htwo := card_rolesOf_le fun x hx => (mem_approversOf.mp (hsub hx)).2
      simp only [List.length_cons] at hcard
      omega

/-- Counting approvers agrees with the gate's approval check on every run exactly when, for each
list the policy can ask for, enough distinct approvers always fill its roles. -/
theorem approvesOnQuorum_iff (h : AwaitsFirst desk intent start) (asked : Set (List String))
    (faults : Set ApproveFault) :
    ApprovesOnQuorum desk start asked faults ↔ ∀ required ∈ asked,
      CountFillsRoles (approversOf desk (desk.proposal intent)) (desk.proposal intent) required :=
  ⟨fun hsafe _ hasked => countFillsRoles_of_approvesOnQuorum h hsafe hasked,
    approvesOnQuorum_of_countFillsRoles h⟩

/-! ## An approver signs what an admin must -/

def soleApprover : MemberAuthority :=
  { id := "mem_1", email := "ann@acme.test", role := .approver, active := true
    approvalDomains := [.ap], perItemLimitCents := 1000000
    requiresSecondApproverAboveCents := none }

def soleDesk : ApprovalDesk :=
  { intentId := "pi_1", members := ⟨[soleApprover], by decide⟩, counterpartyType := some "vendor"
    payeeEmail := none, activeVersion := 3, recordsVersion := true }

/-- A hundred dollars to a vendor. -/
def soleIntent : PaymentIntentRow :=
  { id := "pi_1", ownerId := "tnt_1", createdByAgentId := none, actionType := .achOutbound
    sourceAccountId := "acct_1", destinationCounterpartyId := "cp_1"
    amount := ⟨10000000000, by decide⟩, currency := "USD", status := .pendingApproval
    policyDecisionId := some "pd_1", updatedAt := 0, positive := by decide }

def soleStart : ApprovalState :=
  { intents := ⟨[soleIntent], by decide⟩, approvals := Table.empty }

theorem soleStart_awaitsFirst : AwaitsFirst soleDesk soleIntent soleStart := ⟨rfl, rfl, rfl⟩

theorem sole_approvesOnQuorum_iff :
    ApprovesOnQuorum soleDesk soleStart {["admin"]} ∅ ↔ ∀ required ∈ ({["admin"]} : Set _),
      CountFillsRoles (approversOf soleDesk (soleDesk.proposal soleIntent))
        (soleDesk.proposal soleIntent) required :=
  approvesOnQuorum_iff soleStart_awaitsFirst {["admin"]} ∅

/-- One approver is enough for `approve` where the policy asks for an admin. -/
theorem sole_approved_without_admin :
    (approve soleDesk soleStart (callOf ["admin"] soleApprover)).2 = .ok .approved ∧
      ¬ApprovesOnQuorum soleDesk soleStart {["admin"]} ∅ := by
  refine ⟨by rfl, fun hsafe => ?_⟩
  have haccepts : GateAccepts soleDesk
      (approve soleDesk soleStart (callOf ["admin"] soleApprover)).1 ["admin"] :=
    hsafe [] (callOf ["admin"] soleApprover) soleStart rfl (by decide) (by simp [Admitted, callOf])
      (by decide) (by rfl)
  revert haccepts
  unfold GateAccepts
  decide

end BrainCore.Members
