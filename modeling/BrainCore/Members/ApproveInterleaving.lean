import BrainCore.Members.ApproveSteps

/-!
# Interleaved approvals

The steps of `approve` are transactions of their own: it reads the intent, reads
the approvals, signs, appends the signature to the intent and moves the intent.
Any number of calls take their steps in any order, and each may throw between
two of them.
-/

namespace BrainCore.Members

open BrainCore.Foundation BrainCore.Gate BrainCore.Ledger BrainCore.Policy BrainCore.Shared

/-! ## The steps of a call -/

instance decidableIsOpen : DecidablePred IsOpen := fun _ => inferInstanceAs (Decidable (_ ∨ _))

/-- The status that a call read and goes on from. -/
abbrev OpenStatus := { status : PaymentIntentState // IsOpen status }

/-- How far a call has come; `needed` is the number of distinct approvals its member asks for. -/
inductive ApproveStage where
  | idle
  | opened (call : ApproveCall) (intent : PaymentIntentRow) (isOpen : IsOpen intent.status)
  | authorized (call : ApproveCall) (status : OpenStatus) (grant : ApprovalGrant) (needed : Nat)
  | signed (call : ApproveCall) (status : OpenStatus) (grant : ApprovalGrant)
  | appended (call : ApproveCall) (status : OpenStatus) (grant : ApprovalGrant)
  | moved (target : PaymentIntentState)
  | returned (target : PaymentIntentState)
  /-- The call threw; it had committed its signature, or it had not. -/
  | threw (changed : Bool)

/-- The tables, what each recorded approval asked for, and the calls. -/
structure ApprovalWorld where
  intents : PaymentIntents
  approvals : Approvals := Table.empty
  needed : List Nat := []
  calls : Nat → ApproveStage := fun _ => .idle

inductive ApproveLabel where
  | begin (i : Nat) (call : ApproveCall)
  | advance (i : Nat)
  /-- A dependency throws. -/
  | fail (i : Nat)

namespace ApprovalWorld

def setCall (s : ApprovalWorld) (i : Nat) (stage : ApproveStage) : ApprovalWorld :=
  { s with calls := Function.update s.calls i stage }

end ApprovalWorld

/-- The status a transition starts from; an additional approval expects the first status. -/
def approvalSource (status : OpenStatus) (grant : ApprovalGrant) : PaymentIntentState :=
  if grant.requiresAdditionalApproval then .pendingApproval else status.val

def approvalTarget (grant : ApprovalGrant) : PaymentIntentState :=
  if grant.requiresAdditionalApproval then .awaitingSecondApproval else .approved

/-- `requireIntent` and the check of its status. -/
def openIntent (desk : ApprovalDesk) (s : ApprovalWorld) (call : ApproveCall) : ApproveStage :=
  match s.intents.find? desk.intentId with
  | none => .threw false
  | some intent =>
      if isOpen : IsOpen intent.status then .opened call intent isOpen else .threw false

/-- `approvals.list` and `authorizeApproval`. -/
def authorize (desk : ApprovalDesk) (s : ApprovalWorld) (call : ApproveCall)
    (intent : PaymentIntentRow) (isOpen : IsOpen intent.status) : ApproveStage :=
  let input : AuthorizeApprovalInput :=
    { actorMemberId := call.memberId
      member := desk.members.find? call.memberId
      proposal := desk.proposal intent
      existingApproverMemberIds := s.approvals.rows.map (·.approverPrincipalId)
      requiredDistinctApprovals := max 1 call.requiredApprovers.length }
  match authorizeApproval input, input.member with
  | .ok grant, some member =>
      .authorized call ⟨intent.status, isOpen⟩ grant
        (distinctApprovals member input.proposal input.requiredDistinctApprovals)
  | _, _ => .threw false

/-- `sign`: the signature is committed. -/
def commitSignature (desk : ApprovalDesk) (s : ApprovalWorld) (i : Nat) (call : ApproveCall)
    (status : OpenStatus) (grant : ApprovalGrant) (needed : Nat) : ApprovalWorld :=
  match s.approvals.sign call.approvalId call.memberId (some grant.approverRole.text)
      desk.signedVersion with
  | none => s.setCall i (.threw false)
  | some approvals =>
      { s with approvals, needed := s.needed ++ [needed] }.setCall i (.signed call status grant)

/-- The conditional transition; that its edge is allowed is asserted first. -/
def commitTransition (desk : ApprovalDesk) (s : ApprovalWorld) (i : Nat) (call : ApproveCall)
    (status : OpenStatus) (grant : ApprovalGrant) : ApprovalWorld :=
  let source := approvalSource status grant
  let target := approvalTarget grant
  if ¬isValidPaymentIntentTransition source target then s.setCall i (.threw true)
  else match s.intents.transition desk.intentId source target call.now with
    | none => s.setCall i (.threw true)
    | some intents => { s with intents }.setCall i (.moved target)

/-- The next transaction of a call. -/
def advanceCall (desk : ApprovalDesk) (s : ApprovalWorld) (i : Nat) :
    ApproveStage → Option ApprovalWorld
  | .opened call intent isOpen => some (s.setCall i (authorize desk s call intent isOpen))
  | .authorized call status grant needed =>
      some (commitSignature desk s i call status grant needed)
  | .signed call status grant =>
      some ({ s with
        intents := s.intents.appendApprovalId desk.intentId call.approvalId call.now }.setCall i
          (.appended call status grant))
  | .appended call status grant => some (commitTransition desk s i call status grant)
  | .moved target => some (s.setCall i (.returned target))
  | .idle | .returned _ | .threw _ => none

/-- A dependency of the call throws before its next transaction. -/
def failCall (s : ApprovalWorld) (i : Nat) : ApproveStage → Option ApprovalWorld
  | .opened _ _ _ | .authorized _ _ _ _ => some (s.setCall i (.threw false))
  | .signed _ _ _ | .appended _ _ _ | .moved _ => some (s.setCall i (.threw true))
  | .idle | .returned _ | .threw _ => none

def approveStep (desk : ApprovalDesk) (s : ApprovalWorld) : ApproveLabel → Option ApprovalWorld
  | .begin i call =>
      match s.calls i with
      | .idle => some (s.setCall i (openIntent desk s call))
      | _ => none
  | .advance i => advanceCall desk s i (s.calls i)
  | .fail i => failCall s i (s.calls i)

def interleavedApprovals (desk : ApprovalDesk) : Machine ApprovalWorld ApproveLabel :=
  ⟨approveStep desk⟩

/-! ## The property -/

/-- The intent is pending or awaits a second approval. -/
def OpenIntent (desk : ApprovalDesk) (s : ApprovalWorld) : Prop :=
  ∃ row, s.intents.find? desk.intentId = some row ∧ IsOpen row.status

/-- As many distinct approvals are recorded as one of them asked for. -/
def Reached (s : ApprovalWorld) : Prop := ∃ needed ∈ s.needed, needed ≤ s.approvals.rows.length

/-- No call that threw changed anything, and the intent is not open with the approvals it needs. -/
structure WholeApprovals (desk : ApprovalDesk) (s : ApprovalWorld) : Prop where
  unchanged : ∀ i, s.calls i ≠ .threw true
  unreached : OpenIntent desk s → ¬Reached s

/-! ## The condition -/

/-- The status is the one the transition of a call starts from. -/
def Expected (desk : ApprovalDesk) (s : ApprovalWorld) (source : PaymentIntentState) : Prop :=
  ∃ row, s.intents.find? desk.intentId = some row ∧ row.status = source

/-- A signature leaves an open intent short of each number that is asked for, and a transition
finds the status it expects. -/
def AdvanceKeeps (desk : ApprovalDesk) (s : ApprovalWorld) : ApproveStage → Prop
  | .authorized call _ _ needed =>
      call.memberId ∉ s.approvals.rows.map (·.approverPrincipalId) → OpenIntent desk s →
        ∀ n ∈ s.needed ++ [needed], s.approvals.rows.length + 1 < n
  | .appended _ status grant => Expected desk s (approvalSource status grant)
  | _ => True

/-- A call does not throw once its signature is committed. -/
def FailKeeps : ApproveStage → Prop
  | .signed _ _ _ | .appended _ _ _ | .moved _ => False
  | _ => True

def KeepsWhole (desk : ApprovalDesk) (s : ApprovalWorld) : ApproveLabel → Prop
  | .begin _ _ => True
  | .advance i => AdvanceKeeps desk s (s.calls i)
  | .fail i => FailKeeps (s.calls i)

/-! ## One step -/

variable {desk : ApprovalDesk} {s : ApprovalWorld}

theorem WholeApprovals.setCall (h : WholeApprovals desk s) (i : Nat) {stage : ApproveStage}
    (hstage : stage ≠ .threw true) : WholeApprovals desk (s.setCall i stage) := by
  refine ⟨fun j => ?_, h.unreached⟩
  change Function.update s.calls i stage j ≠ .threw true
  by_cases hj : j = i
  · rw [hj, Function.update_self]
    exact hstage
  · rw [Function.update_of_ne hj]
    exact h.unchanged j

theorem not_whole_threw (i : Nat) : ¬WholeApprovals desk (s.setCall i (.threw true)) := fun h =>
  h.unchanged i (Function.update_self ..)

theorem openIntent_ne (call : ApproveCall) : openIntent desk s call ≠ .threw true := by
  unfold openIntent
  split
  · nofun
  · split
    · nofun
    · nofun

theorem authorize_ne (call : ApproveCall) (intent : PaymentIntentRow)
    (isOpen : IsOpen intent.status) : authorize desk s call intent isOpen ≠ .threw true := by
  unfold authorize
  dsimp only
  split
  · nofun
  · nofun

theorem sign_eq_none_iff {approvals : Approvals} {id principalId : String} {role : Option String}
    {policyVersion : Option Nat} :
    approvals.sign id principalId role policyVersion = none ↔
      principalId ∈ approvals.rows.map (·.approverPrincipalId) := by
  constructor
  · intro hnone
    by_contra hfresh
    obtain ⟨next, hnext⟩ : ∃ next, approvals.sign id principalId role policyVersion = some next := by
      refine Table.exists_insert ?_
      rw [Table.find?, List.find?_eq_none]
      intro row hrow
      simp only [decide_eq_true_eq]
      exact fun hid => hfresh (List.mem_map.mpr ⟨row, hrow, hid⟩)
    rw [hnone] at hnext
    cases hnext
  · intro hmem
    cases hsign : approvals.sign id principalId role policyVersion with
    | none => rfl
    | some next => exact absurd hmem (Approvals.sign_eq_some hsign).1

/-- A signature keeps the approvals whole exactly when it leaves an open intent short. -/
theorem whole_commitSignature (h : WholeApprovals desk s) (i : Nat) (call : ApproveCall)
    (status : OpenStatus) (grant : ApprovalGrant) (needed : Nat) :
    WholeApprovals desk (commitSignature desk s i call status grant needed) ↔
      (call.memberId ∉ s.approvals.rows.map (·.approverPrincipalId) → OpenIntent desk s →
        ∀ n ∈ s.needed ++ [needed], s.approvals.rows.length + 1 < n) := by
  unfold commitSignature
  cases hsign : s.approvals.sign call.approvalId call.memberId (some grant.approverRole.text)
      desk.signedVersion with
  | none =>
      have hmem := sign_eq_none_iff.mp hsign
      exact ⟨fun _ hfresh => absurd hmem hfresh, fun _ => h.setCall i nofun⟩
  | some approvals =>
      obtain ⟨hfresh, hrows⟩ := Approvals.sign_eq_some hsign
      have hcount : approvals.rows.length = s.approvals.rows.length + 1 := by
        rw [hrows, List.length_append, List.length_singleton]
      dsimp only
      constructor
      · intro hnext _ hopen n hn
        have hshort := hnext.unreached hopen
        by_contra hreached
        refine hshort ⟨n, hn, ?_⟩
        change n ≤ approvals.rows.length
        omega
      · intro hshort
        have hsigned : WholeApprovals desk
            { s with approvals, needed := s.needed ++ [needed] } := by
          refine ⟨h.unchanged, fun hopen => ?_⟩
          rintro ⟨n, hn, hreached⟩
          have hless := hshort hfresh hopen n hn
          change n ≤ approvals.rows.length at hreached
          omega
        exact hsigned.setCall i nofun

theorem openIntent_appendApprovalId {approvalId : String} {now : Instant} :
    OpenIntent desk { s with intents := s.intents.appendApprovalId desk.intentId approvalId now } →
      OpenIntent desk s := by
  rintro ⟨row, hrow, hopen⟩
  rw [PaymentIntents.appendApprovalId, Table.find?_updateWhere] at hrow
  obtain ⟨old, hold, rfl⟩ := Option.map_eq_some_iff.mp hrow
  refine ⟨old, hold, ?_⟩
  split at hopen
  · exact hopen
  · exact hopen

theorem approvalSource_open (status : OpenStatus) (grant : ApprovalGrant) :
    IsOpen (approvalSource status grant) := by
  unfold approvalSource
  split
  · exact .inl rfl
  · exact status.property

theorem approval_edge_valid (status : OpenStatus) (grant : ApprovalGrant) :
    isValidPaymentIntentTransition (approvalSource status grant) (approvalTarget grant) = true := by
  obtain ⟨status, rfl | rfl⟩ := status
  · unfold approvalSource approvalTarget
    split <;> rfl
  · unfold approvalSource approvalTarget
    split <;> rfl

/-- A transition keeps the approvals whole exactly when it finds the status it expects. -/
theorem whole_commitTransition (h : WholeApprovals desk s) (i : Nat) (call : ApproveCall)
    (status : OpenStatus) (grant : ApprovalGrant) :
    WholeApprovals desk (commitTransition desk s i call status grant) ↔
      Expected desk s (approvalSource status grant) := by
  unfold commitTransition
  dsimp only
  rw [if_neg (not_not.mpr (approval_edge_valid status grant))]
  cases hmoved : s.intents.transition desk.intentId (approvalSource status grant)
      (approvalTarget grant) call.now with
  | none =>
      refine ⟨fun hnext => absurd hnext (not_whole_threw i), ?_⟩
      rintro ⟨row, hrow, hstatus⟩
      have hsome := PaymentIntents.transition_of_find? hrow (approvalTarget grant) call.now
      rw [hstatus, hmoved] at hsome
      cases hsome
  | some intents =>
      obtain ⟨row, hrow, hstatus, -⟩ := PaymentIntents.transition_eq_some hmoved
      have hopen : OpenIntent desk s :=
        ⟨row, hrow, hstatus ▸ approvalSource_open status grant⟩
      have hafter : WholeApprovals desk { s with intents } :=
        ⟨h.unchanged, fun _ => h.unreached hopen⟩
      exact ⟨fun _ => ⟨row, hrow, hstatus⟩, fun _ => hafter.setCall i nofun⟩

theorem whole_advanceCall {i : Nat} {stage : ApproveStage} {next : ApprovalWorld}
    (h : WholeApprovals desk s) (hstep : advanceCall desk s i stage = some next) :
    WholeApprovals desk next ↔ AdvanceKeeps desk s stage := by
  cases stage with
  | opened call intent isOpen =>
      cases hstep
      exact ⟨fun _ => trivial, fun _ => h.setCall i (authorize_ne call intent isOpen)⟩
  | authorized call status grant needed =>
      cases hstep
      exact whole_commitSignature h i call status grant needed
  | signed call status grant =>
      cases hstep
      have hafter : WholeApprovals desk { s with
          intents := s.intents.appendApprovalId desk.intentId call.approvalId call.now } :=
        ⟨h.unchanged, fun hopen => h.unreached (openIntent_appendApprovalId hopen)⟩
      exact ⟨fun _ => trivial, fun _ => hafter.setCall i nofun⟩
  | appended call status grant =>
      cases hstep
      exact whole_commitTransition h i call status grant
  | moved target =>
      cases hstep
      exact ⟨fun _ => trivial, fun _ => h.setCall i nofun⟩
  | idle => cases hstep
  | returned target => cases hstep
  | threw changed => cases hstep

theorem whole_failCall {i : Nat} {stage : ApproveStage} {next : ApprovalWorld}
    (h : WholeApprovals desk s) (hstep : failCall s i stage = some next) :
    WholeApprovals desk next ↔ FailKeeps stage := by
  have hthrew : ∀ {stage : ApproveStage}, ¬FailKeeps stage →
      (WholeApprovals desk (s.setCall i (.threw true)) ↔ FailKeeps stage) := fun hnever =>
    ⟨fun hnext => absurd hnext (not_whole_threw i), fun hkeeps => absurd hkeeps hnever⟩
  cases stage with
  | opened call intent isOpen =>
      cases hstep
      exact ⟨fun _ => trivial, fun _ => h.setCall i nofun⟩
  | authorized call status grant needed =>
      cases hstep
      exact ⟨fun _ => trivial, fun _ => h.setCall i nofun⟩
  | signed call status grant =>
      cases hstep
      exact hthrew id
  | appended call status grant =>
      cases hstep
      exact hthrew id
  | moved target =>
      cases hstep
      exact hthrew id
  | idle => cases hstep
  | returned target => cases hstep
  | threw changed => cases hstep

/-- A step keeps the approvals whole exactly when it meets the condition. -/
theorem whole_step_iff {label : ApproveLabel} {next : ApprovalWorld} (h : WholeApprovals desk s)
    (hstep : approveStep desk s label = some next) :
    WholeApprovals desk next ↔ KeepsWhole desk s label := by
  cases label with
  | begin i call =>
      unfold approveStep at hstep
      dsimp only at hstep
      split at hstep
      · cases hstep
        exact ⟨fun _ => trivial, fun _ => h.setCall i (openIntent_ne call)⟩
      · cases hstep
  | advance i => exact whole_advanceCall h hstep
  | fail i => exact whole_failCall h hstep

/-! ## Runs -/

/-- No approval is recorded and no call has begun. -/
structure Untouched (s : ApprovalWorld) : Prop where
  needed : s.needed = []
  calls : ∀ i, s.calls i = .idle

theorem Untouched.whole (h : Untouched s) : WholeApprovals desk s := by
  refine ⟨fun i => ?_, ?_⟩
  · rw [h.calls i]
    nofun
  · rintro - ⟨n, hn, -⟩
    rw [h.needed] at hn
    cases hn

/-- The approvals are whole in every state of a run exactly when each of its steps keeps them. -/
theorem always_whole_iff {start final : ApprovalWorld} {labels : List ApproveLabel}
    (hstart : Untouched start)
    (hrun : (interleavedApprovals desk).run start labels = some final) :
    (interleavedApprovals desk).Always (WholeApprovals desk) start labels ↔
      (interleavedApprovals desk).Meets (KeepsWhole desk) start labels :=
  (interleavedApprovals desk).always_iff_meets (fun _ _ _ h hstep => whole_step_iff h hstep)
    hstart.whole hrun

/-! ## Two approvers at once -/

def firstApprover : MemberAuthority :=
  { id := "mem_1", email := "ann@acme.test", role := .approver, active := true
    approvalDomains := [.ap], perItemLimitCents := 1000000
    requiresSecondApproverAboveCents := none }

theorem approversIds : ([firstApprover, { firstApprover with id := "mem_2", email := "bo@acme.test" }].map
    MemberAuthority.id).Nodup := by decide

/-- Two members may approve a hundred dollars to a vendor. -/
def pairDesk : ApprovalDesk :=
  { intentId := "pi_1"
    members := ⟨[firstApprover, { firstApprover with id := "mem_2", email := "bo@acme.test" }],
      approversIds⟩
    counterpartyType := some "vendor", payeeEmail := none, activeVersion := 3
    recordsVersion := true }

theorem hundred_inRange : (100 * 10 ^ 8 : Int).natAbs < 10 ^ 28 := by decide

theorem hundred_pos : 0 < (⟨100 * 10 ^ 8, hundred_inRange⟩ : Numeric8).scaled := by decide

def pendingIntent : PaymentIntentRow :=
  { id := "pi_1", ownerId := "tnt_1", createdByAgentId := none, actionType := .achOutbound
    sourceAccountId := "acct_1", destinationCounterpartyId := "cp_1"
    amount := ⟨100 * 10 ^ 8, hundred_inRange⟩, currency := "USD", status := .pendingApproval
    policyDecisionId := some "pd_1", updatedAt := 0, positive := hundred_pos }

def pendingWorld : ApprovalWorld := { intents := ⟨[pendingIntent], List.nodup_singleton _⟩ }

theorem pendingWorld_untouched : Untouched pendingWorld := ⟨rfl, fun _ => rfl⟩

def callBy (memberId : String) : ApproveCall :=
  { memberId, approvalId := memberId, requiredApprovers := ["approver", "approver"], now := 1 }

/-- One of two approvals. -/
def firstApproval : List ApproveLabel :=
  [.begin 0 (callBy "mem_1"), .advance 0, .advance 0, .advance 0, .advance 0, .advance 0]

theorem firstApproval_whole :
    (interleavedApprovals pairDesk).Always (WholeApprovals pairDesk) pendingWorld firstApproval := by
  obtain ⟨final, hrun⟩ : ∃ final,
      (interleavedApprovals pairDesk).run pendingWorld firstApproval = some final := ⟨_, rfl⟩
  refine (always_whole_iff pendingWorld_untouched hrun).mpr ⟨trivial, fun _ h₁ => ?_⟩
  obtain rfl := Option.some.inj h₁
  refine ⟨trivial, fun _ h₂ => ?_⟩
  obtain rfl := Option.some.inj h₂
  refine ⟨?_, fun _ h₃ => ?_⟩
  · intro _ _ n hn
    obtain rfl := List.mem_singleton.mp hn
    decide
  obtain rfl := Option.some.inj h₃
  refine ⟨trivial, fun _ h₄ => ?_⟩
  obtain rfl := Option.some.inj h₄
  refine ⟨⟨_, rfl, rfl⟩, fun _ h₅ => ?_⟩
  obtain rfl := Option.some.inj h₅
  exact ⟨trivial, fun _ _ => trivial⟩

/-- Both members read that nobody has approved, and both ask for another approval. -/
def bothApprove : List ApproveLabel :=
  [.begin 0 (callBy "mem_1"), .begin 1 (callBy "mem_2"), .advance 0, .advance 1, .advance 0,
    .advance 1, .advance 0, .advance 1, .advance 0, .advance 1]

/-- The second call throws with its approval recorded, and the intent waits with both. -/
theorem bothApprove_halfMade : ∃ final,
    (interleavedApprovals pairDesk).run pendingWorld bothApprove = some final ∧
      final.calls 1 = .threw true ∧ OpenIntent pairDesk final ∧ Reached final ∧
      ¬WholeApprovals pairDesk final := by
  refine ⟨_, rfl, rfl, ⟨_, rfl, .inr rfl⟩, ⟨2, List.mem_cons_self, by decide⟩, fun h => ?_⟩
  exact h.unchanged 1 rfl

/-! ## Settled states -/

/-- The member whose signature is committed, with the grant the intent has yet to move for. -/
def ApproveStage.inFlight? : ApproveStage → Option (String × ApprovalGrant)
  | .signed call _ grant | .appended call _ grant => some (call.memberId, grant)
  | _ => none

namespace ApprovalWorld

/-- The members in the order of their signatures. -/
def signers (s : ApprovalWorld) : List String := s.approvals.rows.map (·.approverPrincipalId)

/-- The signature at an index is of a call that has yet to move the intent. -/
def InFlight (s : ApprovalWorld) (k : Nat) : Prop :=
  ∃ i member grant, s.signers[k]? = some member ∧ (s.calls i).inFlight? = some (member, grant)

/-- Every signature has moved the intent. -/
def Settled (s : ApprovalWorld) : Prop := ∀ i, (s.calls i).inFlight? = none

end ApprovalWorld

/-- The approvals, the calls that recorded them and the status of the intent. -/
structure Accounted (desk : ApprovalDesk) (s : ApprovalWorld) : Prop where
  needed : s.needed.length = s.signers.length
  authorized : ∀ i call status grant needed, s.calls i = .authorized call status grant needed →
    grant.requiresAdditionalApproval = true → 2 ≤ needed
  recorded : ∀ i member grant, (s.calls i).inFlight? = some (member, grant) →
    ∃ k n : Nat, s.signers[k]? = some member ∧ s.needed[k]? = some n ∧
      (grant.requiresAdditionalApproval = true → 2 ≤ n)
  pending : Expected desk s .pendingApproval → ∀ k < s.signers.length, s.InFlight k
  awaiting : Expected desk s .awaitingSecondApproval → ∃ first n : Nat, s.needed[first]? = some n ∧
    2 ≤ n ∧ ∀ k < s.signers.length, k ≠ first → s.InFlight k

/-- One signature of a member that asks for two leaves the intent open, and no more do. -/
theorem Accounted.settled (h : Accounted desk s) (hsettled : s.Settled)
    (hopen : OpenIntent desk s) : ¬Reached s := by
  have hnone : ∀ k, ¬s.InFlight k := by
    rintro k ⟨i, member, grant, -, hflight⟩
    rw [hsettled i] at hflight
    cases hflight
  have hlength : s.approvals.rows.length = s.signers.length := (List.length_map _).symm
  rintro ⟨n, hn, hreached⟩
  obtain ⟨index, hindex⟩ := List.mem_iff_getElem?.mp hn
  have hlt : index < s.signers.length := by
    rw [← h.needed]
    exact (List.getElem?_eq_some_iff.mp hindex).1
  obtain ⟨row, hrow, hpending | hawaiting⟩ := hopen
  · exact hnone index (h.pending ⟨row, hrow, hpending⟩ index hlt)
  · obtain ⟨first, m, hfirst, htwo, hothers⟩ := h.awaiting ⟨row, hrow, hawaiting⟩
    have honly : ∀ k < s.signers.length, k = first := fun k hk => by
      by_contra hne
      exact hnone k (hothers k hk hne)
    rw [honly index hlt, hfirst] at hindex
    obtain rfl := Option.some.inj hindex
    have hzero := honly 0 (by omega)
    have hone := honly 1 (by omega)
    omega

/-- Nothing is thrown once a signature is committed. -/
def StageKeepsSignatures (desk : ApprovalDesk) (s : ApprovalWorld) : ApproveStage → Prop
  | .appended _ status grant => Expected desk s (approvalSource status grant)
  | _ => True

def KeepsSignatures (desk : ApprovalDesk) (s : ApprovalWorld) : ApproveLabel → Prop
  | .begin _ _ => True
  | .advance i => StageKeepsSignatures desk s (s.calls i)
  | .fail i => FailKeeps (s.calls i)

theorem InFlight.of_calls {next : ApprovalWorld} {k : Nat} (hsigners : next.signers = s.signers)
    (hcalls : ∀ i, (next.calls i).inFlight? = (s.calls i).inFlight?) (h : s.InFlight k) :
    next.InFlight k := by
  obtain ⟨i, member, grant, hmember, hflight⟩ := h
  exact ⟨i, member, grant, hsigners ▸ hmember, (hcalls i).trans hflight⟩

/-- A step that changes no signature, no status and no call in flight. -/
theorem Accounted.of_same {next : ApprovalWorld} (h : Accounted desk s)
    (happrovals : next.approvals = s.approvals) (hneeded : next.needed = s.needed)
    (hcalls : ∀ i, (next.calls i).inFlight? = (s.calls i).inFlight?)
    (hauthorized : ∀ i call status grant needed,
      next.calls i = .authorized call status grant needed →
        grant.requiresAdditionalApproval = true → 2 ≤ needed)
    (hstatus : ∀ status, Expected desk next status → Expected desk s status) :
    Accounted desk next := by
  have hsigners : next.signers = s.signers := by
    unfold ApprovalWorld.signers
    rw [happrovals]
  constructor
  · rw [hneeded, hsigners]
    exact h.needed
  · exact hauthorized
  · intro i member grant hflight
    rw [hsigners, hneeded]
    exact h.recorded i member grant ((hcalls i).symm.trans hflight)
  · intro hpending k hk
    rw [hsigners] at hk
    exact InFlight.of_calls hsigners hcalls (h.pending (hstatus _ hpending) k hk)
  · intro hawaiting
    obtain ⟨first, n, hfirst, htwo, hothers⟩ := h.awaiting (hstatus _ hawaiting)
    refine ⟨first, n, hneeded ▸ hfirst, htwo, fun k hk hne => ?_⟩
    rw [hsigners] at hk
    exact InFlight.of_calls hsigners hcalls (hothers k hk hne)

theorem setCall_self (i : Nat) (stage : ApproveStage) : (s.setCall i stage).calls i = stage :=
  Function.update_self ..

theorem setCall_of_ne {i j : Nat} (hne : j ≠ i) (stage : ApproveStage) :
    (s.setCall i stage).calls j = s.calls j := Function.update_of_ne hne ..

theorem Accounted.setCall (h : Accounted desk s) (i : Nat) {stage : ApproveStage}
    (hflight : stage.inFlight? = (s.calls i).inFlight?)
    (hauthorized : ∀ call status grant needed, stage = .authorized call status grant needed →
      grant.requiresAdditionalApproval = true → 2 ≤ needed) :
    Accounted desk (s.setCall i stage) := by
  refine h.of_same rfl rfl (fun j => ?_) (fun j => ?_) fun _ => id
  · by_cases hj : j = i
    · rw [hj, setCall_self, hflight]
    · rw [setCall_of_ne hj]
  · by_cases hj : j = i
    · rw [hj, setCall_self]
      exact hauthorized
    · rw [setCall_of_ne hj]
      exact h.authorized j

theorem authorize_additional {call : ApproveCall} {intent : PaymentIntentRow}
    {isOpen : IsOpen intent.status} {call' : ApproveCall} {status : OpenStatus}
    {grant : ApprovalGrant} {needed : Nat}
    (h : authorize desk s call intent isOpen = .authorized call' status grant needed)
    (hadditional : grant.requiresAdditionalApproval = true) : 2 ≤ needed := by
  unfold authorize at h
  dsimp only at h
  split at h
  · rename_i grant' member hgrant hmember
    cases h
    obtain ⟨member', hmember', -, -, hmore⟩ := authorizeApproval_ok hgrant
    dsimp only at hmember' hmore
    rw [hmember] at hmember'
    obtain rfl := Option.some.inj hmember'
    exact (hmore.mp hadditional).1
  · cases h

theorem authorize_inFlight (call : ApproveCall) (intent : PaymentIntentRow)
    (isOpen : IsOpen intent.status) : (authorize desk s call intent isOpen).inFlight? = none := by
  unfold authorize
  dsimp only
  split
  · rfl
  · rfl

theorem openIntent_inFlight (call : ApproveCall) : (openIntent desk s call).inFlight? = none := by
  unfold openIntent
  split
  · rfl
  · split
    · rfl
    · rfl

theorem openIntent_ne_authorized {call call' : ApproveCall} {status : OpenStatus}
    {grant : ApprovalGrant} {needed : Nat} :
    openIntent desk s call ≠ .authorized call' status grant needed := by
  unfold openIntent
  split
  · nofun
  · split
    · nofun
    · nofun

theorem InFlight.concat {k : Nat} {approvals : Approvals} {needed : List Nat} {i : Nat}
    {stage : ApproveStage} {member : String}
    (hsigners : approvals.rows.map (·.approverPrincipalId) = s.signers ++ [member])
    (hbefore : (s.calls i).inFlight? = none) (h : s.InFlight k) :
    ({ s with approvals, needed }.setCall i stage).InFlight k := by
  obtain ⟨j, other, grant, hother, hflight⟩ := h
  have hne : j ≠ i := by
    rintro rfl
    rw [hbefore] at hflight
    cases hflight
  refine ⟨j, other, grant, ?_, ?_⟩
  · change (approvals.rows.map (·.approverPrincipalId))[k]? = some other
    rw [hsigners, List.getElem?_append_left (List.getElem?_eq_some_iff.mp hother).1]
    exact hother
  · rw [setCall_of_ne hne]
    exact hflight

/-- A new signature is in flight. -/
theorem Accounted.commitSignature (h : Accounted desk s) {i : Nat} {call : ApproveCall}
    {status : OpenStatus} {grant : ApprovalGrant} {needed : Nat}
    (hcall : s.calls i = .authorized call status grant needed) :
    Accounted desk (commitSignature desk s i call status grant needed) := by
  unfold Members.commitSignature
  have hbefore : (s.calls i).inFlight? = none := by
    rw [hcall]
    rfl
  cases hsign : s.approvals.sign call.approvalId call.memberId (some grant.approverRole.text)
      desk.signedVersion with
  | none => exact h.setCall i hbefore.symm nofun
  | some approvals =>
      have hsigners : approvals.rows.map (·.approverPrincipalId) = s.signers ++ [call.memberId] := by
        rw [(Approvals.sign_eq_some hsign).2, List.map_append]
        rfl
      have hlength : (approvals.rows.map (·.approverPrincipalId)).length = s.signers.length + 1 := by
        rw [hsigners, List.length_append, List.length_singleton]
      have hlast : ∀ stage, stage.inFlight? = some (call.memberId, grant) →
          ({ s with approvals, needed := s.needed ++ [needed] }.setCall i stage).InFlight
            s.signers.length := by
        intro stage hstage
        refine ⟨i, call.memberId, grant, ?_, ?_⟩
        · change (approvals.rows.map (·.approverPrincipalId))[s.signers.length]? = _
          rw [hsigners, List.getElem?_concat_length]
        · rw [setCall_self, hstage]
      have hflight : ∀ k < s.signers.length + 1, (k ≠ s.signers.length → s.InFlight k) →
          ({ s with approvals, needed := s.needed ++ [needed] }.setCall i
            (.signed call status grant)).InFlight k := by
        intro k hk hold
        by_cases hk' : k = s.signers.length
        · rw [hk']
          exact hlast _ rfl
        · exact InFlight.concat hsigners hbefore (hold hk')
      constructor
      · change (s.needed ++ [needed]).length = (approvals.rows.map (·.approverPrincipalId)).length
        rw [hlength, List.length_append, List.length_singleton, h.needed]
      · intro j call' status' grant' needed' hj
        have hne : j ≠ i := by
          rintro rfl
          rw [setCall_self] at hj
          cases hj
        rw [setCall_of_ne hne] at hj
        exact h.authorized j call' status' grant' needed' hj
      · intro j member grant' hj
        change ∃ k n : Nat, (approvals.rows.map (·.approverPrincipalId))[k]? = some member ∧
          (s.needed ++ [needed])[k]? = some n ∧ _
        by_cases hji : j = i
        · rw [hji, setCall_self] at hj
          cases hj
          refine ⟨s.signers.length, needed, ?_, ?_, h.authorized i call status grant needed hcall⟩
          · rw [hsigners, List.getElem?_concat_length]
          · rw [← h.needed, List.getElem?_concat_length]
        · rw [setCall_of_ne hji] at hj
          obtain ⟨k, n, hk, hn, htwo⟩ := h.recorded j member grant' hj
          refine ⟨k, n, ?_, ?_, htwo⟩
          · rw [hsigners, List.getElem?_append_left (List.getElem?_eq_some_iff.mp hk).1]
            exact hk
          · rw [List.getElem?_append_left (List.getElem?_eq_some_iff.mp hn).1]
            exact hn
      · intro hpending k hk
        change k < (approvals.rows.map (·.approverPrincipalId)).length at hk
        refine hflight k (hlength ▸ hk) fun hne => h.pending hpending k ?_
        omega
      · intro hawaiting
        obtain ⟨first, n, hfirst, htwo, hothers⟩ := h.awaiting hawaiting
        refine ⟨first, n, ?_, htwo, fun k hk hne => ?_⟩
        · change (s.needed ++ [needed])[first]? = some n
          rw [List.getElem?_append_left (List.getElem?_eq_some_iff.mp hfirst).1]
          exact hfirst
        · change k < (approvals.rows.map (·.approverPrincipalId)).length at hk
          refine hflight k (hlength ▸ hk) fun hnew => hothers k ?_ hne
          omega

/-- A transition that finds its status leaves at most its own signature on an open intent. -/
theorem Accounted.commitTransition (h : Accounted desk s) {i : Nat} {call : ApproveCall}
    {status : OpenStatus} {grant : ApprovalGrant}
    (hcall : s.calls i = .appended call status grant)
    (hexpected : Expected desk s (approvalSource status grant)) :
    Accounted desk (commitTransition desk s i call status grant) := by
  obtain ⟨row, hrow, hstatus⟩ := hexpected
  have hmoved := PaymentIntents.transition_of_find? hrow (approvalTarget grant) call.now
  rw [hstatus] at hmoved
  have hflight : (s.calls i).inFlight? = some (call.memberId, grant) := by
    rw [hcall]
    rfl
  unfold Members.commitTransition
  dsimp only
  rw [if_neg (not_not.mpr (approval_edge_valid status grant)), hmoved]
  dsimp only
  -- the intent stands at the target of the transition
  generalize hput : s.intents.put (PaymentIntents.withStatus (approvalTarget grant) call.now row) =
    intents
  have hafter : ∀ target, Expected desk
      ({ s with intents }.setCall i (.moved (approvalTarget grant))) target →
        target = approvalTarget grant := by
    rintro target ⟨moved, hfound, htarget⟩
    change intents.find? desk.intentId = some moved at hfound
    have hid : desk.intentId =
        (PaymentIntents.withStatus (approvalTarget grant) call.now row).id :=
      (Table.key_of_find? hrow).symm
    rw [← hput, Table.find?_put, if_pos hid] at hfound
    obtain rfl := Option.some.inj hfound
    exact htarget.symm
  constructor
  · exact h.needed
  · intro j call' status' grant' needed hj
    have hne : j ≠ i := by
      rintro rfl
      rw [setCall_self] at hj
      cases hj
    rw [setCall_of_ne hne] at hj
    exact h.authorized j call' status' grant' needed hj
  · intro j member grant' hj
    have hne : j ≠ i := by
      rintro rfl
      rw [setCall_self] at hj
      cases hj
    rw [setCall_of_ne hne] at hj
    exact h.recorded j member grant' hj
  · intro hpending
    have htarget := hafter _ hpending
    unfold approvalTarget at htarget
    split at htarget
    · cases htarget
    · cases htarget
  · intro hawaiting
    have htarget := hafter _ hawaiting
    have hadditional : grant.requiresAdditionalApproval = true := by
      unfold approvalTarget at htarget
      split at htarget
      · assumption
      · cases htarget
    have hpending : Expected desk s .pendingApproval := by
      refine ⟨row, hrow, ?_⟩
      rw [hstatus, approvalSource, if_pos hadditional]
    obtain ⟨own, n, hown, hn, htwo⟩ := h.recorded i call.memberId grant hflight
    refine ⟨own, n, hn, htwo hadditional, fun k hk hne => ?_⟩
    obtain ⟨j, member, grant', hmember, hj⟩ := h.pending hpending k hk
    have hji : j ≠ i := by
      rintro rfl
      rw [hflight] at hj
      cases hj
      have hnodup : s.signers.Nodup := s.approvals.nodup
      exact hne ((List.getElem?_inj hk hnodup).mp (hmember.trans hown.symm))
    refine ⟨j, member, grant', hmember, ?_⟩
    rw [setCall_of_ne hji]
    exact hj

theorem Accounted.step {label : ApproveLabel} {next : ApprovalWorld} (h : Accounted desk s)
    (hkeeps : KeepsSignatures desk s label) (hstep : approveStep desk s label = some next) :
    Accounted desk next := by
  cases label with
  | begin i call =>
      unfold approveStep at hstep
      dsimp only at hstep
      split at hstep
      · rename_i hidle
        cases hstep
        refine h.setCall i ?_ fun _ _ _ _ heq => absurd heq openIntent_ne_authorized
        rw [openIntent_inFlight, hidle]
        rfl
      · cases hstep
  | advance i =>
      change advanceCall desk s i (s.calls i) = some next at hstep
      change StageKeepsSignatures desk s (s.calls i) at hkeeps
      cases hcall : s.calls i with
      | opened call intent isOpen =>
          rw [hcall] at hstep
          cases hstep
          refine h.setCall i ?_ fun _ _ _ _ heq hadditional => authorize_additional heq hadditional
          rw [authorize_inFlight, hcall]
          rfl
      | authorized call status grant needed =>
          rw [hcall] at hstep
          cases hstep
          exact h.commitSignature hcall
      | signed call status grant =>
          rw [hcall] at hstep
          cases hstep
          have happended : Accounted desk (s.setCall i (.appended call status grant)) := by
            refine h.setCall i ?_ fun _ _ _ _ heq => by cases heq
            rw [hcall]
            rfl
          refine happended.of_same rfl rfl (fun _ => rfl) happended.authorized fun status hstatus => ?_
          obtain ⟨row, hrow, heq⟩ := hstatus
          change (s.intents.appendApprovalId _ _ _).find? desk.intentId = some row at hrow
          rw [PaymentIntents.appendApprovalId, Table.find?_updateWhere] at hrow
          obtain ⟨old, hold, rfl⟩ := Option.map_eq_some_iff.mp hrow
          refine ⟨old, hold, ?_⟩
          split at heq
          · exact heq
          · exact heq
      | appended call status grant =>
          rw [hcall] at hstep hkeeps
          cases hstep
          exact h.commitTransition hcall hkeeps
      | moved target =>
          rw [hcall] at hstep
          cases hstep
          refine h.setCall i ?_ fun _ _ _ _ heq => by cases heq
          rw [hcall]
          rfl
      | idle =>
          rw [hcall] at hstep
          cases hstep
      | returned target =>
          rw [hcall] at hstep
          cases hstep
      | threw changed =>
          rw [hcall] at hstep
          cases hstep
  | fail i =>
      change failCall s i (s.calls i) = some next at hstep
      change FailKeeps (s.calls i) at hkeeps
      cases hcall : s.calls i with
      | opened call intent isOpen =>
          rw [hcall] at hstep
          cases hstep
          refine h.setCall i ?_ fun _ _ _ _ heq => by cases heq
          rw [hcall]
          rfl
      | authorized call status grant needed =>
          rw [hcall] at hstep
          cases hstep
          refine h.setCall i ?_ fun _ _ _ _ heq => by cases heq
          rw [hcall]
          rfl
      | signed call status grant =>
          rw [hcall] at hkeeps
          exact hkeeps.elim
      | appended call status grant =>
          rw [hcall] at hkeeps
          exact hkeeps.elim
      | moved target =>
          rw [hcall] at hkeeps
          exact hkeeps.elim
      | idle =>
          rw [hcall] at hstep
          cases hstep
      | returned target =>
          rw [hcall] at hstep
          cases hstep
      | threw changed =>
          rw [hcall] at hstep
          cases hstep

/-- Where no call throws once its signature is committed, an intent is open with the approvals it
needs only between a signature and the transition of its call. -/
theorem settled_of_meets {start final : ApprovalWorld} {labels : List ApproveLabel}
    (hstart : Untouched start) (hunsigned : start.approvals.rows = [])
    (hpending : Expected desk start .pendingApproval)
    (hkeeps : (interleavedApprovals desk).Meets (KeepsSignatures desk) start labels)
    (hrun : (interleavedApprovals desk).run start labels = some final)
    (hsettled : final.Settled) : OpenIntent desk final → ¬Reached final := by
  have hnobody : start.signers = [] := by
    rw [ApprovalWorld.signers, hunsigned]
    rfl
  have haccounted : Accounted desk start := by
    constructor
    · rw [hstart.needed, hnobody]
      rfl
    · intro i call status grant needed hcall
      rw [hstart.calls i] at hcall
      cases hcall
    · intro i member grant hflight
      rw [hstart.calls i] at hflight
      cases hflight
    · intro _ k hk
      rw [hnobody] at hk
      cases hk
    · rintro ⟨row, hrow, hawaiting⟩
      obtain ⟨other, hother, hstatus⟩ := hpending
      rw [hrow] at hother
      obtain rfl := Option.some.inj hother
      rw [hawaiting] at hstatus
      cases hstatus
  exact ((interleavedApprovals desk).invariant_of_meets
    (fun _ _ _ hguard h hstep => Accounted.step h hguard hstep) haccounted hkeeps hrun).settled
      hsettled

/-- The approval that asks for another member leaves the intent open, with one approval of two. -/
theorem firstApproval_settled : ∃ final,
    (interleavedApprovals pairDesk).run pendingWorld firstApproval = some final ∧
      (OpenIntent pairDesk final → ¬Reached final) := by
  have hkeeps : (interleavedApprovals pairDesk).Meets (KeepsSignatures pairDesk) pendingWorld
      firstApproval := by
    refine ⟨trivial, fun _ h₁ => ?_⟩
    obtain rfl := Option.some.inj h₁
    refine ⟨trivial, fun _ h₂ => ?_⟩
    obtain rfl := Option.some.inj h₂
    refine ⟨trivial, fun _ h₃ => ?_⟩
    obtain rfl := Option.some.inj h₃
    refine ⟨trivial, fun _ h₄ => ?_⟩
    obtain rfl := Option.some.inj h₄
    refine ⟨⟨_, rfl, rfl⟩, fun _ h₅ => ?_⟩
    obtain rfl := Option.some.inj h₅
    exact ⟨trivial, fun _ _ => trivial⟩
  obtain ⟨final, hrun⟩ : ∃ final,
      (interleavedApprovals pairDesk).run pendingWorld firstApproval = some final := ⟨_, rfl⟩
  refine ⟨final, hrun, settled_of_meets pendingWorld_untouched rfl ⟨_, rfl, rfl⟩ hkeeps hrun ?_⟩
  obtain rfl := Option.some.inj hrun
  intro i
  cases i <;> rfl

end BrainCore.Members
