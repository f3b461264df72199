import BrainCore.Gate.HumanApproval
import BrainCore.Shared.DecimalOrder

/-!
# What reputation may change at the gate

`applyReputationAdjustment` rewrites the bounds, the outcome and the approvers
of a decision.  What checks 6, 7 and 11 accept afterwards they accepted before,
except where the union of the approvers drops entries the policy had repeated.
-/

namespace BrainCore.Gate

open BrainCore.Foundation BrainCore.Policy BrainCore.Shared

/-! ## What the checks accept -/

/-- Checks 6, 7 and 11 let the input through. -/
structure Accepts (deps : GateDependencies) (input : RunGateInput)
    (counterparty : GateCounterparty) (decision : GatePolicyDecision) : Prop where
  verified : Succeeds (counterpartyVerified input decision counterparty) ()
  amount : Succeeds (amountWithinLimit input decision) ()
  approval : Succeeds (approvalGrantedWhenRequired deps input decision) ()

/-- What is accepted under the second decision is accepted under the first, and a rejection
stays one. -/
structure OnlyTightens (base adjusted : GatePolicyDecision) : Prop where
  accepted : ∀ deps input counterparty,
    Accepts deps input counterparty adjusted → Accepts deps input counterparty base
  rejected : base.outcome = .reject → adjusted.outcome = .reject

theorem succeeds_guard_iff {refused : Prop} [Decidable refused] {name : GateCheckName}
    {detail : Detail} {next : GateM Unit} :
    Succeeds (if refused then failGate name detail else next) () ↔
      ¬refused ∧ Succeeds next () := by
  constructor
  · intro h
    refine ⟨fun hrefused => ?_, fun log => ?_⟩
    · obtain ⟨log', hlog'⟩ := h {}
      exact (guard_ok_iff.mp hlog').1 hrefused
    · obtain ⟨log', hlog'⟩ := h log
      exact ⟨log', (guard_ok_iff.mp hlog').2⟩
  · rintro ⟨hfree, hnext⟩
    exact .guard hfree hnext

/-- The counterparty is verified far enough for a check above a threshold. -/
def VerifiedEnough (counterparty : GateCounterparty) : Prop :=
  counterparty.verifiedStatus = some "document_verified" ∨
    counterparty.verifiedStatus = some "sanctions_cleared"

theorem counterpartyVerified_iff {input : RunGateInput} {decision : GatePolicyDecision}
    {counterparty : GateCounterparty} :
    Succeeds (counterpartyVerified input decision counterparty) () ↔
      ∀ threshold, decision.counterpartyVerificationThreshold = some threshold →
        input.intent.currency = threshold.currency →
          decimalRank threshold.value < decimalRank input.intent.amount →
            VerifiedEnough counterparty := by
  unfold counterpartyVerified
  cases hthreshold : decision.counterpartyVerificationThreshold with
  | none => simpa using Succeeds.pass _ _
  | some threshold =>
      simp only [succeeds_guard_iff, cmpDecimal_pos, Option.some.injEq, forall_eq', VerifiedEnough]
      constructor
      · rintro ⟨hfree, -⟩ hcurrency habove
        by_contra hunverified
        rw [not_or] at hunverified
        exact hfree ⟨habove, hcurrency, hunverified⟩
      · intro h
        refine ⟨fun ⟨habove, hcurrency, hno⟩ => ?_, .pass _ _⟩
        exact not_or.mpr hno (h hcurrency habove)

theorem amountWithinLimit_iff {input : RunGateInput} {decision : GatePolicyDecision} :
    Succeeds (amountWithinLimit input decision) () ↔
      ∀ upper, decision.amountUpperBound = some upper →
        input.intent.currency = upper.currency ∧
          decimalRank input.intent.amount ≤ decimalRank upper.value := by
  unfold amountWithinLimit
  cases decision.amountUpperBound with
  | none => simpa using Succeeds.pass _ _
  | some upper =>
      simp only [succeeds_guard_iff, cmpDecimal_pos, not_lt, ne_eq, not_not, Option.some.injEq,
        forall_eq']
      exact ⟨fun h => ⟨h.1, h.2.1⟩, fun h => ⟨h.1, h.2, .pass _ _⟩⟩

theorem approvalGrantedWhenRequired_iff {deps : GateDependencies} {input : RunGateInput}
    {decision : GatePolicyDecision} :
    Succeeds (approvalGrantedWhenRequired deps input decision) () ↔
      ApprovalCleared deps input decision := by
  constructor
  · intro h
    obtain ⟨log, hlog⟩ := h {}
    exact approvalGrantedWhenRequired_ok hlog
  · intro h
    unfold approvalGrantedWhenRequired
    by_cases hasked : decision.outcome = .confirm ∨ requiresHardHumanApprovalFloor input.intent
        decision deps.fiatHumanApprovalFloorEnabled = true
    · rw [if_pos hasked]
      obtain ⟨signedRoles, hroles⟩ : ∃ signedRoles, deps.resolveApprovals input.intent.id
          decision.policyVersion = .ok signedRoles := by
        rcases hasked with hconfirm | hfloor
        · exact (h.quorum hconfirm).imp fun _ hsigned => hsigned.1
        · exact (h.floor hfloor).imp fun _ hsigned => hsigned.1
      refine .bind (.ask hroles) (.guard ?_ (.guard ?_ (.pass _ _)))
      · rintro ⟨hconfirm, hmissing⟩
        obtain ⟨signed, hsigned, hquorum⟩ := h.quorum hconfirm
        rw [hroles, Except.ok.injEq] at hsigned
        exact hmissing (hsigned ▸ hquorum)
      · rintro ⟨hfloor, hnone⟩
        obtain ⟨signed, hsigned, hsome⟩ := h.floor hfloor
        rw [hroles, Except.ok.injEq] at hsigned
        exact hsome (hsigned ▸ hnone)
    · rw [if_neg hasked]
      exact .pass _ _

/-! ## The bounds go down -/

/-- The first bound is in the currency of the second and does not exceed it; where there was a
bound there is one. -/
def BoundLE (adjusted base : Option Amount) : Prop :=
  ∀ bound, base = some bound → ∃ lower, adjusted = some lower ∧
    lower.currency = bound.currency ∧ decimalRank lower.value ≤ decimalRank bound.value

theorem BoundLE.refl (bound : Option Amount) : BoundLE bound bound :=
  fun value h => ⟨value, h, rfl, le_rfl⟩

theorem tightenBound_le (base : Option Amount) (cap : Amount) (imposed lowered : String) :
    BoundLE (tightenBound base cap imposed lowered).1 base := by
  rintro bound rfl
  rw [tightenBound]
  split
  · rename_i hlower
    exact ⟨cap, rfl, hlower.1.symm, ((compareDecimal_neg _ _).mp hlower.2).le⟩
  · exact ⟨bound, rfl, rfl, le_rfl⟩

theorem addApprovers_bounds (added : List String) (t : Thresholds) :
    (addApprovers added t).amountUpperBound = t.amountUpperBound ∧
      (addApprovers added t).verificationThreshold = t.verificationThreshold := by
  unfold addApprovers
  split
  · exact ⟨rfl, rfl⟩
  · unfold escalate uniteApprovers
    dsimp only
    split <;> split <;> exact ⟨rfl, rfl⟩

theorem tighten_bounds (below : ReputationBelow) (t : Thresholds) :
    BoundLE (tighten below t).amountUpperBound t.amountUpperBound ∧
      BoundLE (tighten below t).verificationThreshold t.verificationThreshold := by
  have hadded : (whenDeclared below.addApprovers addApprovers t).amountUpperBound =
        t.amountUpperBound ∧
      (whenDeclared below.addApprovers addApprovers t).verificationThreshold =
        t.verificationThreshold := by
    cases below.addApprovers with
    | none => exact ⟨rfl, rfl⟩
    | some added => exact addApprovers_bounds added t
  unfold tighten
  rw [← hadded.1, ← hadded.2]
  generalize whenDeclared below.addApprovers addApprovers t = first
  constructor
  · cases below.requireVerificationAbove <;> cases below.amountCap with
    | none => exact .refl _
    | some cap => exact tightenBound_le _ cap _ _
  · cases below.amountCap <;> cases below.requireVerificationAbove with
    | none => exact .refl _
    | some above => exact tightenBound_le _ above _ _

/-! ## The approvers become a set -/

theorem nodup_eraseDups (roles : List String) : roles.eraseDups.Nodup := by
  induction hlength : roles.length using Nat.strong_induction_on generalizing roles with
  | _ length ih =>
      cases roles with
      | nil => exact List.nodup_nil
      | cons role rest =>
          rw [List.eraseDups_cons, List.nodup_cons]
          have hshorter := List.length_filter_le (fun other => !other == role) rest
          refine ⟨fun hmem => ?_, ih _ (by rw [← hlength, List.length_cons]; omega) _ rfl⟩
          simpa using List.mem_eraseDups.mp hmem

theorem length_eraseDups (roles : List String) : roles.eraseDups.length = roles.toFinset.card := by
  rw [← List.toFinset_card_of_nodup (nodup_eraseDups roles)]
  congr 1
  ext role
  rw [List.mem_toFinset, List.mem_toFinset, List.mem_eraseDups]

/-- The approvers after an adjustment that adds roles. -/
def unitedWith (added base : List String) : List String :=
  if ∃ role ∈ added, role ∉ base then (base ++ added).eraseDups else base

/-- The union has grown when it has more roles. -/
theorem grown_iff (base added : List String) :
    (base ++ added).eraseDups.length ≠ base.eraseDups.length ↔ ∃ role ∈ added, role ∉ base := by
  have hle : base.toFinset ⊆ base.toFinset ∪ added.toFinset := Finset.subset_union_left
  rw [length_eraseDups, length_eraseDups, List.toFinset_append]
  constructor
  · intro hgrown
    by_contra hnone
    push Not at hnone
    apply hgrown
    rw [Finset.union_eq_left.mpr fun role hrole =>
      List.mem_toFinset.mpr (hnone role (List.mem_toFinset.mp hrole))]
  · rintro ⟨role, hadded, hfresh⟩ hsame
    apply hfresh
    have hunion := Finset.eq_of_subset_of_card_le hle hsame.le
    rw [← List.mem_toFinset, hunion, Finset.mem_union, List.mem_toFinset, List.mem_toFinset]
    exact .inr hadded

theorem uniteApprovers_approvers (added : List String) (t : Thresholds) :
    (uniteApprovers added t).requiredApprovers = unitedWith added t.requiredApprovers := by
  unfold uniteApprovers unitedWith
  simp only [grown_iff]
  split <;> rfl

theorem escalate_approvers (t : Thresholds) :
    (escalate t).requiredApprovers = t.requiredApprovers := by
  unfold escalate
  split <;> rfl

theorem addApprovers_approvers (added : List String) (t : Thresholds) :
    (addApprovers added t).requiredApprovers = unitedWith added t.requiredApprovers := by
  unfold addApprovers
  split
  · rename_i hnone
    simp [unitedWith, hnone]
  · rw [escalate_approvers, uniteApprovers_approvers]

/-- Approvers that have changed are recorded. -/
theorem addApprovers_recorded {added : List String} {t : Thresholds}
    (h : (addApprovers added t).applied = []) :
    (addApprovers added t).requiredApprovers = t.requiredApprovers := by
  unfold addApprovers at h ⊢
  split
  · rfl
  · rename_i hsome
    rw [if_neg hsome] at h
    rw [escalate_approvers]
    have hunited : (uniteApprovers added t).applied = [] := by
      unfold escalate at h
      split at h
      · exact (List.append_eq_nil_iff.mp h).1
      · exact h
    unfold uniteApprovers at hunited ⊢
    dsimp only at hunited ⊢
    split
    · rename_i hgrown
      rw [if_pos hgrown] at hunited
      cases (List.append_eq_nil_iff.mp hunited).2
    · rfl

theorem unitedWith_nil (base : List String) : unitedWith [] base = base := by
  simp [unitedWith]

/-- Only the first adjustment changes the approvers. -/
theorem tighten_approvers_eq (below : ReputationBelow) (t : Thresholds) :
    (tighten below t).requiredApprovers =
      (whenDeclared below.addApprovers addApprovers t).requiredApprovers := by
  unfold tighten
  cases below.amountCap <;> cases below.requireVerificationAbove <;> rfl

theorem tighten_approvers (below : ReputationBelow) (t : Thresholds) :
    (tighten below t).requiredApprovers =
      unitedWith (below.addApprovers.getD []) t.requiredApprovers := by
  rw [tighten_approvers_eq]
  cases below.addApprovers with
  | none => exact (unitedWith_nil _).symm
  | some added => exact addApprovers_approvers added _

theorem tighten_recorded {below : ReputationBelow} {t : Thresholds}
    (h : (tighten below t).applied = []) :
    (tighten below t).requiredApprovers = t.requiredApprovers := by
  have hfirst : (whenDeclared below.addApprovers addApprovers t).applied = [] := by
    unfold tighten at h
    cases hcap : below.amountCap <;> cases habove : below.requireVerificationAbove <;>
      simp_all [whenDeclared, capAmount, requireVerification]
  rw [tighten_approvers_eq]
  cases hadded : below.addApprovers with
  | none => rfl
  | some added =>
      rw [hadded] at hfirst
      exact addApprovers_recorded hfirst

/-- The roles an envelope adds to the approvers at a reputation. -/
def rolesBelow (reputation : Option ReputationScore) (envelope : Option ReputationEnvelope) :
    List String :=
  match reputation, envelope with
  | some reputation, some envelope =>
      if envelope.minScore ≤ reputation.score then []
      else ((envelope.below.bind (·.addApprovers)).getD [])
  | _, _ => []

section Adjustment

variable {decision : GatePolicyDecision} {reputation : Option ReputationScore}
  {envelope : Option ReputationEnvelope}

/-- An adjustment leaves the decision or replaces its thresholds. -/
theorem applyReputationAdjustment_cases (decision : GatePolicyDecision)
    (reputation : Option ReputationScore) (envelope : Option ReputationEnvelope) :
    (applyReputationAdjustment decision reputation envelope = decision ∧
        unitedWith (rolesBelow reputation envelope) decision.requiredApprovers =
          decision.requiredApprovers) ∨
      ∃ below trace, applyReputationAdjustment decision reputation envelope =
          withThresholds decision (tighten below (thresholds decision)) trace ∧
        (tighten below (thresholds decision)).requiredApprovers =
          unitedWith (rolesBelow reputation envelope) decision.requiredApprovers := by
  cases reputation with
  | none => exact .inl ⟨rfl, unitedWith_nil _⟩
  | some reputation =>
      cases envelope with
      | none => exact .inl ⟨rfl, unitedWith_nil _⟩
      | some envelope =>
          by_cases hscore : envelope.minScore ≤ reputation.score
          · exact .inl ⟨by rw [applyReputationAdjustment, if_pos hscore], by
              rw [rolesBelow, if_pos hscore, unitedWith_nil]⟩
          · rw [applyReputationAdjustment, if_neg hscore, rolesBelow, if_neg hscore]
            cases envelope.below with
            | none => exact .inl ⟨rfl, unitedWith_nil _⟩
            | some below =>
                have happrovers := tighten_approvers below (thresholds decision)
                by_cases happlied : (tighten below (thresholds decision)).applied = []
                · exact .inl ⟨by simp [happlied], happrovers.symm.trans (tighten_recorded happlied)⟩
                · exact .inr ⟨below, _, by simp only [happlied, if_false]; rfl, happrovers⟩

end Adjustment

/-! ## Quorums of the union -/

/-- No named role is asked twice, and the union has a role for every entry of the list. -/
def RepeatsKept (base added : List String) : Prop :=
  (namedRoles base).Nodup ∧ base.length ≤ (base.toFinset ∪ added.toFinset).card

instance instDecidableRepeatsKept (base added : List String) : Decidable (RepeatsKept base added) :=
  inferInstanceAs (Decidable (_ ∧ _))

theorem namedRoles_mem {roles : List String} {role : String} :
    role ∈ namedRoles roles ↔ role ∈ roles ∧ role ≠ "signer" := by
  simp [namedRoles]

/-- A quorum of the union is one of the list exactly when the union drops no entry a quorum
needs. -/
theorem quorum_union_iff (base added : List String) :
    (∀ signed, hasRequiredRoleQuorum (base ++ added).eraseDups signed = true →
        hasRequiredRoleQuorum base signed = true) ↔ RepeatsKept base added := by
  have hlength : (base ++ added).eraseDups.length = (base.toFinset ∪ added.toFinset).card := by
    rw [length_eraseDups, List.toFinset_append]
  have hnodup : (namedRoles (base ++ added).eraseDups).Nodup :=
    (nodup_eraseDups _).filter _
  constructor
  · intro h
    -- the roles of the union themselves are a quorum of it
    have hself : hasRequiredRoleQuorum (base ++ added).eraseDups
        (base ++ added).eraseDups.toFinset = true := by
      rw [hasRequiredRoleQuorum_iff, List.toFinset_card_of_nodup (nodup_eraseDups _)]
      refine ⟨hnodup, fun role hrole => ?_, le_rfl⟩
      exact List.mem_toFinset.mpr (namedRoles_mem.mp hrole).1
    obtain ⟨hnamed, -, hcard⟩ := (hasRequiredRoleQuorum_iff _ _).mp (h _ hself)
    rw [List.toFinset_card_of_nodup (nodup_eraseDups _), hlength] at hcard
    exact ⟨hnamed, hcard⟩
  · rintro ⟨hnamed, hcard⟩ signed hquorum
    obtain ⟨-, hmem, hsigned⟩ := (hasRequiredRoleQuorum_iff _ _).mp hquorum
    rw [hlength] at hsigned
    refine (hasRequiredRoleQuorum_iff _ _).mpr ⟨hnamed, fun role hrole => ?_, hcard.trans hsigned⟩
    obtain ⟨hrole, hslot⟩ := namedRoles_mem.mp hrole
    exact hmem role (namedRoles_mem.mpr
      ⟨List.mem_eraseDups.mpr (List.mem_append_left _ hrole), hslot⟩)

/-- The envelope's roles leave the approvers as they are, or no repeated entry is dropped. -/
def ApproversOnlyGrow (base added : List String) : Prop :=
  (∃ role ∈ added, role ∉ base) → RepeatsKept base added

theorem quorum_unitedWith_iff (base added : List String) :
    (∀ signed, hasRequiredRoleQuorum (unitedWith added base) signed = true →
        hasRequiredRoleQuorum base signed = true) ↔ ApproversOnlyGrow base added := by
  unfold unitedWith ApproversOnlyGrow
  by_cases hgrows : ∃ role ∈ added, role ∉ base
  · rw [if_pos hgrows, quorum_union_iff]
    exact ⟨fun h _ => h, fun h => h hgrows⟩
  · rw [if_neg hgrows]
    exact ⟨fun _ hgrown => absurd hgrown hgrows, fun _ _ h => h⟩

/-! ## The adjustment only tightens -/

section Tightening

variable {decision : GatePolicyDecision} {reputation : Option ReputationScore}
  {envelope : Option ReputationEnvelope}

theorem applyReputationAdjustment_approvers (decision : GatePolicyDecision)
    (reputation : Option ReputationScore) (envelope : Option ReputationEnvelope) :
    (applyReputationAdjustment decision reputation envelope).requiredApprovers =
      unitedWith (rolesBelow reputation envelope) decision.requiredApprovers := by
  rcases applyReputationAdjustment_cases decision reputation envelope with
    ⟨hsame, hroles⟩ | ⟨below, trace, hadjusted, hroles⟩
  · rw [hsame, hroles]
  · rw [hadjusted]
    exact hroles

theorem applyReputationAdjustment_bounds (decision : GatePolicyDecision)
    (reputation : Option ReputationScore) (envelope : Option ReputationEnvelope) :
    BoundLE (applyReputationAdjustment decision reputation envelope).amountUpperBound
        decision.amountUpperBound ∧
      BoundLE (applyReputationAdjustment decision reputation
          envelope).counterpartyVerificationThreshold
        decision.counterpartyVerificationThreshold := by
  rcases applyReputationAdjustment_cases decision reputation envelope with
    ⟨hsame, -⟩ | ⟨below, trace, hadjusted, -⟩
  · rw [hsame]
    exact ⟨.refl _, .refl _⟩
  · rw [hadjusted]
    exact tighten_bounds below (thresholds decision)

/-- The floor looks at nothing an adjustment changes but the outcome. -/
theorem applyReputationAdjustment_floor {intent : GatePaymentIntent} {enabled : Option Bool}
    (h : (applyReputationAdjustment decision reputation envelope).outcome = decision.outcome) :
    requiresHardHumanApprovalFloor intent
        (applyReputationAdjustment decision reputation envelope) enabled =
      requiresHardHumanApprovalFloor intent decision enabled := by
  rcases applyReputationAdjustment_cases decision reputation envelope with
    ⟨hsame, -⟩ | ⟨below, trace, hadjusted, -⟩
  · rw [hsame]
  · rw [hadjusted] at h ⊢
    have hallow : (withThresholds decision (tighten below (thresholds decision)) trace).outcome =
      decision.outcome := h
    simp only [requiresHardHumanApprovalFloor, isX402AutonomousAllowed, isFiatAutonomousAllowed,
      hallow]
    rfl

theorem verified_of_lower {input : RunGateInput} {counterparty : GateCounterparty}
    {adjusted : GatePolicyDecision}
    (hbound : BoundLE adjusted.counterpartyVerificationThreshold
      decision.counterpartyVerificationThreshold)
    (h : Succeeds (counterpartyVerified input adjusted counterparty) ()) :
    Succeeds (counterpartyVerified input decision counterparty) () := by
  rw [counterpartyVerified_iff] at h ⊢
  intro threshold hthreshold hcurrency habove
  obtain ⟨lower, hlower, hsame, hle⟩ := hbound threshold hthreshold
  exact h lower hlower (hcurrency.trans hsame.symm) (hle.trans_lt habove)

theorem amount_of_lower {input : RunGateInput} {adjusted : GatePolicyDecision}
    (hbound : BoundLE adjusted.amountUpperBound decision.amountUpperBound)
    (h : Succeeds (amountWithinLimit input adjusted) ()) :
    Succeeds (amountWithinLimit input decision) () := by
  rw [amountWithinLimit_iff] at h ⊢
  intro upper hupper
  obtain ⟨lower, hlower, hsame, hle⟩ := hbound upper hupper
  obtain ⟨hcurrency, hwithin⟩ := h lower hlower
  exact ⟨hcurrency.trans hsame, hwithin.trans hle⟩

/-- What an adjustment does to the outcome. -/
theorem applyReputationAdjustment_outcome (decision : GatePolicyDecision)
    (reputation : Option ReputationScore) (envelope : Option ReputationEnvelope) :
    (applyReputationAdjustment decision reputation envelope).outcome = decision.outcome ∨
      decision.outcome = .allow ∧
        (applyReputationAdjustment decision reputation envelope).outcome = .confirm ∧
        (applyReputationAdjustment decision reputation envelope).requiredApprovers ≠ [] :=
  (applyReputationAdjustment_tightens decision reputation envelope).outcome

/-- Approvals that are granted after the adjustment were granted before. -/
theorem approval_of_adjusted {deps : GateDependencies} {input : RunGateInput}
    (hquorum : decision.outcome = .confirm → ∀ signed,
      hasRequiredRoleQuorum
          (applyReputationAdjustment decision reputation envelope).requiredApprovers signed = true →
        hasRequiredRoleQuorum decision.requiredApprovers signed = true)
    (h : ApprovalCleared deps input (applyReputationAdjustment decision reputation envelope)) :
    ApprovalCleared deps input decision := by
  have hversion := (applyReputationAdjustment_keeps decision reputation envelope).2
  have houtcome := applyReputationAdjustment_outcome decision reputation envelope
  constructor
  · intro hconfirm
    have hadjusted : (applyReputationAdjustment decision reputation envelope).outcome =
        .confirm := by
      rcases houtcome with hsame | ⟨hallow, -, -⟩
      · rw [hsame, hconfirm]
      · rw [hconfirm] at hallow
        cases hallow
    obtain ⟨signedRoles, hroles, hsigned⟩ := h.quorum hadjusted
    rw [hversion] at hroles
    exact ⟨signedRoles, hroles, hquorum hconfirm _ hsigned⟩
  · intro hfloor
    rcases houtcome with hsame | ⟨-, hconfirm, happrovers⟩
    · obtain ⟨signedRoles, hroles, hsome⟩ :=
        h.floor ((applyReputationAdjustment_floor hsame).trans hfloor)
      rw [hversion] at hroles
      exact ⟨signedRoles, hroles, hsome⟩
    · -- the floor is off once the outcome is confirm, but then somebody must sign
      obtain ⟨signedRoles, hroles, hsigned⟩ := h.quorum hconfirm
      rw [hversion] at hroles
      refine ⟨signedRoles, hroles, ?_⟩
      rintro rfl
      rw [List.toFinset_nil, hasRequiredRoleQuorum_empty] at hsigned
      exact happrovers hsigned

/-- An input within the bounds of a decision. -/
def inputWithin (decision : GatePolicyDecision) : RunGateInput :=
  match decision.amountUpperBound with
  | none => sampleInput "tnt_1"
  | some upper =>
      { sampleInput "tnt_1" with
        intent := { sampleIntent with amount := upper.value, currency := upper.currency } }

/-- Dependencies that report the roles that signed. -/
def signedBy (signedRoles : List String) : GateDependencies :=
  { plainDependencies "USD" with resolveApprovals := fun _ _ => .ok signedRoles }

/-- Signed roles with a quorum are accepted together with some amount and some counterparty. -/
theorem accepts_of_quorum {adjusted : GatePolicyDecision} (hconfirm : adjusted.outcome = .confirm)
    (signedRoles : List String)
    (hquorum : hasRequiredRoleQuorum adjusted.requiredApprovers signedRoles.toFinset = true) :
    Accepts (signedBy signedRoles) (inputWithin adjusted)
      { plainCounterparty sampleIntent with verifiedStatus := some "document_verified" }
      adjusted := by
  constructor
  · rw [counterpartyVerified_iff]
    exact fun _ _ _ _ => .inl rfl
  · rw [amountWithinLimit_iff]
    intro upper hupper
    simp [inputWithin, hupper]
  · rw [approvalGrantedWhenRequired_iff]
    refine ⟨fun _ => ⟨signedRoles, rfl, hquorum⟩, fun hfloor => ?_⟩
    simp [requiresHardHumanApprovalFloor, hconfirm] at hfloor

/--
The adjustment only tightens a decision exactly when the decision does not ask
for a confirmation, or the roles the envelope adds are all among the approvers,
or no named approver is repeated and the list of approvers is not longer than
its union with them.
-/
theorem onlyTightens_iff (decision : GatePolicyDecision) (reputation : Option ReputationScore)
    (envelope : Option ReputationEnvelope) :
    OnlyTightens decision (applyReputationAdjustment decision reputation envelope) ↔
      (decision.outcome = .confirm →
        ApproversOnlyGrow decision.requiredApprovers (rolesBelow reputation envelope)) := by
  have happrovers := applyReputationAdjustment_approvers decision reputation envelope
  have houtcome := applyReputationAdjustment_outcome decision reputation envelope
  constructor
  · intro h hconfirm
    rw [← quorum_unitedWith_iff, ← happrovers]
    intro signed hsigned
    have hadjusted : (applyReputationAdjustment decision reputation envelope).outcome =
        .confirm := by
      rcases houtcome with hsame | ⟨hallow, -, -⟩
      · rw [hsame, hconfirm]
      · rw [hconfirm] at hallow
        cases hallow
    have haccepted := h.accepted _ _ _
      (accepts_of_quorum hadjusted signed.toList (by rwa [Finset.toList_toFinset]))
    obtain ⟨signedRoles, hroles, hquorum⟩ :=
      (approvalGrantedWhenRequired_iff.mp haccepted.approval).quorum hconfirm
    cases hroles
    rwa [Finset.toList_toFinset] at hquorum
  · intro h
    constructor
    · intro deps input counterparty haccepted
      obtain ⟨hupper, hthreshold⟩ :=
        applyReputationAdjustment_bounds decision reputation envelope
      constructor
      · exact verified_of_lower hthreshold haccepted.verified
      · exact amount_of_lower hupper haccepted.amount
      · rw [approvalGrantedWhenRequired_iff]
        apply approval_of_adjusted _ (approvalGrantedWhenRequired_iff.mp haccepted.approval)
        intro hconfirm
        rw [happrovers]
        exact (quorum_unitedWith_iff _ _).mpr (h hconfirm)
    · intro hreject
      rcases houtcome with hsame | ⟨hallow, -, -⟩
      · rw [hsame, hreject]
      · rw [hreject] at hallow
        cases hallow

end Tightening

/-! ## Three signers become an admin and a signer -/

def threeSigners : GatePolicyDecision :=
  { sampleDecision with requiredApprovers := ["signer", "signer", "signer"] }

/-- Below the minimum score an admin is asked for as well. -/
def adminBelow : ReputationEnvelope :=
  { minScore := 1 / 2, below := some { addApprovers := some ["admin"] } }

theorem adminBelow_roles : rolesBelow (some { score := 1 / 5 }) (some adminBelow) = ["admin"] := by
  rw [rolesBelow, if_neg (by norm_num [adminBelow])]
  rfl

/-- Two signatures are enough for the agent of low reputation, three are needed for any other. -/
theorem threeSigners_loosened :
    ¬OnlyTightens threeSigners
      (applyReputationAdjustment threeSigners (some { score := 1 / 5 }) (some adminBelow)) := by
  intro h
  have happrovers := applyReputationAdjustment_approvers threeSigners (some { score := 1 / 5 })
    (some adminBelow)
  rw [adminBelow_roles] at happrovers
  have hconfirm : (applyReputationAdjustment threeSigners (some { score := 1 / 5 })
      (some adminBelow)).outcome = .confirm := by
    rcases applyReputationAdjustment_outcome threeSigners (some { score := 1 / 5 })
      (some adminBelow) with hsame | ⟨hallow, -, -⟩
    · exact hsame
    · cases hallow
  have haccepted := h.accepted _ _ _
    (accepts_of_quorum hconfirm ["admin", "approver"] (by rw [happrovers]; decide))
  obtain ⟨signedRoles, hroles, hquorum⟩ :=
    (approvalGrantedWhenRequired_iff.mp haccepted.approval).quorum rfl
  cases hroles
  revert hquorum
  decide

end BrainCore.Gate
