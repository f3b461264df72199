import BrainCore.Gate.Soundness
import BrainCore.Policy.Service
import BrainCore.Policy.Validate

/-!
# Human approval

A payment the policy wants confirmed, or one at the human approval floor, needs
a signed role.  The gate grants it unless a rule asks for a confirmation and
names nobody: the empty requirement has its quorum without a signature.
-/

namespace BrainCore.Gate

open BrainCore.Foundation BrainCore.Policy BrainCore.Shared

/-- The dependencies with the policy service as `evaluatePolicy`. -/
def GateDependencies.decidedBy (deps : GateDependencies) (service : PolicyService) :
    GateDependencies :=
  { deps with evaluatePolicy := fun intent _ => evaluateForGate service intent }

/-- The movements a human approves whatever the policy allows. -/
def floorActionTypes : List ActionType := [.wire, .onchainTransfer, .escrowRelease]

/-- The payment is one a human must have approved. -/
def NeedsHuman (deps : GateDependencies) (input : RunGateInput) (result : GateSuccess) : Prop :=
  result.outcome = .confirm ∨
    input.intent.actionType ∈ floorActionTypes ∧ deps.fiatHumanApprovalFloorEnabled ≠ some false

/-- Somebody signed the intent under a policy version. -/
def HumanSigned (deps : GateDependencies) (intent : GatePaymentIntent) (version : Nat) : Prop :=
  ∃ signedRoles, deps.resolveApprovals intent.id (some version) = .ok signedRoles ∧ signedRoles ≠ []

/-- No live success under the document lacks the signature it needs. -/
def ApprovalKept (doc : PolicyDocument) : Prop :=
  ∀ (deps : GateDependencies) (service : PolicyService) (active : ActivePolicy)
    (input : RunGateInput) (result : GateSuccess),
    service.active = some active → active.content = doc → input.dryRun = false →
      (runPreExecutionGate (deps.decidedBy service) input).result = .ok (.success result) →
        NeedsHuman deps input result → HumanSigned deps input.intent active.version

/-- A rule that asks for a confirmation and names nobody. -/
def AsksNobody (rule : PolicyRule) : Prop := rule.execute = .confirm ∧ rule.require = none

/-- No intent has such a rule as its first match. -/
def NobodyNeverAsked (doc : PolicyDocument) : Prop :=
  ∀ counters now intent rule, FirstMatch doc (gateAction doc counters now intent) doc.rules rule →
    (∃ kinds, spread rule.requiredEvidenceKinds = .ok kinds) → ¬AsksNobody rule

/-! ## A live success is signed -/

theorem floor_required {intent : GatePaymentIntent} {decision : GatePolicyDecision}
    {enabled : Option Bool} (houtcome : decision.outcome = .allow)
    (haction : intent.actionType ∈ floorActionTypes) (henabled : enabled ≠ some false) :
    requiresHardHumanApprovalFloor intent decision enabled = true := by
  unfold requiresHardHumanApprovalFloor
  rw [if_neg (not_not.mpr houtcome)]
  simp only [floorActionTypes, List.mem_cons, List.not_mem_nil, or_false] at haction
  rcases haction with h | h | h <;> simp [h, henabled]

/-- A confirmation that asks nobody comes from a rule that asks nobody. -/
theorem asksNobody_of_evaluateForGate {service : PolicyService} {active : ActivePolicy}
    {intent : GatePaymentIntent} {final : GatePolicyDecision}
    (hnodup : (active.content.rules.map (·.id)).Nodup)
    (hnamed : ∀ rule ∈ active.content.rules, RolesNamed rule)
    (hactive : service.active = some active) (h : evaluateForGate service intent = .ok final)
    (houtcome : final.outcome = .confirm) (hnobody : final.requiredApprovers = []) :
    ∃ rule, FirstMatch active.content
        (gateAction active.content service.counters service.now intent) active.content.rules rule ∧
      (∃ kinds, spread rule.requiredEvidenceKinds = .ok kinds) ∧ AsksNobody rule := by
  obtain ⟨active', decision, kinds, hactive', hdecision, hkinds, -, -, happrovers, hsource⟩ :=
    evaluateForGate_ok h
  obtain rfl := Option.some.inj (hactive.symm.trans hactive')
  have hempty : decision.requiredApprovers = [] := by
    rw [List.eq_nil_iff_forall_not_mem]
    intro role hrole
    have hlisted := happrovers role hrole
    rw [hnobody] at hlisted
    cases hlisted
  have hconfirm : decision.outcome = .confirm := by
    rcases hsource with hsame | ⟨-, -, hasked⟩
    · rw [houtcome] at hsame
      cases hcase : decision.outcome with
      | confirm => rfl
      | allow | reject =>
          rw [hcase] at hsame
          cases hsame
    · exact absurd hnobody hasked
  rcases evaluate_decides hdecision with ⟨hreject, -⟩ | ⟨rule, hfirst, hmatched, hrule, hroles⟩
  · rw [hconfirm] at hreject
    cases hreject
  · have hdecide : decideRule rule
        (gateAction active.content service.counters service.now intent) = (.confirm, []) :=
      Prod.ext (hrule.symm.trans hconfirm) (hroles.symm.trans hempty)
    rw [matchedRule, hmatched, Option.bind_some, findRule_of_mem hnodup hfirst.mem,
      Option.bind_some] at hkinds
    exact ⟨rule, hfirst, ⟨kinds, hkinds⟩,
      confirm_of_decideRule (fun expr hexpr => (hnamed rule hfirst.mem expr hexpr).1) hdecide⟩

/-- Where nobody is never asked, a live success has the signature it needs. -/
theorem approvalKept_of_nobodyNeverAsked {doc : PolicyDocument}
    (hnodup : (doc.rules.map (·.id)).Nodup) (hnamed : ∀ rule ∈ doc.rules, RolesNamed rule)
    (hasked : NobodyNeverAsked doc) : ApprovalKept doc := by
  rintro deps service active input result hactive rfl hlive hresult hneeds
  obtain ⟨decision, event, ⟨agent, account, counterparty, -, hpolicy, -, -, -, -, -, happroval, -⟩,
    -, -, -, -, houtcome⟩ := of_live_success hlive hresult
  obtain ⟨trust, hdecided⟩ := hpolicy.decided
  obtain ⟨active', -, -, hactive', -, -, -, hversion, -⟩ := evaluateForGate_ok hdecided
  obtain rfl := Option.some.inj (hactive.symm.trans hactive')
  have hsigned : ∀ signedRoles, (deps.decidedBy service).resolveApprovals input.intent.id
      decision.policyVersion = .ok signedRoles → signedRoles ≠ [] →
        HumanSigned deps input.intent active.version :=
    fun signedRoles hroles hne => ⟨signedRoles, hversion ▸ hroles, hne⟩
  rcases hpolicy.outcome with hallow | hconfirm
  · rcases hneeds with hneeds | ⟨haction, henabled⟩
    · rw [houtcome, hallow] at hneeds
      cases hneeds
    · obtain ⟨signedRoles, hroles, hne⟩ :=
        happroval.floor (floor_required hallow haction henabled)
      exact hsigned signedRoles hroles hne
  · obtain ⟨signedRoles, hroles, hquorum⟩ := happroval.quorum hconfirm
    refine hsigned signedRoles hroles fun hnone => ?_
    rw [hnone, List.toFinset_nil, hasRequiredRoleQuorum_empty] at hquorum
    obtain ⟨rule, hfirst, hkinds, hnobody⟩ :=
      asksNobody_of_evaluateForGate hnodup hnamed hactive hdecided hconfirm hquorum
    exact hasked service.counters service.now _ rule hfirst hkinds hnobody

/-! ## Where nobody is asked, nobody signs -/

/-- An action type of each kind the policy tells apart. -/
def plainActionType : ActionType → ActionType
  | .achInbound => .achInbound
  | .onchainTransfer => .onchainTransfer
  | _ => .erpWriteback

/-- The intent with nothing but what the policy looks at. -/
def plainIntent (intent : GatePaymentIntent) : GatePaymentIntent :=
  { intent with
    actionType := plainActionType intent.actionType
    evidenceIds := ["evidence_1"]
    settlement := none
    escrow := none }

theorem gateAction_plainIntent (doc : PolicyDocument) (counters : SpendCounters) (now : Instant)
    (intent : GatePaymentIntent) :
    gateAction doc counters now (plainIntent intent) = gateAction doc counters now intent := by
  unfold gateAction plainIntent
  cases intent.actionType <;> rfl

/-- Dependencies that let everything pass, with no signature on record. -/
def plainDependencies (currency : String) : GateDependencies :=
  { resolveAgent := fun id => .ok (some ⟨id, "active", true, none, none⟩)
    resolveAccount := fun id => .ok (some ⟨id, "active", currency, none⟩)
    resolveCounterparty := fun id => .ok (some { id, type := "vendor", riskLevel := none,
                                                 verifiedStatus := none })
    evaluatePolicy := fun _ _ => .error ""
    resolveApprovals := fun _ _ => .ok []
    audit := fun _ => .ok "evt_1"
    ledgerSnapshot := fun _ _ => ""
    now := 0 }

def plainInput (intent : GatePaymentIntent) : RunGateInput :=
  { ctx := ⟨intent.ownerId, "agent"⟩
    principal := ⟨intent.createdByAgentId.getD "agent", .agent, ["payment_intent:execute"]⟩
    intent := plainIntent intent }

section Plain

variable {service : PolicyService} {intent : GatePaymentIntent} {decision : GatePolicyDecision}

/-- The agent every plain run resolves. -/
def plainAgent (intent : GatePaymentIntent) : GateAgent :=
  ⟨(plainInput intent).principal.id, "active", true, none, none⟩

theorem plain_identity :
    Succeeds (agentIdentityVerified ((plainDependencies intent.currency).decidedBy service)
      (plainInput intent)) (plainAgent intent) := by
  have hid : agentIdOf (plainInput intent) = (plainInput intent).principal.id := by
    cases hcase : intent.createdByAgentId <;>
      simp [agentIdOf, plainInput, plainIntent, hcase]
  refine .guard (not_not.mpr rfl) (.guard ?_ (.bind (.ask rfl) ?_))
  · cases hcase : intent.createdByAgentId <;> simp [plainInput, plainIntent, hcase]
  · rw [hid]
    exact .guard (not_not.mpr rfl) (.bind (.pass _ _) (.pure _))

/-- The counterparty every plain run resolves. -/
def plainCounterparty (intent : GatePaymentIntent) : GateCounterparty :=
  { id := intent.destinationCounterpartyId, type := "vendor", riskLevel := none,
    verifiedStatus := none }

def plainAccount (intent : GatePaymentIntent) : GateAccount :=
  ⟨intent.sourceAccountId, "active", intent.currency, none⟩

theorem plainActionType_ne (actionType : ActionType) :
    plainActionType actionType ≠ .x402Settle ∧ plainActionType actionType ≠ .escrowRelease := by
  cases actionType <;> exact ⟨nofun, nofun⟩

theorem plain_action {ruleId : String} (hmatched : decision.matchedRuleId = some ruleId)
    (houtcome : decision.outcome = .confirm) : Succeeds (actionAllowed decision) () := by
  unfold actionAllowed
  rw [hmatched, houtcome]
  exact .pass _ _

theorem plain_onchain : Succeeds (onchainSettlementPermitted (plainInput intent) decision) () := by
  unfold onchainSettlementPermitted
  rw [if_neg (by simp [plainInput, plainIntent, (plainActionType_ne intent.actionType).1])]
  exact .pure _

theorem plain_verified (h : decision.counterpartyVerificationThreshold = none) :
    Succeeds (counterpartyVerified (plainInput intent) decision (plainCounterparty intent)) () := by
  unfold counterpartyVerified
  rw [h]
  exact .pass _ _

theorem plain_settlement :
    Succeeds (x402PaymentContextValid (plainInput intent) (plainCounterparty intent)) () := by
  change Succeeds (if plainActionType intent.actionType = .x402Settle then _ else _) ()
  rw [if_neg (plainActionType_ne intent.actionType).1]
  exact .pure _

theorem plain_escrow {deps : GateDependencies} :
    Succeeds (escrowStateBound deps (plainInput intent) (plainCounterparty intent)) () := by
  change Succeeds (if plainActionType intent.actionType = .escrowRelease then _ else _) ()
  rw [if_neg (plainActionType_ne intent.actionType).2]
  exact .pure _

theorem plain_limit (hbound : ∀ upper, decision.amountUpperBound = some upper →
      intent.currency = upper.currency ∧ cmpDecimal intent.amount upper.value ≤ 0) :
    Succeeds (amountWithinLimit (plainInput intent) decision) () := by
  unfold amountWithinLimit
  cases hupper : decision.amountUpperBound with
  | none => exact .pass _ _
  | some upper =>
      obtain ⟨hcurrency, hamount⟩ := hbound upper hupper
      exact .guard (not_not.mpr hcurrency) (.guard (not_lt.mpr hamount) (.pass _ _))

theorem plain_balance {deps : GateDependencies} :
    Succeeds (availableBalanceSufficient deps (plainInput intent) (plainAccount intent)) () := by
  unfold availableBalanceSufficient
  split
  · exact .pass _ _
  · exact .pass _ _

theorem plain_window {deps : GateDependencies} (h : decision.micropaymentWindowCap = none) :
    Succeeds (micropaymentCapWithinWindow deps (plainInput intent) decision) () := by
  unfold micropaymentCapWithinWindow
  rw [h]
  exact .pure _

/-- The empty requirement has its quorum without a signature. -/
theorem plain_approval (houtcome : decision.outcome = .confirm)
    (hnobody : decision.requiredApprovers = []) :
    Succeeds (approvalGrantedWhenRequired ((plainDependencies intent.currency).decidedBy service)
      (plainInput intent) decision) () := by
  have hfloor : ∀ enabled, requiresHardHumanApprovalFloor (plainInput intent).intent decision
      enabled = false := by
    intro enabled
    rw [requiresHardHumanApprovalFloor, if_pos (by simp [houtcome])]
  unfold approvalGrantedWhenRequired
  simp only [houtcome, true_or, if_true, hnobody, hfloor]
  refine .bind (.ask (show _ = Except.ok ([] : List String) from rfl)) (.guard ?_ (.guard (by simp) (.pass _ _)))
  simp [hasRequiredRoleQuorum, quorumLoop]

/-- A decision that confirms without approvers gets past every check unsigned. -/
theorem plain_checks (hdecision : evaluateForGate service (plainIntent intent) = .ok decision)
    (hmatched : decision.matchedRuleId ≠ none) (houtcome : decision.outcome = .confirm)
    (hnobody : decision.requiredApprovers = [])
    (hverification : decision.counterpartyVerificationThreshold = none)
    (hwindow : decision.micropaymentWindowCap = none)
    (hbound : ∀ upper, decision.amountUpperBound = some upper →
      intent.currency = upper.currency ∧ cmpDecimal intent.amount upper.value ≤ 0) :
    Succeeds (checks ((plainDependencies intent.currency).decidedBy service) (plainInput intent))
      ⟨decision, ""⟩ := by
  obtain ⟨ruleId, hruleId⟩ := Option.ne_none_iff_exists'.mp hmatched
  have hagent : Succeeds (agentBehaviorPinned ((plainDependencies intent.currency).decidedBy service)
      (plainInput intent) (plainAgent intent)) () := .bind (.ask rfl) (.pure _)
  have haccount : Succeeds (sourceAccountAllowed
      ((plainDependencies intent.currency).decidedBy service) (plainInput intent))
      (plainAccount intent) :=
    .bind (.ask rfl) (.guard (not_not.mpr rfl) (.bind (.pass _ _) (.pure _)))
  have hcounterparty : Succeeds (resolvedCounterparty
      ((plainDependencies intent.currency).decidedBy service) (plainInput intent) none)
      (plainCounterparty intent) :=
    .bind (.ask rfl) (.bind (.guard nofun (.pass _ _)) (.pure _))
  refine plain_identity.bind (hagent.bind (.bind (.guard (by simp [plainInput]) (.pass _ _))
    (.bind (.pure none) (.bind (.ask hdecision) ?_))))
  refine (Succeeds.recordDecision _).bind ((plain_action hruleId houtcome).bind
    (plain_onchain.bind (haccount.bind (hcounterparty.bind (.bind (.pure ()) ?_)))))
  refine (plain_verified hverification).bind (plain_settlement.bind (plain_escrow.bind ?_))
  have hdirection : Succeeds (obligationDirectionMatchesFlow
      ((plainDependencies intent.currency).decidedBy service) (plainInput intent)) () := by
    unfold obligationDirectionMatchesFlow
    cases (plainInput intent).intent.obligationId <;> exact .pure _
  refine hdirection.bind ((plain_limit hbound).bind (.bind (.pass _ _) (plain_balance.bind
    ((plain_window hwindow).bind ?_))))
  refine .bind (.guard (by simp [plainInput, plainIntent]) (.pass _ _)) (.bind (.pass _ _)
    (.bind (.pass _ _) ((plain_approval houtcome hnobody).bind ?_)))
  exact .bind (.pass _ _) (.bind (.pass _ _) (.pure _))

end Plain

/-- A first match that asks nobody lets its intent through unsigned. -/
theorem not_approvalKept {doc : PolicyDocument} (hnodup : (doc.rules.map (·.id)).Nodup)
    {counters : SpendCounters} {now : Instant} {intent : GatePaymentIntent} {rule : PolicyRule}
    {kinds : List Json}
    (hfirst : FirstMatch doc (gateAction doc counters now intent) doc.rules rule)
    (hkinds : spread rule.requiredEvidenceKinds = .ok kinds) (hnobody : AsksNobody rule) :
    ¬ApprovalKept doc := by
  intro hkept
  rw [← gateAction_plainIntent] at hfirst
  obtain ⟨decision, hmatched, hrule, hdecide, hevaluate⟩ :=
    evaluateForGate_of_firstMatch hnodup hfirst hkinds
  rw [decideRule_of_confirm hnobody.1 hnobody.2, Prod.mk.injEq] at hdecide
  have hmatches : Matches doc rule (gateAction doc counters now (plainIntent intent)) := by
    obtain ⟨_, _, -, hmatches, -⟩ := hfirst
    exact hmatches
  have hpassed := plain_checks hevaluate
    (by simp [baseDecision, hmatched]) (by simp [baseDecision, hdecide.1, gateOutcome])
    (by simp [baseDecision, hdecide.2]) rfl rfl fun upper hupper => by
      simp only [baseDecision, hrule, Option.bind_some] at hupper
      obtain ⟨bound, hbound, rfl⟩ := Option.map_eq_some_iff.mp hupper
      have hwithin := hmatches.amountLte hbound
      simp only [amountLtePassed, gateAction, Bool.and_eq_true, decide_eq_true_eq] at hwithin
      rwa [cmpDecimal_eq_compareDecimal]
  obtain ⟨log, hchecks⟩ := hpassed {}
  have hrun := run_of_checks hchecks
  obtain ⟨signedRoles, hroles, hsigned⟩ := hkept (plainDependencies intent.currency)
    (serviceOver doc counters now) _ (plainInput intent) _ rfl rfl rfl
    (congrArg GateRun.result hrun) (.inl (by simp [baseDecision, hdecide.1, gateOutcome]))
  cases hroles
  exact hsigned rfl

/--
Under an accepted document every live success that needs a human has a signed
role exactly when no intent can have, as the first rule the policy matches, one
that asks for a confirmation and names nobody.
-/
theorem approvalKept_iff {raw : Json} {doc : PolicyDocument}
    (haccepted : validatePolicyDocument raw = .ok doc) :
    ApprovalKept doc ↔ NobodyNeverAsked doc := by
  obtain ⟨hnodup, hnamed⟩ := validatePolicyDocument_ok haccepted
  constructor
  · rintro hkept counters now intent rule hfirst ⟨kinds, hkinds⟩ hnobody
    exact not_approvalKept hnodup hfirst hkinds hnobody hkept
  · exact approvalKept_of_nobodyNeverAsked hnodup hnamed

/-! ## A confirmation of nobody -/

def confirmNobody : Json :=
  .obj [("version", .num 1), ("rules", .arr [.obj [("id", .str "confirm"),
    ("applies_to", .arr [.str "any"]), ("when", .obj []), ("execute", .str "confirm")]])]

def confirmNobodyDoc : PolicyDocument :=
  { version := 1
    rules := [{ id := "confirm", appliesTo := [.any], when := {}, execute := .confirm }] }

theorem confirmNobody_accepted : validatePolicyDocument confirmNobody = .ok confirmNobodyDoc := by
  rfl

theorem confirmNobody_kept_iff : ApprovalKept confirmNobodyDoc ↔ NobodyNeverAsked confirmNobodyDoc :=
  approvalKept_iff confirmNobody_accepted

/-- The document is accepted, and a payment it wants confirmed goes through unsigned. -/
theorem confirmNobody_unsigned :
    validatePolicyDocument confirmNobody = .ok confirmNobodyDoc ∧
      ¬ApprovalKept confirmNobodyDoc ∧
      ∃ result, (runPreExecutionGate ((plainDependencies "USD").decidedBy
          (serviceOver confirmNobodyDoc Table.empty 0)) (plainInput sampleIntent)).result =
            .ok (.success result) ∧ result.outcome = .confirm ∧
        (plainDependencies "USD").resolveApprovals sampleIntent.id (some 1) = .ok [] := by
  refine ⟨confirmNobody_accepted, fun hkept => ?_, ⟨_, rfl, rfl, rfl⟩⟩
  obtain ⟨signedRoles, hroles, hsigned⟩ := hkept (plainDependencies "USD")
    (serviceOver confirmNobodyDoc Table.empty 0) _ (plainInput sampleIntent) _ rfl rfl rfl rfl
    (.inl rfl)
  cases hroles
  exact hsigned rfl

end BrainCore.Gate
