import BrainCore.Gate.Gate

/-!
# Soundness of the gate

A live run that returns `ok` got past every check, and it emitted exactly one
audit-before event; every other run emitted none.  The dry run stops where the
live run does.
-/

namespace BrainCore.Gate

open BrainCore.Foundation BrainCore.Policy BrainCore.Shared

section Checks

variable {deps : GateDependencies} {input : RunGateInput} {log log' : GateLog} {u : Unit}

/-! ## The agent -/

theorem agentIdentityVerified_ok {agent : GateAgent}
    (h : agentIdentityVerified deps input log = .ok (agent, log')) :
    input.principal.type = .agent ∧
      (input.intent.createdByAgentId = none ∨
        input.intent.createdByAgentId = some input.principal.id) ∧
      deps.resolveAgent (agentIdOf input) = .ok (some agent) ∧ agent.state = "active" := by
  unfold agentIdentityVerified at h
  obtain ⟨htype, h⟩ := guard_ok_iff.mp h
  obtain ⟨howner, h⟩ := guard_ok_iff.mp h
  obtain ⟨answer, middle, hask, h⟩ := run_bind_ok.mp h
  obtain ⟨hresolved, -⟩ := ask_ok_iff.mp hask
  cases answer with
  | none => exact absurd h failGate_ne_ok
  | some found =>
      obtain ⟨hactive, h⟩ := guard_ok_iff.mp h
      obtain ⟨-, -, -, h⟩ := run_bind_ok.mp h
      obtain ⟨rfl, -⟩ := run_pure_ok.mp h
      rw [not_and_or, not_not, not_not] at howner
      exact ⟨not_not.mp htype, howner, hresolved, not_not.mp hactive⟩

/-- The agent the gate resolves is the principal. -/
theorem agentIdOf_eq (howner : input.intent.createdByAgentId = none ∨
    input.intent.createdByAgentId = some input.principal.id) :
    agentIdOf input = input.principal.id := by
  unfold agentIdOf
  rcases howner with h | h <;> rw [h] <;> rfl

theorem agentBehaviorPinned_ok {agent : GateAgent}
    (h : agentBehaviorPinned deps input agent log = .ok (u, log')) :
    ∃ required, requireBehaviorHash deps input = .ok required ∧
      (∀ runtime registered, input.runtimeBehaviorHash = some runtime →
        agent.behaviorHash = some registered → registered = runtime) ∧
      (required = true →
        ∃ hash, input.runtimeBehaviorHash = some hash ∧ agent.behaviorHash = some hash) := by
  unfold agentBehaviorPinned at h
  obtain ⟨required, middle, hask, h⟩ := run_bind_ok.mp h
  obtain ⟨hrequired, -⟩ := ask_ok_iff.mp hask
  refine ⟨required, hrequired, ?_⟩
  cases hruntime : input.runtimeBehaviorHash with
  | none =>
      rw [hruntime] at h
      obtain ⟨hfree, -⟩ := guard_ok_iff.mp h
      exact ⟨by rintro _ _ ⟨⟩, fun hpinned => absurd hpinned hfree⟩
  | some runtime =>
      cases hregistered : agent.behaviorHash with
      | none =>
          rw [hruntime, hregistered] at h
          obtain ⟨hfree, -⟩ := guard_ok_iff.mp h
          exact ⟨by rintro _ _ - ⟨⟩, fun hpinned => absurd hpinned hfree⟩
      | some registered =>
          rw [hruntime, hregistered] at h
          obtain ⟨hagree, -⟩ := guard_ok_iff.mp h
          have hagree : registered = runtime := not_not.mp hagree
          exact ⟨by rintro _ _ ⟨⟩ ⟨⟩; exact hagree, fun _ => ⟨runtime, rfl, by rw [hagree]⟩⟩

theorem agentAuthorized_ok {agent : GateAgent}
    (h : agentAuthorized input agent log = .ok (u, log')) :
    "payment_intent:execute" ∈ input.principal.scopes ∨ agent.canExecutePayments = true := by
  by_contra hmissing
  rw [not_or] at hmissing
  rw [agentAuthorized, if_pos ⟨hmissing.1, hmissing.2⟩] at h
  exact failGate_ne_ok h

/-- Checks 1, 1.5 and 2 together. -/
theorem agentCleared {agent : GateAgent} {log₁ log₂ log₃ : GateLog}
    (hidentity : agentIdentityVerified deps input log = .ok (agent, log₁))
    (hpinned : agentBehaviorPinned deps input agent log₁ = .ok ((), log₂))
    (hauthorized : agentAuthorized input agent log₂ = .ok ((), log₃)) :
    AgentCleared deps input agent := by
  obtain ⟨htype, howner, hresolved, hactive⟩ := agentIdentityVerified_ok hidentity
  obtain ⟨required, hrequired, hagree, hpin⟩ := agentBehaviorPinned_ok hpinned
  rw [agentIdOf_eq howner] at hresolved
  refine
    { isAgent := htype
      ownsIntent := howner
      resolved := hresolved
      active := hactive
      hashesAgree := hagree
      hashPinned := fun resolve hresolve => ?_
      scope := agentAuthorized_ok hauthorized }
  rw [requireBehaviorHash, hresolve] at hrequired
  obtain ⟨flags, hflags, rfl⟩ := map_ok.mp hrequired
  exact ⟨flags, hflags, hpin⟩

/-! ## The counterparty -/

theorem counterpartyAllowed_ok {counterparty : GateCounterparty}
    (h : counterpartyAllowed counterparty log = .ok (u, log')) :
    counterparty.riskLevel ≠ some "sanctioned" :=
  (guard_ok_iff.mp h).1

theorem counterpartyTrustAllowed_ok {counterparty : GateCounterparty} {status : TrustStatus}
    (h : counterpartyTrustAllowed counterparty log = .ok (status, log')) :
    toTrustStatus counterparty.trustStatus = some status ∧ status ≠ .paused := by
  unfold counterpartyTrustAllowed at h
  cases hstatus : toTrustStatus counterparty.trustStatus with
  | none =>
      rw [hstatus] at h
      exact absurd h failGate_ne_ok
  | some known =>
      rw [hstatus] at h
      cases known with
      | paused => exact absurd h failGate_ne_ok
      | unreviewed | trusted | acknowledged =>
          obtain ⟨-, -, -, h⟩ := run_bind_ok.mp h
          obtain ⟨rfl, -⟩ := run_pure_ok.mp h
          exact ⟨rfl, nofun⟩

theorem preloadCounterparty_ok {counterparty : GateCounterparty} {status : TrustStatus}
    (h : preloadCounterparty deps input log = .ok ((counterparty, status), log')) :
    deps.resolveCounterparty input.intent.destinationCounterpartyId = .ok (some counterparty) ∧
      counterparty.riskLevel ≠ some "sanctioned" ∧
      toTrustStatus counterparty.trustStatus = some status ∧ status ≠ .paused := by
  unfold preloadCounterparty at h
  cases hloaded : deps.resolveCounterparty input.intent.destinationCounterpartyId with
  | error message =>
      rw [hloaded] at h
      exact absurd h failGate_ne_ok
  | ok answer =>
      rw [hloaded] at h
      cases answer with
      | none => exact absurd h failGate_ne_ok
      | some found =>
          obtain ⟨_, _, hallowed, h⟩ := run_bind_ok.mp h
          obtain ⟨known, _, htrust, h⟩ := run_bind_ok.mp h
          obtain ⟨hpair, -⟩ := run_pure_ok.mp h
          obtain ⟨rfl, rfl⟩ := Prod.mk.inj hpair
          exact ⟨rfl, counterpartyAllowed_ok hallowed, counterpartyTrustAllowed_ok htrust⟩

theorem trustGate_ok {preloaded : Option (GateCounterparty × TrustStatus)}
    (h : trustGate deps input log = .ok (preloaded, log')) :
    (deps.trustGateEnabled ≠ some true ∧ preloaded = none) ∨
      ∃ counterparty status, preloaded = some (counterparty, status) ∧
        deps.resolveCounterparty input.intent.destinationCounterpartyId = .ok (some counterparty) ∧
        counterparty.riskLevel ≠ some "sanctioned" ∧
        toTrustStatus counterparty.trustStatus = some status ∧ status ≠ .paused := by
  unfold trustGate at h
  by_cases henabled : deps.trustGateEnabled = some true
  · rw [if_pos henabled] at h
    obtain ⟨⟨counterparty, status⟩, _, hpreload, h⟩ := run_bind_ok.mp h
    obtain ⟨rfl, -⟩ := run_pure_ok.mp h
    exact .inr ⟨counterparty, status, rfl, preloadCounterparty_ok hpreload⟩
  · rw [if_neg henabled] at h
    obtain ⟨rfl, -⟩ := run_pure_ok.mp h
    exact .inl ⟨henabled, rfl⟩

theorem resolvedCounterparty_ok {preloaded : Option (GateCounterparty × TrustStatus)}
    {counterparty : GateCounterparty} {log₀ : GateLog}
    (htrust : trustGate deps input log₀ = .ok (preloaded, log))
    {log₁ log₂ : GateLog}
    (h : resolvedCounterparty deps input preloaded log₁ = .ok (counterparty, log₂)) :
    deps.resolveCounterparty input.intent.destinationCounterpartyId = .ok (some counterparty) ∧
      counterparty.riskLevel ≠ some "sanctioned" ∧
      (deps.trustGateEnabled = some true →
        ∃ status, toTrustStatus counterparty.trustStatus = some status ∧ status ≠ .paused) := by
  obtain ⟨hdisabled, rfl⟩ | ⟨loaded, status, rfl, hloaded, hrisk, hknown, hpaused⟩ :=
    trustGate_ok htrust
  · obtain ⟨answer, _, hask, h⟩ := run_bind_ok.mp h
    obtain ⟨hresolved, -⟩ := ask_ok_iff.mp hask
    cases answer with
    | none => exact absurd h failGate_ne_ok
    | some found =>
        obtain ⟨_, _, hallowed, h⟩ := run_bind_ok.mp h
        obtain ⟨rfl, -⟩ := run_pure_ok.mp h
        exact ⟨hresolved, counterpartyAllowed_ok hallowed, fun henabled =>
          absurd henabled hdisabled⟩
  · obtain ⟨rfl, -⟩ := run_pure_ok.mp h
    exact ⟨hloaded, hrisk, fun _ => ⟨status, hknown, hpaused⟩⟩

theorem agentCounterpartyAttested_ok {counterparty : GateCounterparty}
    (h : agentCounterpartyAttested deps input counterparty log = .ok (u, log')) :
    ∀ attest, deps.attestCounterpartyAgent = some attest → counterparty.type = "agent" →
      ∃ attestation, attest ⟨input.ctx.tenantId, counterparty.id, counterparty.agentId⟩ =
        .ok attestation ∧ attestation.attested = true := by
  intro attest hattest htype
  rw [agentCounterpartyAttested, hattest] at h
  simp only [htype, if_true] at h
  obtain ⟨attestation, _, hask, h⟩ := run_bind_ok.mp h
  exact ⟨attestation, (ask_ok_iff.mp hask).1, by simpa using (guard_ok_iff.mp h).1⟩

theorem counterpartyVerified_ok {decision : GatePolicyDecision} {counterparty : GateCounterparty}
    (h : counterpartyVerified input decision counterparty log = .ok (u, log')) :
    ∀ threshold, decision.counterpartyVerificationThreshold = some threshold →
      input.intent.currency = threshold.currency →
        AtMost input.intent.amount threshold.value ∨
          counterparty.verifiedStatus = some "document_verified" ∨
            counterparty.verifiedStatus = some "sanctions_cleared" := by
  intro threshold hthreshold hcurrency
  rw [counterpartyVerified, hthreshold] at h
  obtain ⟨hfree, -⟩ := guard_ok_iff.mp h
  by_cases habove : 0 < cmpDecimal input.intent.amount threshold.value
  · right
    by_contra hunverified
    rw [not_or] at hunverified
    exact hfree ⟨habove, hcurrency, hunverified.1, hunverified.2⟩
  · exact .inl (AtMost.of_not_lt habove)

/-! ## On-chain contexts and the obligation -/

@[simp] theorem refusal_eq_nil {refused : Bool} {text : String} :
    refusal refused text = [] ↔ refused = false := by
  cases refused <;> simp [refusal]

theorem settlement_agrees {intent : GatePaymentIntent} {counterparty : GateCounterparty}
    {s : Settlement} (h : settlementFailures intent counterparty s = []) :
    s.asset = "USDC" ∧ s.network = "base" ∧ intent.currency = "USDC" ∧
      AtMost s.amount intent.amount ∧ AtMost intent.amount s.amount ∧
        sameAddress counterparty.onchainAddress s.payTo = true := by
  simp only [settlementFailures, List.append_eq_nil_iff, refusal_eq_nil, decide_eq_false_iff_not,
    not_not] at h
  obtain ⟨⟨⟨⟨hasset, hnetwork⟩, hcurrency⟩, hamount⟩, hpayee⟩ := h
  have hequal : cmpDecimal s.amount intent.amount = 0 := by
    by_contra hne
    split at hamount
    · exact List.cons_ne_nil _ _ hamount
    · simp [hne] at hamount
  have hsame : sameAddress counterparty.onchainAddress s.payTo = true := by
    by_contra hne
    split at hpayee
    · exact List.cons_ne_nil _ _ hpayee
    · simp [hne] at hpayee
  exact ⟨hasset, hnetwork, hcurrency.trans hasset, AtMost.of_cmpDecimal hequal.le,
    AtMost.of_nonneg hequal.ge, hsame⟩

theorem escrow_agrees {intent : GatePaymentIntent} {counterparty : GateCounterparty}
    {escrow : Escrow} {onchain : ResolvedEscrowState}
    (h : escrowFailures intent counterparty escrow onchain = []) :
    onchain.state = .locked ∧ onchain.assetMatchesSettlement = true ∧
      AtMost intent.amount onchain.remaining ∧ onchain.jobTermsHash = escrow.jobTermsHash ∧
        sameAddress counterparty.onchainAddress onchain.payee = true := by
  simp only [escrowFailures, List.append_eq_nil_iff, refusal_eq_nil, decide_eq_false_iff_not,
    not_not] at h
  obtain ⟨⟨⟨hstate, hremaining⟩, hterms⟩, hpayee⟩ := h
  split at hremaining
  · exact absurd hremaining (List.cons_ne_nil _ _)
  · rename_i hasset
    rw [refusal_eq_nil, decide_eq_false_iff_not, not_lt] at hremaining
    exact ⟨hstate, not_not.mp hasset, AtMost.of_nonneg hremaining, hterms, hpayee⟩

theorem contextCleared {counterparty : GateCounterparty} {log₁ log₂ log₃ : GateLog}
    (hsettlement : x402PaymentContextValid input counterparty log = .ok ((), log₁))
    (hescrow : escrowStateBound deps input counterparty log₁ = .ok ((), log₂))
    (hdirection : obligationDirectionMatchesFlow deps input log₂ = .ok ((), log₃)) :
    ContextCleared deps input counterparty where
  settled := by
    intro haction hmissing
    rw [x402PaymentContextValid, hmissing] at hsettlement
    simp only [haction, if_true] at hsettlement
    exact List.cons_ne_nil _ _ (passUnless_ok hsettlement)
  settlement := by
    intro s hs
    rw [x402PaymentContextValid, hs] at hsettlement
    exact settlement_agrees (passUnless_ok hsettlement)
  escrowed := by
    intro haction hmissing
    rw [escrowStateBound, hmissing] at hescrow
    simp only [haction, if_true] at hescrow
    exact List.cons_ne_nil _ _ (passUnless_ok hescrow)
  escrow := by
    intro e resolve he hresolve
    rw [escrowStateBound, he, hresolve] at hescrow
    obtain ⟨answer, _, hask, hescrow⟩ := run_bind_ok.mp hescrow
    obtain ⟨hanswer, -⟩ := ask_ok_iff.mp hask
    cases answer with
    | none => exact absurd (passUnless_ok hescrow) (List.cons_ne_nil _ _)
    | some onchain => exact ⟨onchain, hanswer, escrow_agrees (passUnless_ok hescrow)⟩
  direction := by
    intro resolve hobligation hresolve
    obtain ⟨obligationId, hid⟩ := Option.ne_none_iff_exists'.mp hobligation
    rw [obligationDirectionMatchesFlow, hid, hresolve] at hdirection
    obtain ⟨direction, _, hask, hdirection⟩ := run_bind_ok.mp hdirection
    exact ⟨direction, (ask_ok_iff.mp hask).1, (guard_ok_iff.mp hdirection).1⟩

/-! ## The amount -/

/-- A sum the gate accepts bounds the sum of the values. -/
theorem SumAtMost.of_addDecimalString {a b sum total : String} (hsum : addDecimalString a b = .ok sum)
    (h : cmpDecimal sum total ≤ 0) : SumAtMost a b total := by
  rintro x y z rfl rfl rfl
  rw [addDecimalString_text, Except.ok.injEq] at hsum
  rw [← hsum, cmpDecimal_eq_compareDecimal] at h
  exact (units_add_le_magnitudes x y).trans (units_le_of_compareDecimal h)

theorem SumAtMost.of_covered {a b sum total : String} (hsum : addDecimalString a b = .ok sum)
    (h : ¬cmpDecimal total sum < 0) : SumAtMost a b total := by
  rintro x y z rfl rfl rfl
  rw [addDecimalString_text, Except.ok.injEq] at hsum
  rw [← hsum, cmpDecimal_eq_compareDecimal, not_lt] at h
  exact (units_add_le_magnitudes x y).trans (units_ge_of_compareDecimal h)

theorem amountWithinLimit_ok {decision : GatePolicyDecision}
    (h : amountWithinLimit input decision log = .ok (u, log')) :
    ∀ upper, decision.amountUpperBound = some upper →
      input.intent.currency = upper.currency ∧ AtMost input.intent.amount upper.value := by
  intro upper hupper
  rw [amountWithinLimit, hupper] at h
  obtain ⟨hcurrency, h⟩ := guard_ok_iff.mp h
  exact ⟨not_not.mp hcurrency, AtMost.of_not_lt (guard_ok_iff.mp h).1⟩

theorem availableBalanceSufficient_ok {account : GateAccount}
    (h : availableBalanceSufficient deps input account log = .ok (u, log')) :
    input.intent.actionType ≠ .x402Settle → input.intent.actionType ≠ .escrowRelease →
      ∀ available, account.availableBalance = some available →
        account.currency = input.intent.currency ∧
          ∃ reserved, reservedAmount deps input = .ok reserved ∧
            SumAtMost input.intent.amount reserved available := by
  intro hx402 hescrow available havailable
  rw [availableBalanceSufficient, if_neg (not_or.mpr ⟨hx402, hescrow⟩), havailable] at h
  obtain ⟨hcurrency, h⟩ := guard_ok_iff.mp h
  obtain ⟨reserved, _, hreserved, h⟩ := run_bind_ok.mp h
  obtain ⟨required, _, hrequired, h⟩ := run_bind_ok.mp h
  exact ⟨not_not.mp hcurrency, reserved, (ask_ok_iff.mp hreserved).1,
    SumAtMost.of_covered (ask_ok_iff.mp hrequired).1 (guard_ok_iff.mp h).1⟩

theorem micropaymentCapWithinWindow_ok {decision : GatePolicyDecision}
    (h : micropaymentCapWithinWindow deps input decision log = .ok (u, log')) :
    ∀ cap sumSpend, decision.micropaymentWindowCap = some cap →
      deps.sumAgentWindowSpend = some sumSpend →
        input.intent.currency = cap.currency ∧
          ∃ spend, sumSpend (agentIdOf input) cap.windowSeconds = .ok spend ∧
            SumAtMost input.intent.amount spend cap.value := by
  intro cap sumSpend hcap hsum
  rw [micropaymentCapWithinWindow, hcap, hsum] at h
  obtain ⟨hcurrency, h⟩ := guard_ok_iff.mp h
  obtain ⟨spend, _, hspend, h⟩ := run_bind_ok.mp h
  obtain ⟨projected, _, hprojected, h⟩ := run_bind_ok.mp h
  exact ⟨not_not.mp hcurrency, spend, (ask_ok_iff.mp hspend).1,
    SumAtMost.of_addDecimalString (ask_ok_iff.mp hprojected).1
      (not_lt.mp (guard_ok_iff.mp h).1)⟩

/-! ## Evidence, approval and duplicates -/

theorem requiredEvidencePresent_ok {decision : GatePolicyDecision}
    (h : requiredEvidencePresent input decision log = .ok (u, log')) :
    decision.requiredEvidenceKinds ≠ [] → input.intent.evidenceIds ≠ [] :=
  fun hrequired hempty => (guard_ok_iff.mp h).1 ⟨hrequired, hempty⟩

theorem passUnlessEvidence_ok {found : List EvidenceFailure} {next : GateM Unit}
    (h : passUnlessEvidence found next log = .ok (u, log')) :
    found = [] ∧ next log = .ok (u, log') := by
  obtain ⟨hfound, h⟩ := guard_ok_iff.mp h
  exact ⟨not_not.mp hfound, h⟩

theorem evidenceSupportsAction_ok {agent : GateAgent} {decision : GatePolicyDecision}
    (h : evidenceSupportsAction deps input agent decision log = .ok (u, log')) :
    ∀ resolve, deps.resolveEvidence = some resolve →
      ∃ evidence provenance, resolve input.intent = .ok evidence ∧
        Supports (evidenceInput deps input agent evidence) ∧
          obligationProvenance deps input = .ok provenance ∧
            Corroborated ⟨decision.outcome, evidence, provenance⟩ := by
  intro resolve hresolve
  rw [evidenceSupportsAction, hresolve] at h
  obtain ⟨evidence, _, hevidence, h⟩ := run_bind_ok.mp h
  obtain ⟨found, _, hfound, h⟩ := run_bind_ok.mp h
  obtain ⟨rfl, h⟩ := passUnlessEvidence_ok h
  obtain ⟨provenance, _, hprovenance, h⟩ := run_bind_ok.mp h
  obtain ⟨hlowTrust, -⟩ := passUnlessEvidence_ok h
  exact ⟨evidence, provenance, (ask_ok_iff.mp hevidence).1,
    supports_of_validateEvidence (ask_ok_iff.mp hfound).1, (ask_ok_iff.mp hprovenance).1,
    corroborated_of_validateLowTrust hlowTrust⟩

theorem approvalGrantedWhenRequired_ok {decision : GatePolicyDecision}
    (h : approvalGrantedWhenRequired deps input decision log = .ok (u, log')) :
    ApprovalCleared deps input decision := by
  unfold approvalGrantedWhenRequired at h
  by_cases hasked : decision.outcome = .confirm ∨
      requiresHardHumanApprovalFloor input.intent decision deps.fiatHumanApprovalFloorEnabled = true
  · simp only [if_pos hasked] at h
    obtain ⟨signedRoles, _, hsigned, h⟩ := run_bind_ok.mp h
    obtain ⟨hquorum, h⟩ := guard_ok_iff.mp h
    obtain ⟨hfloor, -⟩ := guard_ok_iff.mp h
    have hsigned := (ask_ok_iff.mp hsigned).1
    exact
      { quorum := fun hconfirm => ⟨signedRoles, hsigned, by
          by_contra hno
          exact hquorum ⟨hconfirm, hno⟩⟩
        floor := fun hrequired => ⟨signedRoles, hsigned, fun hnone => hfloor ⟨hrequired, hnone⟩⟩ }
  · rw [not_or] at hasked
    exact
      { quorum := fun hconfirm => absurd hconfirm hasked.1
        floor := fun hrequired => absurd hrequired hasked.2 }

theorem noDuplicatePayment_ok (h : noDuplicatePayment deps input log = .ok (u, log')) :
    DuplicatesCleared deps input := by
  intro detect hdetect
  rw [noDuplicatePayment, hdetect] at h
  obtain ⟨result, _, hresult, h⟩ := run_bind_ok.mp h
  exact ⟨result, (ask_ok_iff.mp hresult).1, by simpa using (guard_ok_iff.mp h).1⟩

/-! ## The policy -/

theorem actionAllowed_ok {decision : GatePolicyDecision}
    (h : actionAllowed decision log = .ok (u, log')) :
    decision.matchedRuleId ≠ none ∧ (decision.outcome = .allow ∨ decision.outcome = .confirm) := by
  unfold actionAllowed at h
  cases hmatched : decision.matchedRuleId with
  | none =>
      rw [hmatched] at h
      exact absurd h failGate_ne_ok
  | some ruleId =>
      refine ⟨nofun, ?_⟩
      rw [hmatched] at h
      cases houtcome : decision.outcome with
      | allow => exact .inl rfl
      | confirm => exact .inr rfl
      | reject | other text =>
          rw [houtcome] at h
          exact absurd h failGate_ne_ok

theorem onchainSettlementPermitted_ok {decision : GatePolicyDecision}
    (h : onchainSettlementPermitted input decision log = .ok (u, log')) :
    input.intent.actionType = .x402Settle ∨ input.intent.settlement ≠ none →
      decision.onchainSettlementPermitted ≠ some (.bool false) := by
  intro hsettles hrefused
  rw [onchainSettlementPermitted, if_pos (hsettles.imp_right Option.isSome_iff_ne_none.mpr)] at h
  refine (guard_ok_iff.mp h).1 ?_
  rw [hrefused]
  rfl

theorem sourceAccountAllowed_ok {account : GateAccount}
    (h : sourceAccountAllowed deps input log = .ok (account, log')) :
    AccountCleared deps input account := by
  obtain ⟨answer, _, hask, h⟩ := run_bind_ok.mp h
  cases answer with
  | none => exact absurd h failGate_ne_ok
  | some found =>
      obtain ⟨hactive, h⟩ := guard_ok_iff.mp h
      obtain ⟨-, -, -, h⟩ := run_bind_ok.mp h
      obtain ⟨rfl, -⟩ := run_pure_ok.mp h
      exact ⟨(ask_ok_iff.mp hask).1, not_not.mp hactive⟩

theorem policyIntent_eq (intent : GatePaymentIntent)
    (preloaded : Option (GateCounterparty × TrustStatus)) :
    ∃ trust, policyIntent intent preloaded = { intent with counterpartyTrustStatus := trust } := by
  cases preloaded with
  | none => exact ⟨intent.counterpartyTrustStatus, rfl⟩
  | some pair => exact ⟨some pair.2, rfl⟩

/-- A run that got past the last check got past every check. -/
theorem checks_ok {cleared : Cleared} (h : checks deps input log = .ok (cleared, log')) :
    EveryCheckHolds deps input cleared.decision := by
  obtain ⟨agent, _, hidentity, h⟩ := run_bind_ok.mp h
  obtain ⟨_, _, hpinned, h⟩ := run_bind_ok.mp h
  obtain ⟨_, _, hauthorized, h⟩ := run_bind_ok.mp h
  obtain ⟨preloaded, _, htrust, h⟩ := run_bind_ok.mp h
  obtain ⟨decision, _, hdecided, h⟩ := run_bind_ok.mp h
  obtain ⟨_, _, -, h⟩ := run_bind_ok.mp h
  obtain ⟨_, _, haction, h⟩ := run_bind_ok.mp h
  obtain ⟨_, _, honchain, h⟩ := run_bind_ok.mp h
  obtain ⟨account, _, haccount, h⟩ := run_bind_ok.mp h
  obtain ⟨counterparty, _, hcounterparty, h⟩ := run_bind_ok.mp h
  obtain ⟨_, _, hattested, h⟩ := run_bind_ok.mp h
  obtain ⟨_, _, hverified, h⟩ := run_bind_ok.mp h
  obtain ⟨_, _, hsettlement, h⟩ := run_bind_ok.mp h
  obtain ⟨_, _, hescrow, h⟩ := run_bind_ok.mp h
  obtain ⟨_, _, hdirection, h⟩ := run_bind_ok.mp h
  obtain ⟨_, _, hamount, h⟩ := run_bind_ok.mp h
  obtain ⟨_, _, -, h⟩ := run_bind_ok.mp h
  obtain ⟨_, _, hbalance, h⟩ := run_bind_ok.mp h
  obtain ⟨_, _, hwindow, h⟩ := run_bind_ok.mp h
  obtain ⟨_, _, hattached, h⟩ := run_bind_ok.mp h
  obtain ⟨_, _, hevidence, h⟩ := run_bind_ok.mp h
  obtain ⟨_, _, -, h⟩ := run_bind_ok.mp h
  obtain ⟨_, _, happroval, h⟩ := run_bind_ok.mp h
  obtain ⟨_, _, hduplicates, h⟩ := run_bind_ok.mp h
  obtain ⟨_, _, -, h⟩ := run_bind_ok.mp h
  obtain ⟨rfl, -⟩ := run_pure_ok.mp h
  have hagent := agentCleared hidentity hpinned hauthorized
  obtain ⟨trust, hintent⟩ := policyIntent_eq input.intent preloaded
  rw [hintent] at hdecided
  obtain ⟨hmatched, houtcome⟩ := actionAllowed_ok haction
  obtain ⟨hresolved, hrisk, htrusted⟩ := resolvedCounterparty_ok htrust hcounterparty
  have hwindow := micropaymentCapWithinWindow_ok hwindow
  rw [agentIdOf_eq hagent.ownsIntent] at hwindow
  exact ⟨agent, account, counterparty, hagent,
    ⟨⟨trust, (ask_ok_iff.mp hdecided).1⟩, hmatched, houtcome,
      onchainSettlementPermitted_ok honchain⟩,
    sourceAccountAllowed_ok haccount,
    ⟨hresolved, hrisk, htrusted, agentCounterpartyAttested_ok hattested,
      counterpartyVerified_ok hverified⟩,
    contextCleared hsettlement hescrow hdirection,
    ⟨amountWithinLimit_ok hamount, availableBalanceSufficient_ok hbalance, hwindow⟩,
    ⟨requiredEvidencePresent_ok hattached, evidenceSupportsAction_ok hevidence⟩,
    approvalGrantedWhenRequired_ok happroval, noDuplicatePayment_ok hduplicates⟩

end Checks

/-! ## The whole run -/

/-- The check a run failed at. -/
def failedCheck (run : GateRun) : Option GateCheck :=
  match run.result with
  | .ok (.failure result) => some result.failedCheck
  | _ => none

/-- The dependencies with a policy that answers a dry run and a live run alike. -/
def GateDependencies.answering (deps : GateDependencies)
    (policy : GatePaymentIntent → Except String GatePolicyDecision) : GateDependencies :=
  { deps with evaluatePolicy := fun intent _ => policy intent }

theorem run_of_checks {deps : GateDependencies} {input : RunGateInput} {cleared : Cleared}
    {log : GateLog} (h : checks deps input {} = .ok (cleared, log)) :
    runPreExecutionGate deps input = auditBeforeEmitted deps input cleared log := by
  rw [runPreExecutionGate, h]

theorem failedCheck_auditBeforeEmitted (deps : GateDependencies) (input : RunGateInput)
    (cleared : Cleared) (log : GateLog) :
    failedCheck (auditBeforeEmitted deps input cleared log) = none := by
  unfold auditBeforeEmitted
  split
  · cases cacheTrace deps input log <;> rfl
  · cases deps.audit (auditBefore input cleared log) <;> rfl

theorem failedCheck_runPreExecutionGate (deps : GateDependencies) (input : RunGateInput) :
    failedCheck (runPreExecutionGate deps input) =
      match checks deps input {} with
      | .error (.failed _ check) => some check
      | _ => none := by
  cases hchecks : checks deps input {} with
  | error stop =>
      rw [runPreExecutionGate, hchecks]
      cases stop <;> rfl
  | ok last => rw [run_of_checks hchecks, failedCheck_auditBeforeEmitted]

theorem checks_dryRun (deps : GateDependencies)
    (policy : GatePaymentIntent → Except String GatePolicyDecision) (input : RunGateInput)
    (dryRun : Bool) :
    checks (deps.answering policy) { input with dryRun } = checks (deps.answering policy) input :=
  rfl

theorem auditBeforeEmitted_live {deps : GateDependencies} {input : RunGateInput}
    {cleared : Cleared} {log : GateLog} (hlive : input.dryRun = false) :
    (∃ message, deps.audit (auditBefore input cleared log) = .error message ∧
      auditBeforeEmitted deps input cleared log = ⟨.error message, []⟩) ∨
    ∃ id, deps.audit (auditBefore input cleared log) = .ok id ∧
      auditBeforeEmitted deps input cleared log =
        ⟨.ok (success input cleared log id [("audit_event_id", .str id)]),
          [auditBefore input cleared log]⟩ := by
  unfold auditBeforeEmitted
  rw [if_neg (by simp [hlive])]
  cases deps.audit (auditBefore input cleared log) with
  | error message => exact .inl ⟨message, rfl, rfl⟩
  | ok id => exact .inr ⟨id, rfl, rfl⟩

/-- A run that is not a live success emits nothing. -/
theorem emitted_eq_nil {deps : GateDependencies} {input : RunGateInput}
    (h : input.dryRun = true ∨
      ∀ result, (runPreExecutionGate deps input).result ≠ .ok (.success result)) :
    (runPreExecutionGate deps input).emitted = [] := by
  cases hchecks : checks deps input {} with
  | error stop =>
      rw [runPreExecutionGate, hchecks]
      cases stop <;> rfl
  | ok last =>
      rw [run_of_checks hchecks] at h ⊢
      cases hdry : input.dryRun with
      | true =>
          rw [auditBeforeEmitted, if_pos hdry]
          cases cacheTrace deps input last.2 <;> rfl
      | false =>
          obtain ⟨message, -, hrun⟩ | ⟨id, -, hrun⟩ := auditBeforeEmitted_live hdry
          · rw [hrun]
          · rw [hrun, hdry] at h
            exact ((h.resolve_left Bool.false_ne_true) _ rfl).elim

/-- A live success got past every check, and its audit-before event is the only one. -/
theorem of_live_success {deps : GateDependencies} {input : RunGateInput} {result : GateSuccess}
    (hlive : input.dryRun = false)
    (h : (runPreExecutionGate deps input).result = .ok (.success result)) :
    ∃ decision event, EveryCheckHolds deps input decision ∧
      (runPreExecutionGate deps input).emitted = [event] ∧
        deps.audit event = .ok result.auditBeforeEventId ∧
          event.intent = input.intent ∧ event.policyDecisionId = decision.id ∧
            result.outcome = decision.outcome := by
  cases hchecks : checks deps input {} with
  | error stop =>
      rw [runPreExecutionGate, hchecks] at h
      cases stop <;> cases h
  | ok last =>
      rw [run_of_checks hchecks] at h ⊢
      obtain ⟨message, -, hrun⟩ | ⟨id, haudit, hrun⟩ := auditBeforeEmitted_live hlive
      · rw [hrun] at h
        cases h
      · rw [hrun] at h ⊢
        have hresult := GateResult.success.inj (Except.ok.inj h)
        subst hresult
        exact ⟨last.1.decision, auditBefore input last.1 last.2, checks_ok hchecks, rfl, haudit,
          rfl, rfl, rfl⟩

def sampleIntent : GatePaymentIntent :=
  { id := "pi_1"
    ownerId := "tnt_1"
    createdByAgentId := some "agent_1"
    actionType := .achOutbound
    sourceAccountId := "acct_1"
    destinationCounterpartyId := "cp_1"
    amount := "10"
    currency := "USD" }

def sampleInput (tenantId : String) : RunGateInput :=
  { ctx := ⟨tenantId, "agent_1"⟩
    principal := ⟨"agent_1", .agent, ["payment_intent:execute"]⟩
    intent := sampleIntent }

def sampleDecision : GatePolicyDecision :=
  { id := "pd_1"
    outcome := .confirm
    matchedRuleId := some "rule_1"
    requiredApprovers := ["owner"]
    ledgerSnapshotHash := ""
    trace := []
    amountUpperBound := some ⟨"USD", "100"⟩ }

def sampleDependencies (availableBalance : Option String) : GateDependencies :=
  { resolveAgent := fun _ => .ok (some ⟨"agent_1", "active", true, none, none⟩)
    resolveAccount := fun _ => .ok (some ⟨"acct_1", "active", "USD", availableBalance⟩)
    resolveCounterparty := fun _ => .ok (some { id := "cp_1", type := "vendor", riskLevel := none,
                                                verifiedStatus := none })
    evaluatePolicy := fun _ _ => .ok sampleDecision
    resolveApprovals := fun _ _ => .ok ["owner"]
    audit := fun _ => .ok "evt_1"
    ledgerSnapshot := fun _ _ => "hash_1"
    now := 0 }

/-- Whether a run returned `ok`. -/
def GateRun.isSuccess (run : GateRun) : Bool :=
  match run.result with
  | .ok (.success _) => true
  | _ => false

end BrainCore.Gate
