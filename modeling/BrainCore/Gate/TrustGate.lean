import BrainCore.Gate.Soundness

/-!
# The gate with and without the trust gate

With the trust gate the counterparty is loaded, and checked, before the policy
decides.  The two runs record their checks in another order; what a check does
never depends on what has been recorded, so they come to one verdict.
-/

namespace BrainCore.Gate

open BrainCore.Foundation BrainCore.Policy BrainCore.Shared

/-! ## Runs that differ in the checks they recorded -/

/-- The logs agree on the policy's decision. -/
structure LogsAgree (first second : GateLog) : Prop where
  outcome : first.outcome = second.outcome
  requiredApprovers : first.requiredApprovers = second.requiredApprovers
  trace : first.trace = second.trace

/-- Both stop at one failed check, or at one error. -/
def StopsAgree : GateStop → GateStop → Prop
  | .failed log _, .failed log' _ => LogsAgree log log'
  | .threw message, .threw message' => message = message'
  | _, _ => False

/-- The two runs end alike whatever checks they have recorded. -/
def SameRun {α : Type} (first second : GateM α) : Prop :=
  RunAlike LogsAgree StopsAgree first second

/-- A run does not look at the checks recorded before it. -/
def Blind {α : Type} (run : GateM α) : Prop := SameRun run run

namespace Blind

variable {α : Type}

theorem ask (answer : Except String α) : Blind (ask answer) := by
  refine ⟨fun log log' h => ?_⟩
  cases answer with
  | error message => rfl
  | ok value => exact ⟨rfl, h⟩

theorem pass (name : GateCheckName) (detail : Detail) : Blind (pass name detail) :=
  ⟨fun _ _ h => ⟨rfl, h.outcome, h.requiredApprovers, h.trace⟩⟩

theorem failGate (name : GateCheckName) (detail : Detail) :
    Blind (failGate name detail : GateM α) := ⟨fun _ _ h => h⟩

theorem recordDecision (decision : GatePolicyDecision) : Blind (recordDecision decision) :=
  ⟨fun _ _ _ => ⟨rfl, rfl, rfl, rfl⟩⟩

theorem pure (value : α) : Blind (Pure.pure value) := RunAlike.pure value

theorem bind {β : Type} {first : GateM α} {next : α → GateM β} (h : Blind first)
    (hnext : ∀ value, Blind (next value)) : Blind (first >>= next) := RunAlike.bind h hnext

theorem ite {p : Prop} {_ : Decidable p} {first second : GateM α} (h : Blind first)
    (h' : Blind second) : Blind (if p then first else second) := RunAlike.ite h h'

theorem passUnless (name : GateCheckName) (refusals : List String) :
    Blind (passUnless name refusals) := .ite (.failGate _ _) (.pass _ _)

theorem guard {refused : Prop} {_ : Decidable refused} {name : GateCheckName} {detail : Detail}
    {next : GateM α} (h : Blind next) : Blind (if refused then Gate.failGate name detail else next) :=
  .ite (.failGate _ _) h

end Blind

/-! ## No check looks back -/

section Checks

variable (deps : GateDependencies) (input : RunGateInput)

theorem agentIdentityVerified_blind : Blind (agentIdentityVerified deps input) := by
  refine .guard (.guard (.bind (.ask _) fun agent => ?_))
  cases agent with
  | none => exact .failGate _ _
  | some agent => exact .guard (.bind (.pass _ _) fun _ => .pure _)

theorem agentBehaviorPinned_blind (agent : GateAgent) :
    Blind (agentBehaviorPinned deps input agent) := by
  refine .bind (.ask _) fun required => ?_
  split
  · exact .guard (.pass _ _)
  · exact .guard (.ite (.pass _ _) (.pure _))

theorem agentAuthorized_blind (agent : GateAgent) : Blind (agentAuthorized input agent) :=
  .guard (.pass _ _)

theorem actionAllowed_blind (decision : GatePolicyDecision) : Blind (actionAllowed decision) := by
  unfold actionAllowed
  split
  · exact .failGate _ _
  · exact .failGate _ _
  · exact .failGate _ _
  · exact .pass _ _

theorem onchainSettlementPermitted_blind (decision : GatePolicyDecision) :
    Blind (onchainSettlementPermitted input decision) :=
  .ite (.guard (.ite (.pass _ _) (.pass _ _))) (.pure _)

theorem sourceAccountAllowed_blind : Blind (sourceAccountAllowed deps input) := by
  refine .bind (.ask _) fun account => ?_
  cases account with
  | none => exact .failGate _ _
  | some account => exact .guard (.bind (.pass _ _) fun _ => .pure _)

theorem agentCounterpartyAttested_blind (counterparty : GateCounterparty) :
    Blind (agentCounterpartyAttested deps input counterparty) := by
  unfold agentCounterpartyAttested
  split
  · exact .pure _
  · exact .ite (.bind (.ask _) fun _ => .guard (.pass _ _)) (.pass _ _)

theorem counterpartyVerified_blind (decision : GatePolicyDecision)
    (counterparty : GateCounterparty) :
    Blind (counterpartyVerified input decision counterparty) := by
  unfold counterpartyVerified
  split
  · exact .pass _ _
  · exact .guard (.pass _ _)

theorem x402PaymentContextValid_blind (counterparty : GateCounterparty) :
    Blind (x402PaymentContextValid input counterparty) := by
  unfold x402PaymentContextValid
  split
  · exact .ite (.passUnless _ _) (.pure _)
  · exact .passUnless _ _

theorem escrowStateBound_blind (counterparty : GateCounterparty) :
    Blind (escrowStateBound deps input counterparty) := by
  unfold escrowStateBound
  split
  · exact .ite (.passUnless _ _) (.pure _)
  · exact .pure _
  · refine .bind (.ask _) fun onchain => ?_
    cases onchain <;> exact .passUnless _ _

theorem obligationDirectionMatchesFlow_blind :
    Blind (obligationDirectionMatchesFlow deps input) := by
  unfold obligationDirectionMatchesFlow
  split
  · exact .bind (.ask _) fun _ => .guard (.pass _ _)
  · exact .pure _

theorem amountWithinLimit_blind (decision : GatePolicyDecision) :
    Blind (amountWithinLimit input decision) := by
  unfold amountWithinLimit
  split
  · exact .pass _ _
  · exact .guard (.guard (.pass _ _))

theorem availableBalanceSufficient_blind (account : GateAccount) :
    Blind (availableBalanceSufficient deps input account) := by
  unfold availableBalanceSufficient
  refine .ite (.pass _ _) ?_
  split
  · exact .pass _ _
  · exact .guard (.bind (.ask _) fun _ => .bind (.ask _) fun _ => .guard (.pass _ _))

theorem micropaymentCapWithinWindow_blind (decision : GatePolicyDecision) :
    Blind (micropaymentCapWithinWindow deps input decision) := by
  unfold micropaymentCapWithinWindow
  split
  · refine .guard (.bind (.ask _) fun spend => .bind (.ask _) fun projected => ?_)
    exact .guard (.pass _ _)
  · exact .pure _

theorem requiredEvidencePresent_blind (decision : GatePolicyDecision) :
    Blind (requiredEvidencePresent input decision) := by
  unfold requiredEvidencePresent
  exact .guard (.pass _ _)

theorem evidenceSupportsAction_blind (agent : GateAgent) (decision : GatePolicyDecision) :
    Blind (evidenceSupportsAction deps input agent decision) := by
  unfold evidenceSupportsAction
  split
  · exact .pass _ _
  · exact .bind (.ask _) fun _ => .bind (.ask _) fun _ =>
      .guard (.bind (.ask _) fun _ => .guard (.pass _ _))

theorem approvalGrantedWhenRequired_blind (decision : GatePolicyDecision) :
    Blind (approvalGrantedWhenRequired deps input decision) :=
  .ite (.bind (.ask _) fun _ => .guard (.guard (.pass _ _))) (.pass _ _)

theorem noDuplicatePayment_blind : Blind (noDuplicatePayment deps input) := by
  unfold noDuplicatePayment
  split
  · exact .pass _ _
  · exact .bind (.ask _) fun _ => .guard (.pass _ _)

end Checks

/-! ## With the counterparty loaded before or after the policy -/

/-- The dependencies with another setting of the trust gate. -/
def GateDependencies.withTrustGate (deps : GateDependencies) (enabled : Option Bool) :
    GateDependencies :=
  { deps with trustGateEnabled := enabled }

/-- The policy decides an intent the same whatever trust status it carries. -/
def IgnoresTrust (deps : GateDependencies) : Prop :=
  ∀ intent status dryRun, deps.evaluatePolicy { intent with counterpartyTrustStatus := status }
    dryRun = deps.evaluatePolicy intent dryRun

/-- The loader knows the counterparty, with a trust status that does not pause it. -/
structure LoadsTrusted (deps : GateDependencies) (input : RunGateInput)
    (counterparty : GateCounterparty) (status : TrustStatus) : Prop where
  resolved : deps.resolveCounterparty input.intent.destinationCounterpartyId =
    .ok (some counterparty)
  known : toTrustStatus counterparty.trustStatus = some status
  notPaused : status ≠ .paused

section Equivalence

variable {deps : GateDependencies} {input : RunGateInput} {counterparty : GateCounterparty}
  {status : TrustStatus}

theorem counterpartyAllowed_passes (hrisk : counterparty.riskLevel ≠ some "sanctioned") :
    counterpartyAllowed counterparty = pass .counterpartyAllowed := by
  rw [counterpartyAllowed, if_neg hrisk]

theorem counterpartyTrustAllowed_passes (hknown : toTrustStatus counterparty.trustStatus =
      some status) (hpaused : status ≠ .paused) :
    counterpartyTrustAllowed counterparty = (do
      pass .counterpartyTrustAllowed [("trust_status", textOrNull counterparty.trustStatus)]
      pure status) := by
  rw [counterpartyTrustAllowed, hknown]
  cases status with
  | paused => exact absurd rfl hpaused
  | unreviewed => rfl
  | trusted => rfl
  | acknowledged => rfl

/-- The trust gate lets the counterparty through and changes nothing but the checks. -/
theorem trustGate_passes (h : LoadsTrusted deps input counterparty status)
    (hrisk : counterparty.riskLevel ≠ some "sanctioned") (log : GateLog) :
    ∃ log', trustGate (deps.withTrustGate (some true)) input log =
        .ok (some (counterparty, status), log') ∧ LogsAgree log' log := by
  have hpreload : preloadCounterparty (deps.withTrustGate (some true)) input = (do
      counterpartyAllowed counterparty
      let status ← counterpartyTrustAllowed counterparty
      pure (counterparty, status)) := by
    unfold preloadCounterparty
    rw [show (deps.withTrustGate (some true)).resolveCounterparty = deps.resolveCounterparty from
      rfl, h.resolved]
  have henabled : (deps.withTrustGate (some true)).trustGateEnabled = some true := rfl
  rw [trustGate, if_pos henabled, hpreload, counterpartyAllowed_passes hrisk,
    counterpartyTrustAllowed_passes h.known h.notPaused]
  exact ⟨_, rfl, rfl, rfl, rfl⟩

/-- A counterparty in hand is the one the check would resolve. -/
theorem resolvedCounterparty_same {enabled : Option Bool}
    (h : LoadsTrusted deps input counterparty status)
    (hrisk : counterparty.riskLevel ≠ some "sanctioned") :
    SameRun (resolvedCounterparty (deps.withTrustGate (some true)) input
        (some (counterparty, status)))
      (resolvedCounterparty (deps.withTrustGate enabled) input none) := by
  have hresolve : resolvedCounterparty (deps.withTrustGate enabled) input none = (do
      pass .counterpartyAllowed
      pure counterparty) := by
    unfold resolvedCounterparty
    rw [show (deps.withTrustGate enabled).resolveCounterparty = deps.resolveCounterparty from
      rfl, h.resolved, ← counterpartyAllowed_passes hrisk]
    rfl
  rw [hresolve]
  refine ⟨fun log log' hagree => ?_⟩
  exact ⟨rfl, hagree.outcome, hagree.requiredApprovers, hagree.trace⟩

theorem checksOnDecision_same {enabled : Option Bool}
    (h : LoadsTrusted deps input counterparty status)
    (hrisk : counterparty.riskLevel ≠ some "sanctioned") (agent : GateAgent)
    (decision : GatePolicyDecision) :
    SameRun (checksOnDecision (deps.withTrustGate (some true)) input agent
        (some (counterparty, status)) decision)
      (checksOnDecision (deps.withTrustGate enabled) input agent none decision) := by
  refine RunAlike.bind (Blind.recordDecision decision) fun _ => ?_
  refine RunAlike.bind (actionAllowed_blind decision) fun _ => ?_
  refine RunAlike.bind (onchainSettlementPermitted_blind input decision) fun _ => ?_
  refine RunAlike.bind (sourceAccountAllowed_blind deps input) fun account => ?_
  refine RunAlike.bind (resolvedCounterparty_same h hrisk) fun counterparty => ?_
  refine RunAlike.bind (agentCounterpartyAttested_blind deps input counterparty) fun _ => ?_
  refine RunAlike.bind (counterpartyVerified_blind input decision counterparty) fun _ => ?_
  refine RunAlike.bind (x402PaymentContextValid_blind input counterparty) fun _ => ?_
  refine RunAlike.bind (escrowStateBound_blind deps input counterparty) fun _ => ?_
  refine RunAlike.bind (obligationDirectionMatchesFlow_blind deps input) fun _ => ?_
  refine RunAlike.bind (amountWithinLimit_blind input decision) fun _ => ?_
  refine RunAlike.bind (Blind.pass _ _) fun _ => ?_
  refine RunAlike.bind (availableBalanceSufficient_blind deps input account) fun _ => ?_
  refine RunAlike.bind (micropaymentCapWithinWindow_blind deps input decision) fun _ => ?_
  refine RunAlike.bind (requiredEvidencePresent_blind input decision) fun _ => ?_
  refine RunAlike.bind (evidenceSupportsAction_blind deps input agent decision) fun _ => ?_
  refine RunAlike.bind (Blind.pass _ _) fun _ => ?_
  refine RunAlike.bind (approvalGrantedWhenRequired_blind deps input decision) fun _ => ?_
  refine RunAlike.bind (noDuplicatePayment_blind deps input) fun _ => ?_
  refine RunAlike.bind (Blind.pass _ _) fun _ => ?_
  exact RunAlike.pure _

theorem checks_same {enabled : Option Bool} (henabled : enabled ≠ some true)
    (hignores : IgnoresTrust deps) (h : LoadsTrusted deps input counterparty status)
    (hrisk : counterparty.riskLevel ≠ some "sanctioned") :
    SameRun (checks (deps.withTrustGate (some true)) input)
      (checks (deps.withTrustGate enabled) input) := by
  refine RunAlike.bind (agentIdentityVerified_blind deps input) fun agent => ?_
  refine RunAlike.bind (agentBehaviorPinned_blind deps input agent) fun _ => ?_
  refine RunAlike.bind (agentAuthorized_blind input agent) fun _ => ?_
  -- one run loads the counterparty here, the other goes on to the policy at once
  have hoff : trustGate (deps.withTrustGate enabled) input = pure none := if_neg henabled
  have hdecided : (deps.withTrustGate (some true)).evaluatePolicy
      (policyIntent input.intent (some (counterparty, status))) input.dryRun =
        (deps.withTrustGate enabled).evaluatePolicy (policyIntent input.intent none)
          input.dryRun := hignores input.intent (some status) input.dryRun
  have hrest : SameRun
      (do
        let decision ← ask ((deps.withTrustGate (some true)).evaluatePolicy
          (policyIntent input.intent (some (counterparty, status))) input.dryRun)
        checksOnDecision (deps.withTrustGate (some true)) input agent
          (some (counterparty, status)) decision)
      (do
        let decision ← ask ((deps.withTrustGate enabled).evaluatePolicy
          (policyIntent input.intent none) input.dryRun)
        checksOnDecision (deps.withTrustGate enabled) input agent none decision) := by
    rw [hdecided]
    exact RunAlike.bind (Blind.ask _) fun decision => checksOnDecision_same h hrisk agent decision
  refine ⟨fun log log' hagree => ?_⟩
  obtain ⟨loaded, hloaded, hlogs⟩ := trustGate_passes h hrisk log
  rw [hoff]
  change EndAlike LogsAgree StopsAgree
    (trustGate (deps.withTrustGate (some true)) input log >>= _) _
  rw [hloaded]
  exact hrest.ends loaded log' ⟨hlogs.outcome.trans hagree.outcome,
    hlogs.requiredApprovers.trans hagree.requiredApprovers, hlogs.trace.trans hagree.trace⟩

/-! ## One verdict -/

/-- What a result says of the payment. -/
structure Verdict where
  ok : Bool
  outcome : Option GateOutcome
  requiredApprovers : List String
deriving DecidableEq

def GateResult.verdict : GateResult → Verdict
  | .success result => ⟨true, some result.outcome, result.requiredApprovers⟩
  | .failure result => ⟨false, result.outcome, result.requiredApprovers⟩

/-- The verdict a run returns, `none` when it throws. -/
def GateRun.verdict? (run : GateRun) : Option Verdict := run.result.toOption.map (·.verdict)

/-- Whether the audit accepts an event does not hang on the checks listed in it. -/
def AuditIgnoresChecks (deps : GateDependencies) : Prop :=
  ∀ event gateChecks, (deps.audit { event with gateChecks }).isOk = (deps.audit event).isOk

/-- With the flag on and off: the verdicts of two runs that return, and of all runs when the audit
does not look at the checks. -/
structure SameVerdict (deps : GateDependencies) (on off : GateRun) : Prop where
  returned : ∀ result result', on.result = .ok result → off.result = .ok result' →
    result.verdict = result'.verdict
  answered : AuditIgnoresChecks deps → on.verdict? = off.verdict?

theorem auditBeforeEmitted_verdict {log : GateLog} {cleared : Cleared} {result : GateResult}
    (h : (auditBeforeEmitted deps input cleared log).result = .ok result) :
    result.verdict = ⟨true, some cleared.decision.outcome, cleared.decision.requiredApprovers⟩ := by
  unfold auditBeforeEmitted at h
  split at h
  · split at h
    · cases h
    · cases h
      rfl
  · split at h
    · cases h
    · cases h
      rfl

/-- The end of two runs with the same decision. -/
theorem auditBeforeEmitted_same {enabled enabled' : Option Bool} {log log' : GateLog}
    (cleared : Cleared) (hagree : LogsAgree log log') :
    SameVerdict deps (auditBeforeEmitted (deps.withTrustGate enabled) input cleared log)
      (auditBeforeEmitted (deps.withTrustGate enabled') input cleared log') := by
  constructor
  · intro result result' hresult hresult'
    rw [auditBeforeEmitted_verdict hresult, auditBeforeEmitted_verdict hresult']
  · intro hignores
    unfold auditBeforeEmitted
    by_cases hdry : input.dryRun
    · have hcache : cacheTrace (deps.withTrustGate enabled) input log =
          cacheTrace (deps.withTrustGate enabled') input log' := by
        unfold cacheTrace
        rw [hagree.trace]
        rfl
      rw [if_pos hdry, if_pos hdry, hcache]
      cases cacheTrace (deps.withTrustGate enabled') input log' <;> rfl
    · rw [if_neg hdry, if_neg hdry]
      have haudit : (deps.audit (auditBefore input cleared log)).isOk =
          (deps.audit (auditBefore input cleared log')).isOk :=
        hignores (auditBefore input cleared log') log.checks
      have hwired : ∀ flag, (deps.withTrustGate flag).audit = deps.audit := fun _ => rfl
      rw [hwired, hwired]
      revert haudit
      cases deps.audit (auditBefore input cleared log) <;>
        cases deps.audit (auditBefore input cleared log') <;> intro haudit
      · rfl
      · cases haudit
      · cases haudit
      · rfl

theorem runPreExecutionGate_same {enabled : Option Bool} (henabled : enabled ≠ some true)
    (hignores : IgnoresTrust deps) (h : LoadsTrusted deps input counterparty status)
    (hrisk : counterparty.riskLevel ≠ some "sanctioned") :
    SameVerdict deps (runPreExecutionGate (deps.withTrustGate (some true)) input)
      (runPreExecutionGate (deps.withTrustGate enabled) input) := by
  have hchecks := (checks_same henabled hignores h hrisk).ends {} {} ⟨rfl, rfl, rfl⟩
  unfold runPreExecutionGate
  revert hchecks
  rcases checks (deps.withTrustGate (some true)) input {} with (⟨log, check⟩ | message) |
      ⟨cleared, log⟩ <;>
    rcases checks (deps.withTrustGate enabled) input {} with (⟨log', check'⟩ | message') |
      ⟨cleared', log'⟩ <;> intro hchecks <;> try exact hchecks.elim
  · have hverdict : (failure input log check).verdict = (failure input log' check').verdict := by
      simp only [failure, GateResult.verdict, hchecks.outcome, hchecks.requiredApprovers]
    refine ⟨fun result result' hresult hresult' => ?_, fun _ => congrArg some hverdict⟩
    cases hresult
    cases hresult'
    exact hverdict
  · refine ⟨fun result result' hresult => ?_, fun _ => rfl⟩
    cases hresult
  · obtain ⟨rfl, hagree⟩ := hchecks
    exact auditBeforeEmitted_same cleared hagree

/-! ## What the trust gate refuses -/

/-- A run that lets the payment through has passed every check. -/
theorem everyCheckHolds_of_success {result : GateSuccess}
    (h : (runPreExecutionGate deps input).result = .ok (.success result)) :
    ∃ decision, EveryCheckHolds deps input decision := by
  unfold runPreExecutionGate at h
  cases hchecks : checks deps input {} with
  | error stop =>
      rw [hchecks] at h
      cases stop with
      | failed log check => cases h
      | threw message => cases h
  | ok last => exact ⟨_, checks_ok hchecks⟩

end Equivalence

/--
With the trust gate and a counterparty whose trust status is loaded and does not
pause it, a run has the verdict of the run without the gate, unless the
counterparty is sanctioned; then neither lets the payment through.  Whatever
else the loader answers, the trust gate does not let the payment through.
-/
theorem trustGate_equivalence (deps : GateDependencies) (input : RunGateInput)
    (enabled : Option Bool) (henabled : enabled ≠ some true) (hignores : IgnoresTrust deps) :
    (∀ counterparty status, LoadsTrusted deps input counterparty status →
      (counterparty.riskLevel ≠ some "sanctioned" →
        SameVerdict deps (runPreExecutionGate (deps.withTrustGate (some true)) input)
          (runPreExecutionGate (deps.withTrustGate enabled) input)) ∧
      (counterparty.riskLevel = some "sanctioned" → ∀ flag result,
        (runPreExecutionGate (deps.withTrustGate flag) input).result ≠ .ok (.success result))) ∧
    ((∀ counterparty status, ¬LoadsTrusted deps input counterparty status) → ∀ result,
      (runPreExecutionGate (deps.withTrustGate (some true)) input).result ≠
        .ok (.success result)) := by
  refine ⟨fun counterparty status h => ⟨runPreExecutionGate_same henabled hignores h, ?_⟩, ?_⟩
  · intro hsanctioned flag result hresult
    obtain ⟨decision, agent, account, found, -, -, -, hcleared, -⟩ :=
      everyCheckHolds_of_success hresult
    have hfound := h.resolved.symm.trans hcleared.resolved
    rw [Except.ok.injEq, Option.some.injEq] at hfound
    exact hcleared.notSanctioned (hfound ▸ hsanctioned)
  · intro hnone result hresult
    obtain ⟨decision, agent, account, found, -, -, -, hcleared, -⟩ :=
      everyCheckHolds_of_success hresult
    obtain ⟨status, hknown, hpaused⟩ := hcleared.trusted rfl
    exact hnone found status ⟨hcleared.resolved, hknown, hpaused⟩

/-! ## A sanctioned payee -/

/-- Dependencies whose loader answers with a payee of a risk level and a trust status. -/
def payingTo (riskLevel trustStatus : Option String) : GateDependencies :=
  { sampleDependencies none with
    resolveCounterparty := fun id =>
      .ok (some { id, type := "vendor", riskLevel, verifiedStatus := none, trustStatus }) }

/-- A trusted payee is paid with the trust gate as without, and a paused one is not. -/
theorem trusted_payee_equivalence :
    SameVerdict (payingTo none (some "trusted"))
        (runPreExecutionGate ((payingTo none (some "trusted")).withTrustGate (some true))
          (sampleInput "tnt_1"))
        (runPreExecutionGate ((payingTo none (some "trusted")).withTrustGate none)
          (sampleInput "tnt_1")) ∧
      ∀ result, (runPreExecutionGate ((payingTo none (some "paused")).withTrustGate (some true))
        (sampleInput "tnt_1")).result ≠ .ok (.success result) := by
  constructor
  · obtain ⟨hloaded, -⟩ := trustGate_equivalence (payingTo none (some "trusted"))
      (sampleInput "tnt_1") none (by decide) (fun _ _ _ => rfl)
    exact (hloaded _ .trusted ⟨rfl, rfl, by decide⟩).1 (by decide)
  · obtain ⟨-, hrefused⟩ := trustGate_equivalence (payingTo none (some "paused"))
      (sampleInput "tnt_1") none (by decide) (fun _ _ _ => rfl)
    apply hrefused
    rintro counterparty status ⟨hresolved, hknown, hpaused⟩
    cases hresolved
    cases hknown
    exact hpaused rfl

/-- A trusted payee that is sanctioned is refused either way, but only without the trust gate does
the refusal come with the policy's outcome. -/
theorem sanctioned_payee_verdicts :
    IgnoresTrust (payingTo (some "sanctioned") (some "trusted")) ∧
      AuditIgnoresChecks (payingTo (some "sanctioned") (some "trusted")) ∧
      (∃ counterparty, LoadsTrusted (payingTo (some "sanctioned") (some "trusted"))
        (sampleInput "tnt_1") counterparty .trusted) ∧
      (runPreExecutionGate ((payingTo (some "sanctioned") (some "trusted")).withTrustGate
          (some true)) (sampleInput "tnt_1")).verdict? = some ⟨false, none, []⟩ ∧
      (runPreExecutionGate ((payingTo (some "sanctioned") (some "trusted")).withTrustGate
          none) (sampleInput "tnt_1")).verdict? = some ⟨false, some .confirm, ["owner"]⟩ := by
  refine ⟨fun _ _ _ => rfl, fun _ _ => rfl, ⟨_, rfl, rfl, by decide⟩, by decide, by decide⟩

end BrainCore.Gate
