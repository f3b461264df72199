import BrainCore.Foundation.Result
import BrainCore.Foundation.Table
import BrainCore.Ledger.PaymentIntents
import BrainCore.Policy.Cron
import BrainCore.Policy.Reputation
import BrainCore.Policy.Vm

/-!
# Spend counters

`services/policy/src/spend-counters.ts`: what an agent spent, and how often, in
the current bucket of a window.  Windows tumble and their buckets are aligned to
the epoch.  The table is the one of a single tenant.
-/

namespace BrainCore.Policy

open BrainCore.Foundation BrainCore.Ledger BrainCore.Shared

/-- `WINDOW_MS`. -/
def windowMs (window : String) : Option Nat :=
  if window = "1h" then some 3600000
  else if window = "24h" then some 86400000
  else if window = "7d" then some (7 * 86400000)
  else if window = "30d" then some (30 * 86400000)
  else none

/-- The start of the bucket that holds `now`; an unknown window has one bucket. -/
def bucketStart (window : String) (now : Instant) : Instant :=
  match windowMs window with
  | none => 0
  | some ms => now / ms * ms

structure CounterKey where
  agentId : String
  window : String
  bucketStart : Instant
  currency : String
deriving DecidableEq

/-- A row of `policy_spend_counters`. -/
structure SpendCounter where
  key : CounterKey
  amount : Numeric8
  txCount : Nat
deriving DecidableEq

/-- `UNIQUE (tenant_id, agent_id, period_window, bucket_start, currency)`. -/
abbrev SpendCounters := Table SpendCounter.key

/-- The key of the current bucket. -/
def currentKey (agentId window currency : String) (now : Instant) : CounterKey :=
  ⟨agentId, window, bucketStart window now, currency⟩

def readSpendWindow (counters : SpendCounters) (agentId window currency : String)
    (now : Instant) : String :=
  match counters.find? (currentKey agentId window currency now) with
  | none => "0"
  | some row => row.amount.text.text

/-- The transactions of the current bucket, over all currencies. -/
def readTxCountWindow (counters : SpendCounters) (agentId window : String) (now : Instant) : Nat :=
  counters.total fun row =>
    if row.key.agentId = agentId ∧ row.key.window = window ∧
        row.key.bucketStart = bucketStart window now
    then row.txCount else 0

/-- The row an upsert of the current bucket writes; `none` when the sum leaves the column's
range. -/
def incrementedCounter (counters : SpendCounters) (agentId window currency : String)
    (amount : Numeric8) (now : Instant) : Option SpendCounter :=
  let key := currentKey agentId window currency now
  match counters.find? key with
  | none => some ⟨key, amount, 1⟩
  | some row =>
      (row.amount.add? amount).map fun sum =>
        { row with amount := sum, txCount := row.txCount + 1 }

def incrementSpendCounter (counters : SpendCounters) (agentId window currency : String)
    (amount : Numeric8) (now : Instant) : Option SpendCounters :=
  (incrementedCounter counters agentId window currency amount now).map counters.put

/-! ## The spend of a key -/

/-- The stored amount of a key, in units of `10 ^ -8`; nothing is stored before the first spend. -/
def spent (counters : SpendCounters) (key : CounterKey) : Int :=
  ((counters.find? key).map fun row => row.amount.scaled).getD 0

/-- The text that is read is the stored amount. -/
theorem readSpendWindow_eq (counters : SpendCounters) (agentId window currency : String)
    (now : Instant) :
    ∃ prior : DecimalString, readSpendWindow counters agentId window currency now = prior.text ∧
      prior.units = spent counters (currentKey agentId window currency now) * 10 ^ 10 := by
  unfold readSpendWindow spent
  cases counters.find? (currentKey agentId window currency now) with
  | none => exact ⟨⟨"0", by decide⟩, rfl, by decide⟩
  | some row => exact ⟨row.amount.text, rfl, row.amount.units_text⟩

/-- An increment adds the amount to its own key and leaves every other one. -/
theorem spent_incrementSpendCounter {counters next : SpendCounters}
    {agentId window currency : String} {amount : Numeric8} {now : Instant}
    (h : incrementSpendCounter counters agentId window currency amount now = some next)
    (key : CounterKey) :
    spent next key = spent counters key +
      if key = currentKey agentId window currency now then amount.scaled else 0 := by
  obtain ⟨row, hrow, rfl⟩ := Option.map_eq_some_iff.mp h
  unfold incrementedCounter at hrow
  dsimp only at hrow
  generalize currentKey agentId window currency now = current at hrow ⊢
  unfold spent
  cases hfind : counters.find? current with
  | none =>
      rw [hfind] at hrow
      obtain rfl := Option.some.inj hrow
      rw [Table.find?_put]
      by_cases same : key = current
      · subst same
        simp [hfind]
      · simp [same]
  | some old =>
      rw [hfind] at hrow
      obtain ⟨sum, hsum, rfl⟩ := Option.map_eq_some_iff.mp hrow
      rw [Table.find?_put, Table.key_of_find? hfind]
      by_cases same : key = current
      · subst same
        rw [if_pos rfl, if_pos rfl, hfind]
        exact Numeric8.add?_scaled hsum
      · rw [if_neg same, if_neg same, add_zero]

/-- Any amount can be stored under a key without moving another key or a transaction count. -/
theorem exists_spent (counters : SpendCounters) (key : CounterKey) (amount : Numeric8) :
    ∃ next : SpendCounters, spent next key = amount.scaled ∧
      (∀ other, other ≠ key → next.find? other = counters.find? other) ∧
      ∀ agentId window now,
        readTxCountWindow next agentId window now = readTxCountWindow counters agentId window now := by
  cases hfind : counters.find? key with
  | none =>
      obtain ⟨next, hnext⟩ := @Table.exists_insert _ _ _ _ _ (⟨key, amount, 0⟩ : SpendCounter) hfind
      refine ⟨next, ?_, fun other hother => ?_, fun agentId window now => ?_⟩
      · rw [spent, Table.find?_insert hnext, if_pos rfl]
        rfl
      · rw [Table.find?_insert hnext, if_neg hother]
      · rw [readTxCountWindow, Table.total_insert hnext]
        simp [readTxCountWindow]
  | some row =>
      refine ⟨counters.update key (fun row => { row with amount }) fun _ => rfl, ?_,
        fun other hother => Table.find?_update_of_ne hother, fun agentId window now => ?_⟩
      · rw [spent, Table.find?_update_self hfind]
        rfl
      · exact Nat.add_right_cancel (Table.total_update hfind _)

/-!
## The policy service

`evaluateForGate` and `recordAgentSpend` of `services/policy/src/service.ts`:
the counters a policy refers to are loaded before the VM runs, and raised when
an intent settles.
-/

open BrainCore.Foundation BrainCore.Gate BrainCore.Ledger BrainCore.Shared

/-! ## The windows of a document -/

/-- Distinct `(window, currency)` pairs of the spend envelopes, in rule order. -/
def collectSpendWindows (doc : PolicyDocument) : List (String × String) :=
  (doc.rules.filterMap fun rule =>
    rule.when.agentSpendInWindow.map fun c => (c.window, c.lte.currency)).eraseDups

/-- Distinct windows of the transaction-count envelopes. -/
def collectTxWindows (doc : PolicyDocument) : List String :=
  (doc.rules.filterMap fun rule => rule.when.agentTxCountInWindow.map (·.window)).eraseDups

/-- `s[w.window] = { … }` for each pair in turn: a later pair of one window replaces an earlier one. -/
def preloadSpend (read : String → String → String) :
    List (String × String) → (String → Option Amount) → String → Option Amount
  | [], loaded => loaded
  | (window, currency) :: rest, loaded =>
      preloadSpend read rest
        (Function.update loaded window (some ⟨currency, read window currency⟩))

/-- `t[w] = …` for each window. -/
def preloadTxCount (read : String → Nat) (windows : List String) (window : String) : Option Nat :=
  if window ∈ windows then some (read window) else none

/-! ## The action -/

def intentToApplyTo : ActionType → ApplyTo
  | .achInbound => .inboundPayment
  | .onchainTransfer => .onchainTx
  | _ => .outboundPayment

/-- The action the VM evaluates for an intent. -/
def gateAction (doc : PolicyDocument) (counters : SpendCounters) (now : Instant)
    (intent : GatePaymentIntent) : Action :=
  { kind := intentToApplyTo intent.actionType
    counterpartyId := some intent.destinationCounterpartyId
    amount := some ⟨intent.currency, intent.amount⟩
    agentRole := none
    agentId := intent.createdByAgentId
    tenantCategory := some .business
    timestamp := now
    confidence := intent.confidence
    evidenceScore := intent.evidenceScore
    riskLevel := intent.riskLevel
    counterpartyTrustStatus := intent.counterpartyTrustStatus
    spendInWindow :=
      match intent.createdByAgentId with
      | none => fun _ => none
      | some agentId =>
          preloadSpend (fun window currency => readSpendWindow counters agentId window currency now)
            (collectSpendWindows doc) fun _ => none
    txCountInWindow :=
      match intent.createdByAgentId with
      | none => fun _ => none
      | some agentId =>
          preloadTxCount (fun window => readTxCountWindow counters agentId window now)
            (collectTxWindows doc) }

/-! ## The decision -/

def findRule (doc : PolicyDocument) (ruleId : String) : Option PolicyRule :=
  doc.rules.find? fun rule => rule.id = ruleId

/-- `[...(kinds ?? [])]`. -/
def spread : Option Json → Except String (List Json)
  | none | some .null => .ok []
  | some (.arr items) => .ok items
  | some (.str text) => .ok (text.toList.map fun c => .str (String.singleton c))
  | some _ => .error "object is not iterable"

def literalAmount (literal : AmountLiteral) : Amount := ⟨literal.currency, literal.value.text⟩

def gateOutcome : Outcome → GateOutcome
  | .allow => .allow
  | .confirm => .confirm
  | .reject => .reject

structure ActivePolicy where
  id : String
  version : Nat
  content : PolicyDocument

/-- What the service reads, and the stores it writes its decision to. -/
structure PolicyService where
  active : Option ActivePolicy
  counters : SpendCounters
  now : Instant
  newPolicyDecisionId : String
  sha256Intent : GatePaymentIntent → String
  resolveReputation : Option (String → Except String (Option ReputationScore)) := none
  /-- The `policy_decisions` row and the `policy.evaluate` event. -/
  record : GatePolicyDecision → Except String Unit := fun _ => .ok ()

/-- The rule of a decision. -/
def matchedRule (doc : PolicyDocument) (decision : Decision) : Option PolicyRule :=
  decision.matchedRuleId.bind (findRule doc)

/-- The decision of the VM with what the matched rule adds to it. -/
def baseDecision (service : PolicyService) (active : ActivePolicy) (intent : GatePaymentIntent)
    (decision : Decision) (requiredEvidenceKinds : List Json) : GatePolicyDecision :=
  let rule := matchedRule active.content decision
  { id := service.newPolicyDecisionId
    outcome := gateOutcome decision.outcome
    matchedRuleId := decision.matchedRuleId
    requiredApprovers := decision.requiredApprovers
    ledgerSnapshotHash := service.sha256Intent intent
    trace := decision.trace.map .rule
    requiredEvidenceKinds
    amountUpperBound := (rule.bind (·.when.amountLte)).map literalAmount
    policyVersion := some active.version
    onchainSettlementPermitted := rule.bind (·.onchainSettlementPermitted)
    x402AutonomousMaxAmount := (rule.bind (·.x402AutonomousMaxAmount)).map literalAmount
    achAutonomousMaxAmount := (rule.bind (·.achAutonomousMaxAmount)).map literalAmount
    cardAutonomousMaxAmount := (rule.bind (·.cardAutonomousMaxAmount)).map literalAmount }

/-- The reputation adjustment, when a resolver is wired and the rule declares an envelope. -/
def adjustForReputation (service : PolicyService) (matchedRule : Option PolicyRule)
    (intent : GatePaymentIntent) (base : GatePolicyDecision) : Except String GatePolicyDecision :=
  match service.resolveReputation, matchedRule.bind readReputationEnvelope with
  | some resolve, some envelope => do
      let reputation ← resolve intent.destinationCounterpartyId
      pure (applyReputationAdjustment base reputation (some envelope))
  | _, _ => pure base

def evaluateForGate (service : PolicyService) (intent : GatePaymentIntent) :
    Except String GatePolicyDecision :=
  match service.active with
  | none => .error "no active policy for tenant"
  | some active => do
      let decision ← evaluate active.content
        (gateAction active.content service.counters service.now intent)
      let rule := matchedRule active.content decision
      let requiredEvidenceKinds ← spread (rule.bind (·.requiredEvidenceKinds))
      let final ← adjustForReputation service rule intent
        (baseDecision service active intent decision requiredEvidenceKinds)
      service.record final
      pure final

/-! ## What a decision for the gate says -/

theorem adjustForReputation_ok {service : PolicyService} {matchedRule : Option PolicyRule}
    {intent : GatePaymentIntent} {base final : GatePolicyDecision}
    (h : adjustForReputation service matchedRule intent base = .ok final) :
    final.matchedRuleId = base.matchedRuleId ∧ final.policyVersion = base.policyVersion ∧
      Tightens (thresholds base) (thresholds final) := by
  unfold adjustForReputation at h
  split at h
  · obtain ⟨reputation, -, h⟩ := bind_ok.mp h
    obtain rfl := pure_ok.mp h
    obtain ⟨hmatched, hversion⟩ := applyReputationAdjustment_keeps base reputation (some _)
    exact ⟨hmatched, hversion, applyReputationAdjustment_tightens ..⟩
  · obtain rfl := pure_ok.mp h
    exact ⟨rfl, rfl, .refl _⟩

/-- A decision for the gate is the VM's, at most tightened, and its evidence kinds could be listed. -/
theorem evaluateForGate_ok {service : PolicyService} {intent : GatePaymentIntent}
    {final : GatePolicyDecision} (h : evaluateForGate service intent = .ok final) :
    ∃ active decision kinds, service.active = some active ∧
      evaluate active.content (gateAction active.content service.counters service.now intent) =
        .ok decision ∧
      spread ((matchedRule active.content decision).bind (·.requiredEvidenceKinds)) = .ok kinds ∧
      final.matchedRuleId = decision.matchedRuleId ∧
      final.policyVersion = some active.version ∧
      (∀ role ∈ decision.requiredApprovers, role ∈ final.requiredApprovers) ∧
      (final.outcome = gateOutcome decision.outcome ∨
        decision.outcome = .allow ∧ final.outcome = .confirm ∧ final.requiredApprovers ≠ []) := by
  unfold evaluateForGate at h
  cases hactive : service.active with
  | none =>
      rw [hactive] at h
      cases h
  | some active =>
      rw [hactive] at h
      obtain ⟨decision, hdecision, h⟩ := bind_ok.mp h
      obtain ⟨kinds, hkinds, h⟩ := bind_ok.mp h
      obtain ⟨adjusted, hadjusted, h⟩ := bind_ok.mp h
      obtain ⟨_, -, h⟩ := bind_ok.mp h
      obtain rfl := pure_ok.mp h
      obtain ⟨hmatched, hversion, htightens⟩ := adjustForReputation_ok hadjusted
      refine ⟨active, decision, kinds, rfl, hdecision, hkinds, hmatched, hversion,
        htightens.approvers, ?_⟩
      refine htightens.outcome.imp id fun ⟨hallow, hrest⟩ => ⟨?_, hrest⟩
      cases hcase : decision.outcome with
      | allow => rfl
      | confirm | reject =>
          simp only [thresholds, baseDecision, hcase, gateOutcome] at hallow
          cases hallow

/-- Without a reputation source and with stores that answer, the decision is the VM's. -/
theorem evaluateForGate_eq {service : PolicyService} {active : ActivePolicy}
    {intent : GatePaymentIntent} {decision : Decision} {kinds : List Json}
    (hactive : service.active = some active) (hreputation : service.resolveReputation = none)
    (hrecord : ∀ final, service.record final = .ok ())
    (hdecision : evaluate active.content
      (gateAction active.content service.counters service.now intent) = .ok decision)
    (hkinds : spread ((matchedRule active.content decision).bind (·.requiredEvidenceKinds)) =
      .ok kinds) :
    evaluateForGate service intent = .ok (baseDecision service active intent decision kinds) := by
  unfold evaluateForGate adjustForReputation
  rw [hactive, hreputation]
  refine bind_ok.mpr ⟨decision, hdecision, bind_ok.mpr ⟨kinds, hkinds, ?_⟩⟩
  exact bind_ok.mpr ⟨_, rfl, bind_ok.mpr ⟨(), hrecord _, rfl⟩⟩

/-! ## The rule a decision names -/

theorem findRule_of_mem {doc : PolicyDocument} (hnodup : (doc.rules.map (·.id)).Nodup)
    {rule : PolicyRule} (hmem : rule ∈ doc.rules) : findRule doc rule.id = some rule :=
  @Table.find?_key _ _ _ _ ⟨doc.rules, hnodup⟩ _ hmem

/-- The rule a decision names is the first the VM matches. -/
theorem firstMatch_of_evaluateForGate {service : PolicyService} {doc : PolicyDocument}
    {intent : GatePaymentIntent} {final : GatePolicyDecision} {active : ActivePolicy}
    (hnodup : (doc.rules.map (·.id)).Nodup) (hactive : service.active = some active)
    (hcontent : active.content = doc) (h : evaluateForGate service intent = .ok final)
    {rule : PolicyRule} (hmem : rule ∈ doc.rules) (hmatched : final.matchedRuleId = some rule.id) :
    FirstMatch doc (gateAction doc service.counters service.now intent) doc.rules rule ∧
      ∃ kinds, spread rule.requiredEvidenceKinds = .ok kinds := by
  subst hcontent
  obtain ⟨active', decision, kinds, hactive', hdecision, hkinds, hid, -⟩ := evaluateForGate_ok h
  obtain rfl := Option.some.inj (hactive.symm.trans hactive')
  rw [matchedRule, ← hid, hmatched, Option.bind_some, findRule_of_mem hnodup hmem, Option.bind_some] at hkinds
  refine ⟨?_, kinds, hkinds⟩
  rcases evaluate_decides hdecision with ⟨-, hnone, -⟩ | ⟨found, hfirst, hfound, -⟩
  · rw [hmatched, hnone] at hid
    cases hid
  · have same : found.id = rule.id := Option.some.inj (hfound.symm.trans (hid.symm.trans hmatched))
    have hfoundMem := findRule_of_mem hnodup hfirst.mem
    rw [same, findRule_of_mem hnodup hmem] at hfoundMem
    exact Option.some.inj hfoundMem ▸ hfirst

/-- A service over given counters whose stores answer. -/
def serviceOver (doc : PolicyDocument) (counters : SpendCounters) (now : Instant) : PolicyService :=
  { active := some ⟨"pol_1", doc.version, doc⟩
    counters
    now
    newPolicyDecisionId := "pd_1"
    sha256Intent := fun _ => "" }

/-- The first rule the VM matches is the one the service names. -/
theorem evaluateForGate_of_firstMatch {doc : PolicyDocument} {counters : SpendCounters}
    {now : Instant} {intent : GatePaymentIntent} {rule : PolicyRule} {kinds : List Json}
    (hnodup : (doc.rules.map (·.id)).Nodup)
    (hfirst : FirstMatch doc (gateAction doc counters now intent) doc.rules rule)
    (hkinds : spread rule.requiredEvidenceKinds = .ok kinds) :
    ∃ decision : Decision, decision.matchedRuleId = some rule.id ∧
      matchedRule doc decision = some rule ∧
      (decision.outcome, decision.requiredApprovers) =
        decideRule rule (gateAction doc counters now intent) ∧
      evaluateForGate (serviceOver doc counters now) intent =
        .ok (baseDecision (serviceOver doc counters now) ⟨"pol_1", doc.version, doc⟩ intent
          decision kinds) := by
  obtain ⟨trace, hdecision⟩ := evaluateRules_of_firstMatch hfirst []
  have hrule : matchedRule doc ⟨(decideRule rule (gateAction doc counters now intent)).1,
      some rule.id, (decideRule rule (gateAction doc counters now intent)).2, trace⟩ = some rule :=
    findRule_of_mem hnodup hfirst.mem
  refine ⟨_, rfl, hrule, rfl, evaluateForGate_eq rfl rfl (fun _ => rfl) hdecision ?_⟩
  rw [hrule, Option.bind_some, hkinds]

/-! ## Recording a spend -/

/-- The windows whose counters a settled intent raises. -/
def spendWindows (doc : PolicyDocument) : List String :=
  ((collectSpendWindows doc).map Prod.fst ++ collectTxWindows doc).eraseDups

/-- `recordAgentSpend`; `none` when a counter leaves its range. -/
def recordAgentSpend (active : Option ActivePolicy) (counters : SpendCounters)
    (agentId : String) (amount : Numeric8) (currency : String) (now : Instant) :
    Option SpendCounters :=
  match active with
  | none => some counters
  | some active =>
      (spendWindows active.content).foldlM
        (fun counters window => incrementSpendCounter counters agentId window currency amount now)
        counters

end BrainCore.Policy
