import BrainCore.Policy.Service
import BrainCore.Policy.Validate

/-!
# The spend envelope of one evaluation

The counters are loaded by window and read back by window, while a document may
cap one window in several currencies: the currency collected last is the one
whose counter the VM sees.  For every other currency of that window the prior
spend counts as zero.
-/

namespace BrainCore.Policy

open BrainCore.Foundation BrainCore.Gate BrainCore.Ledger BrainCore.Shared

/-! ## What is loaded -/

/-- The currency collected last for a window. -/
def lastCurrency (pairs : List (String × String)) (window : String) : Option String :=
  ((pairs.filter fun pair => pair.1 = window).getLast?).map Prod.snd

theorem lastCurrency_cons (pair : String × String) (rest : List (String × String))
    (window : String) :
    lastCurrency (pair :: rest) window =
      if pair.1 = window then some ((lastCurrency rest window).getD pair.2)
      else lastCurrency rest window := by
  unfold lastCurrency
  by_cases same : pair.1 = window
  · rw [List.filter_cons_of_pos (by simpa using same), if_pos same, List.getLast?_cons]
    cases (rest.filter fun pair => pair.1 = window).getLast? <;> rfl
  · rw [List.filter_cons_of_neg (by simpa using same), if_neg same]

/-- The amount loaded for a window is the one of the currency collected last. -/
theorem preloadSpend_eq (read : String → String → String) (pairs : List (String × String))
    (loaded : String → Option Amount) (window : String) :
    preloadSpend read pairs loaded window =
      match lastCurrency pairs window with
      | none => loaded window
      | some currency => some ⟨currency, read window currency⟩ := by
  induction pairs generalizing loaded with
  | nil => rfl
  | cons pair rest ih =>
      obtain ⟨pairWindow, pairCurrency⟩ := pair
      rw [preloadSpend, ih, lastCurrency_cons]
      by_cases same : pairWindow = window
      · subst same
        rw [if_pos rfl, Function.update_self]
        cases lastCurrency rest pairWindow <;> rfl
      · rw [if_neg same, Function.update_of_ne (Ne.symm same)]

/-- The VM sees the counter of the cap's currency, or nothing of what was spent. -/
theorem priorSpend_gateAction {doc : PolicyDocument} {counters : SpendCounters} {now : Instant}
    {intent : GatePaymentIntent} {agentId : String} {c : SpendWindowConstraint}
    (hagent : intent.createdByAgentId = some agentId) :
    priorSpend (gateAction doc counters now intent) c =
      if lastCurrency (collectSpendWindows doc) c.window = some c.lte.currency then
        readSpendWindow counters agentId c.window c.lte.currency now
      else "0" := by
  unfold priorSpend gateAction
  simp only [hagent]
  rw [preloadSpend_eq]
  cases hlast : lastCurrency (collectSpendWindows doc) c.window with
  | none => rfl
  | some currency =>
      by_cases same : currency = c.lte.currency
      · subst same
        simp
      · simp [same]

/-! ## The envelope -/

/-- The intent is in the cap's currency, and the counter and the amount stay within the cap. -/
def WithinEnvelope (counters : SpendCounters) (agentId : String) (now : Instant)
    (intent : GatePaymentIntent) (c : SpendWindowConstraint) : Prop :=
  intent.currency = c.lte.currency ∧
    ∀ amount : DecimalString, amount.text = intent.amount →
      spent counters (currentKey agentId c.window c.lte.currency now) * 10 ^ 10 + amount.units ≤
        c.lte.value.units

/-- Every rule `evaluateForGate` matches keeps the agent within the rule's envelope. -/
def EnvelopeHolds (service : PolicyService) (doc : PolicyDocument) (intent : GatePaymentIntent) :
    Prop :=
  ∀ decision rule c agentId, evaluateForGate service intent = .ok decision →
    rule ∈ doc.rules → decision.matchedRuleId = some rule.id →
      rule.when.agentSpendInWindow = some c → intent.createdByAgentId = some agentId →
        WithinEnvelope service.counters agentId service.now intent c

/-- What the VM checks of a matched rule's envelope, in exact arithmetic. -/
theorem envelope_of_matches {doc : PolicyDocument} {counters : SpendCounters} {now : Instant}
    {intent : GatePaymentIntent} {agentId : String} {rule : PolicyRule} {c : SpendWindowConstraint}
    (hagent : intent.createdByAgentId = some agentId)
    (hmatches : Matches doc rule (gateAction doc counters now intent))
    (hwhen : rule.when.agentSpendInWindow = some c) :
    intent.currency = c.lte.currency ∧
      ∀ amount : DecimalString, amount.text = intent.amount →
        (if lastCurrency (collectSpendWindows doc) c.window = some c.lte.currency then
          spent counters (currentKey agentId c.window c.lte.currency now) * 10 ^ 10
        else 0) + amount.units ≤ c.lte.value.units := by
  have hpassed := hmatches.spendInWindow hwhen
  unfold spendInWindowPassed at hpassed
  have haction : (gateAction doc counters now intent).amount =
      some ⟨intent.currency, intent.amount⟩ := rfl
  rw [haction] at hpassed
  dsimp only at hpassed
  split at hpassed
  · rename_i hcurrency
    refine ⟨hcurrency, fun amount hamount => ?_⟩
    obtain ⟨prior, hprior, hunits⟩ : ∃ prior : DecimalString,
        priorSpend (gateAction doc counters now intent) c = prior.text ∧
          prior.units = if lastCurrency (collectSpendWindows doc) c.window = some c.lte.currency
            then spent counters (currentKey agentId c.window c.lte.currency now) * 10 ^ 10
            else 0 := by
      rw [priorSpend_gateAction hagent]
      split
      · exact readSpendWindow_eq counters agentId c.window c.lte.currency now
      · exact ⟨⟨"0", by decide⟩, rfl, by decide⟩
    rw [hprior, ← hamount, addDecimal_text] at hpassed
    have hwithin : compareDecimal (decimalOfUnits (prior.units + amount.units)).text
        c.lte.value.text ≤ 0 := by
      simpa [pure, Except.pure, bind, Except.bind] using hpassed
    have hle := units_le_of_compareDecimal hwithin
    rwa [units_renderUnits, hunits] at hle
  · cases hpassed

/-! ## When the envelope holds -/

/-- The largest amount a counter can hold, in units of `10 ^ -8`. -/
def maxSpent : Numeric8 := ⟨10 ^ 28 - 1, by decide⟩

theorem spent_le_maxSpent (counters : SpendCounters) (key : CounterKey) :
    spent counters key ≤ maxSpent.scaled := by
  unfold spent maxSpent
  cases counters.find? key with
  | none => decide
  | some row =>
      have := row.amount.inRange
      simp only [Option.map_some, Option.getD_some]
      omega

/-- The cap is beyond what a counter can hold. -/
def OutOfReach (c : SpendWindowConstraint) (amount : DecimalString) : Prop :=
  maxSpent.scaled * 10 ^ 10 + amount.units ≤ c.lte.value.units

/-- The cap's currency is the one its window is loaded in. -/
def ReadsOwnCurrency (doc : PolicyDocument) (c : SpendWindowConstraint) : Prop :=
  lastCurrency (collectSpendWindows doc) c.window = some c.lte.currency

/-- A rule the VM can match has its own currency loaded for its window. -/
def CapsAreRead (doc : PolicyDocument) (now : Instant) (intent : GatePaymentIntent)
    (amount : DecimalString) : Prop :=
  ∀ counters rule c, FirstMatch doc (gateAction doc counters now intent) doc.rules rule →
    rule.when.agentSpendInWindow = some c → (∃ kinds, spread rule.requiredEvidenceKinds = .ok kinds) →
      ReadsOwnCurrency doc c ∨ OutOfReach c amount

/-- A counter the VM does not read does not change the action. -/
theorem gateAction_congr {doc : PolicyDocument} {counters next : SpendCounters} {now : Instant}
    {intent : GatePaymentIntent} {agentId : String} {c : SpendWindowConstraint}
    (hagent : intent.createdByAgentId = some agentId) (hunread : ¬ReadsOwnCurrency doc c)
    (hsame : ∀ other, other ≠ currentKey agentId c.window c.lte.currency now →
      next.find? other = counters.find? other)
    (hcount : ∀ agentId window now,
      readTxCountWindow next agentId window now = readTxCountWindow counters agentId window now) :
    gateAction doc next now intent = gateAction doc counters now intent := by
  have hspend : ∀ window, preloadSpend
      (fun window currency => readSpendWindow next agentId window currency now)
        (collectSpendWindows doc) (fun _ => none) window =
      preloadSpend (fun window currency => readSpendWindow counters agentId window currency now)
        (collectSpendWindows doc) (fun _ => none) window := by
    intro window
    rw [preloadSpend_eq, preloadSpend_eq]
    cases hlast : lastCurrency (collectSpendWindows doc) window with
    | none => rfl
    | some currency =>
        have hother : currentKey agentId window currency now ≠
            currentKey agentId c.window c.lte.currency now := by
          intro hkey
          have hwindow : window = c.window := congrArg CounterKey.window hkey
          have hcurrency : currency = c.lte.currency := congrArg CounterKey.currency hkey
          rw [hwindow, hcurrency] at hlast
          exact hunread hlast
        simp only [readSpendWindow, hsame _ hother]
  have htx : preloadTxCount (fun window => readTxCountWindow next agentId window now) =
      preloadTxCount (fun window => readTxCountWindow counters agentId window now) := by
    simp only [hcount]
  unfold gateAction
  simp only [hagent, funext hspend, htx]

/--
Over all counter states the evaluation keeps every agent within the envelope of
the rule it matches exactly when each rule the VM can match reads the counter of
its own currency.
-/
theorem envelopeHolds_iff {raw : Json} {doc : PolicyDocument}
    (haccepted : validatePolicyDocument raw = .ok doc) {intent : GatePaymentIntent}
    {amount : DecimalString} (hamount : intent.amount = amount.text) (now : Instant) :
    (∀ (service : PolicyService) (active : ActivePolicy), service.active = some active →
        active.content = doc → service.now = now → EnvelopeHolds service doc intent) ↔
      intent.createdByAgentId = none ∨ CapsAreRead doc now intent amount := by
  have hnodup := (validatePolicyDocument_ok haccepted).1
  constructor
  · intro hholds
    cases hagent : intent.createdByAgentId with
    | none => exact .inl rfl
    | some agentId =>
        refine .inr fun counters rule c hfirst hwhen hkinds => ?_
        by_contra hunread
        rw [not_or] at hunread
        -- the unread counter is filled up; the VM still matches the rule
        obtain ⟨next, hfull, hsame, hcount⟩ :=
          exists_spent counters (currentKey agentId c.window c.lte.currency now) maxSpent
        rw [← gateAction_congr hagent hunread.1 hsame hcount] at hfirst
        obtain ⟨kinds, hkinds⟩ := hkinds
        obtain ⟨decision, hmatched, -, -, hdecision⟩ :=
          evaluateForGate_of_firstMatch hnodup hfirst hkinds
        have hwithin := (hholds (serviceOver doc next now) _ rfl rfl rfl _ rule c agentId hdecision
          hfirst.mem hmatched hwhen hagent).2 amount hamount.symm
        change spent next (currentKey agentId c.window c.lte.currency now) * 10 ^ 10 + _ ≤ _
          at hwithin
        rw [hfull] at hwithin
        exact hunread.2 hwithin
  · rintro hread service active hactive hcontent rfl decision rule c agentId hdecision hmem hmatched
      hwhen hagent
    rcases hread with hnone | hread
    · rw [hnone] at hagent
      cases hagent
    obtain ⟨hfirst, hkinds⟩ :=
      firstMatch_of_evaluateForGate hnodup hactive hcontent hdecision hmem hmatched
    have hmatches : Matches doc rule (gateAction doc service.counters service.now intent) := by
      obtain ⟨_, _, -, hmatches, -⟩ := hfirst
      exact hmatches
    obtain ⟨hcurrency, henvelope⟩ := envelope_of_matches hagent hmatches hwhen
    refine ⟨hcurrency, fun value hvalue => ?_⟩
    rcases hread service.counters rule c hfirst hwhen hkinds with hown | hout
    · have hle := henvelope value hvalue
      unfold ReadsOwnCurrency at hown
      rwa [if_pos hown] at hle
    · obtain rfl : value = amount := DecimalString.ext (hvalue.trans hamount)
      have hmax := spent_le_maxSpent service.counters
        (currentKey agentId c.window c.lte.currency service.now)
      exact le_trans (Int.add_le_add_right (Int.mul_le_mul_of_nonneg_right hmax (by decide)) _) hout

/-! ## One window capped in two currencies -/

def capRule (id currency value : String) : Json :=
  .obj [("id", .str id), ("applies_to", .arr [.str "any"]),
    ("when", .obj [("agent.spend_in_window", .obj [("window", .str "24h"),
      ("lte", .obj [("currency", .str currency), ("value", .str value)])])]),
    ("execute", .str "auto")]

def twoCurrencies : Json :=
  .obj [("version", .num 1), ("rules", .arr [capRule "usd" "USD" "100", capRule "eur" "EUR" "90"])]

def capWhen (currency : String) (value : DecimalString) : RuleWhen :=
  { agentSpendInWindow := some ⟨"24h", ⟨currency, value⟩⟩ }

def twoCurrenciesDoc : PolicyDocument :=
  { version := 1
    rules :=
      [{ id := "usd", appliesTo := [.any], when := capWhen "USD" ⟨"100", by decide⟩,
         execute := .auto },
       { id := "eur", appliesTo := [.any], when := capWhen "EUR" ⟨"90", by decide⟩,
         execute := .auto }] }

theorem twoCurrencies_accepted : validatePolicyDocument twoCurrencies = .ok twoCurrenciesDoc := by
  rfl

def fiftyDollars : GatePaymentIntent :=
  { id := "pi_1"
    ownerId := "tnt_1"
    createdByAgentId := some "agent_1"
    actionType := .achOutbound
    sourceAccountId := "acct_1"
    destinationCounterpartyId := "cp_1"
    amount := "50"
    currency := "USD" }

/-- The agent has spent the whole dollar cap in the current bucket. -/
def capSpent : SpendCounters :=
  ⟨[⟨currentKey "agent_1" "24h" "USD" 0, ⟨100 * 10 ^ 8, by decide⟩, 1⟩], by decide⟩

/-- The envelope of the accepted document holds exactly under the condition. -/
theorem twoCurrencies_envelope :
    (∀ (service : PolicyService) (active : ActivePolicy), service.active = some active →
        active.content = twoCurrenciesDoc → service.now = 0 →
          EnvelopeHolds service twoCurrenciesDoc fiftyDollars) ↔
      fiftyDollars.createdByAgentId = none ∨
        CapsAreRead twoCurrenciesDoc 0 fiftyDollars ⟨"50", by decide⟩ :=
  envelopeHolds_iff twoCurrencies_accepted rfl 0

/-- The dollar rule matches fifty dollars although its cap of a hundred is spent. -/
theorem twoCurrencies_exceeded :
    validatePolicyDocument twoCurrencies = .ok twoCurrenciesDoc ∧
      ¬EnvelopeHolds (serviceOver twoCurrenciesDoc capSpent 0) twoCurrenciesDoc fiftyDollars := by
  refine ⟨twoCurrencies_accepted, fun hholds => ?_⟩
  have hwithin := (hholds _ _ ⟨"24h", ⟨"USD", ⟨"100", by decide⟩⟩⟩ "agent_1" rfl List.mem_cons_self rfl
    rfl rfl).2 ⟨"50", by decide⟩ rfl
  exact absurd hwithin (by decide)

end BrainCore.Policy
