import BrainCore.Policy.Vm
import BrainCore.Shared.ApproverRoles
import BrainCore.Shared.DecimalOrder

/-!
# The policy linter

`services/policy/src/linter.ts`: findings about a document before it is signed.
The linter reads the conditions of a rule without an action; what it reports of
high amounts is compared here with what the VM then decides.
-/

namespace BrainCore.Policy

open BrainCore.Foundation BrainCore.Shared

/-! ## Findings -/

inductive LintSeverity where
  | error
  | warn
deriving DecidableEq

structure LintFinding where
  code : String
  severity : LintSeverity
  ruleId : Option String
  message : String
deriving DecidableEq

structure LintOptions where
  supportedCurrencies : Option (List String) := none
  knownRoles : Option (List String) := none
  /-- The matches of a rule over the trailing window. -/
  recentMatchCounts : Option (String → Nat) := none
  highValueThreshold : Option AmountLiteral := none
  confidenceFloorReject : Option Bool := none

def DEFAULT_CURRENCIES : List String :=
  ["USD", "EUR", "GBP", "CAD", "AUD", "JPY", "ETH", "USDC", "USDT"]

def DEFAULT_ROLES : List String := APPROVER_ROLE_TOKENS

def MONEY_MOVEMENT : List ApplyTo := [.outboundPayment, .onchainTx, .any]

theorem tenThousand_wellFormed : amountValueRe "10000" = true := by
  rfl

/-- `opts.highValueThreshold ?? { currency: "USD", value: "10000" }`. -/
def LintOptions.threshold (opts : LintOptions) : AmountLiteral :=
  opts.highValueThreshold.getD ⟨"USD", ⟨"10000", tenThousand_wellFormed⟩⟩

/-! ## What the linter reads of a rule -/

def isMoneyMover (rule : PolicyRule) : Bool := rule.appliesTo.any (· ∈ MONEY_MOVEMENT)

def isAuto (rule : PolicyRule) : Bool := rule.execute = .auto

def hasAmountCap (rule : PolicyRule) : Bool :=
  rule.when.amountLte.isSome || rule.approvalRequiredAbove.isSome

def hasCounterpartyConstraint (rule : PolicyRule) : Bool :=
  rule.when.counterpartyIn.isSome || rule.when.counterpartyNotIn.isSome

def riskConstraint (rule : PolicyRule) : Option String := rule.when.agentRiskLevelLte.map riskText

/-- The linter's copy of `parseRequire`. -/
def parseRoles (require : Option String) : List String :=
  match require with
  | none => []
  | some expr => parseRequire expr

def confidenceBounds (doc : PolicyDocument) : List (String × Rat) :=
  doc.rules.filterMap fun rule => rule.when.agentConfidenceGte.map fun value => (rule.id, value)

/-- `Object.keys(rule.when).length === 0`. -/
def RuleWhen.isEmpty (w : RuleWhen) : Bool :=
  w.counterpartyIn.isNone && w.counterpartyNotIn.isNone && w.amountLte.isNone &&
    w.amountGt.isNone && w.agentRole.isNone && w.timeWindow.isNone && w.agentId.isNone &&
    w.tenantCategory.isNone && w.actionIn.isNone && w.actionNotIn.isNone &&
    w.agentBehaviorHash.isNone && w.agentSpendInWindow.isNone &&
    w.agentTxCountInWindow.isNone && w.agentConfidenceGte.isNone &&
    w.agentEvidenceScoreGte.isNone && w.agentRiskLevelLte.isNone

/-- The cap of the rule does not keep it below the threshold. -/
def exceedsThreshold (threshold : AmountLiteral) (rule : PolicyRule) : Bool :=
  match rule.when.amountLte with
  | none => true
  | some cap =>
      cap.currency = threshold.currency && 0 < compareDecimal cap.value.text threshold.value.text

/-! ## The linter -/

/-- `if (condition) add(…)`. -/
def addIf (condition : Bool) (finding : LintFinding) : List LintFinding :=
  if condition then [finding] else []

/-- The findings about the confidence floors of the document. -/
def lintFloors (doc : PolicyDocument) (opts : LintOptions) : List LintFinding :=
  let floorSeverity := if opts.confidenceFloorReject = some true then .error else .warn
  let floors := confidenceBounds doc
  match floors with
  | [] =>
      [⟨"confidence_floor_missing", floorSeverity, none,
        "Activating policy does not contain agent.confidence.gte."⟩]
  | first :: _ =>
      addIf (!floors.any fun floor => 1 / 2 < floor.2)
        ⟨"confidence_floor_too_low", floorSeverity, some first.1,
          "Activating policy requires agent.confidence.gte strictly greater than 0.5."⟩

/-- The findings about one rule, behind the catch-all rule seen so far. -/
def lintRule (opts : LintOptions) (catchAllSeen : Option String) (rule : PolicyRule) :
    List LintFinding :=
  let currencies := opts.supportedCurrencies.getD DEFAULT_CURRENCIES
  let roles := opts.knownRoles.getD DEFAULT_ROLES
  let threshold := opts.threshold
  let auto := isAuto rule
  let mover := isMoneyMover rule
  addIf (auto && mover && !hasAmountCap rule)
      ⟨"auto_no_amount_cap", .error, some rule.id,
        "Auto-execute money-movement rule has no amount cap (amount.lte / approval_required_above)."⟩ ++
    addIf (auto && mover && !hasCounterpartyConstraint rule)
      ⟨"auto_no_counterparty_constraint", .error, some rule.id,
        "Auto-execute money-movement rule has no counterparty constraint."⟩ ++
    addIf (auto && mover && rule.when.counterpartyIn.isNone)
      ⟨"auto_no_verified_counterparty", .error, some rule.id,
        "Auto-execute money-movement rule must restrict to a trusted counterparty allowlist (counterparty.in)."⟩ ++
    addIf (auto && mover && exceedsThreshold threshold rule && rule.require.isNone &&
        rule.approvalRequiredAbove.isNone)
      ⟨"no_approval_path_high_value", .error, some rule.id,
        "Rule can auto-execute above " ++ threshold.currency ++ " " ++ threshold.value.text ++
          " with no approval path."⟩ ++
    ([rule.when.amountLte, rule.when.amountGt, rule.approvalRequiredAbove].reduceOption.flatMap
      fun lit => addIf (lit.currency ∉ currencies)
        ⟨"unsupported_currency", .error, some rule.id,
          "References unsupported currency " ++ lit.currency ++ "."⟩) ++
    ((parseRoles rule.require).flatMap fun role => addIf (role ∉ roles)
      ⟨"invalid_approval_role", .error, some rule.id, "Unknown approver role \"" ++ role ++ "\"."⟩) ++
    addIf (auto && mover && (riskConstraint rule).isNone)
      ⟨"auto_no_risk_bound", .error, some rule.id,
        "Auto-execute money-movement rule does not bound agent.risk_level.lte."⟩ ++
    addIf (auto && .any ∈ rule.appliesTo)
      ⟨"broad_any_auto", .error, some rule.id,
        "Broad `any` rule auto-executes — scope applies_to narrowly."⟩ ++
    (catchAllSeen.toList.flatMap fun seen =>
      [⟨"unreachable_rule", .warn, some rule.id,
        "Rule is unreachable — subsumed by earlier catch-all rule \"" ++ seen ++ "\"."⟩]) ++
    (opts.recentMatchCounts.toList.flatMap fun counts => addIf (counts rule.id = 0)
      ⟨"zero_recent_matches", .warn, some rule.id,
        "Rule matched zero actions in the trailing window — possibly dead."⟩)

/-- `catchAllSeen ??= rule.id`, when the rule matches everything. -/
def noteCatchAll (catchAllSeen : Option String) (rule : PolicyRule) : Option String :=
  if .any ∈ rule.appliesTo ∧ rule.when.isEmpty then catchAllSeen <|> some rule.id
  else catchAllSeen

def lintRules (opts : LintOptions) : Option String → List PolicyRule → List LintFinding
  | _, [] => []
  | catchAllSeen, rule :: rest =>
      lintRule opts catchAllSeen rule ++ lintRules opts (noteCatchAll catchAllSeen rule) rest

def lintPolicy (doc : PolicyDocument) (opts : LintOptions) : List LintFinding :=
  lintFloors doc opts ++ lintRules opts none doc.rules

/-! ## The activation gate -/

def CONFIDENCE_FLOOR_CODES : List String := ["confidence_floor_missing", "confidence_floor_too_low"]

structure ActivationLintGateOptions where
  lintEnforce : Bool
  confidenceEnforce : Bool

structure ActivationLintGateResult where
  findings : List LintFinding
  blocking : List LintFinding
  warnings : List LintFinding

def runActivationLintGate (doc : PolicyDocument) (opts : ActivationLintGateOptions) :
    ActivationLintGateResult :=
  let findings := lintPolicy doc { confidenceFloorReject := some opts.confidenceEnforce }
  { findings
    blocking := findings.filter fun f =>
      f.severity = .error && (opts.lintEnforce || f.code ∈ CONFIDENCE_FLOOR_CODES)
    warnings := findings.filter fun f => f.severity = .warn }

/-! ## What a clean document says -/

/-- The linter reports no error. -/
def LintClean (doc : PolicyDocument) (opts : LintOptions) : Prop :=
  ∀ finding ∈ lintPolicy doc opts, finding.severity ≠ .error

theorem mem_addIf {condition : Bool} {finding : LintFinding} :
    finding ∈ addIf condition finding ↔ condition = true := by
  cases condition <;> simp [addIf]

/-- Every rule is linted behind some rules before it. -/
theorem mem_lintRules {opts : LintOptions} {rules : List PolicyRule} {rule : PolicyRule}
    (hmem : rule ∈ rules) (seen : Option String) :
    ∃ before, ∀ finding ∈ lintRule opts before rule, finding ∈ lintRules opts seen rules := by
  induction rules generalizing seen with
  | nil => cases hmem
  | cons first rest ih =>
      rcases List.mem_cons.mp hmem with rfl | hmem
      · exact ⟨seen, fun finding hfinding => List.mem_append_left _ hfinding⟩
      · obtain ⟨before, hbefore⟩ := ih hmem (noteCatchAll seen first)
        exact ⟨before, fun finding hfinding => List.mem_append_right _ (hbefore finding hfinding)⟩

/-- No rule moves money by itself, above its cap or the threshold, without an approval path. -/
theorem LintClean.approvalPath {doc : PolicyDocument} {opts : LintOptions}
    (hclean : LintClean doc opts) {rule : PolicyRule} (hmem : rule ∈ doc.rules) :
    (isAuto rule && isMoneyMover rule && exceedsThreshold opts.threshold rule &&
      rule.require.isNone && rule.approvalRequiredAbove.isNone) = false := by
  obtain ⟨before, hbefore⟩ := @mem_lintRules opts _ _ hmem none
  by_contra hpath
  rw [Bool.not_eq_false] at hpath
  have hfound : ∃ finding ∈ lintRule opts before rule, finding.severity = .error := by
    simp only [lintRule, List.append_assoc]
    refine ⟨_, List.mem_append_right _ (List.mem_append_right _ (List.mem_append_right _
      (List.mem_append_left _ (mem_addIf.mpr hpath)))), rfl⟩
  obtain ⟨finding, hfinding, herror⟩ := hfound
  exact hclean finding (List.mem_append_right _ (hbefore finding hfinding)) herror

/-! ## High amounts -/

/-- An outbound payment or an on-chain action above the threshold, in its currency. -/
structure HighValue (opts : LintOptions) (action : Action) (amount : Amount) : Prop where
  kind : action.kind = .outboundPayment ∨ action.kind = .onchainTx
  paid : action.amount = some amount
  currency : amount.currency = opts.threshold.currency
  above : 0 < compareDecimal amount.value opts.threshold.value.text

theorem moneyMover_of_appliesTo {rule : PolicyRule} {action : Action}
    (hkind : action.kind = .outboundPayment ∨ action.kind = .onchainTx)
    (happlies : appliesTo rule action = true) : isMoneyMover rule = true := by
  rw [isMoneyMover, List.any_eq_true]
  simp only [appliesTo, Bool.or_eq_true, decide_eq_true_eq] at happlies
  rcases happlies with hany | hlisted
  · exact ⟨.any, hany, by decide⟩
  · refine ⟨action.kind, hlisted, ?_⟩
    rcases hkind with h | h <;> rw [h] <;> decide

/-- An amount cap a high amount meets is above the threshold. -/
theorem exceeds_of_matches {doc : PolicyDocument} {opts : LintOptions} {action : Action}
    {amount : Amount} {rule : PolicyRule} (hhigh : HighValue opts action amount)
    (hmatches : Matches doc rule action) : exceedsThreshold opts.threshold rule = true := by
  unfold exceedsThreshold
  cases hcap : rule.when.amountLte with
  | none => rfl
  | some cap =>
      have hwithin := hmatches.amountLte hcap
      simp only [amountLtePassed, hhigh.paid, Bool.and_eq_true, decide_eq_true_eq] at hwithin
      obtain ⟨hcurrency, hwithin⟩ := hwithin
      have habove := hhigh.above
      rw [compareDecimal_pos] at habove
      rw [compareDecimal_nonpos] at hwithin
      simp only [Bool.and_eq_true, decide_eq_true_eq, compareDecimal_pos]
      exact ⟨hcurrency.symm.trans hhigh.currency, habove.trans_le hwithin⟩

theorem decideRule_eq (rule : PolicyRule) (action : Action) :
    decideRule rule action =
      let approvers := parseRoles rule.require
      let outcome := mapExecute rule.execute (!approvers.isEmpty)
      match rule.approvalRequiredAbove with
      | none => (outcome, approvers)
      | some threshold =>
          if outcome = .allow ∧ amountGtPassed action threshold then
            (.confirm, if approvers.isEmpty then ["signer"] else approvers)
          else (outcome, approvers) := by
  unfold decideRule parseRoles
  cases rule.require <;> rfl

/-- A rule allows when it executes by itself, asks nobody, and the amount is not above what it
wants approved. -/
theorem decideRule_allow_iff {rule : PolicyRule} {action : Action} :
    (decideRule rule action).1 = .allow ↔
      rule.execute = .auto ∧ parseRoles rule.require = [] ∧
        ∀ above, rule.approvalRequiredAbove = some above → amountGtPassed action above = false := by
  rw [decideRule_eq]
  dsimp only
  generalize parseRoles rule.require = approvers
  have houtcome : mapExecute rule.execute (!approvers.isEmpty) = .allow ↔
      rule.execute = .auto ∧ approvers = [] := by
    cases rule.execute <;> cases approvers <;> simp [mapExecute]
  cases rule.approvalRequiredAbove with
  | none => simp [houtcome]
  | some above =>
      dsimp only
      by_cases hforced : mapExecute rule.execute (!approvers.isEmpty) = .allow ∧
          amountGtPassed action above = true
      · rw [if_pos hforced]
        simp [hforced.2]
      · rw [if_neg hforced, houtcome]
        simp only [Option.some.injEq, forall_eq']
        rw [houtcome] at hforced
        constructor
        · rintro ⟨hauto, hnobody⟩
          refine ⟨hauto, hnobody, ?_⟩
          by_contra habove
          exact hforced ⟨⟨hauto, hnobody⟩, by simpa using habove⟩
        · rintro ⟨hauto, hnobody, -⟩
          exact ⟨hauto, hnobody⟩

/-- A rule that executes a high amount by itself though the linter is content: it wants approval
only above a bound the amount does not exceed or of another currency, or its `require` names no
role. -/
structure LeavesGap (rule : PolicyRule) (amount : Amount) : Prop where
  auto : rule.execute = .auto
  notAbove : ∀ above, rule.approvalRequiredAbove = some above →
    above.currency ≠ amount.currency ∨ compareDecimal amount.value above.value.text ≤ 0
  nobody : (rule.require = none ∧ rule.approvalRequiredAbove ≠ none) ∨
    ∃ expr, rule.require = some expr ∧ parseRequire expr = []

theorem amountGtPassed_eq_false_iff {action : Action} {amount : Amount} {above : AmountLiteral}
    (hamount : action.amount = some amount) :
    amountGtPassed action above = false ↔
      above.currency ≠ amount.currency ∨ compareDecimal amount.value above.value.text ≤ 0 := by
  simp only [amountGtPassed, hamount, Bool.and_eq_false_iff, decide_eq_false_iff_not, not_lt]
  exact or_congr_left ⟨fun h heq => h heq.symm, fun h heq => h heq.symm⟩

theorem allow_iff_leavesGap {doc : PolicyDocument} {opts : LintOptions} {action : Action}
    {amount : Amount} {rule : PolicyRule} (hclean : LintClean doc opts)
    (hhigh : HighValue opts action amount) (hmem : rule ∈ doc.rules)
    (hmatches : Matches doc rule action) :
    (decideRule rule action).1 = .allow ↔ LeavesGap rule amount := by
  rw [decideRule_allow_iff]
  constructor
  · rintro ⟨hauto, hnobody, hbelow⟩
    refine ⟨hauto, fun above habove => ?_, ?_⟩
    · exact (amountGtPassed_eq_false_iff hhigh.paid).mp (hbelow above habove)
    · cases hrequire : rule.require with
      | some expr =>
          rw [hrequire] at hnobody
          exact .inr ⟨expr, rfl, hnobody⟩
      | none =>
          refine .inl ⟨rfl, fun hnone => ?_⟩
          -- then the linter would have asked for an approval path
          have hpath := hclean.approvalPath hmem
          rw [exceeds_of_matches hhigh hmatches,
            moneyMover_of_appliesTo hhigh.kind hmatches.appliesTo, isAuto, hauto, hrequire,
            hnone] at hpath
          simp at hpath
  · rintro ⟨hauto, hbelow, hnobody⟩
    refine ⟨hauto, ?_, fun above habove => ?_⟩
    · rcases hnobody with ⟨hrequire, -⟩ | ⟨expr, hrequire, hempty⟩
      · rw [hrequire]
        rfl
      · rw [hrequire]
        exact hempty
    · exact (amountGtPassed_eq_false_iff hhigh.paid).mpr (hbelow above habove)

/--
Under a document without lint errors a high amount is never allowed exactly when
the first rule to match it leaves no gap.
-/
theorem neverAllows_iff {doc : PolicyDocument} {opts : LintOptions} (hclean : LintClean doc opts)
    {action : Action} {amount : Amount} (hhigh : HighValue opts action amount) :
    (∀ decision, evaluate doc action = .ok decision → decision.outcome ≠ .allow) ↔
      ∀ rule, FirstMatch doc action doc.rules rule → ¬LeavesGap rule amount := by
  constructor
  · intro h rule hfirst hgap
    obtain ⟨trace, heval⟩ := evaluateRules_of_firstMatch hfirst []
    have hmatches : Matches doc rule action := by
      obtain ⟨_, _, -, hmatches, -⟩ := hfirst
      exact hmatches
    exact h _ heval ((allow_iff_leavesGap hclean hhigh hfirst.mem hmatches).mpr hgap)
  · intro h decision heval hallow
    rcases evaluate_decides heval with ⟨hreject, -⟩ | ⟨rule, hfirst, -, houtcome, -⟩
    · rw [hallow] at hreject
      cases hreject
    · have hmatches : Matches doc rule action := by
        obtain ⟨_, _, -, hmatches, -⟩ := hfirst
        exact hmatches
      rw [hallow] at houtcome
      exact h rule hfirst
        ((allow_iff_leavesGap hclean hhigh hfirst.mem hmatches).mp houtcome.symm)

/-! ## An approval path in another currency -/

theorem fiftyThousand_wellFormed : amountValueRe "50000" = true := by
  rfl

def fiftyThousand : AmountLiteral := ⟨"USD", ⟨"50000", fiftyThousand_wellFormed⟩⟩

/-- Up to fifty thousand dollars by itself, with approval above an amount of some currency. -/
def automaticPayments (currency : String) : PolicyDocument :=
  { version := 1
    rules := [{ id := "auto", appliesTo := [.outboundPayment], execute := .auto,
                when := { counterpartyIn := some "vendors", amountLte := some fiftyThousand,
                          agentRiskLevelLte := some .low },
                approvalRequiredAbove := some ⟨currency, ⟨"10000", tenThousand_wellFormed⟩⟩ }]
    lists := [("vendors", ["cp_1"])] }

def fortyThousand : Amount := ⟨"USD", "40000"⟩

def largePayment : Action :=
  { kind := .outboundPayment
    counterpartyId := some "cp_1"
    amount := some fortyThousand
    agentRole := none
    timestamp := 0
    riskLevel := some .low }

theorem automaticPayments_clean (currency : String)
    (hcurrency : currency ∈ ["USD", "EUR"]) : LintClean (automaticPayments currency) {} := by
  simp only [List.mem_cons, List.not_mem_nil, or_false] at hcurrency
  rcases hcurrency with rfl | rfl
  · show ∀ finding ∈ lintPolicy _ _, _
    decide +kernel
  · show ∀ finding ∈ lintPolicy _ _, _
    decide +kernel

theorem largePayment_high : HighValue {} largePayment fortyThousand :=
  ⟨.inl rfl, rfl, rfl, by decide⟩

/-- With the approval path in dollars the payment is not allowed. -/
theorem dollarPath_neverAllows :
    (∀ decision, evaluate (automaticPayments "USD") largePayment = .ok decision →
        decision.outcome ≠ .allow) ∧ LintClean (automaticPayments "USD") {} := by
  refine ⟨(neverAllows_iff (automaticPayments_clean "USD" (by decide)) largePayment_high).mpr ?_,
    automaticPayments_clean "USD" (by decide)⟩
  intro rule hfirst hgap
  have hrule := List.mem_singleton.mp hfirst.mem
  rcases hgap.notAbove ⟨"USD", ⟨"10000", tenThousand_wellFormed⟩⟩ (by rw [hrule]) with h | h
  · exact h rfl
  · revert h
    decide

/-- With the approval path in euros the linter has no error, and the payment is allowed. -/
theorem euroPath_allows :
    LintClean (automaticPayments "EUR") {} ∧ HighValue {} largePayment fortyThousand ∧
      ∃ decision, evaluate (automaticPayments "EUR") largePayment = .ok decision ∧
        decision.outcome = .allow := by
  exact ⟨automaticPayments_clean "EUR" (by decide), largePayment_high, _, rfl, by decide⟩

end BrainCore.Policy
