import BrainCore.Policy.Cron
import BrainCore.Policy.Dsl
import BrainCore.Shared.DecimalArithmetic

/-!
# The policy VM

`services/policy/src/vm.ts`: the first rule whose conditions all hold decides
an action.  Conditions are checked in a fixed order and stop at the first that
fails, which is what the trace of a decision records.
-/

namespace BrainCore.Policy

open BrainCore.Foundation BrainCore.Shared

inductive TrustStatus where
  | unreviewed
  | trusted
  | paused
  | acknowledged
deriving DecidableEq

/-- An amount as a caller passes it; nothing has checked the text. -/
structure Amount where
  currency : String
  value : String
deriving DecidableEq

structure Action where
  kind : ApplyTo
  counterpartyId : Option String
  amount : Option Amount
  agentRole : Option String
  timestamp : Instant
  agentId : Option String := none
  tenantCategory : Option TenantCategory := none
  /-- `none` is `undefined`, `some none` is `null`. -/
  actionId : Option (Option String) := none
  behaviorHash : Option String := none
  /-- Prior spend by window, this action not yet counted. -/
  spendInWindow : String → Option Amount := fun _ => none
  /-- Prior transaction count by window, this action not yet counted. -/
  txCountInWindow : String → Option Nat := fun _ => none
  confidence : Option Rat := none
  evidenceScore : Option Rat := none
  riskLevel : Option RiskLevel := none
  counterpartyTrustStatus : Option TrustStatus := none

inductive Outcome where
  | allow
  | confirm
  | reject
deriving DecidableEq

structure RuleCheck where
  key : String
  passed : Bool
  detail : String
deriving DecidableEq

structure DecisionTrace where
  ruleId : String
  matched : Bool
  checks : List RuleCheck
deriving DecidableEq

structure Decision where
  outcome : Outcome
  matchedRuleId : Option String
  requiredApprovers : List String
  trace : List DecisionTrace
deriving DecidableEq

def riskRank : RiskLevel → Nat
  | .low => 0
  | .medium => 1
  | .high => 2
  | .critical => 3

def riskText : RiskLevel → String
  | .low => "low"
  | .medium => "medium"
  | .high => "high"
  | .critical => "critical"

def categoryText : TenantCategory → String
  | .business => "business"
  | .consumer => "consumer"

def ratText (q : Rat) : String := toString q

/-! ## One condition -/

/-- `amount.lte`: the action is in the bound's currency and at most the bound. -/
def amountLtePassed (action : Action) (bound : AmountLiteral) : Bool :=
  match action.amount with
  | none => false
  | some amount =>
      amount.currency = bound.currency && compareDecimal amount.value bound.value.text ≤ 0

/-- `amount.gt`: the action is in the bound's currency and above the bound. -/
def amountGtPassed (action : Action) (bound : AmountLiteral) : Bool :=
  match action.amount with
  | none => false
  | some amount =>
      amount.currency = bound.currency && 0 < compareDecimal amount.value bound.value.text

/-- The prior spend of the window in the cap's currency, `"0"` when the map holds another. -/
def priorSpend (action : Action) (c : SpendWindowConstraint) : String :=
  match action.spendInWindow c.window with
  | some prior => if prior.currency = c.lte.currency then prior.value else "0"
  | none => "0"

/-- Prior spend and this amount stay within the cap; another currency fails closed. -/
def spendInWindowPassed (action : Action) (c : SpendWindowConstraint) : Except String Bool :=
  match action.amount with
  | none => .ok false
  | some amount =>
      if amount.currency = c.lte.currency then do
        let projected ← addDecimal (priorSpend action c) amount.value
        pure (compareDecimal projected c.lte.value.text ≤ 0)
      else .ok false

def txCountInWindowPassed (action : Action) (c : TxCountWindowConstraint) : Bool :=
  (action.txCountInWindow c.window).getD 0 + 1 ≤ c.lte

/-- A missing signal cannot satisfy a threshold. -/
def scorePassed (score : Option Rat) (bound : Rat) : Bool :=
  match score with
  | none => false
  | some value => bound ≤ value

/-- The condition a member of `when` states, if it is present. -/
def whenCheck {α : Type} (bound : Option α) (key : String) (detail : α → String)
    (passed : α → Except String Bool) : Option (Except String RuleCheck) :=
  bound.map fun value => (passed value).map fun result => ⟨key, result, detail value⟩

/-- The conditions of a rule, in the order the VM checks them. -/
def whenChecks (policy : PolicyDocument) (w : RuleWhen) (action : Action) :
    List (Option (Except String RuleCheck)) :=
  let joined := fun (ids : List String) => ",".intercalate ids
  [whenCheck w.counterpartyIn "counterparty.in" id fun ref =>
      .ok (action.counterpartyId.any fun id => id ∈ policy.list ref),
    whenCheck w.counterpartyNotIn "counterparty.not_in" id fun ref =>
      .ok (action.counterpartyId.all fun id => id ∉ policy.list ref),
    whenCheck w.amountLte "amount.lte" (fun bound => bound.currency ++ " " ++ bound.value.text)
      fun bound => .ok (amountLtePassed action bound),
    whenCheck w.amountGt "amount.gt" (fun bound => bound.currency ++ " " ++ bound.value.text)
      fun bound => .ok (amountGtPassed action bound),
    whenCheck w.agentRole "agent.role" id fun role => .ok (action.agentRole = some role),
    whenCheck w.timeWindow "time_window" id fun expr => .ok (matchesCron expr action.timestamp),
    whenCheck w.agentId "agent.id" id fun id => .ok (action.agentId = some id),
    whenCheck w.tenantCategory "tenant.category" categoryText fun category =>
      .ok (action.tenantCategory = some category),
    whenCheck w.actionIn "action.in" joined fun ids =>
      .ok (action.actionId ≠ some none && (action.actionId.join.getD "") ∈ ids),
    whenCheck w.actionNotIn "action.not_in" joined fun ids =>
      .ok (action.actionId.join.all fun id => id ∉ ids),
    whenCheck w.agentBehaviorHash "agent.behaviorHash" id fun hash =>
      .ok (action.behaviorHash = some hash),
    whenCheck w.agentSpendInWindow "agent.spend_in_window"
      (fun c => c.window ++ "<=" ++ c.lte.currency ++ " " ++ c.lte.value.text)
      (spendInWindowPassed action),
    whenCheck w.agentTxCountInWindow "agent.tx_count_in_window"
      (fun c => c.window ++ "<=" ++ toString c.lte) fun c => .ok (txCountInWindowPassed action c),
    whenCheck w.agentConfidenceGte "agent.confidence.gte" ratText fun bound =>
      .ok (scorePassed action.confidence bound),
    whenCheck w.agentEvidenceScoreGte "agent.evidence_score.gte" ratText fun bound =>
      .ok (scorePassed action.evidenceScore bound),
    whenCheck w.agentRiskLevelLte "agent.risk_level.lte" riskText fun bound =>
      .ok (action.riskLevel.any fun actual => riskRank actual ≤ riskRank bound)]

structure RuleMatch where
  matched : Bool
  checks : List RuleCheck
deriving DecidableEq

/-- Conditions are checked up to the first that fails or throws. -/
def runChecks : List (Option (Except String RuleCheck)) → Except String RuleMatch
  | [] => .ok ⟨true, []⟩
  | none :: rest => runChecks rest
  | some (.error message) :: _ => .error message
  | some (.ok check) :: rest =>
      if check.passed then (runChecks rest).map fun result => ⟨result.matched, check :: result.checks⟩
      else .ok ⟨false, [check]⟩

def appliesTo (rule : PolicyRule) (action : Action) : Bool :=
  .any ∈ rule.appliesTo || action.kind ∈ rule.appliesTo

def matchRule (policy : PolicyDocument) (rule : PolicyRule) (action : Action) :
    Except String RuleMatch :=
  if appliesTo rule action then runChecks (whenChecks policy rule.when action)
  else .ok ⟨false, []⟩

/-! ## The decision -/

def mapExecute (mode : ExecuteMode) (hasApprovers : Bool) : Outcome :=
  match mode with
  | .reject => .reject
  | .auto => if hasApprovers then .confirm else .allow
  | .confirm => .confirm

/-- `single_signer`, `<role>_approval` or `<role>_and_<role>`; anything else is its own role. -/
def parseRequire (expr : String) : List String :=
  let s := expr.toList
  if expr = "single_signer" then ["signer"]
  else if endsWith s "_approval".toList then [String.ofList (s.take (s.length - "_approval".length))]
  else if includes s "_and_".toList then
    ((splitOn "_and_".toList s).filter (· ≠ [])).map String.ofList
  else [expr]

/-- What a matched rule decides. -/
def decideRule (rule : PolicyRule) (action : Action) : Outcome × List String :=
  let approvers := match rule.require with
    | none => []
    | some expr => parseRequire expr
  let outcome := mapExecute rule.execute (!approvers.isEmpty)
  match rule.approvalRequiredAbove with
  | none => (outcome, approvers)
  | some threshold =>
      -- an amount above the threshold forces a confirmation
      if outcome = .allow ∧ amountGtPassed action threshold then
        (.confirm, if approvers.isEmpty then ["signer"] else approvers)
      else (outcome, approvers)

def evaluateRules (policy : PolicyDocument) (action : Action) :
    List PolicyRule → List DecisionTrace → Except String Decision
  | [], trace => .ok ⟨.reject, none, [], trace⟩
  | rule :: rest, trace =>
      match matchRule policy rule action with
      | .error message => .error message
      | .ok result =>
          let trace := trace ++ [⟨rule.id, result.matched, result.checks⟩]
          if result.matched then
            .ok ⟨(decideRule rule action).1, some rule.id, (decideRule rule action).2, trace⟩
          else evaluateRules policy action rest trace

/-- The decision of the first rule that matches; no match rejects. -/
def evaluate (policy : PolicyDocument) (action : Action) : Except String Decision :=
  evaluateRules policy action policy.rules []

/-! ## What a decision says -/

/-- The rule matches the action, without a throw. -/
def Matches (policy : PolicyDocument) (rule : PolicyRule) (action : Action) : Prop :=
  ∃ checks, matchRule policy rule action = .ok ⟨true, checks⟩

/-- The VM looks at the rule and passes on. -/
def Passes (policy : PolicyDocument) (rule : PolicyRule) (action : Action) : Prop :=
  ∃ checks, matchRule policy rule action = .ok ⟨false, checks⟩

/-- The rule is the first of the list to match. -/
def FirstMatch (policy : PolicyDocument) (action : Action) (rules : List PolicyRule)
    (rule : PolicyRule) : Prop :=
  ∃ before after, rules = before ++ rule :: after ∧ Matches policy rule action ∧
    ∀ earlier ∈ before, Passes policy earlier action

/-- What a decision says of the rules it was reached over. -/
def Decides (policy : PolicyDocument) (action : Action) (rules : List PolicyRule)
    (decision : Decision) : Prop :=
  (decision.outcome = .reject ∧ decision.matchedRuleId = none ∧ decision.requiredApprovers = [] ∧
      ∀ rule ∈ rules, Passes policy rule action) ∨
    ∃ rule, FirstMatch policy action rules rule ∧ decision.matchedRuleId = some rule.id ∧
      decision.outcome = (decideRule rule action).1 ∧
      decision.requiredApprovers = (decideRule rule action).2

theorem evaluateRules_decides {policy : PolicyDocument} {action : Action} {rules : List PolicyRule}
    {trace : List DecisionTrace} {decision : Decision}
    (h : evaluateRules policy action rules trace = .ok decision) :
    Decides policy action rules decision := by
  induction rules generalizing trace with
  | nil =>
      obtain rfl := Except.ok.inj h
      exact .inl ⟨rfl, rfl, rfl, by simp⟩
  | cons rule rest ih =>
      rw [evaluateRules] at h
      cases hmatch : matchRule policy rule action with
      | error message =>
          rw [hmatch] at h
          cases h
      | ok result =>
          rw [hmatch] at h
          obtain ⟨matched, checks⟩ := result
          cases matched with
          | true =>
              obtain rfl := Except.ok.inj h
              exact .inr ⟨rule, ⟨[], rest, rfl, ⟨checks, hmatch⟩, by simp⟩, rfl, rfl, rfl⟩
          | false =>
              have passed : Passes policy rule action := ⟨checks, hmatch⟩
              rcases ih h with ⟨houtcome, hid, happrovers, hall⟩ | ⟨found, hfirst, hrest⟩
              · refine .inl ⟨houtcome, hid, happrovers, fun other hother => ?_⟩
                rcases List.mem_cons.mp hother with rfl | hother
                · exact passed
                · exact hall other hother
              · obtain ⟨before, after, rfl, hmatches, hearlier⟩ := hfirst
                refine .inr ⟨found, ⟨rule :: before, after, rfl, hmatches, fun other hother => ?_⟩,
                  hrest⟩
                rcases List.mem_cons.mp hother with rfl | hother
                · exact passed
                · exact hearlier other hother

theorem evaluate_decides {policy : PolicyDocument} {action : Action} {decision : Decision}
    (h : evaluate policy action = .ok decision) :
    Decides policy action policy.rules decision := evaluateRules_decides h

/-- The first match is the decision, whatever rules follow it. -/
theorem evaluateRules_of_firstMatch {policy : PolicyDocument} {action : Action}
    {rules : List PolicyRule} {rule : PolicyRule} (first : FirstMatch policy action rules rule)
    (trace : List DecisionTrace) :
    ∃ trace', evaluateRules policy action rules trace =
      .ok ⟨(decideRule rule action).1, some rule.id, (decideRule rule action).2, trace'⟩ := by
  obtain ⟨before, after, rfl, ⟨checks, hmatch⟩, hearlier⟩ := first
  induction before generalizing trace with
  | nil =>
      rw [List.nil_append, evaluateRules, hmatch]
      exact ⟨_, rfl⟩
  | cons earlier before ih =>
      obtain ⟨earlierChecks, hpass⟩ := hearlier earlier List.mem_cons_self
      rw [List.cons_append, evaluateRules, hpass]
      exact ih _ fun other hother => hearlier other (List.mem_cons_of_mem _ hother)

theorem FirstMatch.mem {policy : PolicyDocument} {action : Action} {rules : List PolicyRule}
    {rule : PolicyRule} (first : FirstMatch policy action rules rule) : rule ∈ rules := by
  obtain ⟨before, after, rfl, _⟩ := first
  exact List.mem_append_right _ List.mem_cons_self

/-- A rule that matched passed each of its conditions. -/
theorem runChecks_passed {entries : List (Option (Except String RuleCheck))}
    {checks : List RuleCheck} (h : runChecks entries = .ok ⟨true, checks⟩)
    {entry : Except String RuleCheck} (hmem : some entry ∈ entries) :
    ∃ check, entry = .ok check ∧ check.passed = true := by
  induction entries generalizing checks with
  | nil => cases hmem
  | cons first rest ih =>
      match first with
      | none =>
          rw [runChecks] at h
          exact ih h (by simpa using hmem)
      | some (.error message) =>
          rw [runChecks] at h
          cases h
      | some (.ok check) =>
          rw [runChecks] at h
          split at h
          · rename_i hpassed
            cases hrest : runChecks rest with
            | error message =>
                rw [hrest] at h
                cases h
            | ok result =>
                rw [hrest] at h
                obtain ⟨matched, restChecks⟩ := result
                have hmatched : matched = true := congrArg RuleMatch.matched (Except.ok.inj h)
                subst hmatched
                rcases List.mem_cons.mp hmem with heq | hmem
                · exact ⟨check, Option.some.inj heq, hpassed⟩
                · exact ih hrest hmem
          · cases h

theorem Matches.appliesTo {policy : PolicyDocument} {rule : PolicyRule} {action : Action}
    (h : Matches policy rule action) : appliesTo rule action = true := by
  obtain ⟨checks, h⟩ := h
  unfold matchRule at h
  split at h
  · assumption
  · cases h

theorem Matches.runChecks {policy : PolicyDocument} {rule : PolicyRule} {action : Action}
    (h : Matches policy rule action) :
    ∃ checks, runChecks (whenChecks policy rule.when action) = .ok ⟨true, checks⟩ := by
  obtain ⟨checks, h⟩ := h
  unfold matchRule at h
  split at h
  · exact ⟨checks, h⟩
  · cases h

/-- A matched rule with a spend envelope keeps this action within it. -/
theorem Matches.spendInWindow {policy : PolicyDocument} {rule : PolicyRule} {action : Action}
    {c : SpendWindowConstraint} (h : Matches policy rule action)
    (hwhen : rule.when.agentSpendInWindow = some c) : spendInWindowPassed action c = .ok true := by
  obtain ⟨checks, hrun⟩ := h.runChecks
  have hmem : some ((spendInWindowPassed action c).map fun result =>
      (⟨"agent.spend_in_window", result,
        c.window ++ "<=" ++ c.lte.currency ++ " " ++ c.lte.value.text⟩ : RuleCheck)) ∈
      whenChecks policy rule.when action := by
    simp [whenChecks, whenCheck, hwhen]
  obtain ⟨check, hcheck, hpassed⟩ := runChecks_passed hrun hmem
  cases hspend : spendInWindowPassed action c with
  | error message =>
      rw [hspend] at hcheck
      cases hcheck
  | ok result =>
      rw [hspend] at hcheck
      cases hcheck
      exact congrArg Except.ok hpassed

/-- A matched rule with an amount bound keeps this action within it. -/
theorem Matches.amountLte {policy : PolicyDocument} {rule : PolicyRule} {action : Action}
    {bound : AmountLiteral} (h : Matches policy rule action)
    (hwhen : rule.when.amountLte = some bound) : amountLtePassed action bound = true := by
  obtain ⟨checks, hrun⟩ := h.runChecks
  have hmem : some (.ok (⟨"amount.lte", amountLtePassed action bound,
        bound.currency ++ " " ++ bound.value.text⟩ : RuleCheck)) ∈
      whenChecks policy rule.when action := by
    simp [whenChecks, whenCheck, hwhen, Except.map]
  obtain ⟨check, hcheck, hpassed⟩ := runChecks_passed hrun hmem
  cases hcheck
  exact hpassed

/-- A decision asks for a confirmation of nobody only by a confirm rule that names nobody. -/
theorem confirm_of_decideRule {rule : PolicyRule} {action : Action}
    (hnamed : ∀ expr, rule.require = some expr → parseRequire expr ≠ [])
    (h : decideRule rule action = (.confirm, [])) : rule.execute = .confirm ∧ rule.require = none := by
  have hrequire : rule.require = none := by
    cases hcase : rule.require with
    | none => rfl
    | some expr =>
        have hne := hnamed expr hcase
        simp only [decideRule, hcase] at h
        split at h
        · exact absurd (congrArg Prod.snd h) hne
        · split at h
          · simp [hne] at h
          · exact absurd (congrArg Prod.snd h) hne
  refine ⟨?_, hrequire⟩
  cases hexecute : rule.execute with
  | confirm => rfl
  | reject =>
      simp only [decideRule, hrequire, hexecute, mapExecute] at h
      split at h <;> simp at h
  | auto =>
      cases habove : rule.approvalRequiredAbove with
      | none => simp [decideRule, hrequire, hexecute, mapExecute, habove] at h
      | some threshold =>
          by_cases hgt : amountGtPassed action threshold = true <;>
            simp [decideRule, hrequire, hexecute, mapExecute, habove, hgt] at h

theorem decideRule_of_confirm {rule : PolicyRule} {action : Action} (hexecute : rule.execute = .confirm)
    (hrequire : rule.require = none) : decideRule rule action = (.confirm, []) := by
  simp only [decideRule, hrequire, hexecute, mapExecute]
  split <;> simp

end BrainCore.Policy
