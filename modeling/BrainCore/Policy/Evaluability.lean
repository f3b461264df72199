import BrainCore.Policy.Service
import BrainCore.Policy.Validate

/-!
# Where an accepted document can be evaluated

The validator constrains what the VM touches, with two exceptions: the evidence
kinds of a rule, which the service spreads into a list, and the texts a spend
envelope adds up, which come with the action.  Only these can throw, and a
decision names the rule that matched.
-/

namespace BrainCore.Policy

open BrainCore.Foundation BrainCore.Gate BrainCore.Shared

/-! ## Conditions that do not throw -/

/-- No condition of the list throws. -/
def NeverThrows (entries : List (Option (Except String RuleCheck))) : Prop :=
  ∀ message, some (.error message) ∉ entries

theorem runChecks_total {entries : List (Option (Except String RuleCheck))}
    (h : NeverThrows entries) : ∃ result, runChecks entries = .ok result := by
  induction entries with
  | nil => exact ⟨_, rfl⟩
  | cons first rest ih =>
      obtain ⟨result, hresult⟩ := ih fun message hmem => h message (List.mem_cons_of_mem _ hmem)
      match first with
      | none => exact ⟨result, hresult⟩
      | some (.error message) => exact absurd List.mem_cons_self (h message)
      | some (.ok check) =>
          rw [runChecks, hresult]
          split
          · exact ⟨_, rfl⟩
          · exact ⟨_, rfl⟩

/-- The one condition that can throw is reached when those before it hold. -/
theorem runChecks_ok_iff {before after : List (Option (Except String RuleCheck))}
    {entry : Option (Except String RuleCheck)} (hbefore : NeverThrows before)
    (hafter : NeverThrows after) :
    (∃ result, runChecks (before ++ entry :: after) = .ok result) ↔
      ((∃ checks, runChecks before = .ok ⟨true, checks⟩) →
        ∀ message, entry ≠ some (.error message)) := by
  induction before with
  | nil =>
      obtain ⟨rest, hrest⟩ := runChecks_total hafter
      rw [List.nil_append]
      rcases entry with _ | (message | check)
      · simpa [runChecks] using ⟨rest, hrest⟩
      · simp [runChecks]
      · refine ⟨fun _ _ message heq => ?_, fun _ => ?_⟩
        · cases heq
        · rw [runChecks, hrest]
          split
          · exact ⟨_, rfl⟩
          · exact ⟨_, rfl⟩
  | cons first rest ih =>
      have ih := ih fun message hmem => hbefore message (List.mem_cons_of_mem _ hmem)
      rw [List.cons_append]
      rcases first with _ | (message | check)
      · rw [runChecks, runChecks]
        exact ih
      · exact absurd List.mem_cons_self (hbefore message)
      · rw [runChecks, runChecks]
        cases hpassed : check.passed with
        | false =>
            simp only [Bool.false_eq_true, if_false]
            refine ⟨fun _ hchecks => ?_, fun _ => ⟨_, rfl⟩⟩
            obtain ⟨checks, hchecks⟩ := hchecks
            cases hchecks
        | true =>
            simp only [if_true, map_ok]
            constructor
            · rintro ⟨result, tail, htail, -⟩ ⟨checks, inner, hinner, hmatched⟩
              apply ih.mp ⟨tail, htail⟩
              obtain ⟨matched, innerChecks⟩ := inner
              obtain rfl : matched = true := congrArg RuleMatch.matched hmatched
              exact ⟨innerChecks, hinner⟩
            · intro h
              have hrest : (∃ checks, runChecks rest = .ok ⟨true, checks⟩) →
                  ∀ message, entry ≠ some (.error message) := by
                rintro ⟨checks, hchecks⟩
                exact h ⟨check :: checks, ⟨true, checks⟩, hchecks, rfl⟩
              obtain ⟨tail, htail⟩ := ih.mpr hrest
              exact ⟨_, tail, htail, rfl⟩

theorem whenCheck_ne_error {α : Type} {bound : Option α} {key message : String}
    {detail : α → String} {passed : α → Bool} :
    whenCheck bound key detail (fun value => .ok (passed value)) ≠ some (.error message) := by
  cases bound with
  | none => exact nofun
  | some value => exact nofun

/-- The conditions the VM checks before the spend envelope. -/
def whenChecksBefore (policy : PolicyDocument) (w : RuleWhen) (action : Action) :
    List (Option (Except String RuleCheck)) := (whenChecks policy w action).take 11

/-- The spend envelope. -/
def spendCheck (w : RuleWhen) (action : Action) : Option (Except String RuleCheck) :=
  whenCheck w.agentSpendInWindow "agent.spend_in_window"
    (fun c => c.window ++ "<=" ++ c.lte.currency ++ " " ++ c.lte.value.text)
    (spendInWindowPassed action)

theorem whenChecks_eq (policy : PolicyDocument) (w : RuleWhen) (action : Action) :
    whenChecks policy w action = whenChecksBefore policy w action ++
      spendCheck w action :: (whenChecks policy w action).drop 12 := rfl

theorem whenChecksBefore_neverThrows (policy : PolicyDocument) (w : RuleWhen) (action : Action) :
    NeverThrows (whenChecksBefore policy w action) := by
  intro message hmem
  simp only [whenChecksBefore, whenChecks, List.take_succ_cons, List.take_zero, List.mem_cons,
    List.not_mem_nil, or_false] at hmem
  rcases hmem with h | h | h | h | h | h | h | h | h | h | h <;>
    exact whenCheck_ne_error h.symm

theorem whenChecksAfter_neverThrows (policy : PolicyDocument) (w : RuleWhen) (action : Action) :
    NeverThrows ((whenChecks policy w action).drop 12) := by
  intro message hmem
  simp only [whenChecks, List.drop_succ_cons, List.drop_zero, List.mem_cons, List.not_mem_nil,
    or_false] at hmem
  rcases hmem with h | h | h | h <;> exact whenCheck_ne_error h.symm

/-! ## The texts of a spend envelope -/

/-- `BigInt` reads the digits of the text. -/
def isNumber (s : String) : Bool :=
  (bigInt? ((normalizeDecimal s).int ++ (normalizeDecimal s).frac)).isSome

theorem bigInt_ok_iff {s : List Char} :
    (∃ n, bigInt s = .ok n) ↔ (bigInt? s).isSome = true := by
  unfold bigInt
  cases bigInt? s with
  | none => simp
  | some n => simp

theorem addDecimal_ok_iff {a b : String} :
    (∃ sum, addDecimal a b = .ok sum) ↔ isNumber a = true ∧ isNumber b = true := by
  unfold addDecimal isNumber
  simp only [bind_ok, pure_ok, ← bigInt_ok_iff]
  constructor
  · rintro ⟨_, sa, hsa, sb, hsb, -⟩
    exact ⟨⟨sa, hsa⟩, ⟨sb, hsb⟩⟩
  · rintro ⟨⟨sa, hsa⟩, ⟨sb, hsb⟩⟩
    exact ⟨_, sa, hsa, sb, hsb, rfl⟩

/-- What the envelope adds up are numbers, when it adds anything up. -/
def ProjectsNumbers (action : Action) (c : SpendWindowConstraint) : Prop :=
  ∀ amount, action.amount = some amount → amount.currency = c.lte.currency →
    isNumber (priorSpend action c) = true ∧ isNumber amount.value = true

theorem spendInWindowPassed_ok_iff {action : Action} {c : SpendWindowConstraint} :
    (∃ passed, spendInWindowPassed action c = .ok passed) ↔ ProjectsNumbers action c := by
  unfold spendInWindowPassed ProjectsNumbers
  cases action.amount with
  | none => simp
  | some amount =>
      dsimp only
      by_cases hcurrency : amount.currency = c.lte.currency
      · rw [if_pos hcurrency]
        constructor
        · rintro ⟨passed, h⟩ other hother -
          obtain ⟨sum, hsum, -⟩ := bind_ok.mp h
          rw [← Option.some.inj hother]
          exact addDecimal_ok_iff.mp ⟨sum, hsum⟩
        · intro h
          obtain ⟨sum, hsum⟩ := addDecimal_ok_iff.mpr (h amount rfl hcurrency)
          exact ⟨_, bind_ok.mpr ⟨sum, hsum, rfl⟩⟩
      · rw [if_neg hcurrency]
        refine ⟨fun _ other hother hsame => ?_, fun _ => ⟨false, rfl⟩⟩
        rw [← Option.some.inj hother] at hsame
        exact absurd hsame hcurrency

theorem spendCheck_ne_error_iff {w : RuleWhen} {action : Action} :
    (∀ message, spendCheck w action ≠ some (.error message)) ↔
      ∀ c, w.agentSpendInWindow = some c → ProjectsNumbers action c := by
  unfold spendCheck whenCheck
  cases w.agentSpendInWindow with
  | none => simp
  | some c =>
      simp only [Option.map_some, ne_eq, Option.some.injEq, forall_eq',
        ← spendInWindowPassed_ok_iff]
      cases spendInWindowPassed action c with
      | error message => simp [Except.map]
      | ok passed => simp [Except.map]

/-! ## The rules the VM comes to -/

/-- The conditions of the rule hold up to the spend envelope. -/
def Weighs (policy : PolicyDocument) (action : Action) (rule : PolicyRule) : Prop :=
  appliesTo rule action = true ∧
    ∃ checks, runChecks (whenChecksBefore policy rule.when action) = .ok ⟨true, checks⟩

/-- A spend envelope the VM weighs adds up numbers. -/
def Readable (policy : PolicyDocument) (action : Action) (rule : PolicyRule) : Prop :=
  Weighs policy action rule →
    ∀ c, rule.when.agentSpendInWindow = some c → ProjectsNumbers action c

theorem matchRule_ok_iff {policy : PolicyDocument} {action : Action} {rule : PolicyRule} :
    (∃ result, matchRule policy rule action = .ok result) ↔ Readable policy action rule := by
  unfold matchRule Readable Weighs
  by_cases happlies : appliesTo rule action = true
  · rw [if_pos happlies, whenChecks_eq, runChecks_ok_iff (whenChecksBefore_neverThrows _ _ _)
      (whenChecksAfter_neverThrows _ _ _), spendCheck_ne_error_iff]
    exact ⟨fun h hweighs => h hweighs.2, fun h hheld => h ⟨happlies, hheld⟩⟩
  · rw [if_neg happlies]
    exact ⟨fun _ hweighs => absurd hweighs.1 happlies, fun _ => ⟨_, rfl⟩⟩

/-- The VM passes on from every rule before this one. -/
def Reached (policy : PolicyDocument) (action : Action) (rules : List PolicyRule)
    (rule : PolicyRule) : Prop :=
  ∃ before after, rules = before ++ rule :: after ∧
    ∀ earlier ∈ before, Passes policy earlier action

theorem reached_cons_iff {policy : PolicyDocument} {action : Action} {first rule : PolicyRule}
    {rest : List PolicyRule} :
    Reached policy action (first :: rest) rule ↔
      rule = first ∨ Passes policy first action ∧ Reached policy action rest rule := by
  constructor
  · rintro ⟨before, after, hsplit, hpasses⟩
    cases before with
    | nil => exact .inl (List.cons.inj hsplit).1.symm
    | cons earlier before =>
        obtain ⟨rfl, rfl⟩ := List.cons.inj hsplit
        exact .inr ⟨hpasses _ List.mem_cons_self, before, after, rfl,
          fun other hother => hpasses other (List.mem_cons_of_mem _ hother)⟩
  · rintro (rfl | ⟨hpass, before, after, rfl, hpasses⟩)
    · exact ⟨[], rest, rfl, by simp⟩
    · refine ⟨first :: before, after, rfl, fun other hother => ?_⟩
      rcases List.mem_cons.mp hother with rfl | hother
      · exact hpass
      · exact hpasses other hother

theorem evaluateRules_ok_iff {policy : PolicyDocument} {action : Action} {rules : List PolicyRule}
    {trace : List DecisionTrace} :
    (∃ decision, evaluateRules policy action rules trace = .ok decision) ↔
      ∀ rule, Reached policy action rules rule → Readable policy action rule := by
  induction rules generalizing trace with
  | nil =>
      refine ⟨fun _ rule hreached => ?_, fun _ => ⟨_, rfl⟩⟩
      obtain ⟨before, after, hsplit, -⟩ := hreached
      simp at hsplit
  | cons first rest ih =>
      rw [evaluateRules]
      cases hmatch : matchRule policy first action with
      | error message =>
          refine ⟨fun h => by simp at h, fun h => ?_⟩
          obtain ⟨result, hresult⟩ := matchRule_ok_iff.mpr (h first (reached_cons_iff.mpr (.inl rfl)))
          rw [hmatch] at hresult
          cases hresult
      | ok result =>
          have hfirst : Readable policy action first := matchRule_ok_iff.mp ⟨result, hmatch⟩
          obtain ⟨matched, checks⟩ := result
          cases matched with
          | true =>
              refine ⟨fun _ rule hreached => ?_, fun _ => ⟨_, rfl⟩⟩
              -- nothing behind a match is reached
              rcases reached_cons_iff.mp hreached with rfl | ⟨⟨checks', hpasses⟩, -⟩
              · exact hfirst
              · rw [hmatch] at hpasses
                cases hpasses
          | false =>
              simp only [Bool.false_eq_true, if_false]
              rw [ih]
              constructor
              · intro h rule hreached
                rcases reached_cons_iff.mp hreached with rfl | ⟨-, hreached⟩
                · exact hfirst
                · exact h rule hreached
              · exact fun h rule hreached =>
                  h rule (reached_cons_iff.mpr (.inr ⟨⟨checks, hmatch⟩, hreached⟩))

/-- Every spend envelope the VM weighs on its way adds up numbers. -/
def SpendReadable (policy : PolicyDocument) (action : Action) : Prop :=
  ∀ rule, Reached policy action policy.rules rule → Readable policy action rule

/-! ## The rule a decision names -/

/-- The id is that of the first rule that matches and of no other, and the lookup finds the rule;
there is none when no rule matches. -/
def NamesMatch (policy : PolicyDocument) (action : Action) (matchedRuleId : Option String) : Prop :=
  (matchedRuleId = none ∧ ∀ rule ∈ policy.rules, Passes policy rule action) ∨
    ∃ rule, FirstMatch policy action policy.rules rule ∧ matchedRuleId = some rule.id ∧
      findRule policy rule.id = some rule ∧ ∀ other ∈ policy.rules, other.id = rule.id → other = rule

theorem namesMatch_of_evaluate {policy : PolicyDocument} {action : Action} {decision : Decision}
    (hnodup : (policy.rules.map (·.id)).Nodup) (h : evaluate policy action = .ok decision) :
    NamesMatch policy action decision.matchedRuleId := by
  rcases evaluate_decides h with ⟨-, hnone, -, hpasses⟩ | ⟨rule, hfirst, hid, -⟩
  · exact .inl ⟨hnone, hpasses⟩
  · refine .inr ⟨rule, hfirst, hid, findRule_of_mem hnodup hfirst.mem, fun other hother hsame => ?_⟩
    have hfound := findRule_of_mem hnodup hother
    rw [hsame, findRule_of_mem hnodup hfirst.mem] at hfound
    exact (Option.some.inj hfound).symm

/-! ## The decision for the gate -/

/-- The evidence kinds are absent, null, a list or a text. -/
def KindsSpread : Option Json → Prop
  | none | some .null | some (.arr _) | some (.str _) => True
  | _ => False

theorem spread_ok_iff {kinds : Option Json} :
    (∃ items, spread kinds = .ok items) ↔ KindsSpread kinds := by
  cases kinds with
  | none => simp [spread, KindsSpread]
  | some json => cases json <;> simp [spread, KindsSpread]

/-- The document is active, and the stores and the reputation source answer. -/
structure AnswersFor (service : PolicyService) (active : ActivePolicy) : Prop where
  active : service.active = some active
  reputation : ∀ resolve, service.resolveReputation = some resolve →
    ∀ counterpartyId, ∃ score, resolve counterpartyId = .ok score
  record : ∀ final, service.record final = .ok ()

theorem adjustForReputation_total {service : PolicyService} {active : ActivePolicy}
    (h : AnswersFor service active) (rule : Option PolicyRule) (intent : GatePaymentIntent)
    (base : GatePolicyDecision) :
    ∃ final, adjustForReputation service rule intent base = .ok final := by
  unfold adjustForReputation
  split
  · rename_i resolve envelope hresolve henvelope
    obtain ⟨score, hscore⟩ := h.reputation resolve hresolve intent.destinationCounterpartyId
    exact ⟨_, bind_ok.mpr ⟨score, hscore, rfl⟩⟩
  · exact ⟨_, rfl⟩

theorem evaluateForGate_ok_iff {service : PolicyService} {active : ActivePolicy}
    (h : AnswersFor service active) (intent : GatePaymentIntent) :
    (∃ final, evaluateForGate service intent = .ok final) ↔
      ∃ decision, evaluate active.content
          (gateAction active.content service.counters service.now intent) = .ok decision ∧
        KindsSpread ((matchedRule active.content decision).bind (·.requiredEvidenceKinds)) := by
  constructor
  · rintro ⟨final, hfinal⟩
    obtain ⟨active', decision, kinds, hactive, hdecision, hkinds, -⟩ := evaluateForGate_ok hfinal
    obtain rfl := Option.some.inj (h.active.symm.trans hactive)
    exact ⟨decision, hdecision, spread_ok_iff.mp ⟨kinds, hkinds⟩⟩
  · rintro ⟨decision, hdecision, hspread⟩
    obtain ⟨kinds, hkinds⟩ := spread_ok_iff.mpr hspread
    obtain ⟨final, hfinal⟩ := adjustForReputation_total h (matchedRule active.content decision)
      intent (baseDecision service active intent decision kinds)
    unfold evaluateForGate
    rw [h.active]
    refine ⟨final, bind_ok.mpr ⟨decision, hdecision, bind_ok.mpr ⟨kinds, hkinds, ?_⟩⟩⟩
    exact bind_ok.mpr ⟨final, hfinal, bind_ok.mpr ⟨(), h.record final, rfl⟩⟩

/-- Of a rule that is the first to match, the evidence kinds can be spread. -/
def KindsReadable (policy : PolicyDocument) (action : Action) : Prop :=
  ∀ rule, FirstMatch policy action policy.rules rule → KindsSpread rule.requiredEvidenceKinds

theorem kindsReadable_iff {policy : PolicyDocument} {action : Action} {decision : Decision}
    (hnodup : (policy.rules.map (·.id)).Nodup) (h : evaluate policy action = .ok decision) :
    KindsSpread ((matchedRule policy decision).bind (·.requiredEvidenceKinds)) ↔
      KindsReadable policy action := by
  rcases namesMatch_of_evaluate hnodup h with ⟨hnone, hpasses⟩ | ⟨rule, hfirst, hid, hfound, -⟩
  · refine ⟨fun _ rule hfirst => ?_, fun _ => by simp [matchedRule, hnone, KindsSpread]⟩
    -- a rule that passes does not match
    obtain ⟨checks', hpass⟩ := hpasses rule hfirst.mem
    obtain ⟨_, _, -, ⟨checks, hmatch⟩, -⟩ := hfirst
    rw [hmatch] at hpass
    cases hpass
  · rw [matchedRule, hid, Option.bind_some, hfound, Option.bind_some]
    refine ⟨fun hspread other hother => ?_, fun hreadable => hreadable rule hfirst⟩
    obtain ⟨trace, heval⟩ := evaluateRules_of_firstMatch hfirst []
    obtain ⟨trace', heval'⟩ := evaluateRules_of_firstMatch hother []
    rw [heval] at heval'
    have hsame : rule.id = other.id := by
      injection heval' with hdecision
      injection hdecision with _ hids
      exact Option.some.inj hids
    have hotherFound := findRule_of_mem hnodup hother.mem
    rw [← hsame, hfound] at hotherFound
    rwa [← Option.some.inj hotherFound]

/--
An accepted document is evaluated, and its decision names the rule that matched,
exactly for the actions whose spend envelopes add up numbers; the decision for
the gate needs in addition that the evidence kinds of the first rule to match
are a list.
-/
theorem evaluable_iff {raw : Json} {doc : PolicyDocument}
    (haccepted : validatePolicyDocument raw = .ok doc) :
    (∀ action, (∃ decision, evaluate doc action = .ok decision ∧
        NamesMatch doc action decision.matchedRuleId) ↔ SpendReadable doc action) ∧
      ∀ service active intent, AnswersFor service active → active.content = doc →
        ((∃ final, evaluateForGate service intent = .ok final ∧
            NamesMatch doc (gateAction doc service.counters service.now intent)
              final.matchedRuleId) ↔
          SpendReadable doc (gateAction doc service.counters service.now intent) ∧
            KindsReadable doc (gateAction doc service.counters service.now intent)) := by
  obtain ⟨hnodup, -⟩ := validatePolicyDocument_ok haccepted
  constructor
  · intro action
    rw [SpendReadable, ← evaluateRules_ok_iff]
    constructor
    · exact fun ⟨decision, hdecision, _⟩ => ⟨decision, hdecision⟩
    · exact fun ⟨decision, hdecision⟩ =>
        ⟨decision, hdecision, namesMatch_of_evaluate hnodup hdecision⟩
  · rintro service active intent hanswers rfl
    constructor
    · rintro ⟨final, hfinal, -⟩
      obtain ⟨decision, hdecision, hspread⟩ :=
        (evaluateForGate_ok_iff hanswers intent).mp ⟨final, hfinal⟩
      exact ⟨evaluateRules_ok_iff.mp ⟨decision, hdecision⟩,
        (kindsReadable_iff hnodup hdecision).mp hspread⟩
    · rintro ⟨hspend, hkinds⟩
      obtain ⟨decision, hdecision⟩ := evaluateRules_ok_iff.mpr hspend
      have hdecision : evaluate active.content _ = .ok decision := hdecision
      obtain ⟨final, hfinal⟩ := (evaluateForGate_ok_iff hanswers intent).mpr
        ⟨decision, hdecision, (kindsReadable_iff hnodup hdecision).mpr hkinds⟩
      refine ⟨final, hfinal, ?_⟩
      obtain ⟨active', decision', _, hactive, hdecision', -, hid, -⟩ := evaluateForGate_ok hfinal
      obtain rfl := Option.some.inj (hanswers.active.symm.trans hactive)
      rw [hid]
      exact namesMatch_of_evaluate hnodup hdecision'

/-! ## Evidence kinds that are a number, and an amount that is none -/

/-- A rule with the number five for its evidence kinds. -/
def fiveKinds : Json :=
  .obj [("version", .num 1), ("rules", .arr [.obj [("id", .str "pay"),
    ("applies_to", .arr [.str "any"]), ("when", .obj []), ("execute", .str "auto"),
    ("required_evidence_kinds", .num 5)]])]

def fiveKindsDoc : PolicyDocument :=
  { version := 1
    rules := [{ id := "pay", appliesTo := [.any], when := {}, execute := .auto,
                requiredEvidenceKinds := some (.num 5) }] }

theorem fiveKinds_accepted : validatePolicyDocument fiveKinds = .ok fiveKindsDoc := by
  rfl

/-- A rule with a spend envelope. -/
def dailyCap : Json :=
  .obj [("version", .num 1), ("rules", .arr [.obj [("id", .str "pay"),
    ("applies_to", .arr [.str "any"]), ("when", .obj [("agent.spend_in_window",
      .obj [("window", .str "24h"), ("lte", .obj [("currency", .str "USD"),
        ("value", .str "100")])])]), ("execute", .str "auto")]])]

theorem amountValueRe_hundred : amountValueRe "100" = true := by
  rfl

def hundredADay : SpendWindowConstraint := ⟨"24h", "USD", ⟨"100", amountValueRe_hundred⟩⟩

def dailyCapDoc : PolicyDocument :=
  { version := 1
    rules := [{ id := "pay", appliesTo := [.any], execute := .auto,
                when := { agentSpendInWindow := some hundredADay } }] }

theorem dailyCap_accepted : validatePolicyDocument dailyCap = .ok dailyCapDoc := by
  rfl

def payment (amount : String) : GatePaymentIntent :=
  { id := "pi_1", ownerId := "tnt_1", createdByAgentId := some "agent_1"
    actionType := .achOutbound, sourceAccountId := "acct_1", destinationCounterpartyId := "cp_1"
    amount, currency := "USD" }

/-- The document is evaluated for every payment; the decision for the gate is not made. -/
theorem fiveKinds_evaluated :
    ∃ decision, evaluate fiveKindsDoc (gateAction fiveKindsDoc Table.empty 0 (payment "10")) =
        .ok decision ∧
      NamesMatch fiveKindsDoc (gateAction fiveKindsDoc Table.empty 0 (payment "10"))
        decision.matchedRuleId := by
  apply ((evaluable_iff fiveKinds_accepted).1 _).mpr
  intro rule hreached hweighs c hc
  obtain ⟨before, after, hsplit, -⟩ := hreached
  have hmem : rule ∈ fiveKindsDoc.rules := by rw [hsplit]; simp
  rw [List.mem_singleton.mp hmem] at hc
  cases hc

/-- Both documents are accepted; a payment makes the decision for the gate throw under the one, an
amount that is no number the VM under the other. -/
theorem accepted_throws :
    validatePolicyDocument fiveKinds = .ok fiveKindsDoc ∧
      (evaluateForGate (serviceOver fiveKindsDoc Table.empty 0) (payment "10")).isOk = false ∧
    validatePolicyDocument dailyCap = .ok dailyCapDoc ∧
      (evaluate dailyCapDoc (gateAction dailyCapDoc Table.empty 0 (payment "ten"))).isOk =
        false := by
  refine ⟨fiveKinds_accepted, by rfl, dailyCap_accepted, by rfl⟩

end BrainCore.Policy
