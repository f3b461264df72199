import BrainCore.Foundation.Result
import BrainCore.Policy.Vm

/-!
# Policy documents the service accepts

`services/policy/src/validate.ts`: every check fails on the first problem with
a message and the path of the offending field.  Each check returns the typed
value it has checked, so an accepted document is built from checked parts.
-/

namespace BrainCore.Policy

open BrainCore.Foundation BrainCore.Shared

/-- The `policy_rule_invalid` error. -/
structure PolicyRuleInvalid where
  message : String
  path : String
deriving DecidableEq

abbrev Check (α : Type) := Except PolicyRuleInvalid α

def fail {α : Type} (message path : String) : Check α := .error ⟨message, path⟩

mutual

/-- `String(value)`. -/
def jsText : Json → String
  | .null => "null"
  | .bool value => if value then "true" else "false"
  | .num value => ratText value
  | .str value => value
  | .arr items => ",".intercalate (jsTexts items)
  | .obj _ => "[object Object]"

/-- The pieces `Array.prototype.join` puts together. -/
def jsTexts : List Json → List String
  | [] => []
  | .null :: items => "" :: jsTexts items
  | item :: items => jsText item :: jsTexts items

end

def asObject (raw : Json) (message path : String) : Check (List (String × Json)) :=
  match raw with
  | .obj members => pure members
  | _ => fail message path

def asText (raw : Option Json) (message path : String) : Check String :=
  match raw with
  | some (.str value) => pure value
  | _ => fail message path

/-- The text of a member that must be a non-empty string. -/
def asNonEmptyText (raw : Option Json) (message path : String) : Check String :=
  match raw with
  | some (.str value) => if value.isEmpty then fail message path else pure value
  | _ => fail message path

def asNat (raw : Option Json) (least : Nat) (message path : String) : Check Nat :=
  match raw with
  | some (.num value) =>
      if value.den = 1 ∧ (least : Int) ≤ value.num then pure value.num.toNat else fail message path
  | _ => fail message path

/-- A check of an optional member. -/
def optional {α : Type} (raw : Option Json) (check : Json → Check α) : Check (Option α) :=
  match raw with
  | none => pure none
  | some value => some <$> check value

def checkAmountLiteral (path : String) (raw : Json) : Check AmountLiteral := do
  let _ ← asObject raw
    (path ++ " must be an amount literal object (\x7b currency, value \x7d)") path
  let currency ← asNonEmptyText (raw.field? "currency")
    (path ++ ".currency must be a non-empty string") (path ++ ".currency")
  let value ← asText (raw.field? "value")
    (path ++ ".value must be a string decimal, not a number") (path ++ ".value")
  let message := path ++
    ".value must be an optionally-signed decimal string with at most 18 fractional digits"
  if wellFormed : amountValueRe value = true then pure ⟨currency, ⟨value, wellFormed⟩⟩
  else fail message (path ++ ".value")

def checkNonEmptyString (path : String) (raw : Json) : Check String :=
  asNonEmptyText (some raw) (path ++ " must be a non-empty string") path

def checkStringArray (path : String) (raw : Json) : Check (List String) :=
  let message := path ++ " must be an array of non-empty strings"
  match raw with
  | .arr items => items.mapM fun item => asNonEmptyText (some item) message path
  | _ => fail message path

def checkUnitInterval (path : String) (raw : Json) : Check Rat :=
  let message := path ++ " must be a number in the inclusive range 0 to 1"
  match raw with
  | .num value => if value < 0 ∨ 1 < value then fail message path else pure value
  | _ => fail message path

def knownWindows : List String := ["1h", "24h", "7d", "30d"]

def checkWindow (path : String) (raw : Option Json) : Check String :=
  let message := path ++ " must be one of " ++ ", ".intercalate knownWindows ++
    " -- these are the only windows spend-counters.ts computes a real bucket for"
  match raw with
  | some (.str value) => if value ∈ knownWindows then pure value else fail message path
  | _ => fail message path

/-- A list reference must name a list of the document. -/
def checkCounterpartyRef (lists : List (String × List String)) (path : String) (raw : Json) :
    Check String := do
  let ref ← asNonEmptyText (some raw) (path ++ " must be a non-empty list-reference string") path
  let message := path ++ " references list \"" ++ ref ++
    "\" which is not defined in this document lists"
  if ref ∈ lists.map Prod.fst then pure ref else fail message path

def checkTenantCategory (path : String) (raw : Json) : Check TenantCategory :=
  match raw with
  | .str "business" => pure .business
  | .str "consumer" => pure .consumer
  | _ => fail (path ++ " must be \"business\" or \"consumer\"") path

def checkBehaviorHash (path : String) (raw : Json) : Check String :=
  match raw with
  | .str value =>
      let digits := value.toList.drop 2
      if value.toList.take 2 = ['0', 'x'] ∧ digits ≠ [] ∧ digits.all isHexDigit then pure value
      else fail (path ++ " must be a 0x-prefixed hex string") path
  | _ => fail (path ++ " must be a 0x-prefixed hex string") path

def checkRiskLevel (path : String) (raw : Json) : Check RiskLevel :=
  match raw with
  | .str "low" => pure .low
  | .str "medium" => pure .medium
  | .str "high" => pure .high
  | .str "critical" => pure .critical
  | _ => fail (path ++ " must be one of low, medium, high, critical") path

def checkTxCountInWindow (path : String) (raw : Json) : Check TxCountWindowConstraint := do
  let _ ← asObject raw (path ++ " must be an object (\x7b window, lte \x7d)") path
  let window ← checkWindow (path ++ ".window") (raw.field? "window")
  let lte ← asNat (raw.field? "lte") 0 (path ++ ".lte must be an integer >= 0") (path ++ ".lte")
  pure ⟨window, lte⟩

def checkSpendInWindow (path : String) (raw : Json) : Check SpendWindowConstraint := do
  let _ ← asObject raw (path ++ " must be an object (\x7b window, lte \x7d)") path
  let window ← checkWindow (path ++ ".window") (raw.field? "window")
  -- an absent member fails the object check of the amount literal
  let lte ← checkAmountLiteral (path ++ ".lte") ((raw.field? "lte").getD .null)
  pure ⟨window, lte⟩

def checkTimeWindow (path : String) (raw : Json) : Check String := do
  let expr ← asText (some raw) (path ++ " must be a cron-expression string") path
  match validateCronExpression expr with
  | .ok _ => pure expr
  | .error message => fail (path ++ " " ++ message) path

def validateWhen (lists : List (String × List String)) (path : String) (raw : Json) :
    Check RuleWhen := do
  let at_ := fun (key : String) => path ++ "[\"" ++ key ++ "\"]"
  let member := fun {α : Type} (key : String) (check : String → Json → Check α) =>
    optional (raw.field? key) (check (at_ key))
  let counterpartyIn ← member "counterparty.in" (checkCounterpartyRef lists)
  let counterpartyNotIn ← member "counterparty.not_in" (checkCounterpartyRef lists)
  let amountLte ← member "amount.lte" checkAmountLiteral
  let amountGt ← member "amount.gt" checkAmountLiteral
  let agentRole ← member "agent.role" checkNonEmptyString
  let agentId ← member "agent.id" checkNonEmptyString
  let tenantCategory ← member "tenant.category" checkTenantCategory
  let actionIn ← member "action.in" checkStringArray
  let actionNotIn ← member "action.not_in" checkStringArray
  let agentBehaviorHash ← member "agent.behaviorHash" checkBehaviorHash
  let agentConfidenceGte ← member "agent.confidence.gte" checkUnitInterval
  let agentEvidenceScoreGte ← member "agent.evidence_score.gte" checkUnitInterval
  let agentRiskLevelLte ← member "agent.risk_level.lte" checkRiskLevel
  let agentTxCountInWindow ← member "agent.tx_count_in_window" checkTxCountInWindow
  let agentSpendInWindow ← member "agent.spend_in_window" checkSpendInWindow
  let timeWindow ← optional (raw.field? "time_window") (checkTimeWindow (path ++ ".time_window"))
  pure { counterpartyIn, counterpartyNotIn, amountLte, amountGt, agentRole, timeWindow, agentId,
         tenantCategory, actionIn, actionNotIn, agentBehaviorHash, agentSpendInWindow,
         agentTxCountInWindow, agentConfidenceGte, agentEvidenceScoreGte, agentRiskLevelLte }

def knownWhenKeys : List String :=
  ["counterparty.in", "counterparty.not_in", "amount.lte", "amount.gt", "agent.role",
    "time_window", "agent.id", "tenant.category", "action.in", "action.not_in",
    "agent.behaviorHash", "agent.spend_in_window", "agent.tx_count_in_window",
    "agent.confidence.gte", "agent.evidence_score.gte", "agent.risk_level.lte"]

def applyToValues : List (String × ApplyTo) :=
  [("outbound_payment", .outboundPayment), ("inbound_payment", .inboundPayment),
    ("ledger_write", .ledgerWrite), ("onchain_tx", .onchainTx), ("agent_action", .agentAction),
    ("any", .any)]

def checkApplyTo (path : String) (raw : Json) : Check ApplyTo :=
  match applyToValues.find? fun entry => raw.str? = some entry.1 with
  | some entry => pure entry.2
  | none => fail (path ++ " has unknown value \"" ++ jsText raw ++ "\" (expected one of " ++
      ", ".intercalate (applyToValues.map Prod.fst) ++ ")") path

def checkAppliesTo (path : String) (raw : Option Json) : Check (List ApplyTo) :=
  match raw with
  | some (.arr (item :: items)) => (item :: items).mapM (checkApplyTo path)
  | _ => fail (path ++ " must be a non-empty array") path

def checkKnownKey (path key : String) : Check Unit :=
  if key ∈ knownWhenKeys then pure ()
  else fail (path ++ " has unknown key \"" ++ key ++ "\" (known keys: " ++
    ", ".intercalate knownWhenKeys ++ ")") (path ++ "." ++ key)

def checkExecute (path : String) (raw : Option Json) : Check ExecuteMode :=
  match raw with
  | some (.str "auto") => pure .auto
  | some (.str "confirm") => pure .confirm
  | some (.str "reject") => pure .reject
  | _ => fail (path ++ " must be one of auto, confirm, reject") path

/-- A `require` clause must resolve to at least one role, and to no empty one. -/
def checkRequire (path : String) (raw : Json) : Check String := do
  let expr ← asNonEmptyText (some raw) (path ++ " must be a non-empty string") path
  let message := path ++ " \"" ++ expr ++ "\" does not resolve to a non-empty list of role names"
  if parseRequire expr = [] ∨ "" ∈ parseRequire expr then fail message path else pure expr

def checkFreshId (path : String) (seenIds : List String) (id : String) : Check Unit :=
  if id ∈ seenIds then
    fail ("duplicate rule id \"" ++ id ++ "\" -- rule ids must be unique in a policy document")
      (path ++ ".id")
  else pure ()

def validateRule (lists : List (String × List String)) (index : Nat) (seenIds : List String)
    (raw : Json) : Check PolicyRule := do
  let path := "rules[" ++ toString index ++ "]"
  let _ ← asObject raw (path ++ " must be an object") path
  let id ← asNonEmptyText (raw.field? "id") (path ++ ".id must be a non-empty string") (path ++ ".id")
  checkFreshId path seenIds id
  let appliesTo ← checkAppliesTo (path ++ ".applies_to") (raw.field? "applies_to")
  let rawWhen := (raw.field? "when").getD .null
  let members ← asObject rawWhen (path ++ ".when must be a non-null object") (path ++ ".when")
  members.forM fun entry => checkKnownKey (path ++ ".when") entry.1
  let whenRule ← validateWhen lists (path ++ ".when") rawWhen
  let execute ← checkExecute (path ++ ".execute") (raw.field? "execute")
  let amount := fun (name : String) =>
    optional (raw.field? name) (checkAmountLiteral (path ++ "." ++ name))
  let require ← optional (raw.field? "require") (checkRequire (path ++ ".require"))
  let approvalRequiredAbove ← amount "approval_required_above"
  let x402AutonomousMaxAmount ← amount "x402_autonomous_max_amount"
  let achAutonomousMaxAmount ← amount "ach_autonomous_max_amount"
  let cardAutonomousMaxAmount ← amount "card_autonomous_max_amount"
  pure { id, appliesTo, «when» := whenRule, require, execute, approvalRequiredAbove,
         x402AutonomousMaxAmount, achAutonomousMaxAmount, cardAutonomousMaxAmount,
         onchainSettlementPermitted := raw.field? "onchain_settlement_permitted",
         requiredEvidenceKinds := raw.field? "required_evidence_kinds",
         reputation := raw.field? "reputation" }

def validateRules (lists : List (String × List String)) :
    Nat → List String → List Json → Check (List PolicyRule)
  | _, _, [] => pure []
  | index, seenIds, raw :: rest => do
      let rule ← validateRule lists index seenIds raw
      let rules ← validateRules lists (index + 1) (rule.id :: seenIds) rest
      pure (rule :: rules)

def validateList (entry : String × Json) : Check (String × List String) :=
  let path := "lists." ++ entry.1
  let message := path ++ " must be an array of strings"
  match entry.2 with
  | .arr items => do
      let texts ← items.mapM fun item => asText (some item) message path
      pure (entry.1, texts)
  | _ => fail message path

def validateLists (raw : Option Json) : Check (List (String × List String)) :=
  match raw with
  | none => pure []
  | some value => do
      let members ← asObject value "lists must be an object" "lists"
      members.mapM validateList

def validateAgentActions (raw : Option Json) : Check Unit :=
  match raw with
  | none => pure ()
  | some value => do
      let members ← asObject value "agent_actions must be an object" "agent_actions"
      members.forM fun entry => do
        let _ ← checkStringArray ("agent_actions." ++ entry.1) entry.2

def isWordChar (c : Char) : Bool := c.isAlphanum || c = '_'

/-- The name of a placeholder that starts here: two braces, a name, two braces. -/
def placeholderAt (s : List Char) : Option (List Char) :=
  match s with
  | '\x7b' :: '\x7b' :: rest =>
      let body := rest.dropWhile isJsSpace
      let name := body.takeWhile isWordChar
      match (body.dropWhile isWordChar).dropWhile isJsSpace with
      | '\x7d' :: '\x7d' :: _ => if name = [] then none else some name
      | _ => none
  | _ => none

/-- The placeholder names of a text; two of them never overlap. -/
def placeholders (s : List Char) : List (List Char) := s.tails.filterMap placeholderAt

def checkPlaceholders (path : String) (allowed : List String) (text : String) : Check Unit :=
  (placeholders text.toList).forM fun name =>
    if String.ofList name ∈ allowed then pure ()
    else fail (path ++ " references placeholder \x7b\x7b" ++ String.ofList name ++
      "\x7d\x7d which is not in allowed_variables") path

def validateMessageTemplate (index : Nat) (raw : Json) : Check Unit := do
  let path := "message_templates[" ++ toString index ++ "]"
  let _ ← asObject raw (path ++ " must be an object") path
  let text := fun (name : String) =>
    checkNonEmptyString (path ++ "." ++ name) ((raw.field? name).getD .null)
  let _ ← text "id"
  let subject ← text "subject"
  let body ← text "body"
  let allowed ← checkStringArray (path ++ ".allowed_variables")
    ((raw.field? "allowed_variables").getD .null)
  checkPlaceholders (path ++ ".subject") allowed subject
  checkPlaceholders (path ++ ".body") allowed body

def validateMessageTemplates (raw : Option Json) : Check Unit :=
  match raw with
  | none => pure ()
  | some (.arr items) =>
      items.zipIdx.forM fun entry => validateMessageTemplate entry.2 entry.1
  | some _ => fail "message_templates must be an array" "message_templates"

def asRules (raw : Option Json) : Check (List Json) :=
  match raw with
  | some (.arr (rule :: rules)) => pure (rule :: rules)
  | _ => fail "rules must be a non-empty array" "rules"

def validatePolicyDocument (raw : Json) : Check PolicyDocument := do
  let _ ← asObject raw "policy content must be a non-null object" "$"
  let version ← asNat (raw.field? "version") 1 "version must be an integer >= 1" "version"
  let rawRules ← asRules (raw.field? "rules")
  let lists ← validateLists (raw.field? "lists")
  validateAgentActions (raw.field? "agent_actions")
  validateMessageTemplates (raw.field? "message_templates")
  let rules ← validateRules lists 0 [] rawRules
  pure { version, rules, lists }

/-! ## What acceptance guarantees -/

theorem fail_ne_ok {α : Type} {message path : String} {a : α} :
    ¬(fail message path : Check α) = .ok a := nofun

theorem checkFreshId_ok {path id : String} {seenIds : List String} {u : Unit}
    (h : checkFreshId path seenIds id = .ok u) : id ∉ seenIds := by
  unfold checkFreshId at h
  split at h
  · exact absurd h fail_ne_ok
  · assumption

/-- The roles a rule requires are named. -/
def RolesNamed (rule : PolicyRule) : Prop :=
  ∀ expr, rule.require = some expr → parseRequire expr ≠ [] ∧ "" ∉ parseRequire expr

theorem checkRequire_ok {path expr : String} {raw : Json} (h : checkRequire path raw = .ok expr) :
    parseRequire expr ≠ [] ∧ "" ∉ parseRequire expr := by
  unfold checkRequire at h
  obtain ⟨text, _, h⟩ := bind_ok.mp h
  dsimp only at h
  split at h
  · exact absurd h fail_ne_ok
  · rename_i named
    obtain rfl := pure_ok.mp h
    exact not_or.mp named

theorem optional_ok {α : Type} {raw : Option Json} {check : Json → Check α} {value : α}
    (h : optional raw check = .ok (some value)) : ∃ json, check json = .ok value := by
  cases raw with
  | none => cases h
  | some json =>
      refine ⟨json, ?_⟩
      have h : (some <$> check json : Check (Option α)) = .ok (some value) := h
      cases hcheck : check json with
      | error e =>
          rw [hcheck] at h
          cases h
      | ok checked =>
          rw [hcheck] at h
          have same : some checked = some value := Except.ok.inj h
          cases same
          rfl

theorem validateRule_ok {lists : List (String × List String)} {index : Nat}
    {seenIds : List String} {raw : Json} {rule : PolicyRule}
    (h : validateRule lists index seenIds raw = .ok rule) :
    rule.id ∉ seenIds ∧ RolesNamed rule := by
  unfold validateRule at h
  simp only [bind_ok, pure_ok] at h
  obtain ⟨_, _, _, _, _, hfresh, _, _, _, _, _, _, _, _, _, _, _, hrequire, _, _, _, _, _, _, _, _,
    rfl⟩ := h
  refine ⟨checkFreshId_ok hfresh, fun expr hexpr => ?_⟩
  dsimp only at hexpr
  rw [hexpr] at hrequire
  obtain ⟨_, hcheck⟩ := optional_ok hrequire
  exact checkRequire_ok hcheck

theorem validateRules_ok {lists : List (String × List String)} {raws : List Json} {index : Nat}
    {seenIds : List String} {rules : List PolicyRule}
    (h : validateRules lists index seenIds raws = .ok rules) :
    (rules.map (·.id)).Nodup ∧ (∀ rule ∈ rules, rule.id ∉ seenIds) ∧
      ∀ rule ∈ rules, RolesNamed rule := by
  induction raws generalizing index seenIds rules with
  | nil =>
      cases h
      simp
  | cons raw raws ih =>
      unfold validateRules at h
      simp only [bind_ok, pure_ok] at h
      obtain ⟨rule, hrule, rest, hrest, rfl⟩ := h
      obtain ⟨hfresh, hroles⟩ := validateRule_ok hrule
      obtain ⟨hnodup, hseen, hrestRoles⟩ := ih hrest
      refine ⟨?_, ?_, ?_⟩
      · rw [List.map_cons, List.nodup_cons]
        refine ⟨fun hmem => ?_, hnodup⟩
        obtain ⟨other, hother, hid⟩ := List.mem_map.mp hmem
        exact hseen other hother (hid ▸ List.mem_cons_self)
      · intro other hother
        rcases List.mem_cons.mp hother with rfl | hother
        · exact hfresh
        · exact fun hmem => hseen other hother (List.mem_cons_of_mem _ hmem)
      · intro other hother
        rcases List.mem_cons.mp hother with rfl | hother
        · exact hroles
        · exact hrestRoles other hother

/-- An accepted document has distinct rule ids, and every role it requires is named. -/
theorem validatePolicyDocument_ok {raw : Json} {doc : PolicyDocument}
    (h : validatePolicyDocument raw = .ok doc) :
    (doc.rules.map (·.id)).Nodup ∧ ∀ rule ∈ doc.rules, RolesNamed rule := by
  unfold validatePolicyDocument at h
  simp only [bind_ok, pure_ok] at h
  obtain ⟨_, _, _, _, _, _, _, _, _, _, _, _, rules, hrules, rfl⟩ := h
  obtain ⟨hnodup, _, hroles⟩ := validateRules_ok hrules
  exact ⟨hnodup, hroles⟩

end BrainCore.Policy
