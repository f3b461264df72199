import BrainCore.Foundation.Json

/-!
# Redaction of reasoning traces

`services/execution/src/redaction.ts`: a payload is cloned field by field, by the
first rule that matches the name of the field.  Lower-casing and the two digests
are parameters, and so is what is stored for a digest.
-/

namespace BrainCore.Execution

open BrainCore.Foundation

inductive RedactionTransform where
  | maskLast4
  | hashRecoverable
  | preserve
  | drop
  | forbid
deriving Repr, DecidableEq

structure RedactionRule where
  names : List String
  transform : RedactionTransform
  retain : List String := []
deriving Repr, DecidableEq

inductive UnmatchedFields where
  | preserve
  | drop
deriving Repr, DecidableEq

structure RedactionPolicy where
  rules : List RedactionRule
  unmatched : UnmatchedFields
deriving Repr, DecidableEq

/-- The policy of `schemas/redaction-policies/agent-trace-v1.json`. -/
def DEFAULT_AGENT_TRACE_POLICY : RedactionPolicy where
  rules := [
    { names := ["counterparty_name", "payee", "payer", "vendor_name", "merchant_name"]
      transform := .hashRecoverable },
    { names := ["amount", "amount_due", "value", "balance", "currency"]
      transform := .preserve },
    { names := ["email_body", "body", "message_body", "html_body", "text_body"]
      transform := .drop
      retain := ["subject", "hash"] },
    { names := ["password", "secret", "access_token", "plaid_access_token", "api_key",
        "private_key", "account_number", "account_no", "acct", "iban", "routing_number",
        "card_number", "cvv", "pin"]
      transform := .forbid }]
  unmatched := .preserve

/-- What the platform computes on texts. -/
structure RedactionPlatform where
  toLowerCase : String → String
  /-- The hexadecimal HMAC of a text under a key. -/
  hmacSha256 : String → String → String
  sha256Hex : String → String

def maskLast4 (value : String) : String :=
  if value.length ≤ 4 then "****"
  else "****" ++ String.ofList (value.toList.drop (value.length - 4))

/-- The assignments of a property, in order; `undefined` is `none`. -/
abbrev Assignments := List (String × Option Json)

/-- The properties that an object has after the assignments: the last one of a name counts, and a
property that is undefined is not written out.  `__proto__` names no property of its own. -/
def properties : Assignments → List (String × Json)
  | [] => []
  | (name, value) :: later =>
      if name = "__proto__" ∨ name ∈ later.map Prod.fst then properties later
      else (value.map fun value => (name, value)).toList ++ properties later

section Redact

variable (platform : RedactionPlatform) (policy : RedactionPolicy) (tenantHashKey : String)
  (keep : String → Option Json)

/-- The first rule with a name that is the key but for case. -/
def ruleFor (key : String) : Option RedactionRule :=
  policy.rules.find? fun rule =>
    rule.names.any fun name => platform.toLowerCase name = platform.toLowerCase key

def maskedValue : Json → Json
  | .str text => .str (maskLast4 text)
  | value => value

def hashRecoverable (text : String) : String := "h:" ++ platform.hmacSha256 tenantHashKey text

def hashedValue : Json → Option Json
  | .str text => keep (hashRecoverable platform tenantHashKey text)
  | value => some value

/-- A dropped text leaves its digest when the rule retains it. -/
def droppedValue (rule : RedactionRule) (key : String) : Json → Assignments
  | .str text =>
      if "hash" ∈ rule.retain then [(key ++ "_sha256", keep (platform.sha256Hex text))] else []
  | _ => []

/-- What is assigned for a field; `redacted` is the redaction of its value. -/
def assigned (key : String) (value : Json) (redacted : Except String Json) :
    Except String Assignments :=
  match ruleFor platform policy key with
  | none => match policy.unmatched with
    | .drop => .ok [(key, none)]
    | .preserve => redacted.map fun value => [(key, some value)]
  | some rule => match rule.transform with
    | .forbid =>
        .error ("redaction: forbidden field \"" ++ key ++ "\" must not be present in a trace")
    | .preserve => redacted.map fun value => [(key, some value)]
    | .maskLast4 => .ok [(key, some (maskedValue value))]
    | .hashRecoverable => .ok [(key, hashedValue platform tenantHashKey keep value)]
    | .drop => .ok (droppedValue platform keep rule key value)

mutual

/-- `redact`, where `keep` says what is stored for a digest. -/
def redactWith : Json → Except String Json
  | .arr items => (redactItems items).map .arr
  | .obj members => (assignments members).map fun assigned => .obj (properties assigned)
  | value => .ok value

def redactItems : List Json → Except String (List Json)
  | [] => .ok []
  | value :: rest => do
      let value ← redactWith value
      let rest ← redactItems rest
      return value :: rest

def assignments : List (String × Json) → Except String Assignments
  | [] => .ok []
  | (key, value) :: rest => do
      let own ← assigned platform policy tenantHashKey keep key value (redactWith value)
      let later ← assignments rest
      return own ++ later

end

/-- A digest is stored as its text. -/
def redact (payload : Json) : Except String Json :=
  redactWith platform policy tenantHashKey (fun digest => some (.str digest)) payload

/-- The clone is discarded. -/
def assertNoForbiddenFields (payload : Json) : Except String Unit :=
  (redact platform policy "" payload).map fun _ => ()

/-- What is stored of a payload beside digests. -/
def withoutDigests (payload : Json) : Except String Json :=
  redactWith platform policy tenantHashKey (fun _ => none) payload

end Redact

end BrainCore.Execution
