import BrainCore.Policy.Policies
import BrainCore.Policy.Validate

/-!
# Composing and signing policies

The two routes of `services/policy/src/routes.ts` that write policies, with the
typed data of `signing.ts` that the signatures are over.  The signature check,
the digests and what the signer registry answers are parameters.
-/

namespace BrainCore.Policy

open BrainCore.Foundation BrainCore.Audit

/-! ## Access -/

/-- `ULID_ALPHABET_RE`. -/
def isUlid (s : List Char) : Bool :=
  s.length = 26 && s.all (· ∈ "0123456789ABCDEFGHJKMNPQRSTVWXYZ".toList)

def isBrainId (id kind : String) : Bool :=
  match id.toList.dropWhile (· ≠ '_') with
  | [] => false
  | _ :: ulid => kind ≠ "" && id.toList.takeWhile (· ≠ '_') = kind.toList && isUlid ulid

/-- The administrator of a layer has every scope of the layer. -/
def impliedAdmin (scope : String) : String :=
  String.ofList (scope.toList.takeWhile (· ≠ ':')) ++ ":admin"

def hasScope (held : List String) (required : String) : Bool :=
  required ∈ held || impliedAdmin required ∈ held

structure PolicyPrincipal where
  id : String
  tenantId : String
  scopes : List String

/-- The principal that may act for the tenant of the path. -/
def assertTenantAccess (principal : Option PolicyPrincipal) (pathTenant scope : String) :
    Except PolicyError PolicyPrincipal :=
  match principal with
  | none => .error ⟨"auth_token_missing", "principal required"⟩
  | some principal =>
      if !isBrainId pathTenant "tnt" then
        .error ⟨"request_params_invalid", "malformed tenant_id"⟩
      else if principal.tenantId ≠ pathTenant then
        .error ⟨"auth_tenant_mismatch", "tenant mismatch"⟩
      else if !hasScope principal.scopes scope then
        .error ⟨"auth_scope_insufficient", "missing required scope: " ++ scope⟩
      else .ok principal

/-! ## What is signed -/

structure TypedDataDomain where
  name : String
  version : String
  chainId : Nat
  verifyingContract : String

structure PolicyRegistration where
  tenantId : String
  version : Nat
  policyHash : String

structure PolicyTypedData where
  domain : TypedDataDomain
  primaryType : String
  domainType : List (String × String)
  registrationType : List (String × String)
  message : PolicyRegistration

def toHexPrefixed (hex : String) : String :=
  match hex.toList with
  | '0' :: 'x' :: clean => "0x" ++ String.ofList clean
  | _ => "0x" ++ hex

/-- The deployment: the digests, the signature check and the settings. -/
structure PolicyDeps where
  sha256 : List Char → String
  keccak256 : String → String
  /-- `verifyTypedData` of the typed data, for the signature of an address. -/
  verifyTypedData : PolicyTypedData → PolicySignature → Except PolicyError Bool
  chainId : Nat
  policyRegistryAddress : String
  confidenceFloorReject : Option Bool := none
  lintReject : Option Bool := none

namespace PolicyDeps

variable (deps : PolicyDeps)

def tenantIdToBytes32 (tenantId : String) : String := "0x" ++ deps.keccak256 tenantId

def buildTypedData (tenantId : String) (version : Nat) (policyHashHex : String) :
    PolicyTypedData where
  domain :=
    { name := "Brain Policy"
      version := "1"
      chainId := deps.chainId
      verifyingContract := deps.policyRegistryAddress }
  primaryType := "PolicyRegistration"
  domainType :=
    [("name", "string"), ("version", "string"), ("chainId", "uint256"),
      ("verifyingContract", "address")]
  registrationType := [("tenantId", "bytes32"), ("version", "uint256"), ("policyHash", "bytes32")]
  message :=
    { tenantId := deps.tenantIdToBytes32 tenantId
      version
      policyHash := toHexPrefixed policyHashHex }

/-- What the signatures of a stored policy are over. -/
def typedDataOf (row : PolicyRow) : PolicyTypedData :=
  deps.buildTypedData row.tenantId row.version row.contentHash

end PolicyDeps

/-! ## Requests -/

/-- What `JSON.parse` returns: no object has a name twice. -/
structure ParsedJson where
  json : Json
  distinct : DistinctJson json

structure ComposeRequest where
  principal : Option PolicyPrincipal
  tenantId : String
  content : Option ParsedJson
  quorumRequired : Option Json := none

inductive TenantKind where
  | production
  | demo
deriving DecidableEq

/-- A request to sign, with what the registry and the tenants table answer while it is served. -/
structure SignRequest where
  principal : Option PolicyPrincipal
  tenantId : String
  policyId : Option String
  /-- `none` is no array. -/
  signatures : Option (List PolicySignature)
  isAuthorizedSigner : String → String → Except PolicyError Bool
  tenantKind : Option TenantKind := none

inductive PolicyRequest where
  | compose (request : ComposeRequest)
  | sign (request : SignRequest)

inductive PolicyResponse where
  | composed (policyId : String) (state : PolicyState) (signingPayload : PolicyTypedData)
  | signed (policy : PolicyRow) (activated : Bool) (warnings : List LintFinding)

/-- What the dependencies answer in one step. -/
structure PolicyEnvironment where
  newPolicyId : String
  audit : Except PolicyError Unit

structure PolicyAuditEvent where
  tenantId : String
  layer : String
  actor : String
  action : String
  inputs : List (String × Json)
  outputs : List (String × Json)

abbrev PolicyScript (α : Type) :=
  Script Policies PolicyRow PolicyEnvironment PolicyAuditEvent PolicyError α

/-- `await deps.audit.emit(…)`. -/
def emitPolicyEvent (event : PolicyAuditEvent) : PolicyScript Unit :=
  .callOut fun env =>
    match env.audit with
    | .error e => (.error e, [])
    | .ok () => (.ok (), [event])

def withTenantScope {α : Type} (tenant : String) (body : PolicyTransact α) : PolicyScript α :=
  if isBrainId tenant "tnt" then .transact body
  else .throw ⟨"auth_tenant_mismatch", "invalid tenant id shape"⟩

/-- `validatePolicyDocument`, with the error it throws. -/
def documentOf (content : Json) : Except PolicyError PolicyDocument :=
  (validatePolicyDocument content).mapError fun e => ⟨"policy_rule_invalid", e.message⟩

/-! ## Compose -/

def quorumOf : Option Json → Except PolicyError Nat
  | none => .ok 1
  | some (.num value) =>
      if value.den = 1 ∧ 1 ≤ value.num then .ok value.num.toNat
      else .error ⟨"policy_rule_invalid", "quorum_required must be an integer >= 1"⟩
  | some _ => .error ⟨"policy_rule_invalid", "quorum_required must be an integer >= 1"⟩

def composeTransaction (row : PolicyRow) : PolicyTransact PolicyRow := do
  let inserted ← PolicyRepository.insertPolicy row
  PolicyRepository.transition row.tenantId inserted.id .draft .pendingSignatures

def compose (deps : PolicyDeps) (request : ComposeRequest) : PolicyScript PolicyResponse := do
  let principal ← .ofExcept (assertTenantAccess request.principal request.tenantId "policy:write")
  let content := request.content.getD ⟨.null, trivial⟩
  let document ← .ofExcept (documentOf content.json)
  let quorum ← .ofExcept (quorumOf request.quorumRequired)
  let id ← .ask fun env => .ok env.newPolicyId
  let hash := contentHashHex deps.sha256 content.json
  let row ← withTenantScope request.tenantId (composeTransaction
    { id
      tenantId := request.tenantId
      version := document.version
      content := jsonb content.json
      contentHash := hash
      signers := none
      state := .draft
      quorumRequired := quorum
      createdBy := principal.id })
  emitPolicyEvent
    { tenantId := request.tenantId
      layer := "policy"
      actor := principal.id
      action := "policy.compose"
      inputs := [("version", .num document.version), ("policy_hash", .str hash)]
      outputs := [("policy_id", .str row.id), ("state", .str row.state.text)] }
  pure (.composed row.id row.state
    (deps.buildTypedData request.tenantId document.version hash))

/-! ## Sign -/

def toLowerCase (s : String) : String := String.ofList (s.toList.map Char.toLower)

/-- Each signature verifies, is of another signer than those before it and of one that the
registry knows. -/
def checkSignatures (deps : PolicyDeps) (request : SignRequest) (typed : PolicyTypedData) :
    List String → List PolicySignature → Except PolicyError Unit
  | _, [] => .ok ()
  | seen, sig :: rest => do
      let ok ← deps.verifyTypedData typed sig
      if !ok then .error ⟨"policy_signature_invalid", "signature did not verify"⟩
      else if toLowerCase sig.address ∈ seen then
        .error ⟨"policy_signature_invalid", "duplicate signer"⟩
      else do
        let authorized ← request.isAuthorizedSigner request.tenantId sig.address
        if !authorized then
          .error ⟨"policy_signature_invalid", "signer is not an authorized tenant signer"⟩
        else checkSignatures deps request typed (seen ++ [toLowerCase sig.address]) rest

def isProduction (kind : Option TenantKind) : Bool := kind = some .production

/-- Both gates are enforced for a production tenant whatever the settings. -/
def activationGate (deps : PolicyDeps) (request : SignRequest) (document : PolicyDocument) :
    ActivationLintGateResult :=
  runActivationLintGate document
    { lintEnforce := deps.lintReject = some true || isProduction request.tenantKind
      confidenceEnforce :=
        deps.confidenceFloorReject = some true || isProduction request.tenantKind }

/-- The quorum's part of the transaction. -/
def activateSigned (deps : PolicyDeps) (request : SignRequest) (row : PolicyRow)
    (document : PolicyDocument) : PolicyTransact (PolicyRow × List LintFinding) :=
  let gate := activationGate deps request document
  if !gate.blocking.isEmpty then
    .throw ⟨"policy_rule_invalid", "policy failed activation lint"⟩
  else do
    let activated ←
      PolicyRepository.transition request.tenantId row.id .pendingSignatures .active
    pure (activated, gate.warnings)

def signTransaction (deps : PolicyDeps) (request : SignRequest) (policyId : String)
    (signatures : List PolicySignature) : PolicyTransact (PolicyRow × List LintFinding) := do
  let existing ← PolicyRepository.getById request.tenantId policyId
  match existing with
  | none => .throw ⟨"policy_not_found", "policy not found"⟩
  | some row =>
      if row.state ≠ .pendingSignatures then
        .throw ⟨"policy_quorum_not_met", "policy is not awaiting signatures"⟩
      else do
        .ofExcept (checkSignatures deps request
          (deps.buildTypedData request.tenantId row.version row.contentHash) [] signatures)
        PolicyRepository.setSigners request.tenantId row.id signatures
        let document ← .ofExcept (documentOf row.content)
        if row.quorumRequired ≤ signatures.length then
          activateSigned deps request row document
        else pure (row, [])

def sign (deps : PolicyDeps) (request : SignRequest) : PolicyScript PolicyResponse := do
  let principal ← .ofExcept (assertTenantAccess request.principal request.tenantId "policy:sign")
  match request.policyId, request.signatures with
  | some policyId, some signatures => do
      let signed ← withTenantScope request.tenantId
        (signTransaction deps request policyId signatures)
      let activated : Bool := signed.1.state = .active
      emitPolicyEvent
        { tenantId := request.tenantId
          layer := "policy"
          actor := principal.id
          action := if activated then "policy.activate" else "policy.sign"
          inputs := [("policy_id", .str signed.1.id), ("signer_count", .num signatures.length)]
          outputs := [("state", .str signed.1.state.text)] }
      pure (.signed signed.1 activated signed.2)
  | _, _ => .throw ⟨"policy_signature_invalid", "policy_id and signatures[] required"⟩

/-! ## The service -/

def policyScript (deps : PolicyDeps) : PolicyRequest → PolicyScript PolicyResponse
  | .compose request => compose deps request
  | .sign request => sign deps request

abbrev PolicyWorld :=
  Calls Policies PolicyRow PolicyEnvironment PolicyAuditEvent PolicyError PolicyResponse

abbrev PolicyLabel := CallLabel PolicyRow PolicyEnvironment PolicyError PolicyRequest

/-- Any number of requests, which alone write policies. -/
def policyMachine (deps : PolicyDeps) : Machine PolicyWorld PolicyLabel :=
  callMachine policyStore (policyScript deps) fun _ _ => false

end BrainCore.Policy
