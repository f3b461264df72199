import BrainCore.Contracts.SignerCounts
import BrainCore.Foundation.Machine

/-!
# The policy registry

`contracts/src/BrainPolicyRegistry.sol`: the hash of each policy version a
tenant put in force.  A version is written once, and only after all lower ones.
-/

namespace BrainCore.Contracts

open BrainCore.Foundation

/-- A caller's transaction, and what the signature checker learns while it runs. -/
structure RegistryContext (scheme : SigningScheme) extends CallContext where
  oracle : SignatureOracle scheme

structure RegisteredPolicy where
  policyHash : Bytes32 := 0
  signers : List Address := []
  activatedAt : Uint256 := 0
  isRegistered : Bool := false

structure PolicyRegistry where
  book : SignerRegistry
  /-- `address(this)`. -/
  self : Address
  registrations : Bytes32 → Uint256 → RegisteredPolicy := fun _ _ => {}
  latestVersion : Bytes32 → Uint256 := fun _ => 0
  registeredHash : Bytes32 → Bytes32 → Bool := fun _ _ => false

/-- The state-changing functions with their arguments. -/
inductive PolicyCall (σ : Type) where
  | transferAdmin (next : Address)
  | acceptAdmin
  | setTenantSigner (tenantId : Bytes32) (signer : Address) (allowed : Bool)
      (authSigners : List Address) (signatures : List σ)
  | setTenantThreshold (tenantId : Bytes32) (threshold : Uint256) (authSigners : List Address)
      (signatures : List σ)
  | registerPolicy (tenantId : Bytes32) (version : Uint256) (policyHash : Bytes32)
      (signers : List Address) (signatures : List σ)

namespace PolicyRegistry

variable {scheme : SigningScheme} (registry : PolicyRegistry) (context : RegistryContext scheme)

/-- The constructor. -/
def deployed (self admin : Address) : PolicyRegistry := { book := { initialAdmin := admin }, self }

/-- The separator of the chain id at deployment is cached; it is the same text. -/
def domain : Domain := ⟨"Brain Policy", "1", context.chainId, registry.self⟩

def digest (message : Message) : scheme.Digest := scheme.hash (registry.domain context) message

/-- The signature is the signer's over the message. -/
def valid (message : Message) (signer : Address) (signature : scheme.Signature) : Bool :=
  context.oracle.isValidSignature signer (registry.digest context message) signature

/-- The new registration, latest version and set of hashes. -/
def recorded (tenantId : Bytes32) (version : Uint256) (policyHash : Bytes32)
    (signers : List Address) : PolicyRegistry :=
  { registry with
    registrations := Function.update registry.registrations tenantId
      (Function.update (registry.registrations tenantId) version
        ⟨policyHash, signers, context.timestamp, true⟩)
    latestVersion := Function.update registry.latestVersion tenantId version
    registeredHash := Function.update registry.registeredHash tenantId
      (Function.update (registry.registeredHash tenantId) policyHash true) }

def registerPolicy (tenantId : Bytes32) (version : Uint256) (policyHash : Bytes32)
    (signers : List Address) (signatures : List scheme.Signature) :
    Except RegistryError PolicyRegistry :=
  if version = 0 then .error .invalidVersion
  else if (registry.registrations tenantId version).isRegistered then
    .error (.alreadyRegistered tenantId version)
  else if version ≤ registry.latestVersion tenantId then
    .error (.versionNotMonotonic tenantId version (registry.latestVersion tenantId))
  else do
    registry.book.requireQuorum tenantId
      (registry.valid context (.policyRegistration tenantId version policyHash)) .invalidSignatureOf
      signers signatures
    pure (registry.recorded context tenantId version policyHash signers)

/-- A call, or the error it reverts with. -/
def call : PolicyCall scheme.Signature → Except RegistryError PolicyRegistry
  | .transferAdmin next =>
      (registry.book.transferAdmin context.sender next).map fun book => { registry with book }
  | .acceptAdmin =>
      (registry.book.acceptAdmin context.sender).map fun book => { registry with book }
  | .setTenantSigner tenantId signer allowed authSigners signatures =>
      (registry.book.setTenantSigner tenantId signer allowed
        (registry.valid context
          (.tenantSignerChange tenantId signer allowed (registry.book.signerNonce tenantId)))
        .invalidSignatureOf authSigners signatures).map fun book => { registry with book }
  | .setTenantThreshold tenantId threshold authSigners signatures =>
      (registry.book.setTenantThreshold tenantId threshold
        (registry.valid context
          (.tenantThresholdChange tenantId threshold (registry.book.signerNonce tenantId)))
        .invalidSignatureOf authSigners signatures).map fun book => { registry with book }
  | .registerPolicy tenantId version policyHash signers signatures =>
      registry.registerPolicy context tenantId version policyHash signers signatures

/-! ## What an accepted registration does -/

variable {registry context}

theorem registerPolicy_ok {next : PolicyRegistry} {tenantId policyHash : Bytes32}
    {version : Uint256} {signers : List Address} {signatures : List scheme.Signature}
    (h : registry.registerPolicy context tenantId version policyHash signers signatures = .ok next) :
    (registry.registrations tenantId version).isRegistered = false ∧
      registry.latestVersion tenantId < version ∧
      registry.book.QuorumSigned tenantId
        (registry.valid context (.policyRegistration tenantId version policyHash)) signers signatures ∧
      next = registry.recorded context tenantId version policyHash signers := by
  unfold registerPolicy at h
  split at h
  · cases h
  split at h
  · cases h
  rename_i hfresh
  split at h
  · cases h
  rename_i hversion
  obtain ⟨_, hquorum, h⟩ := bind_ok.mp h
  exact ⟨by simpa using hfresh, not_le.mp hversion, SignerRegistry.requireQuorum_ok hquorum,
    (pure_ok.mp h).symm⟩

end PolicyRegistry

/-!
## The agent registry

`contracts/src/BrainMCPAgentRegistry.sol`: which agents a tenant attests to,
under a scope and a behavior hash.  An id is used once, and a revoked agent
stays revoked.
-/

structure AgentRegistration where
  agentId : Bytes32 := 0
  agentAddress : Address := 0
  tenantId : Bytes32 := 0
  scopeHash : Bytes32 := 0
  behaviorHash : Bytes32 := 0
  registeredAt : Uint256 := 0
  revokedAt : Uint256 := 0
deriving DecidableEq

structure AgentRegistry where
  book : SignerRegistry
  /-- `address(this)`. -/
  self : Address
  agents : Bytes32 → AgentRegistration := fun _ => {}
  behaviorNonce : Bytes32 → Uint256 := fun _ => 0
  scopeNonce : Bytes32 → Uint256 := fun _ => 0
  revocationNonce : Bytes32 → Uint256 := fun _ => 0

inductive AgentCall (σ : Type) where
  | transferAdmin (next : Address)
  | acceptAdmin
  | setTenantSigner (tenantId : Bytes32) (signer : Address) (allowed : Bool)
      (authSigners : List Address) (signatures : List σ)
  | setTenantThreshold (tenantId : Bytes32) (threshold : Uint256) (authSigners : List Address)
      (signatures : List σ)
  | registerAgent (agentId : Bytes32) (agentAddress : Address)
      (tenantId scopeHash behaviorHash : Bytes32) (authSigners : List Address) (signatures : List σ)
  | updateBehaviorHash (agentId behaviorHash : Bytes32) (authSigners : List Address)
      (signatures : List σ)
  | updateScopeHash (agentId scopeHash : Bytes32) (authSigners : List Address) (signatures : List σ)
  | revokeAgent (agentId : Bytes32) (authSigners : List Address) (signatures : List σ)

namespace AgentRegistry

variable {scheme : SigningScheme} (registry : AgentRegistry) (context : RegistryContext scheme)

/-- The constructor. -/
def deployed (self admin : Address) : AgentRegistry := { book := { initialAdmin := admin }, self }

def domain : Domain := ⟨"Brain MCP Agent", "1", context.chainId, registry.self⟩

def digest (message : Message) : scheme.Digest := scheme.hash (registry.domain context) message

def valid (message : Message) (signer : Address) (signature : scheme.Signature) : Bool :=
  context.oracle.isValidSignature signer (registry.digest context message) signature

/-- The quorum of a tenant over a message; a bad signature is reverted without its signer. -/
def requireQuorum (tenantId : Bytes32) (message : Message) (authSigners : List Address)
    (signatures : List scheme.Signature) : Except RegistryError Unit :=
  registry.book.requireQuorum tenantId (registry.valid context message) (fun _ => .invalidSignature)
    authSigners signatures

/-- `_liveAgent`. -/
def liveAgent (agentId : Bytes32) : Except RegistryError AgentRegistration :=
  if (registry.agents agentId).registeredAt = 0 then .error (.agentNotRegistered agentId)
  else if (registry.agents agentId).revokedAt ≠ 0 then .error (.agentRevoked agentId)
  else .ok (registry.agents agentId)

def isAuthorized (agentId tenantId : Bytes32) : Bool :=
  let r := registry.agents agentId
  r.registeredAt ≠ 0 && r.revokedAt = 0 && r.tenantId = tenantId

def withAgent (agentId : Bytes32) (agent : AgentRegistration) : AgentRegistry :=
  { registry with agents := Function.update registry.agents agentId agent }

def registerAgent (agentId : Bytes32) (agentAddress : Address)
    (tenantId scopeHash behaviorHash : Bytes32) (authSigners : List Address)
    (signatures : List scheme.Signature) : Except RegistryError AgentRegistry :=
  if agentAddress = 0 then .error .zeroAddress
  else if (registry.agents agentId).registeredAt ≠ 0 then .error (.agentAlreadyRegistered agentId)
  else do
    registry.requireQuorum context tenantId
      (.agentRegistration agentId agentAddress tenantId scopeHash behaviorHash) authSigners signatures
    pure (registry.withAgent agentId
      { agentId, agentAddress, tenantId, scopeHash, behaviorHash, registeredAt := context.timestamp })

/-- A change of a live agent: the quorum of its tenant over a message with the current nonce. -/
def updateLive (agentId : Bytes32) (message : AgentRegistration → Message) (current : Uint256)
    (change : AgentRegistration → Uint256 → AgentRegistry) (authSigners : List Address)
    (signatures : List scheme.Signature) : Except RegistryError AgentRegistry := do
  let r ← registry.liveAgent agentId
  registry.requireQuorum context r.tenantId (message r) authSigners signatures
  let nonce ← checked .arithmeticOverflow (Uint256.add? current 1)
  pure (change r nonce)

def updateBehaviorHash (agentId behaviorHash : Bytes32) :
    List Address → List scheme.Signature → Except RegistryError AgentRegistry :=
  registry.updateLive context agentId
    (fun r => .agentBehaviorUpdate agentId r.tenantId behaviorHash (registry.behaviorNonce agentId))
    (registry.behaviorNonce agentId)
    fun r nonce => { registry.withAgent agentId { r with behaviorHash } with
      behaviorNonce := Function.update registry.behaviorNonce agentId nonce }

def updateScopeHash (agentId scopeHash : Bytes32) :
    List Address → List scheme.Signature → Except RegistryError AgentRegistry :=
  registry.updateLive context agentId
    (fun r => .agentScopeUpdate agentId r.tenantId scopeHash (registry.scopeNonce agentId))
    (registry.scopeNonce agentId)
    fun r nonce => { registry.withAgent agentId { r with scopeHash } with
      scopeNonce := Function.update registry.scopeNonce agentId nonce }

def revokeAgent (agentId : Bytes32) :
    List Address → List scheme.Signature → Except RegistryError AgentRegistry :=
  registry.updateLive context agentId
    (fun r => .agentRevocation agentId r.tenantId (registry.revocationNonce agentId))
    (registry.revocationNonce agentId)
    fun r nonce => { registry.withAgent agentId { r with revokedAt := context.timestamp } with
      revocationNonce := Function.update registry.revocationNonce agentId nonce }

/-- A call, or the error it reverts with. -/
def call : AgentCall scheme.Signature → Except RegistryError AgentRegistry
  | .transferAdmin next =>
      (registry.book.transferAdmin context.sender next).map fun book => { registry with book }
  | .acceptAdmin =>
      (registry.book.acceptAdmin context.sender).map fun book => { registry with book }
  | .setTenantSigner tenantId signer allowed authSigners signatures =>
      (registry.book.setTenantSigner tenantId signer allowed
        (registry.valid context
          (.tenantSignerChange tenantId signer allowed (registry.book.signerNonce tenantId)))
        (fun _ => .invalidSignature) authSigners signatures).map fun book => { registry with book }
  | .setTenantThreshold tenantId threshold authSigners signatures =>
      (registry.book.setTenantThreshold tenantId threshold
        (registry.valid context
          (.tenantThresholdChange tenantId threshold (registry.book.signerNonce tenantId)))
        (fun _ => .invalidSignature) authSigners signatures).map fun book => { registry with book }
  | .registerAgent agentId agentAddress tenantId scopeHash behaviorHash authSigners signatures =>
      registry.registerAgent context agentId agentAddress tenantId scopeHash behaviorHash authSigners
        signatures
  | .updateBehaviorHash agentId behaviorHash authSigners signatures =>
      registry.updateBehaviorHash context agentId behaviorHash authSigners signatures
  | .updateScopeHash agentId scopeHash authSigners signatures =>
      registry.updateScopeHash context agentId scopeHash authSigners signatures
  | .revokeAgent agentId authSigners signatures =>
      registry.revokeAgent context agentId authSigners signatures

/-! ## What an accepted call does -/

variable {registry context}

theorem liveAgent_ok {agentId : Bytes32} {r : AgentRegistration}
    (h : registry.liveAgent agentId = .ok r) :
    r = registry.agents agentId ∧ r.registeredAt ≠ 0 ∧ r.revokedAt = 0 := by
  unfold liveAgent at h
  split at h
  · cases h
  rename_i hregistered
  split at h
  · cases h
  rename_i hrevoked
  obtain rfl := Except.ok.inj h
  exact ⟨rfl, hregistered, not_not.mp hrevoked⟩

section

variable {next : AgentRegistry} {agentId : Bytes32} {authSigners : List Address}
  {signatures : List scheme.Signature}

theorem registerAgent_ok {agentAddress : Address} {tenantId scopeHash behaviorHash : Bytes32}
    (h : registry.registerAgent context agentId agentAddress tenantId scopeHash behaviorHash
      authSigners signatures = .ok next) :
    (registry.agents agentId).registeredAt = 0 ∧
      registry.book.QuorumSigned tenantId (registry.valid context
        (.agentRegistration agentId agentAddress tenantId scopeHash behaviorHash))
        authSigners signatures ∧
      next = registry.withAgent agentId { agentId, agentAddress, tenantId, scopeHash, behaviorHash,
                                          registeredAt := context.timestamp } := by
  unfold registerAgent at h
  split at h
  · cases h
  split at h
  · cases h
  rename_i hfresh
  obtain ⟨_, hquorum, h⟩ := bind_ok.mp h
  exact ⟨not_not.mp hfresh, SignerRegistry.requireQuorum_ok hquorum, (pure_ok.mp h).symm⟩

theorem updateLive_ok {message : AgentRegistration → Message} {current : Uint256}
    {change : AgentRegistration → Uint256 → AgentRegistry}
    (h : registry.updateLive context agentId message current change authSigners signatures = .ok next) :
    ∃ nonce : Uint256, (registry.agents agentId).registeredAt ≠ 0 ∧
      (registry.agents agentId).revokedAt = 0 ∧
      registry.book.QuorumSigned (registry.agents agentId).tenantId
        (registry.valid context (message (registry.agents agentId))) authSigners signatures ∧
      nonce.val = current.val + 1 ∧ next = change (registry.agents agentId) nonce := by
  unfold updateLive at h
  obtain ⟨r, hlive, h⟩ := bind_ok.mp h
  obtain ⟨_, hquorum, h⟩ := bind_ok.mp h
  obtain ⟨nonce, hnonce, h⟩ := bind_ok.mp h
  obtain ⟨rfl, hregistered, hrevoked⟩ := liveAgent_ok hlive
  exact ⟨nonce, hregistered, hrevoked, SignerRegistry.requireQuorum_ok hquorum,
    Uint256.add?_eq_some_iff.mp (checked_ok.mp hnonce), (pure_ok.mp h).symm⟩

end

end AgentRegistry

/-!
## Both registries, call after call

Any caller sends any call to either registry; a call that reverts changes
nothing.  In every state this reaches the count of each tenant is the number of
its signers and its threshold can be met.
-/

structure Registries where
  policies : PolicyRegistry
  agents : AgentRegistry

inductive RegistryTx (scheme : SigningScheme) where
  | policies (context : RegistryContext scheme) (call : PolicyCall scheme.Signature)
  | agents (context : RegistryContext scheme) (call : AgentCall scheme.Signature)

namespace Registries

variable {scheme : SigningScheme}

/-- The two contracts with their addresses and first admins. -/
def deployed (policySelf policyAdmin agentSelf agentAdmin : Address) : Registries :=
  ⟨.deployed policySelf policyAdmin, .deployed agentSelf agentAdmin⟩

/-- The registries after a transaction, or the error it reverts with. -/
def accept (s : Registries) : RegistryTx scheme → Except RegistryError Registries
  | .policies context call => (s.policies.call context call).map fun policies => { s with policies }
  | .agents context call => (s.agents.call context call).map fun agents => { s with agents }

def step (s : Registries) (tx : RegistryTx scheme) : Registries :=
  match s.accept tx with
  | .ok next => next
  | .error _ => s

/-- What holds of the registries is kept by every transaction that keeps it when accepted. -/
theorem step_keeps {holds : Registries → Prop} {s : Registries} {tx : RegistryTx scheme}
    (h : holds s) (haccept : ∀ next, s.accept tx = .ok next → holds next) : holds (s.step tx) := by
  unfold step
  cases hnext : s.accept tx with
  | error e => exact h
  | ok next => exact haccept next hnext

end Registries

def registriesMachine (scheme : SigningScheme) : Machine Registries (RegistryTx scheme) :=
  ⟨fun s tx => some (s.step tx)⟩

/-! ## Counts and thresholds -/

namespace Registries

variable {scheme : SigningScheme}

structure Counted (s : Registries) : Prop where
  policies : s.policies.book.WellCounted
  agents : s.agents.book.WellCounted

theorem transferAdmin_counted {book next : SignerRegistry} {sender admin : Address}
    (hcounted : book.WellCounted) (h : book.transferAdmin sender admin = .ok next) :
    next.WellCounted := by
  unfold SignerRegistry.transferAdmin at h
  split at h
  · cases h
  · obtain rfl := Except.ok.inj h
    exact hcounted.admin rfl rfl rfl

theorem acceptAdmin_counted {book next : SignerRegistry} {sender : Address}
    (hcounted : book.WellCounted) (h : book.acceptAdmin sender = .ok next) : next.WellCounted := by
  unfold SignerRegistry.acceptAdmin at h
  split at h
  · cases h
  · obtain rfl := Except.ok.inj h
    exact hcounted.admin rfl rfl rfl

theorem policyCall_counted {registry next : PolicyRegistry} {context : RegistryContext scheme}
    {call : PolicyCall scheme.Signature} (hcounted : registry.book.WellCounted)
    (h : registry.call context call = .ok next) : next.book.WellCounted := by
  cases call with
  | transferAdmin admin =>
      obtain ⟨book, hbook, rfl⟩ := map_ok.mp h
      exact transferAdmin_counted hcounted hbook
  | acceptAdmin =>
      obtain ⟨book, hbook, rfl⟩ := map_ok.mp h
      exact acceptAdmin_counted hcounted hbook
  | setTenantSigner =>
      obtain ⟨book, hbook, rfl⟩ := map_ok.mp h
      exact hcounted.setTenantSigner hbook
  | setTenantThreshold =>
      obtain ⟨book, hbook, rfl⟩ := map_ok.mp h
      exact hcounted.setTenantThreshold hbook
  | registerPolicy =>
      obtain ⟨-, -, -, rfl⟩ := PolicyRegistry.registerPolicy_ok h
      exact hcounted

theorem agentCall_counted {registry next : AgentRegistry} {context : RegistryContext scheme}
    {call : AgentCall scheme.Signature} (hcounted : registry.book.WellCounted)
    (h : registry.call context call = .ok next) : next.book.WellCounted := by
  cases call with
  | transferAdmin admin =>
      obtain ⟨book, hbook, rfl⟩ := map_ok.mp h
      exact transferAdmin_counted hcounted hbook
  | acceptAdmin =>
      obtain ⟨book, hbook, rfl⟩ := map_ok.mp h
      exact acceptAdmin_counted hcounted hbook
  | setTenantSigner =>
      obtain ⟨book, hbook, rfl⟩ := map_ok.mp h
      exact hcounted.setTenantSigner hbook
  | setTenantThreshold =>
      obtain ⟨book, hbook, rfl⟩ := map_ok.mp h
      exact hcounted.setTenantThreshold hbook
  | registerAgent =>
      obtain ⟨-, -, rfl⟩ := AgentRegistry.registerAgent_ok h
      exact hcounted
  | updateBehaviorHash | updateScopeHash | revokeAgent =>
      obtain ⟨_, -, -, -, -, rfl⟩ := AgentRegistry.updateLive_ok h
      exact hcounted

theorem Counted.step {s : Registries} (tx : RegistryTx scheme) (h : s.Counted) :
    (s.step tx).Counted := by
  apply step_keeps h
  intro next haccept
  cases tx with
  | policies context call =>
      obtain ⟨policies, hcall, rfl⟩ := map_ok.mp haccept
      exact ⟨policyCall_counted h.policies hcall, h.agents⟩
  | agents context call =>
      obtain ⟨agents, hcall, rfl⟩ := map_ok.mp haccept
      exact ⟨h.policies, agentCall_counted h.agents hcall⟩

theorem deployed_counted (policySelf policyAdmin agentSelf agentAdmin : Address) :
    (deployed policySelf policyAdmin agentSelf agentAdmin).Counted :=
  ⟨SignerRegistry.wellCounted_of_admin _, SignerRegistry.wellCounted_of_admin _⟩

theorem Counted.run {s final : Registries} {txs : List (RegistryTx scheme)} (h : s.Counted)
    (hrun : (registriesMachine scheme).run s txs = some final) : final.Counted := by
  apply (registriesMachine scheme).invariant_of_run _ h hrun
  intro state tx next hstate hstep
  exact Option.some.inj hstep ▸ hstate.step tx

/-- In every reachable state of the registries each tenant's count is the number of its signers,
and its threshold is one without signers and between one and their number with them. -/
theorem counted_of_run {policySelf policyAdmin agentSelf agentAdmin : Address}
    {txs : List (RegistryTx scheme)} {final : Registries}
    (hrun : (registriesMachine scheme).run (deployed policySelf policyAdmin agentSelf agentAdmin) txs =
      some final) : final.Counted :=
  (deployed_counted policySelf policyAdmin agentSelf agentAdmin).run hrun

end Registries

end BrainCore.Contracts
