import BrainCore.Foundation.Evm
import BrainCore.Foundation.Result
import Mathlib.Data.Set.Card
import Mathlib.Logic.Function.Basic

/-!
# Tenant signers and thresholds

The part that `contracts/src/BrainPolicyRegistry.sol` and
`contracts/src/BrainMCPAgentRegistry.sol` have in common: the signers of each
tenant with their count, the threshold, the nonce and the rotating admin that
seats a first signer.  Each registry keeps its own.
-/

namespace BrainCore.Contracts

open BrainCore.Foundation

/-! ## Errors and signatures -/

inductive RegistryError where
  | zeroAddress
  | notAdmin
  | notPendingAdmin
  | emptySignerSet
  | signatureLengthMismatch
  | duplicateSigner (signer : Address)
  | notTenantSigner (signer : Address)
  | belowThreshold (tenantId : Bytes32) (supplied : Nat) (required : Uint256)
  | invalidThreshold (threshold signerCount : Uint256)
  | thresholdWouldExceedSigners (remainingSigners threshold : Uint256)
  | invalidSignatureOf (signer : Address)
  | invalidSignature
  | invalidVersion
  | alreadyRegistered (tenantId : Bytes32) (version : Uint256)
  | versionNotMonotonic (tenantId : Bytes32) (supplied latest : Uint256)
  | agentAlreadyRegistered (agentId : Bytes32)
  | agentNotRegistered (agentId : Bytes32)
  | agentRevoked (agentId : Bytes32)
  | arithmeticOverflow
deriving DecidableEq

/-- The fields of `EIP712Domain`. -/
structure Domain where
  name : String
  version : String
  chainId : Uint256
  verifyingContract : Address
deriving DecidableEq

/-- The typed structs that are signed, with their fields. -/
inductive Message where
  | policyRegistration (tenantId : Bytes32) (version : Uint256) (policyHash : Bytes32)
  | tenantSignerChange (tenantId : Bytes32) (signer : Address) (allowed : Bool) (nonce : Uint256)
  | tenantThresholdChange (tenantId : Bytes32) (threshold nonce : Uint256)
  | agentRegistration (agentId : Bytes32) (agentAddress : Address)
      (tenantId scopeHash behaviorHash : Bytes32)
  | agentRevocation (agentId tenantId : Bytes32) (nonce : Uint256)
  | agentBehaviorUpdate (agentId tenantId behaviorHash : Bytes32) (nonce : Uint256)
  | agentScopeUpdate (agentId tenantId scopeHash : Bytes32) (nonce : Uint256)
deriving DecidableEq

/-- Digests and signatures; the hash of a typed struct under its domain has no collision. -/
structure SigningScheme where
  Digest : Type
  Signature : Type
  hash : Domain → Message → Digest
  injective : ∀ domain message domain' message', hash domain message = hash domain' message' →
    domain = domain' ∧ message = message'

/-- What `BrainSignatureChecker` asks the chain. -/
structure SignatureOracle (scheme : SigningScheme) where
  recoverEoa : scheme.Digest → scheme.Signature → Address
  hasCode : Address → Bool
  /-- The ERC-1271 static call returns the magic value. -/
  erc1271 : Address → scheme.Digest → scheme.Signature → Bool

/-- Recovery first, then the signer's own contract. -/
def SignatureOracle.isValidSignature {scheme : SigningScheme} (oracle : SignatureOracle scheme)
    (signer : Address) (digest : scheme.Digest) (signature : scheme.Signature) : Bool :=
  if signer = 0 then false
  else if oracle.recoverEoa digest signature = signer then true
  else if !oracle.hasCode signer then false
  else oracle.erc1271 signer digest signature

/-! ## The signers of a registry -/

structure SignerRegistry where
  tenantSigners : Bytes32 → Address → Bool := fun _ _ => false
  tenantSignerCount : Bytes32 → Uint256 := fun _ => 0
  tenantThreshold : Bytes32 → Uint256 := fun _ => 0
  signerNonce : Bytes32 → Uint256 := fun _ => 0
  initialAdmin : Address
  pendingAdmin : Address := 0

namespace SignerRegistry

def transferAdmin (registry : SignerRegistry) (sender next : Address) :
    Except RegistryError SignerRegistry :=
  if sender ≠ registry.initialAdmin then .error .notAdmin
  else .ok { registry with pendingAdmin := next }

def acceptAdmin (registry : SignerRegistry) (sender : Address) :
    Except RegistryError SignerRegistry :=
  if sender ≠ registry.pendingAdmin then .error .notPendingAdmin
  else .ok { registry with initialAdmin := registry.pendingAdmin, pendingAdmin := 0 }

/-- Unset is read as one. -/
def thresholdOf (registry : SignerRegistry) (tenantId : Bytes32) : Uint256 :=
  if registry.tenantThreshold tenantId = 0 then 1 else registry.tenantThreshold tenantId

section Quorum

variable {σ : Type} (registry : SignerRegistry) (tenantId : Bytes32)
  (valid : Address → σ → Bool) (bad : Address → RegistryError)

/-- The loop over the claimed signers, after the one that came before. -/
def requireSigners : Option Address → List (Address × σ) → Except RegistryError Unit
  | _, [] => .ok ()
  | previous, (signer, signature) :: rest =>
      if previous.any fun last => signer ≤ last then .error (.duplicateSigner signer)
      else if !registry.tenantSigners tenantId signer then .error (.notTenantSigner signer)
      else if !valid signer signature then .error (bad signer)
      else requireSigners (some signer) rest

/-- `_requireQuorum`, for signatures that `valid` says are over the digest. -/
def requireQuorum (signers : List Address) (signatures : List σ) : Except RegistryError Unit :=
  if signers.length = 0 then .error .emptySignerSet
  else if signers.length ≠ signatures.length then .error .signatureLengthMismatch
  else if signers.length < (registry.thresholdOf tenantId).val then
    .error (.belowThreshold tenantId signers.length (registry.thresholdOf tenantId))
  else registry.requireSigners tenantId valid bad none (signers.zip signatures)

/-- Who may authorise a signer change: the admin alone while there is no signer. -/
def requireSignerChange (signers : List Address) (signatures : List σ) :
    Except RegistryError Unit :=
  if registry.tenantSignerCount tenantId = 0 then
    match signers, signatures with
    | [signer], signature :: _ =>
        if signer ≠ registry.initialAdmin then .error (.notTenantSigner signer)
        else if !valid registry.initialAdmin signature then .error (bad registry.initialAdmin)
        else .ok ()
    | signer :: _, _ => .error (.notTenantSigner signer)
    | [], _ => .error .emptySignerSet
  else registry.requireQuorum tenantId valid bad signers signatures

end Quorum

/-- The count after the change; a removal may not leave fewer signers than the threshold. -/
def countAfter (registry : SignerRegistry) (tenantId : Bytes32) (signer : Address)
    (allowed : Bool) : Except RegistryError Uint256 :=
  let count := registry.tenantSignerCount tenantId
  if allowed && !registry.tenantSigners tenantId signer then
    checked .arithmeticOverflow (Uint256.add? count 1)
  else if !allowed && registry.tenantSigners tenantId signer then do
    let remaining ← checked .arithmeticOverflow (Uint256.sub? count 1)
    if remaining ≠ 0 ∧ remaining < registry.thresholdOf tenantId then
      .error (.thresholdWouldExceedSigners remaining (registry.thresholdOf tenantId))
    else pure remaining
  else .ok count

/-- The signatures are over the digest of this change and the current nonce.  The form with a
single signature calls this one with one-element lists. -/
def setTenantSigner {σ : Type} (registry : SignerRegistry) (tenantId : Bytes32) (signer : Address)
    (allowed : Bool) (valid : Address → σ → Bool) (bad : Address → RegistryError)
    (authSigners : List Address) (signatures : List σ) : Except RegistryError SignerRegistry :=
  if signer = 0 then .error .zeroAddress
  else if authSigners.length = 0 then .error .emptySignerSet
  else if authSigners.length ≠ signatures.length then .error .signatureLengthMismatch
  else do
    registry.requireSignerChange tenantId valid bad authSigners signatures
    let count ← registry.countAfter tenantId signer allowed
    let nonce ← checked .arithmeticOverflow (Uint256.add? (registry.signerNonce tenantId) 1)
    pure { registry with
      tenantSignerCount := Function.update registry.tenantSignerCount tenantId count
      tenantSigners := Function.update registry.tenantSigners tenantId
        (Function.update (registry.tenantSigners tenantId) signer allowed)
      signerNonce := Function.update registry.signerNonce tenantId nonce }

/-- At most the number of signers, and at least one. -/
def setTenantThreshold {σ : Type} (registry : SignerRegistry) (tenantId : Bytes32)
    (threshold : Uint256) (valid : Address → σ → Bool) (bad : Address → RegistryError)
    (authSigners : List Address) (signatures : List σ) : Except RegistryError SignerRegistry := do
  registry.requireQuorum tenantId valid bad authSigners signatures
  let count := registry.tenantSignerCount tenantId
  if threshold = 0 ∨ threshold > count then .error (.invalidThreshold threshold count)
  else do
    let nonce ← checked .arithmeticOverflow (Uint256.add? (registry.signerNonce tenantId) 1)
    pure { registry with
      tenantThreshold := Function.update registry.tenantThreshold tenantId threshold
      signerNonce := Function.update registry.signerNonce tenantId nonce }

end SignerRegistry

end BrainCore.Contracts
