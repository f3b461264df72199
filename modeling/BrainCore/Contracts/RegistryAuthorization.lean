import BrainCore.Contracts.Registries

/-!
# Authorization by the signers, without replay

Every accepted change of a tenant with signers carries the quorum over a digest
of that change, and a digest is accepted once: a registration uses up a version
or an id, every other change uses up a nonce.
-/

namespace BrainCore.Contracts

open BrainCore.Foundation

/-! ## What a call is authorized by -/

/-- The typed struct of a change, with the signers that have to sign it. -/
structure Authorization (scheme : SigningScheme) where
  book : SignerRegistry
  oracle : SignatureOracle scheme
  tenantId : Bytes32
  domain : Domain
  message : Message
  signers : List Address
  signatures : List scheme.Signature

namespace Authorization

variable {scheme : SigningScheme} (auth : Authorization scheme)

def digest : scheme.Digest := scheme.hash auth.domain auth.message

/-- The tenant has a signer. -/
def HasSigner : Prop := ∃ signer, auth.book.tenantSigners auth.tenantId signer = true

/-- At least a threshold of distinct current signers signed the digest. -/
def Signed : Prop :=
  auth.book.QuorumSigned auth.tenantId
    (fun signer signature => auth.oracle.isValidSignature signer auth.digest signature)
    auth.signers auth.signatures

end Authorization

namespace PolicyRegistry

variable {scheme : SigningScheme} (registry : PolicyRegistry) (context : RegistryContext scheme)

/-- What each call has to be signed for; the admin rotates on its own. -/
def authorization : PolicyCall scheme.Signature → Option (Authorization scheme)
  | .transferAdmin _ | .acceptAdmin => none
  | .setTenantSigner tenantId signer allowed authSigners signatures =>
      some ⟨registry.book, context.oracle, tenantId, registry.domain context,
        .tenantSignerChange tenantId signer allowed (registry.book.signerNonce tenantId),
        authSigners, signatures⟩
  | .setTenantThreshold tenantId threshold authSigners signatures =>
      some ⟨registry.book, context.oracle, tenantId, registry.domain context,
        .tenantThresholdChange tenantId threshold (registry.book.signerNonce tenantId),
        authSigners, signatures⟩
  | .registerPolicy tenantId version policyHash signers signatures =>
      some ⟨registry.book, context.oracle, tenantId, registry.domain context,
        .policyRegistration tenantId version policyHash, signers, signatures⟩

/-- A struct that no later call accepts. -/
def Spent : Message → Prop
  | .policyRegistration tenantId version _ => version ≤ registry.latestVersion tenantId
  | .tenantSignerChange tenantId _ _ nonce => nonce < registry.book.signerNonce tenantId
  | .tenantThresholdChange tenantId _ nonce => nonce < registry.book.signerNonce tenantId
  | _ => False

/-- What time does not undo. -/
structure Grows (next : PolicyRegistry) : Prop where
  version_le : ∀ tenantId, registry.latestVersion tenantId ≤ next.latestVersion tenantId
  nonce_le : ∀ tenantId, registry.book.signerNonce tenantId ≤ next.book.signerNonce tenantId
  /-- A registered version is written once. -/
  written : ∀ tenantId version, (registry.registrations tenantId version).isRegistered = true →
    next.registrations tenantId version = registry.registrations tenantId version

end PolicyRegistry

namespace AgentRegistry

variable {scheme : SigningScheme} (registry : AgentRegistry) (context : RegistryContext scheme)

def authorizationOf (tenantId : Bytes32) (message : Message) (signers : List Address)
    (signatures : List scheme.Signature) : Authorization scheme :=
  ⟨registry.book, context.oracle, tenantId, registry.domain context, message, signers, signatures⟩

def authorization : AgentCall scheme.Signature → Option (Authorization scheme)
  | .transferAdmin _ | .acceptAdmin => none
  | .setTenantSigner tenantId signer allowed authSigners signatures =>
      some (registry.authorizationOf context tenantId
        (.tenantSignerChange tenantId signer allowed (registry.book.signerNonce tenantId))
        authSigners signatures)
  | .setTenantThreshold tenantId threshold authSigners signatures =>
      some (registry.authorizationOf context tenantId
        (.tenantThresholdChange tenantId threshold (registry.book.signerNonce tenantId))
        authSigners signatures)
  | .registerAgent agentId agentAddress tenantId scopeHash behaviorHash authSigners signatures =>
      some (registry.authorizationOf context tenantId
        (.agentRegistration agentId agentAddress tenantId scopeHash behaviorHash)
        authSigners signatures)
  | .updateBehaviorHash agentId behaviorHash authSigners signatures =>
      let tenantId := (registry.agents agentId).tenantId
      some (registry.authorizationOf context tenantId
        (.agentBehaviorUpdate agentId tenantId behaviorHash (registry.behaviorNonce agentId))
        authSigners signatures)
  | .updateScopeHash agentId scopeHash authSigners signatures =>
      let tenantId := (registry.agents agentId).tenantId
      some (registry.authorizationOf context tenantId
        (.agentScopeUpdate agentId tenantId scopeHash (registry.scopeNonce agentId))
        authSigners signatures)
  | .revokeAgent agentId authSigners signatures =>
      let tenantId := (registry.agents agentId).tenantId
      some (registry.authorizationOf context tenantId
        (.agentRevocation agentId tenantId (registry.revocationNonce agentId)) authSigners signatures)

def Spent : Message → Prop
  | .tenantSignerChange tenantId _ _ nonce => nonce < registry.book.signerNonce tenantId
  | .tenantThresholdChange tenantId _ nonce => nonce < registry.book.signerNonce tenantId
  | .agentRegistration agentId _ _ _ _ => (registry.agents agentId).registeredAt ≠ 0
  | .agentBehaviorUpdate agentId _ _ nonce => nonce < registry.behaviorNonce agentId
  | .agentScopeUpdate agentId _ _ nonce => nonce < registry.scopeNonce agentId
  | .agentRevocation agentId _ nonce => nonce < registry.revocationNonce agentId
  | .policyRegistration _ _ _ => False

structure Grows (next : AgentRegistry) : Prop where
  nonce_le : ∀ tenantId, registry.book.signerNonce tenantId ≤ next.book.signerNonce tenantId
  behavior_le : ∀ agentId, registry.behaviorNonce agentId ≤ next.behaviorNonce agentId
  scope_le : ∀ agentId, registry.scopeNonce agentId ≤ next.scopeNonce agentId
  revocation_le : ∀ agentId, registry.revocationNonce agentId ≤ next.revocationNonce agentId
  /-- A registered id keeps its tenant and its address. -/
  identity : ∀ agentId, (registry.agents agentId).registeredAt ≠ 0 →
    (next.agents agentId).registeredAt = (registry.agents agentId).registeredAt ∧
      (next.agents agentId).tenantId = (registry.agents agentId).tenantId ∧
      (next.agents agentId).agentAddress = (registry.agents agentId).agentAddress
  /-- A revoked agent stays as it is. -/
  revoked : ∀ agentId, (registry.agents agentId).registeredAt ≠ 0 →
    (registry.agents agentId).revokedAt ≠ 0 → next.agents agentId = registry.agents agentId

end AgentRegistry

/-! ## Growth -/

theorem lt_of_val_succ {n : ℕ} {a b : Fin n} (h : b.val = a.val + 1) : a < b := by
  rw [Fin.lt_def]
  omega

/-- A counter of one key that goes up by one. -/
theorem le_update_succ {κ : Type} [DecidableEq κ] {counter : κ → Uint256} {key : κ}
    {next : Uint256} (h : next.val = (counter key).val + 1) (other : κ) :
    counter other ≤ Function.update counter key next other := by
  by_cases same : other = key
  · subst same
    rw [Function.update_self]
    exact le_of_lt (lt_of_val_succ h)
  · rw [Function.update_of_ne same]

namespace PolicyRegistry

variable {scheme : SigningScheme} {registry next : PolicyRegistry}
  {context : RegistryContext scheme} {call : PolicyCall scheme.Signature}

theorem Grows.refl (registry : PolicyRegistry) : registry.Grows registry :=
  ⟨fun _ => le_refl _, fun _ => le_refl _, fun _ _ _ => rfl⟩

theorem Grows.trans {last : PolicyRegistry} (h : registry.Grows next) (h' : next.Grows last) :
    registry.Grows last := by
  refine ⟨fun t => (h.version_le t).trans (h'.version_le t),
    fun t => (h.nonce_le t).trans (h'.nonce_le t), fun t version hregistered => ?_⟩
  have hkept := h.written t version hregistered
  rw [h'.written t version (by rw [hkept, hregistered]), hkept]

theorem call_grows (h : registry.call context call = .ok next) : registry.Grows next := by
  cases call with
  | transferAdmin admin =>
      obtain ⟨book, hbook, rfl⟩ := map_ok.mp h
      unfold SignerRegistry.transferAdmin at hbook
      split at hbook
      · cases hbook
      · obtain rfl := Except.ok.inj hbook
        exact ⟨fun _ => le_refl _, fun _ => le_refl _, fun _ _ _ => rfl⟩
  | acceptAdmin =>
      obtain ⟨book, hbook, rfl⟩ := map_ok.mp h
      unfold SignerRegistry.acceptAdmin at hbook
      split at hbook
      · cases hbook
      · obtain rfl := Except.ok.inj hbook
        exact ⟨fun _ => le_refl _, fun _ => le_refl _, fun _ _ _ => rfl⟩
  | setTenantSigner tenantId signer allowed authSigners signatures =>
      obtain ⟨book, hbook, rfl⟩ := map_ok.mp h
      obtain ⟨_, nonce, -, -, hnonce, rfl⟩ := SignerRegistry.setTenantSigner_ok hbook
      exact ⟨fun _ => le_refl _, le_update_succ hnonce, fun _ _ _ => rfl⟩
  | setTenantThreshold tenantId threshold authSigners signatures =>
      obtain ⟨book, hbook, rfl⟩ := map_ok.mp h
      obtain ⟨nonce, -, -, -, hnonce, rfl⟩ := SignerRegistry.setTenantThreshold_ok hbook
      exact ⟨fun _ => le_refl _, le_update_succ hnonce, fun _ _ _ => rfl⟩
  | registerPolicy tenantId version policyHash signers signatures =>
      obtain ⟨hfresh, hversion, -, rfl⟩ := registerPolicy_ok h
      refine ⟨fun t => ?_, fun _ => le_refl _, fun t other hregistered => ?_⟩
      · unfold recorded
        dsimp only
        by_cases same : t = tenantId
        · subst same
          rw [Function.update_self]
          exact le_of_lt hversion
        · rw [Function.update_of_ne same]
      · unfold recorded
        dsimp only
        by_cases same : t = tenantId
        · subst same
          rw [Function.update_self]
          by_cases hother : other = version
          · subst hother
            rw [hfresh] at hregistered
            cases hregistered
          · rw [Function.update_of_ne hother]
        · rw [Function.update_of_ne same]

/-- What is spent stays spent. -/
theorem Spent.of_grows {message : Message} (hgrows : registry.Grows next)
    (h : registry.Spent message) : next.Spent message := by
  cases message with
  | policyRegistration tenantId version policyHash => exact le_trans h (hgrows.version_le tenantId)
  | tenantSignerChange tenantId signer allowed nonce => exact lt_of_lt_of_le h (hgrows.nonce_le tenantId)
  | tenantThresholdChange tenantId threshold nonce => exact lt_of_lt_of_le h (hgrows.nonce_le tenantId)
  | agentRegistration | agentRevocation | agentBehaviorUpdate | agentScopeUpdate => exact h.elim

/-- An accepted change was not spent before it, and is spent after it. -/
theorem spends (h : registry.call context call = .ok next) {auth : Authorization scheme}
    (hauth : registry.authorization context call = some auth) :
    ¬registry.Spent auth.message ∧ next.Spent auth.message := by
  cases call with
  | transferAdmin | acceptAdmin => cases hauth
  | setTenantSigner tenantId signer allowed authSigners signatures =>
      obtain rfl := Option.some.inj hauth
      obtain ⟨book, hbook, rfl⟩ := map_ok.mp h
      obtain ⟨_, nonce, -, -, hnonce, rfl⟩ := SignerRegistry.setTenantSigner_ok hbook
      refine ⟨lt_irrefl (registry.book.signerNonce tenantId), ?_⟩
      simpa [Spent] using lt_of_val_succ hnonce
  | setTenantThreshold tenantId threshold authSigners signatures =>
      obtain rfl := Option.some.inj hauth
      obtain ⟨book, hbook, rfl⟩ := map_ok.mp h
      obtain ⟨nonce, -, -, -, hnonce, rfl⟩ := SignerRegistry.setTenantThreshold_ok hbook
      refine ⟨lt_irrefl (registry.book.signerNonce tenantId), ?_⟩
      simpa [Spent] using lt_of_val_succ hnonce
  | registerPolicy tenantId version policyHash signers signatures =>
      obtain rfl := Option.some.inj hauth
      obtain ⟨-, hversion, -, rfl⟩ := registerPolicy_ok h
      exact ⟨not_le.mpr hversion, by simp [Spent, recorded]⟩

/-- While a tenant has a signer, what is accepted is signed. -/
theorem signed (hcounted : registry.book.WellCounted)
    (h : registry.call context call = .ok next) {auth : Authorization scheme}
    (hauth : registry.authorization context call = some auth) (hsigner : auth.HasSigner) :
    auth.Signed := by
  cases call with
  | transferAdmin | acceptAdmin => cases hauth
  | setTenantSigner tenantId signer allowed authSigners signatures =>
      obtain rfl := Option.some.inj hauth
      obtain ⟨book, hbook, rfl⟩ := map_ok.mp h
      obtain ⟨_, _, hquorum, -⟩ := SignerRegistry.setTenantSigner_ok hbook
      obtain ⟨member, hmember⟩ := hsigner
      exact SignerRegistry.requireSignerChange_ok hquorum
        ((hcounted tenantId).count_ne_zero hmember)
  | setTenantThreshold tenantId threshold authSigners signatures =>
      obtain rfl := Option.some.inj hauth
      obtain ⟨book, hbook, rfl⟩ := map_ok.mp h
      obtain ⟨_, hquorum, -⟩ := SignerRegistry.setTenantThreshold_ok hbook
      exact hquorum
  | registerPolicy tenantId version policyHash signers signatures =>
      obtain rfl := Option.some.inj hauth
      obtain ⟨-, -, hquorum, -⟩ := registerPolicy_ok h
      exact hquorum

end PolicyRegistry

namespace AgentRegistry

variable {scheme : SigningScheme} {registry next : AgentRegistry}
  {context : RegistryContext scheme} {call : AgentCall scheme.Signature}

theorem Grows.refl (registry : AgentRegistry) : registry.Grows registry :=
  ⟨fun _ => le_refl _, fun _ => le_refl _, fun _ => le_refl _, fun _ => le_refl _,
    fun _ _ => ⟨rfl, rfl, rfl⟩, fun _ _ _ => rfl⟩

theorem Grows.trans {last : AgentRegistry} (h : registry.Grows next) (h' : next.Grows last) :
    registry.Grows last := by
  refine ⟨fun t => (h.nonce_le t).trans (h'.nonce_le t),
    fun id => (h.behavior_le id).trans (h'.behavior_le id),
    fun id => (h.scope_le id).trans (h'.scope_le id),
    fun id => (h.revocation_le id).trans (h'.revocation_le id), ?_, ?_⟩
  · intro id hregistered
    obtain ⟨hat, htenant, haddress⟩ := h.identity id hregistered
    obtain ⟨hat', htenant', haddress'⟩ := h'.identity id (hat ▸ hregistered)
    exact ⟨hat'.trans hat, htenant'.trans htenant, haddress'.trans haddress⟩
  · intro id hregistered hrevoked
    have hkept := h.revoked id hregistered hrevoked
    exact (h'.revoked id (hkept ▸ hregistered) (hkept ▸ hrevoked)).trans hkept

/-- The admin rotates, or the signers of a tenant change. -/
theorem grows_of_book {book : SignerRegistry}
    (hnonce : ∀ tenantId, registry.book.signerNonce tenantId ≤ book.signerNonce tenantId) :
    registry.Grows { registry with book } :=
  ⟨hnonce, fun _ => le_refl _, fun _ => le_refl _, fun _ => le_refl _,
    fun _ _ => ⟨rfl, rfl, rfl⟩, fun _ _ _ => rfl⟩

/-- A live agent changes and keeps its tenant, its address and when it was registered. -/
theorem identity_of_update {agentId : Bytes32} {agent : AgentRegistration}
    (hlive : (registry.agents agentId).revokedAt = 0)
    (hat : agent.registeredAt = (registry.agents agentId).registeredAt)
    (htenant : agent.tenantId = (registry.agents agentId).tenantId)
    (haddress : agent.agentAddress = (registry.agents agentId).agentAddress) (id : Bytes32) :
    (((registry.withAgent agentId agent).agents id).registeredAt = (registry.agents id).registeredAt ∧
      ((registry.withAgent agentId agent).agents id).tenantId = (registry.agents id).tenantId ∧
      ((registry.withAgent agentId agent).agents id).agentAddress = (registry.agents id).agentAddress) ∧
    ((registry.agents id).revokedAt ≠ 0 →
      (registry.withAgent agentId agent).agents id = registry.agents id) := by
  unfold withAgent
  dsimp only
  by_cases same : id = agentId
  · subst same
    rw [Function.update_self]
    exact ⟨⟨hat, htenant, haddress⟩, fun hrevoked => absurd hlive hrevoked⟩
  · rw [Function.update_of_ne same]
    exact ⟨⟨rfl, rfl, rfl⟩, fun _ => rfl⟩

theorem call_grows (h : registry.call context call = .ok next) : registry.Grows next := by
  cases call with
  | transferAdmin admin =>
      obtain ⟨book, hbook, rfl⟩ := map_ok.mp h
      unfold SignerRegistry.transferAdmin at hbook
      split at hbook
      · cases hbook
      · obtain rfl := Except.ok.inj hbook
        exact grows_of_book fun _ => le_refl _
  | acceptAdmin =>
      obtain ⟨book, hbook, rfl⟩ := map_ok.mp h
      unfold SignerRegistry.acceptAdmin at hbook
      split at hbook
      · cases hbook
      · obtain rfl := Except.ok.inj hbook
        exact grows_of_book fun _ => le_refl _
  | setTenantSigner tenantId signer allowed authSigners signatures =>
      obtain ⟨book, hbook, rfl⟩ := map_ok.mp h
      obtain ⟨_, nonce, -, -, hnonce, rfl⟩ := SignerRegistry.setTenantSigner_ok hbook
      exact grows_of_book (le_update_succ hnonce)
  | setTenantThreshold tenantId threshold authSigners signatures =>
      obtain ⟨book, hbook, rfl⟩ := map_ok.mp h
      obtain ⟨nonce, -, -, -, hnonce, rfl⟩ := SignerRegistry.setTenantThreshold_ok hbook
      exact grows_of_book (le_update_succ hnonce)
  | registerAgent agentId agentAddress tenantId scopeHash behaviorHash authSigners signatures =>
      obtain ⟨hfresh, -, rfl⟩ := registerAgent_ok h
      have hother : ∀ id, (registry.agents id).registeredAt ≠ 0 → id ≠ agentId := by
        rintro id hregistered rfl
        exact hregistered hfresh
      refine ⟨fun _ => le_refl _, fun _ => le_refl _, fun _ => le_refl _, fun _ => le_refl _,
        fun id hregistered => ?_, fun id hregistered _ => ?_⟩
      · unfold withAgent
        dsimp only
        rw [Function.update_of_ne (hother id hregistered)]
        exact ⟨rfl, rfl, rfl⟩
      · exact Function.update_of_ne (hother id hregistered) _ _
  | updateBehaviorHash agentId behaviorHash authSigners signatures =>
      obtain ⟨nonce, -, hlive, -, hnonce, rfl⟩ := updateLive_ok h
      have hidentity := @identity_of_update registry agentId { registry.agents agentId with behaviorHash } hlive rfl rfl
        rfl
      exact ⟨fun _ => le_refl _, le_update_succ hnonce, fun _ => le_refl _, fun _ => le_refl _,
        fun id _ => (hidentity id).1, fun id _ => (hidentity id).2⟩
  | updateScopeHash agentId scopeHash authSigners signatures =>
      obtain ⟨nonce, -, hlive, -, hnonce, rfl⟩ := updateLive_ok h
      have hidentity := @identity_of_update registry agentId { registry.agents agentId with scopeHash } hlive rfl rfl
        rfl
      exact ⟨fun _ => le_refl _, fun _ => le_refl _, le_update_succ hnonce, fun _ => le_refl _,
        fun id _ => (hidentity id).1, fun id _ => (hidentity id).2⟩
  | revokeAgent agentId authSigners signatures =>
      obtain ⟨nonce, -, hlive, -, hnonce, rfl⟩ := updateLive_ok h
      have hidentity := @identity_of_update registry agentId { registry.agents agentId with revokedAt := context.timestamp } hlive rfl rfl
        rfl
      exact ⟨fun _ => le_refl _, fun _ => le_refl _, fun _ => le_refl _, le_update_succ hnonce,
        fun id _ => (hidentity id).1, fun id _ => (hidentity id).2⟩

theorem Spent.of_grows {message : Message} (hgrows : registry.Grows next)
    (h : registry.Spent message) : next.Spent message := by
  cases message with
  | policyRegistration => exact h.elim
  | tenantSignerChange tenantId signer allowed nonce => exact lt_of_lt_of_le h (hgrows.nonce_le tenantId)
  | tenantThresholdChange tenantId threshold nonce => exact lt_of_lt_of_le h (hgrows.nonce_le tenantId)
  | agentRegistration agentId agentAddress tenantId scopeHash behaviorHash =>
      change (next.agents agentId).registeredAt ≠ 0
      rw [(hgrows.identity agentId h).1]
      exact h
  | agentRevocation agentId tenantId nonce => exact lt_of_lt_of_le h (hgrows.revocation_le agentId)
  | agentBehaviorUpdate agentId tenantId behaviorHash nonce =>
      exact lt_of_lt_of_le h (hgrows.behavior_le agentId)
  | agentScopeUpdate agentId tenantId scopeHash nonce => exact lt_of_lt_of_le h (hgrows.scope_le agentId)

theorem spends (h : registry.call context call = .ok next) {auth : Authorization scheme}
    (hauth : registry.authorization context call = some auth) :
    ¬registry.Spent auth.message ∧ next.Spent auth.message := by
  cases call with
  | transferAdmin | acceptAdmin => cases hauth
  | setTenantSigner tenantId signer allowed authSigners signatures =>
      obtain rfl := Option.some.inj hauth
      obtain ⟨book, hbook, rfl⟩ := map_ok.mp h
      obtain ⟨_, nonce, -, -, hnonce, rfl⟩ := SignerRegistry.setTenantSigner_ok hbook
      refine ⟨lt_irrefl (registry.book.signerNonce tenantId), ?_⟩
      simpa [Spent, authorizationOf] using lt_of_val_succ hnonce
  | setTenantThreshold tenantId threshold authSigners signatures =>
      obtain rfl := Option.some.inj hauth
      obtain ⟨book, hbook, rfl⟩ := map_ok.mp h
      obtain ⟨nonce, -, -, -, hnonce, rfl⟩ := SignerRegistry.setTenantThreshold_ok hbook
      refine ⟨lt_irrefl (registry.book.signerNonce tenantId), ?_⟩
      simpa [Spent, authorizationOf] using lt_of_val_succ hnonce
  | registerAgent agentId agentAddress tenantId scopeHash behaviorHash authSigners signatures =>
      obtain rfl := Option.some.inj hauth
      obtain ⟨hfresh, -, rfl⟩ := registerAgent_ok h
      refine ⟨fun hspent => hspent hfresh, ?_⟩
      simpa [Spent, authorizationOf, withAgent] using context.timestamp_ne_zero
  | updateBehaviorHash agentId behaviorHash authSigners signatures =>
      obtain rfl := Option.some.inj hauth
      obtain ⟨nonce, -, -, -, hnonce, rfl⟩ := updateLive_ok h
      refine ⟨lt_irrefl (registry.behaviorNonce agentId), ?_⟩
      simpa [Spent, authorizationOf] using lt_of_val_succ hnonce
  | updateScopeHash agentId scopeHash authSigners signatures =>
      obtain rfl := Option.some.inj hauth
      obtain ⟨nonce, -, -, -, hnonce, rfl⟩ := updateLive_ok h
      refine ⟨lt_irrefl (registry.scopeNonce agentId), ?_⟩
      simpa [Spent, authorizationOf] using lt_of_val_succ hnonce
  | revokeAgent agentId authSigners signatures =>
      obtain rfl := Option.some.inj hauth
      obtain ⟨nonce, -, -, -, hnonce, rfl⟩ := updateLive_ok h
      refine ⟨lt_irrefl (registry.revocationNonce agentId), ?_⟩
      simpa [Spent, authorizationOf] using lt_of_val_succ hnonce

theorem signed (hcounted : registry.book.WellCounted)
    (h : registry.call context call = .ok next) {auth : Authorization scheme}
    (hauth : registry.authorization context call = some auth) (hsigner : auth.HasSigner) :
    auth.Signed := by
  cases call with
  | transferAdmin | acceptAdmin => cases hauth
  | setTenantSigner tenantId signer allowed authSigners signatures =>
      obtain rfl := Option.some.inj hauth
      obtain ⟨book, hbook, rfl⟩ := map_ok.mp h
      obtain ⟨_, _, hquorum, -⟩ := SignerRegistry.setTenantSigner_ok hbook
      obtain ⟨member, hmember⟩ := hsigner
      exact SignerRegistry.requireSignerChange_ok hquorum
        ((hcounted tenantId).count_ne_zero hmember)
  | setTenantThreshold tenantId threshold authSigners signatures =>
      obtain rfl := Option.some.inj hauth
      obtain ⟨book, hbook, rfl⟩ := map_ok.mp h
      obtain ⟨_, hquorum, -⟩ := SignerRegistry.setTenantThreshold_ok hbook
      exact hquorum
  | registerAgent agentId agentAddress tenantId scopeHash behaviorHash authSigners signatures =>
      obtain rfl := Option.some.inj hauth
      exact (registerAgent_ok h).2.1
  | updateBehaviorHash | updateScopeHash | revokeAgent =>
      obtain rfl := Option.some.inj hauth
      obtain ⟨_, -, -, hquorum, -⟩ := updateLive_ok h
      exact hquorum

end AgentRegistry

end BrainCore.Contracts
