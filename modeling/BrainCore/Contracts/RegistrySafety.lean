import BrainCore.Contracts.RegistryAuthorization

/-!
# Safety of the registries over whole runs

The guarantees of both registries together: who signed what was accepted, that
nothing signed is accepted twice, and what is permanent once it is written.
-/

namespace BrainCore.Contracts

open BrainCore.Foundation

namespace Registries

variable {scheme : SigningScheme}

def authorization (s : Registries) : RegistryTx scheme → Option (Authorization scheme)
  | .policies context call => s.policies.authorization context call
  | .agents context call => s.agents.authorization context call

/-- The digest an accepted change was signed under. -/
def acceptedDigest (s : Registries) (tx : RegistryTx scheme) : Option scheme.Digest :=
  match s.accept tx with
  | .error _ => none
  | .ok _ => (s.authorization tx).map (·.digest)

/-- Only the admins of the registries differ. -/
structure Rotated (s next : Registries) : Prop where
  policies : ∃ initialAdmin pendingAdmin,
    next.policies = { s.policies with book := { s.policies.book with initialAdmin, pendingAdmin } }
  agents : ∃ initialAdmin pendingAdmin,
    next.agents = { s.agents with book := { s.agents.book with initialAdmin, pendingAdmin } }

/-- What holds of every transaction that is accepted in a state. -/
structure Authorized (scheme : SigningScheme) (s : Registries) : Prop where
  signed : ∀ (tx : RegistryTx scheme) next auth, s.accept tx = .ok next →
    s.authorization tx = some auth → auth.HasSigner → auth.Signed
  rotated : ∀ (tx : RegistryTx scheme) next, s.accept tx = .ok next →
    s.authorization tx = none → s.Rotated next
  version : ∀ (context : RegistryContext scheme) tenantId version policyHash signers signatures next,
    s.accept (.policies context (.registerPolicy tenantId version policyHash signers signatures)) =
      .ok next →
    s.policies.latestVersion tenantId < version ∧ next.policies.latestVersion tenantId = version
  registration : ∀ (context : RegistryContext scheme) agentId agentAddress tenantId scopeHash
      behaviorHash authSigners signatures next,
    s.accept (.agents context (.registerAgent agentId agentAddress tenantId scopeHash behaviorHash
      authSigners signatures)) = .ok next →
    (s.agents.agents agentId).registeredAt = 0 ∧ (next.agents.agents agentId).registeredAt ≠ 0
  revocation : ∀ (context : RegistryContext scheme) agentId authSigners signatures next,
    s.accept (.agents context (.revokeAgent agentId authSigners signatures)) = .ok next →
    (next.agents.agents agentId).registeredAt ≠ 0 ∧ (next.agents.agents agentId).revokedAt ≠ 0

/-- What the registries never take back. -/
structure Grows (s next : Registries) : Prop where
  policies : s.policies.Grows next.policies
  agents : s.agents.Grows next.agents

/-! ## One transaction -/

theorem signed_of_accept {s next : Registries} {tx : RegistryTx scheme} (hcounted : s.Counted)
    (h : s.accept tx = .ok next) {auth : Authorization scheme}
    (hauth : s.authorization tx = some auth) (hsigner : auth.HasSigner) : auth.Signed := by
  cases tx with
  | policies context call =>
      obtain ⟨policies, hcall, rfl⟩ := map_ok.mp h
      exact PolicyRegistry.signed hcounted.policies hcall hauth hsigner
  | agents context call =>
      obtain ⟨agents, hcall, rfl⟩ := map_ok.mp h
      exact AgentRegistry.signed hcounted.agents hcall hauth hsigner

theorem rotated_book {book next : SignerRegistry} {sender admin : Address}
    (h : book.transferAdmin sender admin = .ok next ∨ book.acceptAdmin sender = .ok next) :
    ∃ initialAdmin pendingAdmin, next = { book with initialAdmin, pendingAdmin } := by
  unfold SignerRegistry.transferAdmin SignerRegistry.acceptAdmin at h
  rcases h with h | h
  · split at h
    · cases h
    · exact ⟨_, _, (Except.ok.inj h).symm⟩
  · split at h
    · cases h
    · exact ⟨_, _, (Except.ok.inj h).symm⟩

theorem rotated_of_accept {s next : Registries} {tx : RegistryTx scheme}
    (h : s.accept tx = .ok next) (hauth : s.authorization tx = none) : s.Rotated next := by
  cases tx with
  | policies context call =>
      obtain ⟨policies, hcall, rfl⟩ := map_ok.mp h
      refine ⟨?_, _, _, rfl⟩
      cases call with
      | transferAdmin admin =>
          obtain ⟨book, hbook, rfl⟩ := map_ok.mp hcall
          obtain ⟨initialAdmin, pendingAdmin, rfl⟩ := rotated_book (.inl hbook)
          exact ⟨_, _, rfl⟩
      | acceptAdmin =>
          obtain ⟨book, hbook, rfl⟩ := map_ok.mp hcall
          obtain ⟨initialAdmin, pendingAdmin, rfl⟩ :=
            @rotated_book _ _ _ 0 (.inr hbook)
          exact ⟨_, _, rfl⟩
      | setTenantSigner | setTenantThreshold | registerPolicy => cases hauth
  | agents context call =>
      obtain ⟨agents, hcall, rfl⟩ := map_ok.mp h
      refine ⟨⟨_, _, rfl⟩, ?_⟩
      cases call with
      | transferAdmin admin =>
          obtain ⟨book, hbook, rfl⟩ := map_ok.mp hcall
          obtain ⟨initialAdmin, pendingAdmin, rfl⟩ := rotated_book (.inl hbook)
          exact ⟨_, _, rfl⟩
      | acceptAdmin =>
          obtain ⟨book, hbook, rfl⟩ := map_ok.mp hcall
          obtain ⟨initialAdmin, pendingAdmin, rfl⟩ :=
            @rotated_book _ _ _ 0 (.inr hbook)
          exact ⟨_, _, rfl⟩
      | setTenantSigner | setTenantThreshold | registerAgent | updateBehaviorHash
      | updateScopeHash | revokeAgent => cases hauth

theorem Counted.authorized {s : Registries} (hcounted : s.Counted) : s.Authorized scheme := by
  constructor
  · exact fun tx next auth h hauth hsigner => signed_of_accept hcounted h hauth hsigner
  · exact fun tx next h hauth => rotated_of_accept h hauth
  · intro context tenantId version policyHash signers signatures next h
    obtain ⟨policies, hcall, rfl⟩ := map_ok.mp h
    obtain ⟨-, hversion, -, rfl⟩ := PolicyRegistry.registerPolicy_ok hcall
    exact ⟨hversion, Function.update_self ..⟩
  · intro context agentId agentAddress tenantId scopeHash behaviorHash authSigners signatures next h
    obtain ⟨agents, hcall, rfl⟩ := map_ok.mp h
    obtain ⟨hfresh, -, rfl⟩ := AgentRegistry.registerAgent_ok hcall
    refine ⟨hfresh, ?_⟩
    simpa [AgentRegistry.withAgent] using context.timestamp_ne_zero
  · intro context agentId authSigners signatures next h
    obtain ⟨agents, hcall, rfl⟩ := map_ok.mp h
    obtain ⟨nonce, hregistered, -, -, -, rfl⟩ := AgentRegistry.updateLive_ok hcall
    refine ⟨?_, ?_⟩
    · simpa [AgentRegistry.withAgent] using hregistered
    · simpa [AgentRegistry.withAgent] using context.timestamp_ne_zero

theorem Grows.refl (s : Registries) : s.Grows s := ⟨.refl _, .refl _⟩

theorem Grows.trans {s next last : Registries} (h : s.Grows next) (h' : next.Grows last) :
    s.Grows last := ⟨h.policies.trans h'.policies, h.agents.trans h'.agents⟩

theorem step_grows (s : Registries) (tx : RegistryTx scheme) : s.Grows (s.step tx) := by
  apply step_keeps (Grows.refl s)
  intro next h
  cases tx with
  | policies context call =>
      obtain ⟨policies, hcall, rfl⟩ := map_ok.mp h
      exact ⟨PolicyRegistry.call_grows hcall, .refl _⟩
  | agents context call =>
      obtain ⟨agents, hcall, rfl⟩ := map_ok.mp h
      exact ⟨.refl _, AgentRegistry.call_grows hcall⟩

/-! ## Spent digests -/

/-- No later transaction is accepted under this digest. -/
def Spent (s : Registries) (digest : scheme.Digest) : Prop :=
  ∃ domain message, digest = scheme.hash domain message ∧
    (domain.name = "Brain Policy" ∧ s.policies.Spent message ∨
      domain.name = "Brain MCP Agent" ∧ s.agents.Spent message)

theorem Spent.step {s : Registries} {digest : scheme.Digest} (tx : RegistryTx scheme)
    (h : s.Spent digest) : (s.step tx).Spent digest := by
  obtain ⟨domain, message, hdigest, hspent⟩ := h
  have hgrows := step_grows s tx
  refine ⟨domain, message, hdigest, hspent.imp ?_ ?_⟩
  · exact fun ⟨hname, hpolicies⟩ => ⟨hname, hpolicies.of_grows hgrows.policies⟩
  · exact fun ⟨hname, hagents⟩ => ⟨hname, hagents.of_grows hgrows.agents⟩

/-- The domain of an authorization is the one of its registry. -/
theorem policies_domain {registry : PolicyRegistry} {context : RegistryContext scheme}
    {call : PolicyCall scheme.Signature} {auth : Authorization scheme}
    (h : registry.authorization context call = some auth) : auth.domain.name = "Brain Policy" := by
  cases call <;> cases h <;> rfl

theorem agents_domain {registry : AgentRegistry} {context : RegistryContext scheme}
    {call : AgentCall scheme.Signature} {auth : Authorization scheme}
    (h : registry.authorization context call = some auth) : auth.domain.name = "Brain MCP Agent" := by
  cases call <;> cases h <;> rfl

/-- An accepted digest was not spent before, and is spent from then on. -/
theorem spends {s : Registries} {tx : RegistryTx scheme} {digest : scheme.Digest}
    (h : s.acceptedDigest tx = some digest) : ¬s.Spent digest ∧ (s.step tx).Spent digest := by
  unfold acceptedDigest at h
  cases haccept : s.accept tx with
  | error e =>
      rw [haccept] at h
      cases h
  | ok next =>
      rw [haccept] at h
      obtain ⟨auth, hauth, rfl⟩ := Option.map_eq_some_iff.mp h
      have hnext : s.step tx = next := by rw [step, haccept]
      rw [hnext]
      cases tx with
      | policies context call =>
          obtain ⟨policies, hcall, rfl⟩ := map_ok.mp haccept
          obtain ⟨hfresh, hspent⟩ := PolicyRegistry.spends hcall hauth
          have hname := policies_domain hauth
          refine ⟨?_, auth.domain, auth.message, rfl, .inl ⟨hname, hspent⟩⟩
          rintro ⟨domain, message, hsame, hother⟩
          obtain ⟨rfl, rfl⟩ := scheme.injective _ _ _ _ hsame
          rcases hother with ⟨-, hother⟩ | ⟨hother, -⟩
          · exact hfresh hother
          · rw [hname] at hother
            exact absurd hother (by decide)
      | agents context call =>
          obtain ⟨agents, hcall, rfl⟩ := map_ok.mp haccept
          obtain ⟨hfresh, hspent⟩ := AgentRegistry.spends hcall hauth
          have hname := agents_domain hauth
          refine ⟨?_, auth.domain, auth.message, rfl, .inr ⟨hname, hspent⟩⟩
          rintro ⟨domain, message, hsame, hother⟩
          obtain ⟨rfl, rfl⟩ := scheme.injective _ _ _ _ hsame
          rcases hother with ⟨hother, -⟩ | ⟨-, hother⟩
          · rw [hname] at hother
            exact absurd hother (by decide)
          · exact hfresh hother

/-! ## Whole runs -/

theorem grows_of_run {s final : Registries} {txs : List (RegistryTx scheme)}
    (hrun : (registriesMachine scheme).run s txs = some final) : s.Grows final := by
  apply (registriesMachine scheme).invariant_of_run _ (Grows.refl s) hrun
  intro state tx next h hstep
  exact h.trans (Option.some.inj hstep ▸ step_grows state tx)

/-- Digests are the structs themselves, and a signature names who made it. -/
def plainScheme : SigningScheme where
  Digest := Domain × Message
  Signature := Address
  hash := Prod.mk
  injective := fun _ _ _ _ h => ⟨congrArg Prod.fst h, congrArg Prod.snd h⟩

def plainContext : RegistryContext plainScheme where
  sender := 3
  timestamp := 1000
  chainId := 8453
  sender_ne_zero := by decide
  timestamp_ne_zero := by decide
  oracle := ⟨fun _ signature => signature, fun _ => false, fun _ _ _ => false⟩

/-- The admins seat signer 7 for tenant 5. -/
def seated : List (RegistryTx plainScheme) :=
  [.policies plainContext (.setTenantSigner 5 7 true [1] [(1 : Address)]),
    .agents plainContext (.setTenantSigner 5 7 true [2] [(2 : Address)])]

/-- The signer puts a policy in force and revokes an agent. -/
def signedChanges : List (RegistryTx plainScheme) :=
  [.policies plainContext (.registerPolicy 5 1 99 [7] [(7 : Address)]),
    .agents plainContext (.registerAgent 11 12 5 13 14 [7] [(7 : Address)]),
    .agents plainContext (.revokeAgent 11 [7] [(7 : Address)])]

def afterSeating : Registries := seated.foldl step (deployed 100 1 200 2)

theorem seated_counted :
    afterSeating.Counted ∧ afterSeating.policies.book.tenantSignerCount 5 = 1 := by
  have hrun : (registriesMachine plainScheme).run (deployed 100 1 200 2) seated =
      some afterSeating := rfl
  exact ⟨counted_of_run hrun, by decide⟩

example : ((registriesMachine plainScheme).emitted acceptedDigest (deployed 100 1 200 2)
    (seated ++ signedChanges)).length = 5 := by rfl

end Registries

end BrainCore.Contracts
