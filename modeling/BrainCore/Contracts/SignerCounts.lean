import BrainCore.Contracts.SignerRegistry

/-!
# The signer count and the threshold

The stored count is the number of allowed signers, and the threshold stays
between one and the count, so a tenant is neither locked out nor left open.
-/

namespace BrainCore.Contracts

open BrainCore.Foundation

namespace SignerRegistry

/-! ## What an accepted quorum says -/

/-- At least a threshold of distinct signers of the tenant, each with a valid signature. -/
structure QuorumSigned {σ : Type} (registry : SignerRegistry) (tenantId : Bytes32)
    (valid : Address → σ → Bool) (signers : List Address) (signatures : List σ) : Prop where
  lengths : signers.length = signatures.length
  enough : (registry.thresholdOf tenantId).val ≤ signers.length
  distinct : signers.Nodup
  signed : ∀ entry ∈ signers.zip signatures,
    registry.tenantSigners tenantId entry.1 = true ∧ valid entry.1 entry.2 = true

section Quorum

variable {σ : Type} {registry : SignerRegistry} {tenantId : Bytes32}
  {valid : Address → σ → Bool} {bad : Address → RegistryError}

theorem requireSigners_ok {entries : List (Address × σ)} {previous : Option Address}
    (h : registry.requireSigners tenantId valid bad previous entries = .ok ()) :
    (∀ last ∈ previous, ∀ entry ∈ entries, last < entry.1) ∧
      (entries.map Prod.fst).Pairwise (· < ·) ∧
      ∀ entry ∈ entries,
        registry.tenantSigners tenantId entry.1 = true ∧ valid entry.1 entry.2 = true := by
  induction entries generalizing previous with
  | nil => exact ⟨fun _ _ _ hmem => (nomatch hmem), .nil, fun _ hmem => (nomatch hmem)⟩
  | cons entry rest ih =>
      obtain ⟨signer, signature⟩ := entry
      rw [requireSigners] at h
      split at h
      · cases h
      rename_i horder
      split at h
      · cases h
      rename_i hsigner
      split at h
      · cases h
      rename_i hvalid
      obtain ⟨hnext, hpairwise, hsigned⟩ := ih h
      have hbefore : ∀ last ∈ previous, last < signer := by
        intro last hlast
        rw [Option.mem_def] at hlast
        subst hlast
        simpa using horder
      refine ⟨fun last hlast => ?_, ?_, ?_⟩
      · rw [List.forall_mem_cons]
        refine ⟨hbefore last hlast, fun other hother => ?_⟩
        exact lt_trans (hbefore last hlast) (hnext signer rfl other hother)
      · rw [List.map_cons]
        refine List.Pairwise.cons (fun other hother => ?_) hpairwise
        obtain ⟨entry, hentry, rfl⟩ := List.mem_map.mp hother
        exact hnext signer rfl entry hentry
      · rw [List.forall_mem_cons]
        exact ⟨⟨by simpa using hsigner, by simpa using hvalid⟩, hsigned⟩

theorem requireQuorum_ok {signers : List Address} {signatures : List σ}
    (h : registry.requireQuorum tenantId valid bad signers signatures = .ok ()) :
    registry.QuorumSigned tenantId valid signers signatures := by
  unfold requireQuorum at h
  split at h
  · cases h
  split at h
  · cases h
  rename_i hlengths
  split at h
  · cases h
  rename_i henough
  rw [not_not] at hlengths
  obtain ⟨-, hpairwise, hsigned⟩ := requireSigners_ok h
  rw [List.map_fst_zip (le_of_eq hlengths)] at hpairwise
  exact ⟨hlengths, not_lt.mp henough, hpairwise.imp ne_of_lt, hsigned⟩

/-- While the count is positive, a signer change takes the quorum. -/
theorem requireSignerChange_ok {signers : List Address} {signatures : List σ}
    (h : registry.requireSignerChange tenantId valid bad signers signatures = .ok ())
    (hsome : registry.tenantSignerCount tenantId ≠ 0) :
    registry.QuorumSigned tenantId valid signers signatures := by
  unfold requireSignerChange at h
  rw [if_neg hsome] at h
  exact requireQuorum_ok h

end Quorum

/-! ## What an accepted change does -/

theorem countAfter_ok {registry : SignerRegistry} {tenantId : Bytes32} {signer : Address}
    {allowed : Bool} {count : Uint256} (h : registry.countAfter tenantId signer allowed = .ok count) :
    (allowed = true ∧ registry.tenantSigners tenantId signer = false ∧
        count.val = (registry.tenantSignerCount tenantId).val + 1) ∨
      (allowed = false ∧ registry.tenantSigners tenantId signer = true ∧
        (registry.tenantSignerCount tenantId).val = count.val + 1 ∧
        (count = 0 ∨ registry.thresholdOf tenantId ≤ count)) ∨
      (registry.tenantSigners tenantId signer = allowed ∧
        count = registry.tenantSignerCount tenantId) := by
  unfold countAfter at h
  dsimp only at h
  split at h
  · rename_i hadded
    rw [Bool.and_eq_true, Bool.not_eq_true'] at hadded
    exact .inl ⟨hadded.1, hadded.2, Uint256.add?_eq_some_iff.mp (checked_ok.mp h)⟩
  split at h
  · rename_i hremoved
    rw [Bool.and_eq_true, Bool.not_eq_true'] at hremoved
    obtain ⟨remaining, hremaining, h⟩ := bind_ok.mp h
    have hsub := Uint256.sub?_eq_some_iff.mp (checked_ok.mp hremaining)
    split at h
    · cases h
    · rename_i hkept
      obtain rfl := pure_ok.mp h
      rw [not_and_or, not_not, not_lt] at hkept
      refine .inr (.inl ⟨hremoved.1, hremoved.2, ?_, hkept⟩)
      rw [hsub, add_comm]
      rfl
  · rename_i hadded hremoved
    refine .inr (.inr ⟨?_, (Except.ok.inj h).symm⟩)
    cases allowed with
    | true => simpa using hadded
    | false => simpa using hremoved

section Changes

variable {σ : Type} {registry next : SignerRegistry} {tenantId : Bytes32}
  {valid : Address → σ → Bool} {bad : Address → RegistryError} {authSigners : List Address}
  {signatures : List σ}

theorem setTenantSigner_ok {signer : Address} {allowed : Bool}
    (h : registry.setTenantSigner tenantId signer allowed valid bad authSigners signatures = .ok next) :
    ∃ count nonce,
      registry.requireSignerChange tenantId valid bad authSigners signatures = .ok () ∧
      registry.countAfter tenantId signer allowed = .ok count ∧
      nonce.val = (registry.signerNonce tenantId).val + 1 ∧
      next = { registry with
        tenantSignerCount := Function.update registry.tenantSignerCount tenantId count
        tenantSigners := Function.update registry.tenantSigners tenantId
          (Function.update (registry.tenantSigners tenantId) signer allowed)
        signerNonce := Function.update registry.signerNonce tenantId nonce } := by
  unfold setTenantSigner at h
  split at h
  · cases h
  split at h
  · cases h
  split at h
  · cases h
  obtain ⟨_, hquorum, h⟩ := bind_ok.mp h
  obtain ⟨count, hcount, h⟩ := bind_ok.mp h
  obtain ⟨nonce, hnonce, h⟩ := bind_ok.mp h
  exact ⟨count, nonce, hquorum, hcount, Uint256.add?_eq_some_iff.mp (checked_ok.mp hnonce),
    (pure_ok.mp h).symm⟩

theorem setTenantThreshold_ok {threshold : Uint256}
    (h : registry.setTenantThreshold tenantId threshold valid bad authSigners signatures = .ok next) :
    ∃ nonce, registry.QuorumSigned tenantId valid authSigners signatures ∧
      threshold ≠ 0 ∧ threshold ≤ registry.tenantSignerCount tenantId ∧
      nonce.val = (registry.signerNonce tenantId).val + 1 ∧
      next = { registry with
        tenantThreshold := Function.update registry.tenantThreshold tenantId threshold
        signerNonce := Function.update registry.signerNonce tenantId nonce } := by
  unfold setTenantThreshold at h
  obtain ⟨_, hquorum, h⟩ := bind_ok.mp h
  dsimp only at h
  split at h
  · cases h
  rename_i hbounds
  rw [not_or, not_lt] at hbounds
  obtain ⟨nonce, hnonce, h⟩ := bind_ok.mp h
  exact ⟨nonce, requireQuorum_ok hquorum, hbounds.1, hbounds.2,
    Uint256.add?_eq_some_iff.mp (checked_ok.mp hnonce), (pure_ok.mp h).symm⟩

end Changes

/-! ## The invariant -/

/-- The allowed signers of a tenant. -/
def signerSet (registry : SignerRegistry) (tenantId : Bytes32) : Set Address :=
  {signer | registry.tenantSigners tenantId signer = true}

/-- What the count and the threshold of a tenant say about its signers. -/
structure TenantCounted (registry : SignerRegistry) (tenantId : Bytes32) : Prop where
  count : (registry.tenantSignerCount tenantId).val = (registry.signerSet tenantId).ncard
  unset : registry.tenantSignerCount tenantId = 0 → registry.thresholdOf tenantId = 1
  bounds : registry.tenantSignerCount tenantId ≠ 0 →
    1 ≤ registry.thresholdOf tenantId ∧
      registry.thresholdOf tenantId ≤ registry.tenantSignerCount tenantId

def WellCounted (registry : SignerRegistry) : Prop := ∀ tenantId, registry.TenantCounted tenantId

theorem one_le_thresholdOf (registry : SignerRegistry) (tenantId : Bytes32) :
    1 ≤ registry.thresholdOf tenantId := by
  unfold thresholdOf
  split
  · exact le_refl 1
  · rename_i hset
    rw [Fin.le_def]
    have hpos : (registry.tenantThreshold tenantId).val ≠ 0 := fun h => hset (Fin.ext h)
    change 1 ≤ (registry.tenantThreshold tenantId).val
    omega

/-- A registry without signers. -/
theorem wellCounted_of_admin (admin : Address) : WellCounted { initialAdmin := admin } := by
  intro tenantId
  refine ⟨?_, fun _ => rfl, fun h => absurd rfl h⟩
  have hnone : signerSet { initialAdmin := admin } tenantId = ∅ := by
    apply Set.eq_empty_of_forall_notMem
    intro signer hmem
    cases hmem
  rw [hnone, Set.ncard_empty]
  rfl

/-- With a positive count there is a signer, and the other way round. -/
theorem TenantCounted.count_ne_zero {registry : SignerRegistry} {tenantId : Bytes32}
    (h : registry.TenantCounted tenantId) {signer : Address}
    (hsigner : registry.tenantSigners tenantId signer = true) :
    registry.tenantSignerCount tenantId ≠ 0 := by
  intro hzero
  have hcount := h.count
  rw [hzero, Fin.val_zero, eq_comm, Set.ncard_eq_zero (Set.toFinite _)] at hcount
  exact Set.notMem_empty signer (hcount ▸ hsigner)

/-- The signer set after a change of one signer. -/
theorem signerSet_update (registry : SignerRegistry) (tenantId : Bytes32) (signer : Address)
    (allowed : Bool) :
    {other | Function.update (registry.tenantSigners tenantId) signer allowed other = true} =
      if allowed then insert signer (registry.signerSet tenantId)
      else registry.signerSet tenantId \ {signer} := by
  ext other
  by_cases hother : other = signer
  · subst hother
    cases allowed <;> simp
  · cases allowed <;> simp [signerSet, hother]

/-- The new count is the number of signers after the change. -/
theorem ncard_countAfter {registry : SignerRegistry} {tenantId : Bytes32} {signer : Address}
    {allowed : Bool} {count : Uint256} (hcounted : registry.TenantCounted tenantId)
    (h : registry.countAfter tenantId signer allowed = .ok count) :
    count.val =
      {other | Function.update (registry.tenantSigners tenantId) signer allowed other = true}.ncard := by
  rw [signerSet_update]
  rcases countAfter_ok h with ⟨rfl, hout, hcount⟩ | ⟨rfl, hin, hcount, -⟩ | ⟨hsame, rfl⟩
  · have hnew : signer ∉ registry.signerSet tenantId := by simp [signerSet, hout]
    rw [if_pos rfl, Set.ncard_insert_of_notMem hnew (Set.toFinite _), hcount, hcounted.count]
  · have hold : signer ∈ registry.signerSet tenantId := hin
    have hremove := Set.ncard_sdiff_singleton_add_one hold (Set.toFinite _)
    rw [if_neg Bool.false_ne_true]
    have hcounted := hcounted.count
    omega
  · rw [hcounted.count]
    congr 1
    cases allowed with
    | true =>
        have hin : signer ∈ registry.signerSet tenantId := hsame
        exact (Set.insert_eq_self.mpr hin).symm
    | false =>
        have hout : signer ∉ registry.signerSet tenantId := by simp [signerSet, hsame]
        exact (Set.sdiff_singleton_eq_self hout).symm

theorem WellCounted.setTenantSigner {σ : Type} {registry next : SignerRegistry}
    {tenantId : Bytes32} {signer : Address} {allowed : Bool} {valid : Address → σ → Bool}
    {bad : Address → RegistryError} {authSigners : List Address} {signatures : List σ}
    (hcounted : registry.WellCounted)
    (h : registry.setTenantSigner tenantId signer allowed valid bad authSigners signatures = .ok next) :
    next.WellCounted := by
  obtain ⟨count, nonce, -, hcount, -, rfl⟩ := setTenantSigner_ok h
  intro other
  by_cases hother : other = tenantId
  · subst hother
    have hset := ncard_countAfter (hcounted other) hcount
    refine ⟨?_, ?_, ?_⟩
    · simpa [signerSet] using hset
    · intro hzero
      have hzero : count = 0 := by simpa using hzero
      rcases countAfter_ok hcount with ⟨-, -, hval⟩ | ⟨-, -, hval, -⟩ | ⟨-, hsame⟩
      · rw [hzero, Fin.val_zero] at hval
        omega
      · -- the last signer leaves: the threshold was at most one
        rw [hzero, Fin.val_zero] at hval
        have hne : registry.tenantSignerCount other ≠ 0 := by
          intro h
          rw [h, Fin.val_zero] at hval
          omega
        have hbounds := (hcounted other).bounds hne
        refine le_antisymm ?_ hbounds.1
        rw [Fin.le_def]
        exact (Fin.le_def.mp hbounds.2).trans (le_of_eq hval)
      · exact (hcounted other).unset (hsame.symm.trans hzero)
    · intro hne
      have hne : count ≠ 0 := by simpa using hne
      refine ⟨one_le_thresholdOf _ _, ?_⟩
      have hle : registry.thresholdOf other ≤ count := by
        rcases countAfter_ok hcount with ⟨-, -, hval⟩ | ⟨-, -, -, hkept⟩ | ⟨-, hsame⟩
        · rw [Fin.le_def, hval]
          by_cases hzero : registry.tenantSignerCount other = 0
          · rw [(hcounted other).unset hzero]
            exact Nat.le_add_left ..
          · exact Nat.le_succ_of_le (Fin.le_def.mp ((hcounted other).bounds hzero).2)
        · exact hkept.resolve_left hne
        · exact hsame ▸ ((hcounted other).bounds (hsame ▸ hne)).2
      simpa [thresholdOf] using hle
  · have hold := hcounted other
    refine ⟨?_, ?_, ?_⟩
    · simpa [signerSet, Function.update_of_ne hother] using hold.count
    · simpa [thresholdOf, Function.update_of_ne hother] using hold.unset
    · simpa [thresholdOf, Function.update_of_ne hother] using hold.bounds

theorem WellCounted.setTenantThreshold {σ : Type} {registry next : SignerRegistry}
    {tenantId : Bytes32} {threshold : Uint256} {valid : Address → σ → Bool}
    {bad : Address → RegistryError} {authSigners : List Address} {signatures : List σ}
    (hcounted : registry.WellCounted)
    (h : registry.setTenantThreshold tenantId threshold valid bad authSigners signatures = .ok next) :
    next.WellCounted := by
  obtain ⟨nonce, -, hpos, hle, -, rfl⟩ := setTenantThreshold_ok h
  intro other
  by_cases hother : other = tenantId
  · subst hother
    refine ⟨(hcounted other).count, fun hzero => ?_, fun _ => ⟨one_le_thresholdOf _ _, ?_⟩⟩
    · rw [show registry.tenantSignerCount other = 0 from hzero] at hle
      exact absurd (le_antisymm hle (Fin.zero_le threshold)) hpos
    · simpa [thresholdOf, hpos] using hle
  · have hold := hcounted other
    refine ⟨hold.count, ?_, ?_⟩
    · simpa [thresholdOf, Function.update_of_ne hother] using hold.unset
    · simpa [thresholdOf, Function.update_of_ne hother] using hold.bounds

/-- The admin rotates without touching the signers of a tenant. -/
theorem WellCounted.admin {registry next : SignerRegistry} (hcounted : registry.WellCounted)
    (hsigners : next.tenantSigners = registry.tenantSigners)
    (hcount : next.tenantSignerCount = registry.tenantSignerCount)
    (hthreshold : next.tenantThreshold = registry.tenantThreshold) : next.WellCounted := by
  intro tenantId
  obtain ⟨h1, h2, h3⟩ := hcounted tenantId
  unfold signerSet thresholdOf at *
  constructor
  · unfold signerSet
    rw [hsigners, hcount]
    exact h1
  · unfold thresholdOf
    rw [hcount, hthreshold]
    exact h2
  · unfold thresholdOf
    rw [hcount, hthreshold]
    exact h3

end SignerRegistry

end BrainCore.Contracts
