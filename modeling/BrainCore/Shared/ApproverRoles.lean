import Mathlib.Data.Finset.Card
import Mathlib.Data.Fintype.Sum
import Mathlib.Data.List.Dedup

/-!
# The role quorum

`shared/src/gate/approverRoles.ts`: a named role is matched by the signed role
of that name and consumed once; a `signer` entry is a slot any remaining signed
role can fill.
-/

namespace BrainCore.Shared

def APPROVER_ROLE_TOKENS : List String := ["admin", "approver", "signer"]

/-- The loop over the required roles: what is still available, and the slots seen so far. -/
def quorumLoop : List String → Finset String → Nat → Bool
  | [], available, signerSlots => signerSlots ≤ available.card
  | requiredRole :: rest, available, signerSlots =>
      if requiredRole = "signer" then quorumLoop rest available (signerSlots + 1)
      else if requiredRole ∈ available then quorumLoop rest (available.erase requiredRole) signerSlots
      else false

def hasRequiredRoleQuorum (requiredRoles : List String) (signedRoles : Finset String) : Bool :=
  quorumLoop requiredRoles signedRoles 0

/-- The required roles that are not generic slots. -/
def namedRoles (requiredRoles : List String) : List String :=
  requiredRoles.filter (· ≠ "signer")

theorem quorumLoop_iff (requiredRoles : List String) (available : Finset String)
    (signerSlots : Nat) :
    quorumLoop requiredRoles available signerSlots = true ↔
      (namedRoles requiredRoles).Nodup ∧ (∀ role ∈ namedRoles requiredRoles, role ∈ available) ∧
        signerSlots + requiredRoles.length ≤ available.card := by
  induction requiredRoles generalizing available signerSlots with
  | nil => simp [quorumLoop, namedRoles]
  | cons role rest ih =>
      rw [quorumLoop]
      by_cases slot : role = "signer"
      · have hnamed : namedRoles (role :: rest) = namedRoles rest := by simp [namedRoles, slot]
        rw [if_pos slot, ih, hnamed, List.length_cons]
        simp only [and_congr_right_iff]
        omega
      · have hnamed : namedRoles (role :: rest) = role :: namedRoles rest := by
          simp [namedRoles, slot]
        rw [if_neg slot, hnamed]
        by_cases present : role ∈ available
        · have hcard := Finset.card_erase_add_one present
          rw [if_pos present, ih, List.nodup_cons, List.length_cons]
          -- a role is consumed, so a second entry of its name finds it gone
          simp only [Finset.mem_erase, List.mem_cons, forall_eq_or_imp]
          constructor
          · rintro ⟨nodup, hmem, hlen⟩
            exact ⟨⟨fun h => (hmem role h).1 rfl, nodup⟩, ⟨present, fun r hr => (hmem r hr).2⟩, by omega⟩
          · rintro ⟨⟨fresh, nodup⟩, ⟨_, hmem⟩, hlen⟩
            exact ⟨nodup, fun r hr => ⟨fun heq => fresh (heq ▸ hr), hmem r hr⟩, by omega⟩
        · rw [if_neg present]
          simp [present]

/-- A quorum is present when the named roles are distinct and signed, and there are at least as
many distinct signed roles as required entries. -/
theorem hasRequiredRoleQuorum_iff (requiredRoles : List String) (signedRoles : Finset String) :
    hasRequiredRoleQuorum requiredRoles signedRoles = true ↔
      (namedRoles requiredRoles).Nodup ∧ (∀ role ∈ namedRoles requiredRoles, role ∈ signedRoles) ∧
        requiredRoles.length ≤ signedRoles.card := by
  rw [hasRequiredRoleQuorum, quorumLoop_iff, Nat.zero_add]

/-- Without a signed role only the empty requirement has its quorum. -/
theorem hasRequiredRoleQuorum_empty (requiredRoles : List String) :
    hasRequiredRoleQuorum requiredRoles ∅ = true ↔ requiredRoles = [] := by
  rw [hasRequiredRoleQuorum_iff, Finset.card_empty, Nat.le_zero, List.length_eq_zero_iff]
  constructor
  · exact fun h => h.2.2
  · rintro rfl
    simp [namedRoles]

/-!
## The role quorum as a matching

`hasRequiredRoleQuorum` consumes roles greedily, and is a matching of the slots
with the distinct signed roles: the named slots have no choice, and any role that
is left over fills a `signer` slot.
-/

variable {required signed : List String}

/-- Each slot has a signature of its own; a named slot one of its role. -/
def HasMatching (required signed : List String) : Prop :=
  ∃ assigned : Fin required.length → Fin signed.length, Function.Injective assigned ∧
    ∀ slot, required.get slot ≠ "signer" → signed.get (assigned slot) = required.get slot

/-- The slots that are not `signer` have distinct names. -/
theorem namedRoles_nodup_iff : (namedRoles required).Nodup ↔
    ∀ first second : Fin required.length, first < second → required.get first ≠ "signer" →
      required.get second ≠ "signer" → required.get first ≠ required.get second := by
  rw [namedRoles, List.Nodup, List.pairwise_filter, List.pairwise_iff_get]
  simp only [decide_eq_true_eq]

theorem mem_namedRoles {role : String} :
    role ∈ namedRoles required ↔ role ∈ required ∧ role ≠ "signer" := by
  rw [namedRoles, List.mem_filter, decide_eq_true_eq]

/-- Distinct roles as values of the slots are a matching. -/
theorem hasMatching_of_values {value : Fin required.length → String}
    (hinjective : Function.Injective value) (hmem : ∀ slot, value slot ∈ signed)
    (hnamed : ∀ slot, required.get slot ≠ "signer" → value slot = required.get slot) :
    HasMatching required signed := by
  have hplace : ∀ slot, ∃ place, signed.get place = value slot := fun slot =>
    List.mem_iff_get.mp (hmem slot)
  choose place hplace using hplace
  refine ⟨place, fun first second hsame => hinjective ?_, fun slot hslot => ?_⟩
  · rw [← hplace first, ← hplace second, hsame]
  · rw [hplace, hnamed slot hslot]

/-- The named slots take their roles, and the others any that are left. -/
theorem hasMatching_of_quorum {roles : List String}
    (h : hasRequiredRoleQuorum required roles.toFinset = true) :
    HasMatching required roles.dedup := by
  obtain ⟨hnodup, hmem, hcard⟩ := (hasRequiredRoleQuorum_iff required roles.toFinset).mp h
  let named : Finset (Fin required.length) := {slot | required.get slot ≠ "signer"}
  have hinjective : Set.InjOn required.get named := by
    intro first hfirst second hsecond hsame
    have hfirst := (Finset.mem_filter.mp (Finset.mem_coe.mp hfirst)).2
    have hsecond := (Finset.mem_filter.mp (Finset.mem_coe.mp hsecond)).2
    rcases lt_trichotomy first second with hlt | heq | hgt
    · exact absurd hsame (namedRoles_nodup_iff.mp hnodup first second hlt hfirst hsecond)
    · exact heq
    · exact absurd hsame.symm (namedRoles_nodup_iff.mp hnodup second first hgt hsecond hfirst)
  have himage : named.image required.get ⊆ roles.toFinset := by
    intro role hrole
    obtain ⟨slot, hslot, rfl⟩ := Finset.mem_image.mp hrole
    exact hmem _ (mem_namedRoles.mpr ⟨List.get_mem _ _, (Finset.mem_filter.mp hslot).2⟩)
  have hsize : (named.image required.get).card ≤ required.length := by
    refine Finset.card_image_le.trans ?_
    simpa using Finset.card_le_univ named
  obtain ⟨chosen, hkept, hsub, hchosen⟩ :=
    Finset.exists_subsuperset_card_eq himage hsize hcard
  obtain ⟨assigned, hassigned⟩ := Finset.exists_equiv_extend_of_card_eq
    ((Fintype.card_fin _).trans hchosen.symm) hkept hinjective
  have hvalues : Function.Injective fun slot => (assigned slot : String) :=
    Subtype.val_injective.comp assigned.injective
  refine hasMatching_of_values hvalues ?_ ?_
  · exact fun slot => List.mem_dedup.mpr (List.mem_toFinset.mp (hsub (assigned slot).2))
  · exact fun slot hslot => hassigned slot (Finset.mem_filter.mpr ⟨Finset.mem_univ _, hslot⟩)

theorem quorum_of_hasMatching {roles : List String} (h : HasMatching required roles.dedup) :
    hasRequiredRoleQuorum required roles.toFinset = true := by
  obtain ⟨assigned, hinjective, hnamed⟩ := h
  have hget : Function.Injective roles.dedup.get := List.nodup_iff_injective_get.mp roles.nodup_dedup
  refine (hasRequiredRoleQuorum_iff required roles.toFinset).mpr ⟨?_, ?_, ?_⟩
  · refine namedRoles_nodup_iff.mpr fun first second hlt hfirst hsecond hsame => ?_
    rw [← hnamed first hfirst, ← hnamed second hsecond] at hsame
    exact absurd (hinjective (hget hsame)) hlt.ne
  · intro role hrole
    obtain ⟨hrole, hslot⟩ := mem_namedRoles.mp hrole
    obtain ⟨slot, rfl⟩ := List.mem_iff_get.mp hrole
    rw [← hnamed slot hslot]
    exact List.mem_toFinset.mpr (List.mem_dedup.mp (List.get_mem _ _))
  · rw [List.card_toFinset]
    simpa using Fintype.card_le_of_injective assigned hinjective

/-- The quorum is a matching of the slots with the distinct signed roles; the order of either list
does not matter, and neither does one more signature. -/
theorem quorum_is_matching (required roles : List String) :
    (hasRequiredRoleQuorum required roles.toFinset = true ↔ HasMatching required roles.dedup) ∧
      (∀ required' roles' : List String, required'.Perm required → roles'.Perm roles →
        hasRequiredRoleQuorum required' roles'.toFinset =
          hasRequiredRoleQuorum required roles.toFinset) ∧
      ∀ more : List String, roles ⊆ more → hasRequiredRoleQuorum required roles.toFinset = true →
        hasRequiredRoleQuorum required more.toFinset = true := by
  refine ⟨⟨hasMatching_of_quorum, quorum_of_hasMatching⟩, ?_, ?_⟩
  · intro required' roles' hrequired hroles
    rw [Bool.eq_iff_iff, List.toFinset_eq_of_perm _ _ hroles, hasRequiredRoleQuorum_iff,
      hasRequiredRoleQuorum_iff, hrequired.length_eq]
    have hnamed : (namedRoles required').Perm (namedRoles required) := hrequired.filter _
    rw [hnamed.nodup_iff]
    simp only [hnamed.mem_iff]
  · intro more hmore h
    obtain ⟨hnodup, hmem, hcard⟩ := (hasRequiredRoleQuorum_iff required roles.toFinset).mp h
    have hsub : roles.toFinset ⊆ more.toFinset := fun role hrole =>
      List.mem_toFinset.mpr (hmore (List.mem_toFinset.mp hrole))
    exact (hasRequiredRoleQuorum_iff required more.toFinset).mpr
      ⟨hnodup, fun role hrole => hsub (hmem role hrole), hcard.trans (Finset.card_le_card hsub)⟩

/-- Two signatures of one role are one signed role. -/
theorem repeated_role_counts_once :
    HasMatching ["signer", "signer"] ["approver", "approver"] ∧
      hasRequiredRoleQuorum ["signer", "signer"] ["approver", "approver"].toFinset = false :=
  ⟨⟨id, Function.injective_id, by decide⟩, by decide⟩

end BrainCore.Shared
