import BrainCore.Audit.MerkleSoundness
import BrainCore.Foundation.Evm

/-!
# What a root can prove

Every event leaf of a tree has a proof, and so has the count leaf, whatever the length
of the window.  The service and the contract fold a proof of words to the same root, and
build the same count leaf.
-/

namespace BrainCore.Audit

open BrainCore.Foundation

section Keccak

variable (keccak256 : Buffer → Buffer)

/-- Inclusion proof of the count leaf. -/
def makeCountProof (tree : MerkleTree) : List Buffer := proofForNode tree 0

/-- `BrainAuditAnchor.countLeaf`. -/
def anchorCountLeaf (eventCount : Uint256) : Buffer :=
  keccak256 (COUNT_LEAF_DOMAIN keccak256 ++ bigEndian 32 eventCount.val)

variable {keccak256} {leaves : List Buffer}

/-! ## The count leaf of the contract -/

theorem bigEndian_add (high low value : Nat) :
    bigEndian (high + low) value = bigEndian high (value / 256 ^ low) ++ bigEndian low value := by
  induction low generalizing value with
  | zero => simp [bigEndian]
  | succ low ih =>
      rw [← Nat.add_assoc, bigEndian, ih, Nat.div_div_eq_div_mul, ← pow_succ', bigEndian,
        List.append_assoc]

theorem bigEndian_zero (bytes : Nat) : bigEndian bytes 0 = List.replicate bytes 0 := by
  induction bytes with
  | zero => rfl
  | succ bytes ih =>
      rw [bigEndian, Nat.zero_div, ih, List.replicate_succ']
      rfl

/-- Eight bytes behind zeros are the word of a number they hold. -/
theorem anchorCountLeaf_eq {eventCount : Uint256} (hlt : eventCount.val < 2 ^ 64) :
    anchorCountLeaf keccak256 eventCount = countLeaf keccak256 eventCount.val := by
  have hzero : eventCount.val / 256 ^ 8 = 0 := Nat.div_eq_of_lt hlt
  unfold anchorCountLeaf countLeaf
  rw [bigEndian_add 24 8, hzero, bigEndian_zero, List.append_assoc]

/-! ## The nodes of a tree -/

/-- The root of a tree, and the way to it from a node of its lowest layer. -/
theorem verifyProof_proofForNode (hne : leaves ≠ []) {index : Nat} {leaf : Buffer}
    (hleaf : (treeLeaves keccak256 leaves)[index]? = some leaf) :
    verifyProof keccak256 (buildTree keccak256 leaves).root leaf
      (proofForNode (buildTree keccak256 leaves) index) = true := by
  have hnode : ((treeLeaves keccak256 leaves).map (hashLeafKeccak keccak256))[index]? =
      some (hashLeafKeccak keccak256 leaf) := by
    rw [List.getElem?_map, hleaf]
    rfl
  have htop := climb_pathFrom (hashInternalKeccak_comm keccak256) hnode
  rw [root_eq hne] at htop
  refine decide_eq_true ?_
  cases leaves with
  | nil => exact absurd rfl hne
  | cons first rest => exact (Option.some.inj htop).symm

theorem mem_partner {layer : List Buffer} {index : Nat} {sibling : Buffer}
    (h : sibling ∈ (partner layer index).toList) : sibling ∈ layer := by
  unfold partner at h
  cases hpair : layer[index ^^^ 1]? with
  | some other =>
      rw [hpair] at h
      obtain rfl := List.mem_singleton.mp h
      exact List.mem_of_getElem? hpair
  | none =>
      rw [hpair] at h
      exact List.mem_of_getElem? (Option.mem_toList.mp h)

/-- The siblings of a path are nodes of the layers. -/
theorem mem_pathFrom {layers : List (List Buffer)} {index : Nat} {sibling : Buffer}
    (h : sibling ∈ pathFrom layers index) : ∃ layer ∈ layers, sibling ∈ layer := by
  induction layers generalizing index with
  | nil => cases h
  | cons layer layers ih =>
      cases layers with
      | nil => cases h
      | cons next rest =>
          rw [pathFrom] at h
          obtain hhere | hthere := List.mem_append.mp h
          · exact ⟨layer, List.mem_cons_self, mem_partner hhere⟩
          · obtain ⟨above, habove, hmem⟩ := ih hthere
            exact ⟨above, List.mem_cons_of_mem _ habove, hmem⟩

/-- The nodes of all layers are words when those of the lowest are. -/
theorem length_layersFrom (hsize : ∀ input, (keccak256 input).length = 32) {layer : List Buffer}
    (hwords : ∀ node ∈ layer, node.length = 32) :
    ∀ above ∈ layersFrom (hashInternalKeccak keccak256) layer, ∀ node ∈ above,
      node.length = 32 := by
  induction layer using @layersFrom.induct Buffer (hashInternalKeccak keccak256) with
  | case1 layer hmore ih =>
      rw [layersFrom, if_pos hmore]
      intro above habove
      obtain rfl | habove := List.mem_cons.mp habove
      · exact hwords
      · exact ih (fun node hnode => length_pairUp_mem hsize hnode) above habove
  | case2 layer hlast =>
      rw [layersFrom, if_neg hlast]
      intro above habove
      rw [List.mem_singleton.mp habove]
      exact hwords

theorem length_proofForNode (hsize : ∀ input, (keccak256 input).length = 32) {index : Nat} :
    ∀ sibling ∈ proofForNode (buildTree keccak256 leaves) index, sibling.length = 32 := by
  intro sibling hsibling
  obtain ⟨layer, hlayer, hmem⟩ := mem_pathFrom hsibling
  cases leaves with
  | nil => cases hlayer
  | cons first rest =>
      refine length_layersFrom hsize (fun node hnode => ?_) layer hlayer sibling hmem
      obtain ⟨leaf, -, rfl⟩ := List.mem_map.mp hnode
      exact hsize _

/-- The proofs of all leaves verify, off chain and on chain, where both fold alike. -/
theorem proofs_complete (hsize : ∀ input, (keccak256 input).length = 32) (hne : leaves ≠ []) :
    (∀ (index : Nat) (hindex : index < leaves.length),
      verifyProof keccak256 (buildTree keccak256 leaves).root leaves[index]
          (makeProof (buildTree keccak256 leaves) index) = true ∧
        verifyInclusion keccak256 (buildTree keccak256 leaves).root leaves[index]
          (makeProof (buildTree keccak256 leaves) index) = true) ∧
    (verifyProof keccak256 (buildTree keccak256 leaves).root (countLeaf keccak256 leaves.length)
        (makeCountProof (buildTree keccak256 leaves)) = true ∧
      verifyInclusion keccak256 (buildTree keccak256 leaves).root
        (countLeaf keccak256 leaves.length) (makeCountProof (buildTree keccak256 leaves)) = true) ∧
    (∀ eventCount : Uint256, eventCount.val = leaves.length → leaves.length < 2 ^ 64 →
      anchorCountLeaf keccak256 eventCount = countLeaf keccak256 leaves.length) ∧
    ∀ (root leaf : Buffer) (proof : List Buffer), root.length = 32 → leaf.length = 32 →
      (∀ sibling ∈ proof, sibling.length = 32) →
      verifyInclusion keccak256 root leaf proof = verifyProof keccak256 root leaf proof := by
  have hboth : ∀ {index : Nat} {leaf : Buffer},
      (treeLeaves keccak256 leaves)[index]? = some leaf →
      verifyProof keccak256 (buildTree keccak256 leaves).root leaf
          (proofForNode (buildTree keccak256 leaves) index) = true ∧
        verifyInclusion keccak256 (buildTree keccak256 leaves).root leaf
          (proofForNode (buildTree keccak256 leaves) index) = true := fun hleaf => by
    have hoff := verifyProof_proofForNode hne hleaf
    exact ⟨hoff, (verifyInclusion_eq hsize _ _ (length_proofForNode hsize)).trans hoff⟩
  refine ⟨fun index hindex => ?_, hboth rfl, fun eventCount hcount hlt => ?_,
    fun root leaf proof _ _ hproof => verifyInclusion_eq hsize root leaf hproof⟩
  · exact hboth (List.getElem?_eq_getElem hindex)
  · rw [anchorCountLeaf_eq (hcount ▸ hlt), hcount]

end Keccak

/-- Six events and the count leaf: the last event has no partner. -/
theorem fiveAndOne_proved :
    verifyInclusion keccak (buildTree keccak fiveAndOne).root otherEvent
        (makeProof (buildTree keccak fiveAndOne) 5) = true ∧
      verifyInclusion keccak (buildTree keccak fiveAndOne).root (countLeaf keccak 6)
        (makeCountProof (buildTree keccak fiveAndOne)) = true := by
  have hcomplete := proofs_complete (length_knownHash keccakKnown)
    (List.cons_ne_nil _ _ : fiveAndOne ≠ [])
  exact ⟨(hcomplete.1 5 (by decide)).2, hcomplete.2.1.2⟩

end BrainCore.Audit
