import BrainCore.Audit.Merkle
import Mathlib.Data.List.Nodup
import Mathlib.Tactic.Ring

/-!
# What a root binds

A proof that verifies against the root of a tree is the proof of one of its
leaves, the count leaf among them.  Nothing is asked of the hash but that the
strings which are hashed on the way do not collide.
-/

namespace BrainCore.Audit

open BrainCore.Foundation

/-! ## On chain -/

/-- The number that a `bytes32` is compared as. -/
def Buffer.word (bytes : Buffer) : Nat := bytes.foldl (fun value byte => value * 256 + byte.toNat) 0

theorem foldl_word (bytes : Buffer) (value : Nat) :
    bytes.foldl (fun value byte => value * 256 + byte.toNat) value =
      value * 256 ^ bytes.length + Buffer.word bytes := by
  induction bytes generalizing value with
  | nil => simp [Buffer.word]
  | cons byte bytes ih =>
      unfold Buffer.word
      rw [List.foldl_cons, List.foldl_cons, ih, ih (0 * 256 + byte.toNat), List.length_cons, pow_succ']
      ring

theorem Buffer.word_cons (byte : UInt8) (bytes : Buffer) :
    Buffer.word (byte :: bytes) = byte.toNat * 256 ^ bytes.length + Buffer.word bytes := by
  unfold Buffer.word
  rw [List.foldl_cons, foldl_word, Nat.zero_mul, Nat.zero_add]
  rfl

theorem Buffer.word_lt (bytes : Buffer) : Buffer.word bytes < 256 ^ bytes.length := by
  induction bytes with
  | nil => exact Nat.one_pos
  | cons byte bytes ih =>
      rw [Buffer.word_cons, List.length_cons, pow_succ]
      have hbyte : byte.toNat + 1 ≤ 256 := byte.toNat_lt
      have hmul := Nat.mul_le_mul_right (256 ^ bytes.length) hbyte
      rw [Nat.add_mul] at hmul
      omega

/-- Words compare as their bytes do. -/
theorem Buffer.le_of_word_le : ∀ {a b : Buffer}, a.length = b.length →
    Buffer.word a ≤ Buffer.word b → Buffer.le a b = true
  | [], _, _, _ => rfl
  | _ :: _, [], hlength, _ => nomatch hlength
  | x :: xs, y :: ys, hlength, hless => by
      have hrest : xs.length = ys.length := Nat.succ.inj hlength
      rw [Buffer.word_cons, Buffer.word_cons, hrest] at hless
      have hys := Buffer.word_lt ys
      unfold Buffer.le
      split
      · rfl
      rename_i hxy
      have hle : y.toNat ≤ x.toNat := UInt8.le_iff_toNat_le.mp (UInt8.not_lt.mp hxy)
      -- a larger first byte outweighs the others
      have hsame : y.toNat = x.toNat := by
        by_contra hne
        have hmul := Nat.mul_le_mul_right (256 ^ ys.length) (show y.toNat + 1 ≤ x.toNat by omega)
        rw [Nat.add_mul] at hmul
        omega
      rw [if_neg (by rw [UInt8.lt_iff_toNat_lt]; omega)]
      apply Buffer.le_of_word_le hrest
      rw [hsame] at hless
      omega

section Keccak

variable (keccak256 : Buffer → Buffer)

/-- `BrainAuditAnchor.verifyInclusion`. -/
def verifyInclusion (root leaf : Buffer) (proof : List Buffer) : Bool :=
  proof.foldl (fun computed sibling =>
    if Buffer.word computed < Buffer.word sibling then keccak256 (0x01 :: (computed ++ sibling))
    else keccak256 (0x01 :: (sibling ++ computed))) (keccak256 (0x00 :: leaf)) = root

/-! ## What is hashed -/

def leafInput (leaf : Buffer) : Buffer := 0x00 :: leaf

def internalInput (pair : Buffer × Buffer) : Buffer :=
  if Buffer.le pair.1 pair.2 then 0x01 :: (pair.1 ++ pair.2) else 0x01 :: (pair.2 ++ pair.1)

def countInput (leafCount : Nat) : Buffer :=
  COUNT_LEAF_DOMAIN keccak256 ++ List.replicate 24 0 ++ bigEndian 8 leafCount

/-- The leaves of a tree with the count leaf before them. -/
def treeLeaves (leaves : List Buffer) : List Buffer := countLeaf keccak256 leaves.length :: leaves

/-- What is hashed to build a tree. -/
def treeInputs (leaves : List Buffer) : List Buffer :=
  countInput keccak256 leaves.length :: (treeLeaves keccak256 leaves).map leafInput ++
    (treePairs (hashInternalKeccak keccak256)
      ((treeLeaves keccak256 leaves).map (hashLeafKeccak keccak256))).map internalInput

/-- What is hashed to verify a proof. -/
def proofInputs (leaf : Buffer) (proof : List Buffer) : List Buffer :=
  leafInput leaf ::
    (climbPairs (hashInternalKeccak keccak256) (hashLeafKeccak keccak256 leaf) proof).map
      internalInput

/-- No two of these strings have one hash. -/
def CollisionFree (inputs : List Buffer) : Prop :=
  ∀ x ∈ inputs, ∀ y ∈ inputs, keccak256 x = keccak256 y → x = y

variable {keccak256}

theorem CollisionFree.mono {inputs fewer : List Buffer} (h : CollisionFree keccak256 inputs)
    (hsub : ∀ x ∈ fewer, x ∈ inputs) : CollisionFree keccak256 fewer :=
  fun x hx y hy => h x (hsub x hx) y (hsub y hy)

theorem hashInternalKeccak_eq (pair : Buffer × Buffer) :
    hashInternalKeccak keccak256 pair.1 pair.2 = keccak256 (internalInput pair) := by
  unfold hashInternalKeccak internalInput
  split
  · rfl
  · rfl

theorem internalInput_swap (pair : Buffer × Buffer) :
    internalInput pair.swap = internalInput pair := by
  -- the hash that returns its input
  calc internalInput pair.swap
      = hashInternalKeccak id pair.2 pair.1 := (@hashInternalKeccak_eq id pair.swap).symm
    _ = hashInternalKeccak id pair.1 pair.2 := hashInternalKeccak_comm id pair.2 pair.1
    _ = internalInput pair := @hashInternalKeccak_eq id pair

/-- The two digests of an internal node are those of its string. -/
theorem internalInput_inj {pair other : Buffer × Buffer} (hfirst : pair.1.length = 32)
    (hother : other.1.length = 32 ∧ other.2.length = 32)
    (h : internalInput pair = internalInput other) : pair.1 = other.1 ∨ pair.1 = other.2 := by
  obtain ⟨a, b⟩ := pair
  obtain ⟨c, d⟩ := other
  obtain ⟨hc, hd⟩ := hother
  dsimp only at hfirst hc hd ⊢
  -- so the other digest has 32 bytes as well
  have hb : b.length = 32 := by
    have hlength := congrArg List.length h
    unfold internalInput at hlength
    split at hlength <;> split at hlength <;>
      simp only [List.length_cons, List.length_append] at hlength <;> omega
  unfold internalInput at h
  dsimp only at h
  split at h <;> split at h <;> rw [List.cons.injEq] at h
  · exact .inl (List.append_inj h.2 (by omega)).1
  · exact .inr (List.append_inj h.2 (by omega)).1
  · exact .inr (List.append_inj h.2 (by omega)).2
  · exact .inl (List.append_inj h.2 (by omega)).2

theorem internalInput_ne_leafInput (pair : Buffer × Buffer) (leaf : Buffer) :
    internalInput pair ≠ leafInput leaf := by
  unfold internalInput leafInput
  split
  · exact fun h => absurd (List.cons.inj h).1 (by decide)
  · exact fun h => absurd (List.cons.inj h).1 (by decide)

/-! ## Digests have 32 bytes -/

theorem length_pairUp_mem (hsize : ∀ input, (keccak256 input).length = 32) {layer : List Buffer}
    {node : Buffer} (hnode : node ∈ pairUp (hashInternalKeccak keccak256) layer) :
    node.length = 32 := by
  rw [pairUp_eq_map] at hnode
  obtain ⟨pair, -, rfl⟩ := List.mem_map.mp hnode
  rw [hashInternalKeccak_eq]
  exact hsize _

theorem length_treePairs (hsize : ∀ input, (keccak256 input).length = 32) {layer : List Buffer}
    (hlayer : ∀ node ∈ layer, node.length = 32) {pair : Buffer × Buffer}
    (hpair : pair ∈ treePairs (hashInternalKeccak keccak256) layer) :
    pair.1.length = 32 ∧ pair.2.length = 32 := by
  induction layer using @layersFrom.induct Buffer (hashInternalKeccak keccak256) with
  | case1 layer hmore ih =>
      rw [treePairs, if_pos hmore] at hpair
      rcases List.mem_append.mp hpair with hpair | hpair
      · obtain ⟨hfirst, hsecond⟩ := mem_of_mem_pairsOf hpair
        exact ⟨hlayer _ hfirst, hlayer _ hsecond⟩
      · exact ih (fun node => length_pairUp_mem hsize) hpair
  | case2 layer hlast =>
      rw [treePairs, if_neg hlast] at hpair
      cases hpair

theorem length_climbPairs (hsize : ∀ input, (keccak256 input).length = 32) {node : Buffer}
    (hnode : node.length = 32) {proof : List Buffer} {pair : Buffer × Buffer}
    (hpair : pair ∈ climbPairs (hashInternalKeccak keccak256) node proof) : pair.1.length = 32 := by
  induction proof generalizing node with
  | nil => cases hpair
  | cons sibling proof ih =>
      rcases List.mem_cons.mp hpair with rfl | hpair
      · exact hnode
      · refine ih ?_ hpair
        rw [hashInternalKeccak_eq (node, sibling)]
        exact hsize _

/-- On words the contract verifies what the service does. -/
theorem verifyInclusion_eq (hsize : ∀ input, (keccak256 input).length = 32) (root leaf : Buffer)
    {proof : List Buffer} (hproof : ∀ sibling ∈ proof, sibling.length = 32) :
    verifyInclusion keccak256 root leaf proof = verifyProof keccak256 root leaf proof := by
  have hstep : ∀ computed sibling : Buffer, computed.length = 32 → sibling.length = 32 →
      (if Buffer.word computed < Buffer.word sibling then keccak256 (0x01 :: (computed ++ sibling))
        else keccak256 (0x01 :: (sibling ++ computed))) =
        hashInternalKeccak keccak256 computed sibling := by
    intro computed sibling hcomputed hsibling
    unfold hashInternalKeccak
    split
    · rename_i hless
      rw [if_pos (Buffer.le_of_word_le (hcomputed.trans hsibling.symm) (Nat.le_of_lt hless))]
    · rename_i hnot
      split
      · rename_i hle
        -- only equal words are in order both ways
        have hge := Buffer.le_of_word_le (hsibling.trans hcomputed.symm) (Nat.not_lt.mp hnot)
        rw [Buffer.le_antisymm hle hge]
      · rfl
  have hfold : ∀ computed : Buffer, computed.length = 32 →
      proof.foldl (fun computed sibling =>
        if Buffer.word computed < Buffer.word sibling then keccak256 (0x01 :: (computed ++ sibling))
        else keccak256 (0x01 :: (sibling ++ computed))) computed =
      climb (hashInternalKeccak keccak256) computed proof := by
    unfold climb
    induction proof with
    | nil => exact fun _ _ => rfl
    | cons sibling proof ih =>
        intro computed hcomputed
        rw [List.foldl_cons, List.foldl_cons, hstep computed sibling hcomputed
          (hproof sibling List.mem_cons_self)]
        apply ih fun other hother => hproof other (List.mem_cons_of_mem _ hother)
        rw [hashInternalKeccak_eq (computed, sibling)]
        exact hsize _
  unfold verifyInclusion verifyProof
  rw [hfold _ (hsize _)]
  rfl

/-! ## Soundness -/

variable {leaves other inputs : List Buffer} {leaf : Buffer} {proof : List Buffer}

theorem root_eq (hne : leaves ≠ []) :
    topNode (layersFrom (hashInternalKeccak keccak256)
      ((treeLeaves keccak256 leaves).map (hashLeafKeccak keccak256))) =
        some (buildTree keccak256 leaves).root := by
  cases leaves with
  | nil => exact absurd rfl hne
  | cons first rest =>
      have hnode : ((treeLeaves keccak256 (first :: rest)).map (hashLeafKeccak keccak256))[0]? =
          some (hashLeafKeccak keccak256 (countLeaf keccak256 (first :: rest).length)) := rfl
      have htop := climb_pathFrom (hashInternalKeccak_comm keccak256) hnode
      have hroot : (buildTree keccak256 (first :: rest)).root =
          (topNode (layersFrom (hashInternalKeccak keccak256)
            ((treeLeaves keccak256 (first :: rest)).map (hashLeafKeccak keccak256)))).getD [] := rfl
      rw [hroot, htop]
      rfl

/-- What verifies against the root of a tree is one of its leaves. -/
theorem mem_treeLeaves (hsize : ∀ input, (keccak256 input).length = 32)
    (hfree : CollisionFree keccak256 inputs) (htree : ∀ x ∈ treeInputs keccak256 leaves, x ∈ inputs)
    (hproof : ∀ x ∈ proofInputs keccak256 leaf proof, x ∈ inputs) (hne : leaves ≠ [])
    (hverify : verifyProof keccak256 (buildTree keccak256 leaves).root leaf proof = true) :
    leaf ∈ treeLeaves keccak256 leaves := by
  have hleaf : leafInput leaf ∈ inputs := hproof _ List.mem_cons_self
  have hleaves : ∀ x ∈ treeLeaves keccak256 leaves, leafInput x ∈ inputs := fun x hx =>
    htree _ (List.mem_append_left _ (List.mem_cons_of_mem _ (List.mem_map_of_mem hx)))
  have hpairs : ∀ pair ∈ treePairs (hashInternalKeccak keccak256)
      ((treeLeaves keccak256 leaves).map (hashLeafKeccak keccak256)),
      internalInput pair ∈ inputs := fun pair hpair =>
    htree _ (List.mem_append_right _ (List.mem_map_of_mem hpair))
  have hclimbs : ∀ pair ∈ climbPairs (hashInternalKeccak keccak256)
      (hashLeafKeccak keccak256 leaf) proof, internalInput pair ∈ inputs := fun pair hpair =>
    hproof _ (List.mem_cons_of_mem _ (List.mem_map_of_mem hpair))
  have hlengths : ∀ node ∈ (treeLeaves keccak256 leaves).map (hashLeafKeccak keccak256),
      node.length = 32 := by
    intro node hnode
    obtain ⟨x, -, rfl⟩ := List.mem_map.mp hnode
    exact hsize _
  have hmem : hashLeafKeccak keccak256 leaf ∈
      (treeLeaves keccak256 leaves).map (hashLeafKeccak keccak256) := by
    refine @mem_of_climb _ _ _ _ proof ?_ ?_ ?_ ((root_eq hne).trans ?_)
    · intro pair hpair node hnode hsame
      rw [hashInternalKeccak_eq, hashInternalKeccak_eq] at hsame
      exact internalInput_inj (length_climbPairs hsize (hsize _) hpair)
        (length_treePairs hsize hlengths hnode)
        (hfree _ (hclimbs pair hpair) _ (hpairs node hnode) hsame)
    · intro node hnode hsame
      rw [hashInternalKeccak_eq] at hsame
      exact internalInput_ne_leafInput node leaf (hfree _ (hpairs node hnode) _ hleaf hsame)
    · intro pair hpair hnode
      obtain ⟨x, hx, hsame⟩ := List.mem_map.mp hnode
      rw [hashInternalKeccak_eq] at hsame
      exact internalInput_ne_leafInput pair x
        (hfree _ (hclimbs pair hpair) _ (hleaves x hx) hsame.symm)
    · exact congrArg some (of_decide_eq_true hverify).symm
  obtain ⟨x, hx, hsame⟩ := List.mem_map.mp hmem
  obtain rfl : x = leaf := (List.cons.inj (hfree _ (hleaves x hx) _ hleaf hsame)).2
  exact hx

/-- Each leaf has a proof that hashes only what the tree does. -/
theorem exists_proof (hne : leaves ≠ []) (hleaf : leaf ∈ treeLeaves keccak256 leaves) :
    ∃ proof, verifyProof keccak256 (buildTree keccak256 leaves).root leaf proof = true ∧
      ∀ x ∈ proofInputs keccak256 leaf proof, x ∈ treeInputs keccak256 leaves := by
  obtain ⟨index, hindex⟩ := List.mem_iff_getElem?.mp hleaf
  have hnode : ((treeLeaves keccak256 leaves).map (hashLeafKeccak keccak256))[index]? =
      some (hashLeafKeccak keccak256 leaf) := by
    rw [List.getElem?_map, hindex]
    rfl
  refine ⟨_, decide_eq_true (Option.some.inj (((root_eq hne).symm.trans
    (climb_pathFrom (hashInternalKeccak_comm keccak256) hnode)).symm)), ?_⟩
  intro x hx
  rcases List.mem_cons.mp hx with rfl | hx
  · exact List.mem_append_left _ (List.mem_cons_of_mem _ (List.mem_map_of_mem hleaf))
  · obtain ⟨pair, hpair, rfl⟩ := List.mem_map.mp hx
    apply List.mem_append_right
    rcases treePairs_of_pathFrom (hashInternalKeccak_comm keccak256) hnode hpair with h | h
    · exact List.mem_map_of_mem h
    · rw [← internalInput_swap pair]
      exact List.mem_map_of_mem h

/-- The leaves of one tree are those of another with the same root. -/
theorem treeLeaves_subset (hsize : ∀ input, (keccak256 input).length = 32)
    (hfree : CollisionFree keccak256 inputs) (htree : ∀ x ∈ treeInputs keccak256 leaves, x ∈ inputs)
    (hother : ∀ x ∈ treeInputs keccak256 other, x ∈ inputs) (hne : leaves ≠ []) (hother' : other ≠ [])
    (hroot : (buildTree keccak256 leaves).root = (buildTree keccak256 other).root)
    (hleaf : leaf ∈ treeLeaves keccak256 leaves) : leaf ∈ treeLeaves keccak256 other := by
  obtain ⟨proof, hverify, hinputs⟩ := exists_proof hne hleaf
  exact mem_treeLeaves hsize hfree hother (fun x hx => htree x (hinputs x hx)) hother'
    (hroot ▸ hverify)

/-! ## Counts -/

theorem bigEndian_inj : ∀ {bytes value value' : Nat}, value < 256 ^ bytes → value' < 256 ^ bytes →
    bigEndian bytes value = bigEndian bytes value' → value = value'
  | 0, _, _, h, h', _ => by omega
  | bytes + 1, value, value', h, h', heq => by
      have hlast := List.append_inj' heq rfl
      have hbyte : value % 256 = value' % 256 := by
        have hsame := congrArg UInt8.toNat (List.cons.inj hlast.2).1
        rwa [UInt8.toNat_ofNat', UInt8.toNat_ofNat'] at hsame
      rw [pow_succ] at h h'
      have hrest := bigEndian_inj (Nat.div_lt_of_lt_mul (by omega)) (Nat.div_lt_of_lt_mul (by omega))
        hlast.1
      omega

theorem countInput_inj {count count' : Nat} (h : count < 2 ^ 64) (h' : count' < 2 ^ 64)
    (heq : countInput keccak256 count = countInput keccak256 count') : count = count' :=
  bigEndian_inj h h' (List.append_cancel_left heq)

theorem eq_of_countLeaf_eq (hfree : CollisionFree keccak256 inputs) {count count' : Nat}
    (h : count < 2 ^ 64) (h' : count' < 2 ^ 64) (hmem : countInput keccak256 count ∈ inputs)
    (hmem' : countInput keccak256 count' ∈ inputs)
    (heq : countLeaf keccak256 count = countLeaf keccak256 count') : count = count' :=
  countInput_inj h h' (hfree _ hmem _ hmem' heq)

theorem countInput_mem : countInput keccak256 leaves.length ∈ treeInputs keccak256 leaves :=
  List.mem_append_left _ List.mem_cons_self

/-- The root of a tree binds its leaves, and by the count leaf the number of its events: what
verifies on either side is a leaf of the tree, a count leaf only that of its own number, and
trees with one root are of the same events, unless an event is the count leaf of one of them. -/
theorem root_binds (hsize : ∀ input, (keccak256 input).length = 32) (hne : leaves ≠ [])
    (hcount : leaves.length < 2 ^ 64) :
    (∀ leaf proof, CollisionFree keccak256
          (treeInputs keccak256 leaves ++ proofInputs keccak256 leaf proof) →
        (verifyProof keccak256 (buildTree keccak256 leaves).root leaf proof = true ∨
          verifyInclusion keccak256 (buildTree keccak256 leaves).root leaf proof = true ∧
            ∀ sibling ∈ proof, sibling.length = 32) →
        leaf ∈ leaves ∨ leaf = countLeaf keccak256 leaves.length) ∧
      (∀ count proof, CollisionFree keccak256 (countInput keccak256 count ::
            (treeInputs keccak256 leaves ++ proofInputs keccak256 (countLeaf keccak256 count) proof)) →
        count < 2 ^ 64 → countLeaf keccak256 count ∉ leaves →
        verifyProof keccak256 (buildTree keccak256 leaves).root (countLeaf keccak256 count) proof =
          true → count = leaves.length) ∧
      ∀ other, other ≠ [] → other.length < 2 ^ 64 →
        CollisionFree keccak256 (treeInputs keccak256 leaves ++ treeInputs keccak256 other) →
        (buildTree keccak256 leaves).root = (buildTree keccak256 other).root →
        (∀ count ∈ [leaves.length, other.length],
          countLeaf keccak256 count ∉ leaves ∧ countLeaf keccak256 count ∉ other) →
        leaves.length = other.length ∧ (∀ leaf, leaf ∈ leaves ↔ leaf ∈ other) ∧
          (leaves.Nodup → other.Nodup → leaves.Perm other) := by
  refine ⟨?_, ?_, ?_⟩
  · intro leaf proof hfree hverify
    have hservice : verifyProof keccak256 (buildTree keccak256 leaves).root leaf proof = true := by
      rcases hverify with hverify | ⟨hverify, hwords⟩
      · exact hverify
      · rwa [verifyInclusion_eq hsize _ _ hwords] at hverify
    have hmem := mem_treeLeaves hsize hfree (fun x hx => List.mem_append_left _ hx)
      (fun x hx => List.mem_append_right _ hx) hne hservice
    exact (List.mem_cons.mp hmem).symm
  · intro count proof hfree hsmall hfresh hverify
    have hmem := mem_treeLeaves hsize hfree
      (fun x hx => List.mem_cons_of_mem _ (List.mem_append_left _ hx))
      (fun x hx => List.mem_cons_of_mem _ (List.mem_append_right _ hx)) hne hverify
    rcases List.mem_cons.mp hmem with hsame | hmem
    · exact eq_of_countLeaf_eq hfree hsmall hcount List.mem_cons_self
        (List.mem_cons_of_mem _ (List.mem_append_left _ countInput_mem)) hsame
    · exact absurd hmem hfresh
  · intro other hother hsmall hfree hroot hevents
    have hleft : ∀ x ∈ treeInputs keccak256 leaves,
        x ∈ treeInputs keccak256 leaves ++ treeInputs keccak256 other := fun _ =>
      List.mem_append_left _
    have hright : ∀ x ∈ treeInputs keccak256 other,
        x ∈ treeInputs keccak256 leaves ++ treeInputs keccak256 other := fun _ =>
      List.mem_append_right _
    obtain ⟨hnone, hnone'⟩ := hevents leaves.length List.mem_cons_self
    obtain ⟨hother₁, hother₂⟩ := hevents other.length (List.mem_cons_of_mem _ List.mem_cons_self)
    -- the count leaf of one list is a leaf of the other tree, and none of its events
    have hlength : leaves.length = other.length := by
      have hmem : countLeaf keccak256 leaves.length ∈ treeLeaves keccak256 other :=
        treeLeaves_subset hsize hfree hleft hright hne hother hroot List.mem_cons_self
      rcases List.mem_cons.mp hmem with hsame | hmem
      · exact eq_of_countLeaf_eq hfree hcount hsmall (hleft _ countInput_mem)
          (hright _ countInput_mem) hsame
      · exact absurd hmem hnone'
    have hmembers : ∀ leaf, leaf ∈ leaves ↔ leaf ∈ other := by
      intro leaf
      constructor
      · intro hleaf
        rcases List.mem_cons.mp (treeLeaves_subset hsize hfree hleft hright hne hother hroot
          (List.mem_cons_of_mem _ hleaf)) with rfl | hmem
        · exact absurd hleaf hother₁
        · exact hmem
      · intro hleaf
        rcases List.mem_cons.mp (treeLeaves_subset hsize hfree hright hleft hother hne hroot.symm
          (List.mem_cons_of_mem _ hleaf)) with rfl | hmem
        · exact absurd hleaf hnone'
        · exact hmem
    exact ⟨hlength, hmembers, fun hnodup hnodup' =>
      (List.perm_ext_iff_of_nodup hnodup hnodup').mpr hmembers⟩

/-! ## What it does not bind -/

/-- Trees are equal from the layer on where they are. -/
theorem root_of_pairUp (hne : leaves ≠ []) (hother : other ≠ [])
    (h : pairUp (hashInternalKeccak keccak256)
        ((treeLeaves keccak256 leaves).map (hashLeafKeccak keccak256)) =
      pairUp (hashInternalKeccak keccak256)
        ((treeLeaves keccak256 other).map (hashLeafKeccak keccak256))) :
    (buildTree keccak256 leaves).root = (buildTree keccak256 other).root := by
  have hmore : ∀ {leaves : List Buffer}, leaves ≠ [] →
      1 < ((treeLeaves keccak256 leaves).map (hashLeafKeccak keccak256)).length := by
    intro leaves hne
    rw [List.length_map, treeLeaves, List.length_cons]
    have := List.length_pos_iff.mpr hne
    omega
  apply Option.some.inj
  rw [← root_eq hne, ← root_eq hother, topNode_pairUp (hmore hne), topNode_pairUp (hmore hother), h]

variable (keccak256)

/-- An event whose hash is a count leaf stands for the count leaf of another tree. -/
theorem root_of_count_event (event : Buffer) :
    (buildTree keccak256 [countLeaf keccak256 3, event]).root =
      (buildTree keccak256 [countLeaf keccak256 2, event, event]).root := by
  apply root_of_pairUp (List.cons_ne_nil _ _) (List.cons_ne_nil _ _)
  simp [treeLeaves, pairUp, hashInternalKeccak_comm keccak256
    (hashLeafKeccak keccak256 (countLeaf keccak256 2))]

/-- Repeated events may change places with those of another pair of nodes. -/
theorem root_of_repeated_events (event other : Buffer) :
    (buildTree keccak256 [event, event, event, event, event, other]).root =
      (buildTree keccak256 [event, event, event, other, other, event]).root := by
  apply Option.some.inj
  rw [← root_eq (List.cons_ne_nil _ _), ← root_eq (List.cons_ne_nil _ _)]
  simp only [treeLeaves, List.map_cons, List.map_nil, List.length_cons, List.length_nil]
  iterate 2
    rw [topNode_pairUp (by simp [pairUp]), eq_comm]
    rw [topNode_pairUp (by simp [pairUp]), eq_comm]
  simp only [pairUp]
  rw [hashInternalKeccak_comm keccak256
    (hashInternalKeccak keccak256 (hashLeafKeccak keccak256 event) (hashLeafKeccak keccak256 event))
    (hashInternalKeccak keccak256 (hashLeafKeccak keccak256 other) (hashLeafKeccak keccak256 other))]

end Keccak

/-! ## Where the hash is known -/

def digest (value : Nat) : Buffer :=
  (List.range 32).map fun i => UInt8.ofNat (value / 256 ^ (31 - i))

/-- A hash that is known on some strings. -/
def knownHash (known : List (Buffer × Nat)) (input : Buffer) : Buffer :=
  digest (((known.find? fun entry => entry.1 = input).map Prod.snd).getD 0)

theorem length_knownHash (known : List (Buffer × Nat)) (input : Buffer) :
    (knownHash known input).length = 32 := by
  rw [knownHash, digest, List.length_map, List.length_range]

theorem collisionFree_knownHash {known : List (Buffer × Nat)} {inputs : List Buffer}
    (hnodup : (known.map fun entry => digest entry.2).Nodup)
    (hinputs : ∀ x ∈ inputs, x ∈ known.map Prod.fst) : CollisionFree (knownHash known) inputs := by
  have hfind : ∀ x ∈ inputs, ∃ entry ∈ known, entry.1 = x ∧ knownHash known x = digest entry.2 := by
    intro x hx
    obtain ⟨entry, hentry, hkey⟩ := List.mem_map.mp (hinputs x hx)
    cases hfound : known.find? fun entry => entry.1 = x with
    | none => exact absurd (decide_eq_true hkey) (List.find?_eq_none.mp hfound entry hentry)
    | some found =>
        refine ⟨found, List.mem_of_find?_eq_some hfound, ?_, ?_⟩
        · exact of_decide_eq_true (List.find?_eq_some_iff_append.mp hfound).1
        · rw [knownHash, hfound]
          rfl
  intro x hx y hy hsame
  obtain ⟨entry, hentry, rfl, hdigest⟩ := hfind x hx
  obtain ⟨entry', hentry', rfl, hdigest'⟩ := hfind y hy
  rw [hdigest, hdigest'] at hsame
  rw [List.inj_on_of_nodup_map hnodup hentry hentry' hsame]

def someEvent : Buffer := List.replicate 32 0xbb

def otherEvent : Buffer := List.replicate 32 0xcc

/-- `keccak256` of the strings that the trees below hash. -/
def keccakKnown : List (Buffer × Nat) :=
  let tag := 0x4abc21c00a310d97f1febcae0734f7d8110faeddbab5351d84e94303f06e4a10
  let count₂ := 0xc49177e2d23048697549ff0ff99d5f0bef5ae0cdc046ceea44459f058a941971
  let count₃ := 0x9bf4b76acb5ce3bc1fcfdbc898180cc4e30dc22357dc60045998591084e76d59
  let count₆ := 0xa1fe3c613423445d3e3f81f245df4ebd590c657d5be2bf4e898ce58d36b2091f
  let leaf₂ := 0x4ecc8f1cbfa41ab3c440ccef4d7015b703fbef863e00f22eb15a4fae39517b30
  let leaf₃ := 0x358e7fe86d1c3a1bdec3fbf2e9438b06549e46bbeb13a1cfc2c7cfa2c1050aea
  let leaf₆ := 0x5d168507736cb3c4008e33cea1b74559562ac30d819c41f57ef8a6066b1518df
  let some_ := 0xc4cbce6424697cd3dadfd299f72fede0eb6fb32f141e6e3983e47bcdb0dd3c90
  let other := 0x212e977e4b85fda27e9427bdffe22d9f6f2463d67cbf2699c250a7f3e91e0120
  let counts := 0xe775488efd8ac337fc335122fd853da88716fb4b40ebd4ca6f79d40a54fc6a76
  let some₂ := 0xeb23bb30bfc1cfeaf3b4762b487e35f0d44f83c2d70bc6fef7a3408b38c89438
  let other₂ := 0x40e58d809e96b911141cebc7a00df40bef9ca0a81ff39ff9e3afba933e39fcf2
  let first := 0x838775219ac4fd052c0942fea77280aa2b9694da96515643462f6850482fffe7
  let left := 0x07e0983537988c72a25271ef8191eadfaf2f968a30d32e774ee738a8290581b2
  let right := 0xa701785a4c7752be6c607d25e4ee7d81b2c122dd811cedd92254fe9c7d82ebd1
  [("brain.audit.leaf-count.v1".toUTF8.toList, tag),
    (digest tag ++ digest 2, count₂), (digest tag ++ digest 3, count₃),
    (digest tag ++ digest 6, count₆),
    (0 :: digest count₂, leaf₂), (0 :: digest count₃, leaf₃), (0 :: digest count₆, leaf₆),
    (0 :: someEvent, some_), (0 :: otherEvent, other),
    (1 :: (digest leaf₃ ++ digest leaf₂), counts), (1 :: (digest some_ ++ digest some_), some₂),
    (1 :: (digest counts ++ digest some₂),
      0x622023d9f073451b7a5e80c338fa6cabe298c956db08849a3389e2084c2d8d6d),
    (1 :: (digest leaf₆ ++ digest some_), first), (1 :: (digest other ++ digest other), other₂),
    (1 :: (digest first ++ digest some₂), left), (1 :: (digest other₂ ++ digest some₂), right),
    (1 :: (digest left ++ digest right),
      0x63333cf64c46057b5971f8b09537acb958afc4c613449d224a590f2a7bb7056b)]

/-- The hash on these strings. -/
abbrev keccak : Buffer → Buffer := knownHash keccakKnown

/-- Two events, one of them with the hash of a count leaf. -/
def countEvents : List Buffer := [countLeaf keccak 3, someEvent]

def threeEvents : List Buffer := [countLeaf keccak 2, someEvent, someEvent]

def fiveAndOne : List Buffer :=
  [someEvent, someEvent, someEvent, someEvent, someEvent, otherEvent]

def fourAndTwo : List Buffer :=
  [someEvent, someEvent, someEvent, otherEvent, otherEvent, someEvent]

/-- The table has different digests, and all that is hashed to build the four trees. -/
theorem keccakKnown_covers :
    (keccakKnown.map fun entry => digest entry.2).Nodup ∧
      ∀ leaves ∈ [countEvents, threeEvents, fiveAndOne, fourAndTwo],
        ∀ x ∈ treeInputs keccak leaves, x ∈ keccakKnown.map Prod.fst := by
  have htwo : ∀ x ∈ treeInputs keccak countEvents, x ∈ keccakKnown.map Prod.fst := by
    unfold treeInputs
    rw [treePairs, if_pos (by decide), treePairs, if_pos (by decide), treePairs, if_neg (by decide)]
    decide +kernel
  have hthree : ∀ x ∈ treeInputs keccak threeEvents, x ∈ keccakKnown.map Prod.fst := by
    unfold treeInputs
    rw [treePairs, if_pos (by decide), treePairs, if_pos (by decide), treePairs, if_neg (by decide)]
    decide +kernel
  have hfive : ∀ x ∈ treeInputs keccak fiveAndOne, x ∈ keccakKnown.map Prod.fst := by
    unfold treeInputs
    rw [treePairs, if_pos (by decide), treePairs, if_pos (by decide), treePairs, if_pos (by decide),
      treePairs, if_neg (by decide)]
    decide +kernel
  have hfour : ∀ x ∈ treeInputs keccak fourAndTwo, x ∈ keccakKnown.map Prod.fst := by
    unfold treeInputs
    rw [treePairs, if_pos (by decide), treePairs, if_pos (by decide), treePairs, if_pos (by decide),
      treePairs, if_neg (by decide)]
    decide +kernel
  refine ⟨by decide +kernel, ?_⟩
  simp only [List.forall_mem_cons]
  exact ⟨htwo, hthree, hfive, hfour, fun _ h => absurd h List.not_mem_nil⟩

theorem collisionFree_keccak {leaves other : List Buffer}
    (h : leaves ∈ [countEvents, threeEvents, fiveAndOne, fourAndTwo])
    (h' : other ∈ [countEvents, threeEvents, fiveAndOne, fourAndTwo]) :
    CollisionFree keccak (treeInputs keccak leaves ++ treeInputs keccak other) :=
  collisionFree_knownHash keccakKnown_covers.1 fun x hx =>
    (List.mem_append.mp hx).elim (keccakKnown_covers.2 leaves h x) (keccakKnown_covers.2 other h' x)

/-- Trees of two and of three events with one root, under which the count leaf of three verifies
for two; and trees of one root and six events that are not the same. -/
theorem keccak_unbound :
    ((∀ input, (keccak input).length = 32) ∧
      CollisionFree keccak (treeInputs keccak countEvents ++ treeInputs keccak threeEvents) ∧
      (buildTree keccak countEvents).root = (buildTree keccak threeEvents).root ∧
      countEvents.length = 2 ∧ threeEvents.length = 3 ∧
      ∃ proof, verifyProof keccak (buildTree keccak countEvents).root (countLeaf keccak 3) proof = true) ∧
    CollisionFree keccak (treeInputs keccak fiveAndOne ++ treeInputs keccak fourAndTwo) ∧
      (buildTree keccak fiveAndOne).root = (buildTree keccak fourAndTwo).root ∧
      ¬ fiveAndOne.Perm fourAndTwo := by
  refine ⟨⟨length_knownHash _, collisionFree_keccak (by simp) (by simp),
    root_of_count_event keccak someEvent, rfl, rfl, ?_⟩,
    collisionFree_keccak (by simp) (by simp),
    root_of_repeated_events keccak someEvent otherEvent, ?_⟩
  · obtain ⟨proof, hverify, -⟩ := @exists_proof keccak countEvents (countLeaf keccak 3)
      (List.cons_ne_nil _ _) (List.mem_cons_of_mem _ List.mem_cons_self)
    exact ⟨proof, hverify⟩
  · intro hperm
    have hcount := hperm.count_eq someEvent
    revert hcount
    decide

/-- The two trees are of equally many events, and of the same ones. -/
theorem fiveAndOne_bound :
    fiveAndOne.length = fourAndTwo.length ∧ ∀ leaf, leaf ∈ fiveAndOne ↔ leaf ∈ fourAndTwo := by
  have hbinds := root_binds (length_knownHash keccakKnown) (List.cons_ne_nil _ _ : fiveAndOne ≠ [])
    (by decide)
  have hevents : ∀ count ∈ [fiveAndOne.length, fourAndTwo.length],
      countLeaf keccak count ∉ fiveAndOne ∧ countLeaf keccak count ∉ fourAndTwo := by
    decide +kernel
  have hfree : CollisionFree keccak (treeInputs keccak fiveAndOne ++ treeInputs keccak fourAndTwo) :=
    collisionFree_keccak (by simp) (by simp)
  obtain ⟨hlength, hleaves, -⟩ := hbinds.2.2 fourAndTwo (List.cons_ne_nil _ _) (by decide) hfree
    (root_of_repeated_events keccak someEvent otherEvent) hevents
  exact ⟨hlength, hleaves⟩

end BrainCore.Audit
