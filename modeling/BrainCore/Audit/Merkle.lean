import BrainCore.Foundation.MerkleTree

/-!
# The tree of an anchor

`services/audit/src/merkle.ts`: nodes are hashes, and a synthetic leaf at the
first place holds the number of the others.  The hash is a parameter.
-/

namespace BrainCore.Audit

open BrainCore.Foundation

/-- The bytes of a `Buffer`. -/
abbrev Buffer := List UInt8

/-- `Buffer.compare(a, b) <= 0`. -/
def Buffer.le : Buffer → Buffer → Bool
  | [], _ => true
  | _ :: _, [] => false
  | a :: as, b :: bs => if a < b then true else if b < a then false else Buffer.le as bs

theorem Buffer.le_antisymm : ∀ {a b : Buffer}, Buffer.le a b = true → Buffer.le b a = true → a = b
  | [], [], _, _ => rfl
  | [], _ :: _, _, h => nomatch h
  | _ :: _, [], h, _ => nomatch h
  | a :: as, b :: bs, h, h' => by
      unfold Buffer.le at h h'
      by_cases hlt : a < b
      · rw [if_neg (UInt8.lt_asymm hlt), if_pos hlt] at h'
        cases h'
      · by_cases hgt : b < a
        · rw [if_neg hlt, if_pos hgt] at h
          cases h
        · rw [if_neg hlt, if_neg hgt] at h
          rw [if_neg hgt, if_neg hlt] at h'
          rw [UInt8.le_antisymm (UInt8.not_lt.mp hgt) (UInt8.not_lt.mp hlt),
            Buffer.le_antisymm h h']

theorem Buffer.le_total : ∀ a b : Buffer, Buffer.le a b = false → Buffer.le b a = true
  | [], _, h => nomatch h
  | _ :: _, [], _ => rfl
  | a :: as, b :: bs, h => by
      unfold Buffer.le at h ⊢
      by_cases hlt : a < b
      · rw [if_pos hlt] at h
        cases h
      · by_cases hgt : b < a
        · rw [if_pos hgt]
        · rw [if_neg hlt, if_neg hgt] at h
          rw [if_neg hgt, if_neg hlt]
          exact Buffer.le_total as bs h

section Keccak

variable (keccak256 : Buffer → Buffer)

/-- Leaf node hash. -/
def hashLeafKeccak (leaf : Buffer) : Buffer := keccak256 (0x00 :: leaf)

/-- Domain tag of the synthetic count leaf. -/
def COUNT_LEAF_DOMAIN : Buffer := keccak256 "brain.audit.leaf-count.v1".toUTF8.toList

/-- The bytes of a number, the highest first. -/
def bigEndian : Nat → Nat → Buffer
  | 0, _ => []
  | bytes + 1, value => bigEndian bytes (value / 256) ++ [UInt8.ofNat value]

/-- The synthetic leaf that binds a tree to its leaf count. -/
def countLeaf (leafCount : Nat) : Buffer :=
  keccak256 (COUNT_LEAF_DOMAIN keccak256 ++ List.replicate 24 0 ++ bigEndian 8 leafCount)

/-- Internal node hash, of the nodes in order. -/
def hashInternalKeccak (a b : Buffer) : Buffer :=
  if Buffer.le a b then keccak256 (0x01 :: (a ++ b)) else keccak256 (0x01 :: (b ++ a))

theorem hashInternalKeccak_comm (a b : Buffer) :
    hashInternalKeccak keccak256 a b = hashInternalKeccak keccak256 b a := by
  unfold hashInternalKeccak
  cases hab : Buffer.le a b with
  | true =>
      cases hba : Buffer.le b a with
      | true =>
          rw [Buffer.le_antisymm hab hba]
      | false => rfl
  | false =>
      rw [Buffer.le_total a b hab]
      rfl

structure MerkleTree where
  root : Buffer
  leafCount : Nat
  layers : List (List Buffer)

def buildTree (leaves : List Buffer) : MerkleTree :=
  match leaves with
  | [] => ⟨List.replicate 32 0, 0, []⟩
  | _ :: _ =>
      let nodes := countLeaf keccak256 leaves.length :: leaves
      let layers := layersFrom (hashInternalKeccak keccak256) (nodes.map (hashLeafKeccak keccak256))
      ⟨(topNode layers).getD [], leaves.length, layers⟩

def proofForNode (tree : MerkleTree) (nodeIndex : Nat) : List Buffer := pathFrom tree.layers nodeIndex

/-- Inclusion proof of an event leaf; the count leaf comes before it. -/
def makeProof (tree : MerkleTree) (leafIndex : Nat) : List Buffer := proofForNode tree (leafIndex + 1)

def verifyProof (root leaf : Buffer) (proof : List Buffer) : Bool :=
  climb (hashInternalKeccak keccak256) (hashLeafKeccak keccak256 leaf) proof = root

/-- The proof of each leaf verifies. -/
theorem verifyProof_makeProof {leaves : List Buffer} {index : Nat} {leaf : Buffer}
    (hleaf : leaves[index]? = some leaf) :
    verifyProof keccak256 (buildTree keccak256 leaves).root leaf
      (makeProof (buildTree keccak256 leaves) index) = true := by
  cases leaves with
  | nil => cases hleaf
  | cons first rest =>
      have hnode : ((countLeaf keccak256 (first :: rest).length :: first :: rest).map
          (hashLeafKeccak keccak256))[index + 1]? = some (hashLeafKeccak keccak256 leaf) := by
        rw [List.getElem?_map, List.getElem?_cons_succ, hleaf]
        rfl
      have htop := climb_pathFrom (hashInternalKeccak_comm keccak256) hnode
      refine decide_eq_true ?_
      change _ = (topNode _).getD []
      rw [htop]
      rfl

end Keccak

end BrainCore.Audit
