import Mathlib.Algebra.Group.Nat.Even
import Mathlib.Data.Nat.Bitwise

/-!
# Trees of paired nodes

A layer of nodes is paired up until one node is left; a last node without a
partner is paired with itself.  The path of a node holds its partner in every
layer, and leads to the root when pairing does not depend on the sides.  Where
pairs that meet in one node are the same, nothing else leads to the root.
-/

namespace BrainCore.Foundation

variable {β : Type} (combine : β → β → β)

/-- The layer above. -/
def pairUp : List β → List β
  | [] => []
  | [a] => [combine a a]
  | a :: b :: rest => combine a b :: pairUp rest

theorem length_pairUp : ∀ layer : List β, (pairUp combine layer).length = (layer.length + 1) / 2
  | [] => by simp [pairUp]
  | [_] => by simp [pairUp]
  | _ :: _ :: rest => by
      rw [pairUp, List.length_cons, length_pairUp rest, List.length_cons, List.length_cons]
      omega

/-- All layers, from this one up. -/
def layersFrom (layer : List β) : List (List β) :=
  if 1 < layer.length then layer :: layersFrom (pairUp combine layer) else [layer]
termination_by layer.length
decreasing_by
  rw [length_pairUp]
  omega

/-- The first node of the last layer. -/
def topNode (layers : List (List β)) : Option β := layers.getLast?.bind List.head?

/-- The partner of the node at an index, or the node itself where there is none. -/
def partner (layer : List β) (index : Nat) : Option β :=
  layer[index ^^^ 1]?.or layer[index]?

/-- The partners of a node on its way up, without the last layer. -/
def pathFrom : List (List β) → Nat → List β
  | layer :: next :: rest, index => (partner layer index).toList ++ pathFrom (next :: rest) (index / 2)
  | _, _ => []

/-- The node that a path leads to. -/
def climb (node : β) (path : List β) : β := path.foldl combine node

/-! ## A path leads to the root -/

theorem xor_one_add_two (index : Nat) : (index + 2) ^^^ 1 = (index ^^^ 1) + 2 := by
  rcases Nat.even_or_odd index with heven | hodd
  · rw [Nat.xor_one_of_even heven, Nat.xor_one_of_even (heven.add (by decide))]
  · have hpos : 0 < index := Nat.pos_of_ne_zero fun hzero => by simp [hzero] at hodd
    rw [Nat.xor_one_of_odd hodd, Nat.xor_one_of_odd (hodd.add_even (by decide))]
    omega

theorem partner_cons_cons (a b : β) (rest : List β) (index : Nat) :
    partner (a :: b :: rest) (index + 2) = partner rest index := by
  unfold partner
  rw [xor_one_add_two, List.getElem?_cons_succ, List.getElem?_cons_succ, List.getElem?_cons_succ,
    List.getElem?_cons_succ]

variable {combine}

/-- A node and its partner are paired in the layer above. -/
theorem pairUp_getElem? (hcomm : ∀ a b, combine a b = combine b a) :
    ∀ {layer : List β} {index : Nat} {node : β}, layer[index]? = some node →
      ∃ other, partner layer index = some other ∧
        (pairUp combine layer)[index / 2]? = some (combine node other)
  | [], _, _, h => nomatch h
  | [a], 0, _, h => by
      cases h
      exact ⟨a, rfl, rfl⟩
  | [_], _ + 1, _, h => nomatch h
  | a :: b :: _, 0, _, h => by
      cases h
      exact ⟨b, rfl, rfl⟩
  | a :: b :: rest, 1, _, h => by
      cases h
      exact ⟨a, rfl, congrArg some (hcomm a b)⟩
  | a :: b :: rest, index + 2, node, h => by
      have hrest : rest[index]? = some node := h
      obtain ⟨other, hother, hpair⟩ := pairUp_getElem? hcomm hrest
      refine ⟨other, (partner_cons_cons a b rest index).trans hother, ?_⟩
      rw [Nat.add_div_right index (by decide)]
      exact hpair

theorem layersFrom_ne_nil (layer : List β) : layersFrom combine layer ≠ [] := by
  rw [layersFrom]
  split
  · exact List.cons_ne_nil _ _
  · exact List.cons_ne_nil _ _

/-- The top is that of the layer above. -/
theorem topNode_pairUp {layer : List β} (hmore : 1 < layer.length) :
    topNode (layersFrom combine layer) = topNode (layersFrom combine (pairUp combine layer)) := by
  conv_lhs => rw [layersFrom, if_pos hmore]
  unfold topNode
  rw [List.getLast?_cons_of_ne_nil (layersFrom_ne_nil _)]

/-- The path of a node leads from it to the top. -/
theorem climb_pathFrom (hcomm : ∀ a b, combine a b = combine b a) {layer : List β} {index : Nat}
    {node : β} (hnode : layer[index]? = some node) :
    topNode (layersFrom combine layer) =
      some (climb combine node (pathFrom (layersFrom combine layer) index)) := by
  induction layer using @layersFrom.induct β combine generalizing index node with
  | case1 layer hmore ih =>
      obtain ⟨other, hother, hpair⟩ := pairUp_getElem? hcomm hnode
      have hnext := ih hpair
      rw [layersFrom, if_pos hmore]
      cases hlayers : layersFrom combine (pairUp combine layer) with
      | nil => exact absurd hlayers (layersFrom_ne_nil _)
      | cons next rest =>
          rw [hlayers] at hnext
          rw [pathFrom, hother]
          exact hnext
  | case2 layer hlast =>
      rw [layersFrom, if_neg hlast]
      have hindex : index < layer.length := (List.getElem?_eq_some_iff.mp hnode).1
      obtain ⟨single, rfl⟩ := List.length_eq_one_iff.mp (show layer.length = 1 by omega)
      obtain rfl : index = 0 := by
        rw [List.length_singleton] at hindex
        omega
      cases hnode
      rfl

/-! ## Nothing else leads to the root -/

/-- The pairs of a layer. -/
def pairsOf : List β → List (β × β)
  | [] => []
  | [a] => [(a, a)]
  | a :: b :: rest => (a, b) :: pairsOf rest

theorem pairUp_eq_map : ∀ layer : List β,
    pairUp combine layer = (pairsOf layer).map fun pair => combine pair.1 pair.2
  | [] => rfl
  | [_] => rfl
  | a :: b :: rest => congrArg (combine a b :: ·) (pairUp_eq_map rest)

theorem mem_of_mem_pairsOf : ∀ {layer : List β} {pair : β × β}, pair ∈ pairsOf layer →
    pair.1 ∈ layer ∧ pair.2 ∈ layer
  | [], _, h => nomatch h
  | [a], pair, h => by
      rw [List.mem_singleton.mp h]
      exact ⟨List.mem_singleton_self a, List.mem_singleton_self a⟩
  | a :: b :: rest, pair, h => by
      rcases List.mem_cons.mp h with rfl | h
      · exact ⟨List.mem_cons_self, List.mem_cons_of_mem _ List.mem_cons_self⟩
      · obtain ⟨hfirst, hsecond⟩ := mem_of_mem_pairsOf h
        exact ⟨List.mem_cons_of_mem _ (List.mem_cons_of_mem _ hfirst),
          List.mem_cons_of_mem _ (List.mem_cons_of_mem _ hsecond)⟩

variable (combine) in
/-- The pairs of all layers from this one up. -/
def treePairs (layer : List β) : List (β × β) :=
  if 1 < layer.length then pairsOf layer ++ treePairs (pairUp combine layer) else []
termination_by layer.length
decreasing_by
  rw [length_pairUp]
  omega

variable (combine) in
/-- What a path pairs on its way up. -/
def climbPairs : β → List β → List (β × β)
  | _, [] => []
  | node, sibling :: rest => (node, sibling) :: climbPairs (combine node sibling) rest

theorem climb_concat (node : β) (path : List β) (sibling : β) :
    climb combine node (path ++ [sibling]) = combine (climb combine node path) sibling := by
  unfold climb
  rw [List.foldl_append]
  rfl

theorem mem_climbPairs {node sibling : β} {path rest : List β} :
    (climb combine node path, sibling) ∈ climbPairs combine node (path ++ sibling :: rest) := by
  induction path generalizing node with
  | nil => exact List.mem_cons_self
  | cons first path ih => exact List.mem_cons_of_mem _ ih

/-- A path to the root comes by a node of each layer, if it starts at no pair. -/
theorem exists_climb_mem {layer : List β} {node : β} {path : List β}
    (hpair : ∀ pair ∈ climbPairs combine node path, ∀ other ∈ treePairs combine layer,
      combine pair.1 pair.2 = combine other.1 other.2 → pair.1 = other.1 ∨ pair.1 = other.2)
    (hstart : ∀ other ∈ treePairs combine layer, combine other.1 other.2 ≠ node)
    (htop : topNode (layersFrom combine layer) = some (climb combine node path)) :
    ∃ lower upper, path = lower ++ upper ∧ climb combine node lower ∈ layer := by
  induction layer using @layersFrom.induct β combine with
  | case1 layer hmore ih =>
      rw [treePairs, if_pos hmore] at hpair hstart
      have hnext := (topNode_pairUp hmore).symm.trans htop
      obtain ⟨lower, upper, hpath, hmem⟩ := ih
        (fun pair h other hother => hpair pair h other (List.mem_append_right _ hother))
        (fun other hother => hstart other (List.mem_append_right _ hother)) hnext
      rw [pairUp_eq_map] at hmem
      obtain ⟨other, hother, hnode⟩ := List.mem_map.mp hmem
      rcases List.eq_nil_or_concat lower with rfl | ⟨before, sibling, rfl⟩
      · exact absurd hnode (hstart other (List.mem_append_left _ hother))
      · rw [List.concat_eq_append] at hpath hnode
        rw [climb_concat] at hnode
        rw [List.append_assoc] at hpath
        refine ⟨before, [sibling] ++ upper, hpath, ?_⟩
        obtain ⟨hfirst, hsecond⟩ := mem_of_mem_pairsOf hother
        rcases hpair _ (hpath ▸ mem_climbPairs) other (List.mem_append_left _ hother) hnode.symm with
          heq | heq
        · exact Eq.subst (motive := fun below => below ∈ layer) heq.symm hfirst
        · exact Eq.subst (motive := fun below => below ∈ layer) heq.symm hsecond
  | case2 layer hlast =>
      rw [layersFrom, if_neg hlast] at htop
      refine ⟨path, [], (List.append_nil path).symm, ?_⟩
      exact List.mem_of_mem_head? (show layer.head? = _ from htop)

/-- From a bottom node to the root there are only the paths of the bottom nodes. -/
theorem mem_of_climb {layer : List β} {node : β} {path : List β}
    (hpair : ∀ pair ∈ climbPairs combine node path, ∀ other ∈ treePairs combine layer,
      combine pair.1 pair.2 = combine other.1 other.2 → pair.1 = other.1 ∨ pair.1 = other.2)
    (hstart : ∀ other ∈ treePairs combine layer, combine other.1 other.2 ≠ node)
    (hbottom : ∀ pair ∈ climbPairs combine node path, combine pair.1 pair.2 ∉ layer)
    (htop : topNode (layersFrom combine layer) = some (climb combine node path)) : node ∈ layer := by
  obtain ⟨lower, upper, hpath, hmem⟩ := exists_climb_mem hpair hstart htop
  rcases List.eq_nil_or_concat lower with rfl | ⟨before, sibling, rfl⟩
  · exact hmem
  · rw [List.concat_eq_append] at hpath hmem
    rw [climb_concat] at hmem
    rw [List.append_assoc] at hpath
    exact absurd hmem (hbottom _ (hpath ▸ mem_climbPairs))

theorem pairsOf_getElem? : ∀ {layer : List β} {index : Nat} {node : β}, layer[index]? = some node →
    ∃ other, partner layer index = some other ∧
      ((node, other) ∈ pairsOf layer ∨ (other, node) ∈ pairsOf layer)
  | [], _, _, h => nomatch h
  | [a], 0, _, h => by
      cases h
      exact ⟨a, rfl, .inl List.mem_cons_self⟩
  | [_], _ + 1, _, h => nomatch h
  | a :: b :: _, 0, _, h => by
      cases h
      exact ⟨b, rfl, .inl List.mem_cons_self⟩
  | a :: b :: _, 1, _, h => by
      cases h
      exact ⟨a, rfl, .inr List.mem_cons_self⟩
  | a :: b :: rest, index + 2, node, h => by
      have hrest : rest[index]? = some node := h
      obtain ⟨other, hother, hpair⟩ := pairsOf_getElem? hrest
      refine ⟨other, (partner_cons_cons a b rest index).trans hother, ?_⟩
      exact hpair.imp (List.mem_cons_of_mem _) (List.mem_cons_of_mem _)

/-- The path of a node pairs what the tree pairs. -/
theorem treePairs_of_pathFrom (hcomm : ∀ a b, combine a b = combine b a) {layer : List β}
    {index : Nat} {node : β} (hnode : layer[index]? = some node) {pair : β × β}
    (hpair : pair ∈ climbPairs combine node (pathFrom (layersFrom combine layer) index)) :
    pair ∈ treePairs combine layer ∨ pair.swap ∈ treePairs combine layer := by
  induction layer using @layersFrom.induct β combine generalizing index node with
  | case1 layer hmore ih =>
      obtain ⟨other, hother, hnext⟩ := pairUp_getElem? hcomm hnode
      obtain ⟨same, hsame, hmem⟩ := pairsOf_getElem? hnode
      obtain rfl := Option.some.inj (hother.symm.trans hsame)
      rw [treePairs, if_pos hmore]
      rw [layersFrom, if_pos hmore] at hpair
      cases hlayers : layersFrom combine (pairUp combine layer) with
      | nil => exact absurd hlayers (layersFrom_ne_nil _)
      | cons next rest =>
          rw [hlayers, pathFrom, hother] at hpair
          rcases List.mem_cons.mp hpair with rfl | hpair
          · exact hmem.imp (List.mem_append_left _) (List.mem_append_left _)
          · rw [← hlayers] at hpair
            exact (ih hnext hpair).imp (List.mem_append_right _) (List.mem_append_right _)
  | case2 layer hlast =>
      rw [layersFrom, if_neg hlast] at hpair
      cases hpair

end BrainCore.Foundation
