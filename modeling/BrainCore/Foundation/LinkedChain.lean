import Mathlib.Data.Fintype.Card
import Mathlib.Data.List.Perm.Basic
import Mathlib.Data.Set.Finite.List
import Mathlib.Order.WellFounded

/-!
# Linked chains

Items that each name the hash of their predecessor.  A chain lists items from
the first one on, and a set of items without two successors of one hash has at
most one chain.
-/

namespace BrainCore.Foundation

variable {α κ : Type} (hash : α → κ) (prev : α → Option κ)

/-- Each item names the one before it, and the first one names `start`. -/
def Chained : Option κ → List α → Prop
  | _, [] => True
  | start, item :: items => prev item = start ∧ Chained (some (hash item)) items

/-- What the next item of a chain has to name. -/
def lastHash (start : Option κ) (items : List α) : Option κ :=
  match items.getLast? with
  | none => start
  | some item => some (hash item)

@[simp]
theorem lastHash_nil (start : Option κ) : lastHash hash start [] = start := rfl

@[simp]
theorem lastHash_concat (start : Option κ) (items : List α) (item : α) :
    lastHash hash start (items ++ [item]) = some (hash item) := by
  rw [lastHash, List.getLast?_concat]

theorem lastHash_cons (start : Option κ) (item : α) (items : List α) :
    lastHash hash start (item :: items) = lastHash hash (some (hash item)) items := by
  unfold lastHash
  rw [List.getLast?_cons]
  cases items.getLast? with
  | none => rfl
  | some last => rfl

variable {hash prev}

theorem chained_append {start : Option κ} {first second : List α} :
    Chained hash prev start (first ++ second) ↔
      Chained hash prev start first ∧ Chained hash prev (lastHash hash start first) second := by
  induction first generalizing start with
  | nil => exact ⟨fun h => ⟨trivial, h⟩, fun h => h.2⟩
  | cons item items ih =>
      rw [List.cons_append, lastHash_cons]
      change prev item = start ∧ Chained hash prev (some (hash item)) (items ++ second) ↔
        (prev item = start ∧ Chained hash prev (some (hash item)) items) ∧ _
      rw [ih, and_assoc]

/-- A chain goes on with an item that names its last one. -/
theorem Chained.concat {start : Option κ} {items : List α} {item : α}
    (h : Chained hash prev start items) (hprev : prev item = lastHash hash start items) :
    Chained hash prev start (items ++ [item]) :=
  chained_append.mpr ⟨h, hprev, trivial⟩

/-- Items of which no two name the same predecessor are in one chain at most. -/
theorem Chained.eq_of_perm {start : Option κ} {items other : List α}
    (hdistinct : items.Pairwise fun a b => prev a ≠ prev b)
    (h : Chained hash prev start items) (h' : Chained hash prev start other)
    (hperm : other.Perm items) : other = items := by
  induction items generalizing start other with
  | nil => exact hperm.eq_nil
  | cons item items ih =>
      obtain ⟨hfirst, hrest⟩ := List.pairwise_cons.mp hdistinct
      cases other with
      | nil => exact absurd hperm.symm.eq_nil (List.cons_ne_nil _ _)
      | cons item' other =>
          have hsame : item' = item := by
            rcases List.mem_cons.mp (hperm.mem_iff.mp List.mem_cons_self) with heq | hmem
            · exact heq
            · exact absurd (h.1.trans h'.1.symm) (hfirst item' hmem)
          subst hsame
          rw [ih hrest h.2 h'.2 hperm.cons_inv]

/-! ## When items are a chain -/

variable (hash prev) in
/-- An item names another one of these. -/
def Precedes (items : List α) (earlier item : α) : Prop :=
  earlier ∈ items ∧ item ∈ items ∧ prev item = some (hash earlier)

variable (hash prev) in
/-- No item comes back to itself by its predecessors. -/
def Acyclic (items : List α) : Prop := ∀ item, ¬ Relation.TransGen (Precedes hash prev items) item item

theorem Acyclic.mono {items fewer : List α} (h : Acyclic hash prev items)
    (hsub : ∀ item ∈ fewer, item ∈ items) : Acyclic hash prev fewer := by
  have hlinks : Precedes hash prev fewer ≤ Precedes hash prev items := fun _ _ hlink =>
    ⟨hsub _ hlink.1, hsub _ hlink.2.1, hlink.2.2⟩
  exact fun item hcycle => h item (Relation.TransGen.mono hlinks _ _ hcycle)

/-- Links that go up in some order are no cycle. -/
theorem acyclic_of_rank {items : List α} (rank : α → Nat)
    (h : ∀ earlier item, Precedes hash prev items earlier item → rank earlier < rank item) :
    Acyclic hash prev items := by
  intro item hcycle
  have hless : ∀ later, Relation.TransGen (Precedes hash prev items) item later →
      rank item < rank later := by
    intro later hlater
    induction hlater with
    | single hlink => exact h _ _ hlink
    | tail _ hlink ih => exact Nat.lt_trans ih (h _ _ hlink)
  exact Nat.lt_irrefl _ (hless item hcycle)

/-- Some item names none of the others. -/
theorem Acyclic.exists_first {items : List α} (h : Acyclic hash prev items) (hne : items ≠ []) :
    ∃ first ∈ items, ∀ item ∈ items, prev first ≠ some (hash item) := by
  let follows : {item // item ∈ items} → {item // item ∈ items} → Prop := fun earlier item =>
    Relation.TransGen (Precedes hash prev items) earlier.1 item.1
  have hfinite : Finite {item // item ∈ items} := (List.finite_toSet items).to_subtype
  have htrans : IsTrans _ follows := ⟨fun _ _ _ => Relation.TransGen.trans⟩
  have hirrefl : Std.Irrefl follows := ⟨fun item => h item.1⟩
  have hwf : WellFounded follows := Finite.wellFounded_of_trans_of_irrefl follows
  obtain ⟨start, hstart⟩ := List.exists_mem_of_ne_nil items hne
  obtain ⟨⟨first, hfirst⟩, -, hleast⟩ := hwf.has_min Set.univ ⟨⟨start, hstart⟩, trivial⟩
  refine ⟨first, hfirst, fun item hitem hprev => ?_⟩
  exact hleast ⟨item, hitem⟩ trivial (.single ⟨hitem, hfirst, hprev⟩)

/-- Items with distinct predecessors, all of them at hand, are a chain. -/
theorem Acyclic.exists_chain {items : List α} {start : Option κ} (h : Acyclic hash prev items)
    (hdistinct : (items.map prev).Nodup)
    (hclosed : ∀ item ∈ items, prev item = start ∨ ∃ earlier ∈ items, prev item = some (hash earlier)) :
    ∃ chain : List α, chain.Perm items ∧ Chained hash prev start chain := by
  induction hlength : items.length generalizing items start with
  | zero =>
      rw [List.eq_nil_of_length_eq_zero hlength]
      exact ⟨[], .nil, trivial⟩
  | succ n ih =>
      obtain ⟨first, hfirst, hnone⟩ := h.exists_first (List.ne_nil_of_length_eq_add_one hlength)
      have hstart : prev first = start := by
        rcases hclosed first hfirst with hstart | ⟨earlier, hearlier, hprev⟩
        · exact hstart
        · exact absurd hprev (hnone earlier hearlier)
      obtain ⟨before, after, rfl⟩ := List.append_of_mem hfirst
      have hperm : (before ++ first :: after).Perm (first :: (before ++ after)) := List.perm_middle
      have hnodup : (prev first :: (before ++ after).map prev).Nodup :=
        (hperm.map prev).nodup_iff.mp hdistinct
      obtain ⟨hfresh, hrest⟩ := List.nodup_cons.mp hnodup
      -- the other items go on from the first one
      have hnext : ∀ item ∈ before ++ after, prev item = some (hash first) ∨
          ∃ earlier ∈ before ++ after, prev item = some (hash earlier) := by
        intro item hitem
        rcases hclosed item (hperm.mem_iff.mpr (List.mem_cons_of_mem _ hitem)) with
          hsame | ⟨earlier, hearlier, hprev⟩
        · exact absurd (List.mem_map.mpr ⟨item, hitem, hsame.trans hstart.symm⟩) hfresh
        · rcases List.mem_cons.mp (hperm.mem_iff.mp hearlier) with rfl | hearlier
          · exact .inl hprev
          · exact .inr ⟨earlier, hearlier, hprev⟩
      have hfewer : (before ++ after).length = n := by
        have hlengths := hperm.length_eq
        rw [hlength, List.length_cons] at hlengths
        omega
      obtain ⟨chain, hchain, hlinked⟩ := ih
        (h.mono fun item hitem => hperm.mem_iff.mpr (List.mem_cons_of_mem _ hitem)) hrest hnext hfewer
      exact ⟨first :: chain, (hchain.cons first).trans hperm.symm, hstart, hlinked⟩

/-- What the items of a chain name: its start, and the hashes of all but the last. -/
theorem Chained.map_prev {start : Option κ} {items : List α} (h : Chained hash prev start items) :
    items.map prev = (start :: items.map fun item => some (hash item)).dropLast := by
  induction items generalizing start with
  | nil => rfl
  | cons item items ih =>
      rw [List.map_cons, List.map_cons, List.dropLast_cons_cons, h.1, ih h.2]

/-- The predecessors in a chain from the genesis are distinct when the hashes are. -/
theorem Chained.nodup_prev {items : List α} (h : Chained hash prev none items)
    (hhash : (items.map hash).Nodup) : (items.map prev).Nodup := by
  rw [h.map_prev]
  apply List.Nodup.sublist (List.dropLast_sublist _)
  apply List.nodup_cons.mpr
  refine ⟨by simp, ?_⟩
  have hmap : (items.map fun item => some (hash item)) = (items.map hash).map some :=
    List.map_map.symm
  rw [hmap]
  exact hhash.map (Option.some_injective κ)

/-- An item of a chain names the start or an item of the chain. -/
theorem Chained.mem {start : Option κ} {items : List α} (h : Chained hash prev start items)
    {item : α} (hitem : item ∈ items) :
    prev item = start ∨ ∃ earlier ∈ items, prev item = some (hash earlier) := by
  have hmem : prev item ∈ (start :: items.map fun item => some (hash item)).dropLast :=
    h.map_prev ▸ List.mem_map_of_mem hitem
  rcases List.mem_cons.mp (List.mem_of_mem_dropLast hmem) with hstart | hmem
  · exact .inl hstart
  · obtain ⟨earlier, hearlier, heq⟩ := List.mem_map.mp hmem
    exact .inr ⟨earlier, hearlier, heq.symm⟩

end BrainCore.Foundation
