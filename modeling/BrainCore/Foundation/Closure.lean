import Mathlib.Data.List.Basic
import Mathlib.Logic.Relation

/-!
# What a list of edges links

The transitive closure a recursive query computes over a table of undirected
edges: an edge that touches what was found is taken out and both its ends are
found.
-/

namespace BrainCore.Foundation

universe u

variable {α : Type u}

/-- One of the edges joins the two, in either direction. -/
def Linked (edges : List (α × α)) (a b : α) : Prop := (a, b) ∈ edges ∨ (b, a) ∈ edges

theorem Linked.symm {edges : List (α × α)} {a b : α} (h : Linked edges a b) : Linked edges b a :=
  Or.symm h

/-- Linked by a chain of edges. -/
abbrev Connected (edges : List (α × α)) : α → α → Prop := Relation.ReflTransGen (Linked edges)

theorem Connected.symm {edges : List (α × α)} {a b : α} (h : Connected edges a b) :
    Connected edges b a := by
  induction h with
  | refl => exact .refl
  | tail _ hlink ih => exact (Relation.ReflTransGen.single hlink.symm).trans ih

variable [DecidableEq α]

def touches (found : List α) (edge : α × α) : Bool := edge.1 ∈ found || edge.2 ∈ found

/-- Follow at most `fuel` edges. -/
def linkedFrom : Nat → List (α × α) → List α → List α
  | 0, _, found => found
  | fuel + 1, edges, found =>
      match edges.find? (touches found) with
      | none => found
      | some edge => linkedFrom fuel (edges.erase edge) (edge.1 :: edge.2 :: found)

/-- All that is linked to a start. -/
def linkedTo (edges : List (α × α)) (start : α) : List α := linkedFrom edges.length edges [start]

/-- What is found is connected to something found before. -/
theorem connected_of_mem_linkedFrom {all : List (α × α)} (fuel : Nat) {edges : List (α × α)}
    {found : List α} {start x : α} (hsub : edges ⊆ all) (hfound : ∀ y ∈ found, Connected all start y)
    (h : x ∈ linkedFrom fuel edges found) : Connected all start x := by
  induction fuel generalizing edges found with
  | zero => exact hfound x h
  | succ fuel ih =>
      rw [linkedFrom] at h
      cases hfind : edges.find? (touches found) with
      | none =>
          rw [hfind] at h
          exact hfound x h
      | some edge =>
          rw [hfind] at h
          have hmem := hsub (List.mem_of_find?_eq_some hfind)
          have htouch := List.find?_some hfind
          rw [touches, Bool.or_eq_true, decide_eq_true_eq, decide_eq_true_eq] at htouch
          have hends : Connected all start edge.1 ∧ Connected all start edge.2 := by
            rcases htouch with hfirst | hsecond
            · exact ⟨hfound _ hfirst, (hfound _ hfirst).tail (.inl hmem)⟩
            · exact ⟨(hfound _ hsecond).tail (.inr hmem), hfound _ hsecond⟩
          refine ih (fun e he => hsub (List.mem_of_mem_erase he)) ?_ h
          intro y hy
          rcases List.mem_cons.mp hy with rfl | hy
          · exact hends.1
          rcases List.mem_cons.mp hy with rfl | hy
          · exact hends.2
          · exact hfound y hy

theorem subset_linkedFrom (fuel : Nat) (edges : List (α × α)) (found : List α) :
    found ⊆ linkedFrom fuel edges found := by
  induction fuel generalizing edges found with
  | zero => exact List.Subset.refl _
  | succ fuel ih =>
      rw [linkedFrom]
      cases edges.find? (touches found) with
      | none => exact List.Subset.refl _
      | some edge =>
          intro x hx
          exact ih _ _ (List.mem_cons_of_mem _ (List.mem_cons_of_mem _ hx))

/-- With enough fuel, an edge with one end found has both ends found. -/
theorem linkedFrom_closed (fuel : Nat) {edges : List (α × α)} {found : List α}
    (henough : edges.length ≤ fuel) {edge : α × α} (hmem : edge ∈ edges)
    (htouch : touches (linkedFrom fuel edges found) edge = true) :
    edge.1 ∈ linkedFrom fuel edges found ∧ edge.2 ∈ linkedFrom fuel edges found := by
  induction fuel generalizing edges found with
  | zero =>
      rw [Nat.le_zero, List.length_eq_zero_iff] at henough
      rw [henough] at hmem
      cases hmem
  | succ fuel ih =>
      rw [linkedFrom] at htouch ⊢
      cases hfind : edges.find? (touches found) with
      | none =>
          rw [hfind] at htouch
          exact absurd htouch (List.find?_eq_none.mp hfind edge hmem)
      | some taken =>
          rw [hfind] at htouch
          dsimp only at htouch ⊢
          by_cases hsame : edge = taken
          · subst hsame
            have hsub := subset_linkedFrom fuel (edges.erase edge) (edge.1 :: edge.2 :: found)
            exact ⟨hsub List.mem_cons_self, hsub (List.mem_cons_of_mem _ List.mem_cons_self)⟩
          · have htaken := List.mem_of_find?_eq_some hfind
            refine ih ?_ ((List.mem_erase_of_ne hsame).mpr hmem) htouch
            rw [List.length_erase_of_mem htaken]
            omega

/-- The query finds exactly what a chain of edges reaches. -/
theorem mem_linkedTo_iff {edges : List (α × α)} {start x : α} :
    x ∈ linkedTo edges start ↔ Connected edges start x := by
  constructor
  · apply connected_of_mem_linkedFrom edges.length (List.Subset.refl _)
    intro y hy
    rw [List.mem_singleton.mp hy]
  · intro h
    induction h with
    | refl => exact subset_linkedFrom _ _ _ (List.mem_singleton_self start)
    | tail _ hlink ih =>
        rw [linkedTo] at ih
        rcases hlink with hmem | hmem
        · refine (linkedFrom_closed edges.length (Nat.le_refl _) hmem ?_).2
          rw [touches, Bool.or_eq_true]
          exact .inl (decide_eq_true ih)
        · refine (linkedFrom_closed edges.length (Nat.le_refl _) hmem ?_).1
          rw [touches, Bool.or_eq_true]
          exact .inr (decide_eq_true ih)

end BrainCore.Foundation
