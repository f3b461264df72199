import Mathlib.Algebra.BigOperators.Group.List.Basic
import Mathlib.Data.List.Dedup

/-!
# Grouping rows by a key

`GROUP BY`: the rows of a list under each key that occurs.  A weight summed over
the groups whose keys meet a condition is the weight summed over the rows whose
keys do, so a total can be taken through the groups.
-/

namespace BrainCore.Foundation.Grouping

universe u v w

variable {ρ : Type u} {κ : Type v} [DecidableEq κ] {M : Type w}

/-- The rows under each key that occurs. -/
def groups (key : ρ → κ) (rows : List ρ) : List (κ × List ρ) :=
  (rows.map key).dedup.map fun k => (k, rows.filter fun row => key row = k)

/-- A row adds its weight to the group of its key alone. -/
theorem sum_single [AddCommMonoid M] {keys : List κ} (distinct : keys.Nodup) (k : κ) (weight : M) :
    (keys.map fun other => if k = other then weight else 0).sum = if k ∈ keys then weight else 0 := by
  induction keys with
  | nil => simp
  | cons other rest ih =>
      obtain ⟨fresh, hrest⟩ := List.nodup_cons.mp distinct
      rw [List.map_cons, List.sum_cons, ih hrest]
      by_cases same : k = other
      · subst same
        simp [fresh]
      · simp [same]

/-- Over distinct keys that cover the rows, the sums of the groups are the sum of the rows. -/
theorem sum_over_keys [AddCommMonoid M] (key : ρ → κ) (weight : ρ → M) (p : κ → Bool)
    {keys : List κ} (distinct : keys.Nodup) {rows : List ρ} (cover : ∀ row ∈ rows, key row ∈ keys) :
    ((keys.filter p).map fun k => ((rows.filter fun row => key row = k).map weight).sum).sum =
      ((rows.filter fun row => p (key row)).map weight).sum := by
  induction rows with
  | nil => simp
  | cons row rest ih =>
      have hrest := ih fun other hother => cover other (List.mem_cons_of_mem _ hother)
      have hsplit : ∀ k, (((row :: rest).filter fun row => key row = k).map weight).sum =
          (if key row = k then weight row else 0) +
            ((rest.filter fun row => key row = k).map weight).sum := by
        intro k
        by_cases same : key row = k <;> simp [same]
      have hmem : key row ∈ keys.filter p ↔ p (key row) = true := by
        simp [cover row List.mem_cons_self]
      simp only [hsplit, List.sum_map_add, sum_single (distinct.filter p), hmem]
      rw [hrest]
      by_cases hp : p (key row) = true <;> simp [hp]

/-- A total taken through the groups is the total of the rows. -/
theorem sum_groups [AddCommMonoid M] (key : ρ → κ) (weight : ρ → M) (p : κ → Bool) (rows : List ρ) :
    (((groups key rows).filter fun group => p group.1).map fun group =>
        (group.2.map weight).sum).sum =
      ((rows.filter fun row => p (key row)).map weight).sum := by
  rw [← sum_over_keys key weight p (List.nodup_dedup (rows.map key))
    fun row hrow => List.mem_dedup.mpr (List.mem_map_of_mem hrow)]
  unfold groups
  rw [List.filter_map, List.map_map]
  rfl

end BrainCore.Foundation.Grouping
