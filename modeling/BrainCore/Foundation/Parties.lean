import Mathlib.Data.List.Basic

/-!
# Parties

A system whose parties stand in a list: one party is replaced, or a new one
comes at the end.  What was said of each party is said of each again once the
replaced or the new one is dealt with.
-/

namespace BrainCore.Foundation

variable {α : Type} {parties : List α} {i j : Nat} {old latest other : α}

/-- A party of the new list is the replaced one, or was there at its place. -/
theorem set_cases (hold : parties[i]? = some old) (hother : (parties.set i latest)[j]? = some other) :
    j = i ∧ other = latest ∨ j ≠ i ∧ parties[j]? = some other := by
  obtain ⟨hlt, -⟩ := List.getElem?_eq_some_iff.mp hold
  rw [List.getElem?_set] at hother
  split at hother
  · rename_i hij
    exact .inl ⟨hij.symm, (Option.some.inj hother).symm⟩
  · rename_i hij
    exact .inr ⟨Ne.symm hij, hother⟩

theorem set_self (hold : parties[i]? = some old) : (parties.set i latest)[i]? = some latest := by
  obtain ⟨hlt, -⟩ := List.getElem?_eq_some_iff.mp hold
  exact List.getElem?_set_self hlt

theorem set_other (hne : j ≠ i) (hother : parties[j]? = some other) :
    (parties.set i latest)[j]? = some other :=
  (List.getElem?_set_ne (Ne.symm hne)).trans hother

/-- What is counted of the parties changes by the replaced one. -/
theorem countP_set {p : α → Bool} (hold : parties[i]? = some old) :
    (parties.set i latest).countP p + (if p old then 1 else 0) =
      parties.countP p + if p latest then 1 else 0 := by
  induction parties generalizing i with
  | nil => cases hold
  | cons party parties ih =>
      cases i with
      | zero =>
          cases hold
          simp only [List.set_cons_zero, List.countP_cons]
          omega
      | succ i =>
          have hrest := ih hold
          simp only [List.set_cons_succ, List.countP_cons]
          omega

/-- A party of the longer list is the new one, or was there. -/
theorem snoc_cases (hother : (parties ++ [latest])[j]? = some other) :
    j = parties.length ∧ other = latest ∨ parties[j]? = some other := by
  rcases Nat.lt_trichotomy j parties.length with hlt | rfl | hgt
  · rw [List.getElem?_append_left hlt] at hother
    exact .inr hother
  · rw [List.getElem?_concat_length] at hother
    exact .inl ⟨rfl, (Option.some.inj hother).symm⟩
  · rw [List.getElem?_eq_none] at hother
    · cases hother
    · rw [List.length_append, List.length_singleton]
      exact hgt

theorem snoc_other (hother : parties[j]? = some other) :
    (parties ++ [latest])[j]? = some other := by
  obtain ⟨hlt, -⟩ := List.getElem?_eq_some_iff.mp hother
  exact (List.getElem?_append_left hlt).trans hother

end BrainCore.Foundation
