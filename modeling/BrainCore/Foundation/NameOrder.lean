import Mathlib.Data.List.Lex
import Mathlib.Data.List.Sort

/-!
# The order of names

The source's language orders texts by their UTF-16 units.  Two lists of members
with distinct names are in the same order exactly when they are permutations of
each other.
-/

namespace BrainCore.Foundation

/-- The UTF-16 units of a character. -/
def unitsOf (c : Char) : List Nat :=
  if c.toNat < 65536 then [c.toNat]
  else [55296 + (c.toNat - 65536) / 1024, 56320 + (c.toNat - 65536) % 1024]

def utf16 (s : String) : List Nat := s.toList.flatMap unitsOf

theorem toNat_not_surrogate (c : Char) : c.toNat < 55296 ∨ 57343 < c.toNat ∧ c.toNat < 1114112 :=
  c.valid

/-- The first character can be read off the units. -/
theorem unitsOf_append_inj {c d : Char} {s t : List Nat}
    (h : unitsOf c ++ s = unitsOf d ++ t) : c = d ∧ s = t := by
  have hc := toNat_not_surrogate c
  have hd := toNat_not_surrogate d
  suffices hsame : c.toNat = d.toNat ∧ s = t from
    ⟨Char.toNat_inj.mp hsame.1, hsame.2⟩
  unfold unitsOf at h
  split at h
  · split at h
    · obtain ⟨hunit, hrest⟩ := List.cons.inj h
      exact ⟨hunit, hrest⟩
    · obtain ⟨hunit, -⟩ := List.cons.inj h
      omega
  · split at h
    · obtain ⟨hunit, -⟩ := List.cons.inj h
      omega
    · obtain ⟨hhigh, hrest⟩ := List.cons.inj h
      obtain ⟨hlow, hrest⟩ := List.cons.inj hrest
      exact ⟨by omega, hrest⟩

theorem flatMap_unitsOf_inj {s t : List Char} (h : s.flatMap unitsOf = t.flatMap unitsOf) :
    s = t := by
  have hsome : ∀ c, unitsOf c ≠ [] := by
    intro c
    unfold unitsOf
    split <;> exact List.cons_ne_nil _ _
  induction s generalizing t with
  | nil =>
      cases t with
      | nil => rfl
      | cons d t =>
          rw [List.flatMap_cons, List.flatMap_nil] at h
          exact absurd (List.append_eq_nil_iff.mp h.symm).1 (hsome d)
  | cons c s ih =>
      cases t with
      | nil =>
          rw [List.flatMap_cons, List.flatMap_nil] at h
          exact absurd (List.append_eq_nil_iff.mp h).1 (hsome c)
      | cons d t =>
          rw [List.flatMap_cons, List.flatMap_cons] at h
          obtain ⟨rfl, hrest⟩ := unitsOf_append_inj h
          rw [ih hrest]

theorem utf16_injective : Function.Injective utf16 := fun _ _ h =>
  String.toList_inj.mp (flatMap_unitsOf_inj h)

/-- Names are ordered by their units. -/
def NameLE {α : Type} (a b : String × α) : Prop := utf16 a.1 ≤ utf16 b.1

instance {α : Type} : DecidableRel (NameLE (α := α)) := fun _ _ =>
  inferInstanceAs (Decidable (_ ≤ _))

instance {α : Type} : IsTrans (String × α) NameLE := ⟨fun _ _ _ => le_trans⟩

instance {α : Type} : Std.Total (NameLE (α := α)) := ⟨fun _ _ => le_total _ _⟩

/-- The members in the order of their names. -/
def sortNames {α : Type} (members : List (String × α)) : List (String × α) :=
  members.insertionSort NameLE

theorem sortNames_perm {α : Type} (members : List (String × α)) :
    (sortNames members).Perm members := List.perm_insertionSort NameLE members

theorem sortNames_pairwise {α : Type} (members : List (String × α)) :
    (sortNames members).Pairwise NameLE := List.pairwise_insertionSort NameLE members

theorem sortNames_of_pairwise {α : Type} {members : List (String × α)}
    (h : members.Pairwise NameLE) : sortNames members = members := h.insertionSort_eq

/-- With distinct names there is one order. -/
theorem sortNames_eq_iff {α : Type} {first second : List (String × α)}
    (hnodup : (first.map Prod.fst).Nodup) :
    sortNames first = sortNames second ↔ first.Perm second := by
  constructor
  · intro h
    exact ((sortNames_perm first).symm.trans (List.Perm.of_eq h)).trans (sortNames_perm second)
  · intro h
    have hperm : (sortNames first).Perm (sortNames second) :=
      ((sortNames_perm first).trans h).trans (sortNames_perm second).symm
    refine hperm.eq_of_pairwise ?_ (sortNames_pairwise first) (sortNames_pairwise second)
    intro a b ha hb hab hba
    have hname : a.1 = b.1 := utf16_injective (le_antisymm hab hba)
    have hamem := (sortNames_perm first).mem_iff.mp ha
    have hbmem := h.mem_iff.mpr ((sortNames_perm second).mem_iff.mp hb)
    exact List.inj_on_of_nodup_map hnodup hamem hbmem hname

end BrainCore.Foundation
