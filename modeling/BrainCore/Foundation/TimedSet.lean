import Mathlib.Data.Finset.Card
import BrainCore.Foundation.Table

/-!
# Sets of members with times

Each member has the time it was recorded at.  Pruning drops the members whose
time is at or before a cutoff.  A sorted set whose scores are times and a map
from members to times are both such sets.
-/

namespace BrainCore.Foundation

universe u

/-- Members with their times. -/
abbrev TimedSet (α : Type u) := Table (Prod.fst : α × Nat → α)

namespace TimedSet

variable {α : Type u}

/-- The set without members. -/
def empty : TimedSet α := Table.empty

/-- The members recorded after the cutoff. -/
def prune (set : TimedSet α) (cutoff : Int) : TimedSet α :=
  set.deleteWhere fun entry => (entry.2 : Int) ≤ cutoff

/-- The number of members. -/
def card (set : TimedSet α) : Nat := set.rows.length

theorem prune_prune (set : TimedSet α) (cutoff : Int) :
    (set.prune cutoff).prune cutoff = set.prune cutoff := by
  apply Table.ext
  exact List.filter_filter.trans (List.filter_congr fun _ _ => Bool.and_self _)

variable [DecidableEq α]

/-- The time of a member. -/
def time? (set : TimedSet α) (member : α) : Option Nat := (set.find? member).map Prod.snd

/-- Records a member at a time, in place of its earlier one. -/
def record (set : TimedSet α) (member : α) (time : Nat) : TimedSet α := set.put (member, time)

/-- Records a member that is not in the set yet. -/
def recordNew (set : TimedSet α) (member : α) (time : Nat) : TimedSet α :=
  if (set.time? member).isSome then set else set.record member time

/-- All that is in the first set is in the second, at the same time. -/
def Within (first second : TimedSet α) : Prop :=
  ∀ member time, first.time? member = some time → second.time? member = some time

variable {set first second : TimedSet α} {member other : α} {time : Nat} {cutoff : Int}

theorem time?_eq_some : set.time? member = some time ↔ (member, time) ∈ set.rows := by
  rw [time?, Option.map_eq_some_iff]
  constructor
  · rintro ⟨⟨other, at'⟩, hfound, rfl⟩
    obtain ⟨hmem, rfl⟩ := Table.find?_eq_some_iff.mp hfound
    exact hmem
  · intro hmem
    exact ⟨(member, time), Table.find?_eq_some_iff.mpr ⟨hmem, rfl⟩, rfl⟩

@[simp]
theorem time?_empty (member : α) : (empty : TimedSet α).time? member = none := rfl

theorem time?_prune : (set.prune cutoff).time? member = some time ↔
    set.time? member = some time ∧ cutoff < time := by
  rw [time?_eq_some, time?_eq_some, prune, Table.mem_deleteWhere, decide_eq_false_iff_not,
    not_le]

theorem time?_record (set : TimedSet α) (member : α) (time : Nat) (other : α) :
    (set.record member time).time? other =
      if other = member then some time else set.time? other := by
  rw [time?, record, Table.find?_put]
  split
  · rfl
  · rfl

theorem recordNew_of_missing (h : set.time? member = none) (time : Nat) :
    set.recordNew member time = set.record member time := by
  rw [recordNew, h]
  rfl

theorem recordNew_of_recorded (h : set.time? member = some time) (later : Nat) :
    set.recordNew member later = set := by
  rw [recordNew, h]
  rfl

theorem mem_members_iff : member ∈ set.rows.map Prod.fst ↔ ∃ time, set.time? member = some time := by
  constructor
  · intro hmem
    obtain ⟨⟨other, time⟩, hrow, rfl⟩ := List.mem_map.mp hmem
    exact ⟨time, time?_eq_some.mpr hrow⟩
  · rintro ⟨time, htime⟩
    exact List.mem_map.mpr ⟨(member, time), time?_eq_some.mp htime, rfl⟩

theorem card_eq_members (set : TimedSet α) :
    set.card = (set.rows.map Prod.fst).toFinset.card := by
  rw [List.toFinset_card_of_nodup set.nodup, List.length_map]
  rfl

/-- Sets with the same times have equally many members. -/
theorem card_congr (same : ∀ member, first.time? member = second.time? member) :
    first.card = second.card := by
  rw [card_eq_members, card_eq_members]
  congr 1
  ext member
  rw [List.mem_toFinset, List.mem_toFinset, mem_members_iff, mem_members_iff, same member]

/-- A new member counts once. -/
theorem card_record_of_missing (h : set.time? member = none) (time : Nat) :
    (set.record member time).card = set.card + 1 := by
  have hfresh : member ∉ set.rows.map Prod.fst := by
    intro hmem
    obtain ⟨before, hbefore⟩ := mem_members_iff.mp hmem
    rw [h] at hbefore
    cases hbefore
  rw [card, record, Table.put_rows_of_not_mem hfresh, List.length_append, List.length_singleton]
  rfl

/-- Members that are all in the set are at most as many. -/
theorem dedup_length_le {members : List α} (h : ∀ member ∈ members, ∃ time,
    set.time? member = some time) : members.dedup.length ≤ set.card := by
  rw [card_eq_members, ← List.toFinset_card_of_nodup (List.nodup_dedup members)]
  apply Finset.card_le_card
  intro member hmem
  rw [List.mem_toFinset, List.mem_dedup] at hmem
  rw [List.mem_toFinset]
  exact mem_members_iff.mpr (h member hmem)

theorem Within.prune (h : first.Within second) (cutoff : Int) :
    (first.prune cutoff).Within (second.prune cutoff) := by
  intro member time htime
  obtain ⟨hfirst, hafter⟩ := time?_prune.mp htime
  exact time?_prune.mpr ⟨h member time hfirst, hafter⟩

/-- A set within another has its times, once the other has no further members. -/
theorem Within.time?_eq (h : first.Within second)
    (covers : ∀ member time, second.time? member = some time →
      ∃ before, first.time? member = some before) (member : α) :
    first.time? member = second.time? member := by
  cases hsecond : second.time? member with
  | none =>
      cases hfirst : first.time? member with
      | none => rfl
      | some time =>
          have hcontra := h member time hfirst
          rw [hsecond] at hcontra
          cases hcontra
  | some time =>
      obtain ⟨before, hbefore⟩ := covers member time hsecond
      have hsame := h member before hbefore
      rw [hsecond] at hsame
      rw [hbefore, hsame]

end TimedSet

end BrainCore.Foundation
