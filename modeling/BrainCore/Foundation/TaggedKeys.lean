import Mathlib.Data.List.Basic
import Mathlib.Data.List.Infix

/-!
# Keys with a tag in front

Several builders make keys from one space of free texts, each by putting a tag
of its own in front of it, or none.  Where no tag starts with another one, two
keys meet only as the texts say: under one tag when the texts are the same, and
under no tag when the text itself starts with the tag of the other key.
-/

namespace BrainCore.Foundation

/-- Neither text starts with the other one. -/
def Apart (s t : String) : Prop := ¬s.toList <+: t.toList ∧ ¬t.toList <+: s.toList

instance (s t : String) : Decidable (Apart s t) := inferInstanceAs (Decidable (_ ∧ _))

theorem append_ne_of_apart {s t : String} (h : Apart s t) (x y : String) : s ++ x ≠ t ++ y := by
  intro heq
  have hlists : s.toList ++ x.toList = t.toList ++ y.toList := by
    rw [← String.toList_append, ← String.toList_append, heq]
  rcases List.prefix_or_prefix_of_prefix (List.prefix_append s.toList x.toList)
    (hlists ▸ List.prefix_append t.toList y.toList) with hst | hts
  · exact h.1 hst
  · exact h.2 hts

/-- Builders of keys, no tag of which starts with the tag of another one. -/
structure TagFamily (β : Type) where
  tag : β → String
  apart : ∀ b c, b = c ∨ tag b = "" ∨ tag c = "" ∨ Apart (tag b) (tag c)

namespace TagFamily

variable {β : Type} (family : TagFamily β)

/-- The key of a text. -/
def build (b : β) (text : String) : String := family.tag b ++ text

/-- How the keys of two texts can be the same. -/
inductive Meets : β → String → β → String → Prop where
  /-- One builder, one text. -/
  | same (b : β) (text : String) : Meets b text b text
  /-- A text without a tag starts with the tag of the other key. -/
  | left {b : β} (c : β) (text : String) (bare : family.tag b = "") :
      Meets b (family.tag c ++ text) c text
  | right {c : β} (b : β) (text : String) (bare : family.tag c = "") :
      Meets b text c (family.tag b ++ text)

theorem build_eq_iff {b c : β} {x y : String} :
    family.build b x = family.build c y ↔ family.Meets b x c y := by
  constructor
  · intro h
    unfold build at h
    rcases family.apart b c with rfl | hb | hc | hapart
    · rw [String.append_right_inj] at h
      exact h ▸ .same b x
    · rw [hb, String.empty_append] at h
      exact h ▸ .left c y hb
    · rw [hc, String.empty_append] at h
      exact h ▸ .right b x hc
    · exact absurd h (append_ne_of_apart hapart x y)
  · intro h
    cases h with
    | same => rfl
    | left c text bare => rw [build, build, bare, String.empty_append]
    | right b text bare => rw [build, build, bare, String.empty_append]

/-- Under one builder different texts have different keys. -/
theorem build_injective (b : β) : Function.Injective (family.build b) :=
  fun _ _ h => (String.append_right_inj _).mp h

end TagFamily

end BrainCore.Foundation
