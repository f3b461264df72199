import Mathlib.Data.List.Basic
import Mathlib.Data.List.TakeWhile
import Mathlib.Order.Compare
import Mathlib.Tactic.Ring

/-!
# Strings of decimal digits

The natural number a digit string denotes, the ways in which programs that
avoid floating point rewrite such strings (leading zeros stripped, fractions
padded on the right, a printed number padded on the left), and the comparison
by length and then character by character.
-/

namespace BrainCore.Foundation

/-- Every character is one of `0` to `9`. -/
def IsDigits (s : List Char) : Prop := ∀ c ∈ s, c.isDigit = true

instance (s : List Char) : Decidable (IsDigits s) := List.decidableBAll _ s

/-- The number a digit string denotes. -/
def natOf (s : List Char) : Nat := Nat.ofDigitChars 10 s 0

/-- The sign of a comparison: `-1`, `0` or `1`. -/
def sign3 {α : Type*} [LinearOrder α] (x y : α) : Int :=
  if x < y then -1 else if y < x then 1 else 0

section Sign

variable {α β : Type*} [LinearOrder α] [LinearOrder β]

theorem sign3_nonpos {x y : α} : sign3 x y ≤ 0 ↔ x ≤ y := by
  unfold sign3
  split
  · rename_i h
    simp [h.le]
  · split
    · rename_i h
      simp [h]
    · rename_i h
      simp [not_lt.mp h]

theorem sign3_eq_zero {x y : α} : sign3 x y = 0 ↔ x = y := by
  unfold sign3
  split
  · rename_i h
    simp [h.ne]
  · split
    · rename_i h
      simp [h.ne']
    · rename_i h₁ h₂
      simp [le_antisymm (not_lt.mp h₂) (not_lt.mp h₁)]

theorem sign3_neg {x y : α} : sign3 x y < 0 ↔ x < y := by
  unfold sign3
  split
  · rename_i h
    simp [h]
  · rename_i hle
    split <;> simp [not_lt.mp hle]

theorem sign3_pos {x y : α} : 0 < sign3 x y ↔ y < x := by
  rw [← not_le, sign3_nonpos, not_le]

theorem sign3_nonneg {x y : α} : 0 ≤ sign3 x y ↔ y ≤ x := by
  rw [← not_lt, sign3_neg, not_lt]

/-- Comparison only looks at the order of its two arguments. -/
theorem sign3_congr {x y : α} {x' y' : β} (hlt : x < y ↔ x' < y') (hgt : y < x ↔ y' < x') :
    sign3 x y = sign3 x' y' := by
  simp only [sign3, hlt, hgt]

theorem sign3_swap (x y : α) : -sign3 x y = sign3 y x := by
  unfold sign3
  rcases lt_trichotomy x y with h | h | h
  · simp [h, h.not_gt]
  · simp [h]
  · simp [h, h.not_gt]

end Sign

/-! ## The denoted number -/

@[simp]
theorem natOf_nil : natOf [] = 0 := rfl

theorem natOf_append (first second : List Char) :
    natOf (first ++ second) = natOf first * 10 ^ second.length + natOf second := by
  rw [natOf, Nat.ofDigitChars_append, Nat.ofDigitChars_eq_ofDigitChars_zero, mul_comm]
  rfl

theorem natOf_cons (c : Char) (s : List Char) :
    natOf (c :: s) = (c.toNat - 48) * 10 ^ s.length + natOf s := by
  have single : natOf [c] = c.toNat - 48 := by
    simp [natOf, Nat.ofDigitChars_cons]
  rw [← List.singleton_append, natOf_append, single]

theorem natOf_replicate_zero (n : Nat) : natOf (List.replicate n '0') = 0 := by
  rw [natOf, Nat.ofDigitChars_replicate_zero, Nat.mul_zero]

theorem natOf_toDigits (n : Nat) : natOf (Nat.toDigits 10 n) = n :=
  Nat.ofDigitChars_ten_toDigits

theorem isDigits_toDigits (n : Nat) : IsDigits (Nat.toDigits 10 n) := fun _ hc =>
  Nat.isDigit_of_mem_toDigits (by decide) (by decide) hc

theorem isDigits_cons {c : Char} {s : List Char} :
    IsDigits (c :: s) ↔ c.isDigit = true ∧ IsDigits s := by
  simp [IsDigits]

theorem isDigits_append {first second : List Char} :
    IsDigits (first ++ second) ↔ IsDigits first ∧ IsDigits second := by
  simp only [IsDigits, List.mem_append]
  exact ⟨fun h => ⟨fun c hc => h c (.inl hc), fun c hc => h c (.inr hc)⟩,
    fun h c hc => hc.elim (h.1 c) (h.2 c)⟩

theorem isDigits_replicate_zero (n : Nat) : IsDigits (List.replicate n '0') := by
  intro c hc
  rw [List.eq_of_mem_replicate hc]
  decide

theorem IsDigits.take {s : List Char} (digits : IsDigits s) (n : Nat) : IsDigits (s.take n) :=
  fun c hc => digits c (List.mem_of_mem_take hc)

/-- A digit character is `48` plus its value. -/
theorem digit_range {c : Char} (digit : c.isDigit = true) : 48 ≤ c.toNat ∧ c.toNat ≤ 57 := by
  have h := digit
  simp only [Char.isDigit, Bool.and_eq_true, decide_eq_true_eq] at h
  exact ⟨UInt32.le_iff_toNat_le.mp h.1, UInt32.le_iff_toNat_le.mp h.2⟩

theorem natOf_lt {s : List Char} (digits : IsDigits s) : natOf s < 10 ^ s.length := by
  induction s with
  | nil => simp
  | cons c s ih =>
      obtain ⟨hc, hs⟩ := isDigits_cons.mp digits
      have hrest := ih hs
      have hvalue := digit_range hc
      rw [natOf_cons, List.length_cons, pow_succ]
      have hlead : c.toNat - 48 ≤ 9 := by omega
      calc (c.toNat - 48) * 10 ^ s.length + natOf s
          < 9 * 10 ^ s.length + 10 ^ s.length :=
            Nat.add_lt_add_of_le_of_lt (Nat.mul_le_mul_right _ hlead) hrest
        _ = 10 ^ s.length * 10 := by ring

/-! ## Rewriting digit strings -/

/-- `replace(/^0+/, "")`. -/
def dropZeros (s : List Char) : List Char := s.dropWhile (· = '0')

/-- `replace(/^0+/, "") || "0"`. -/
def stripLeading (s : List Char) : List Char :=
  if dropZeros s = [] then ['0'] else dropZeros s

/-- `replace(/0+$/, "")`. -/
def dropTrailingZeros (s : List Char) : List Char := (dropZeros s.reverse).reverse

/-- `padEnd(n, "0").slice(0, n)`. -/
def padEndSlice (n : Nat) (s : List Char) : List Char :=
  (s ++ List.replicate (n - s.length) '0').take n

/-- `padStart(n, "0")`. -/
def padStart (n : Nat) (s : List Char) : List Char :=
  List.replicate (n - s.length) '0' ++ s

theorem natOf_dropZeros (s : List Char) : natOf (dropZeros s) = natOf s := by
  induction s with
  | nil => rfl
  | cons c s ih =>
      by_cases hc : c = '0'
      · subst hc
        rw [dropZeros, List.dropWhile_cons_of_pos (by simp), natOf_cons]
        simpa [dropZeros] using ih
      · rw [dropZeros, List.dropWhile_cons_of_neg (by simpa using hc)]

theorem natOf_stripLeading (s : List Char) : natOf (stripLeading s) = natOf s := by
  unfold stripLeading
  split
  · rename_i h
    rw [← natOf_dropZeros s, h]
    rfl
  · exact natOf_dropZeros s

theorem isDigits_dropZeros {s : List Char} (digits : IsDigits s) : IsDigits (dropZeros s) :=
  fun c hc => digits c (List.dropWhile_subset _ hc)

theorem isDigits_stripLeading {s : List Char} (digits : IsDigits s) :
    IsDigits (stripLeading s) := by
  unfold stripLeading
  split
  · intro c hc
    rw [List.mem_singleton.mp hc]
    decide
  · exact isDigits_dropZeros digits

/-- Trailing zeros are a power of ten. -/
theorem exists_dropTrailingZeros (s : List Char) :
    ∃ n, s = dropTrailingZeros s ++ List.replicate n '0' := by
  refine ⟨(s.reverse.takeWhile (· = '0')).length, ?_⟩
  have zeros : s.reverse.takeWhile (· = '0') =
      List.replicate (s.reverse.takeWhile (· = '0')).length '0' := by
    refine List.eq_replicate_of_mem fun c hc => ?_
    simpa using List.mem_takeWhile_imp hc
  have split : s.reverse = s.reverse.takeWhile (· = '0') ++ dropZeros s.reverse :=
    List.takeWhile_append_dropWhile.symm
  calc s = s.reverse.reverse := s.reverse_reverse.symm
    _ = (s.reverse.takeWhile (· = '0') ++ dropZeros s.reverse).reverse := by rw [← split]
    _ = dropTrailingZeros s ++ (s.reverse.takeWhile (· = '0')).reverse := by
        rw [List.reverse_append, dropTrailingZeros]
    _ = dropTrailingZeros s ++ List.replicate (s.reverse.takeWhile (· = '0')).length '0' := by
        rw [zeros, List.reverse_replicate, List.length_replicate]

theorem isDigits_dropTrailingZeros {s : List Char} (digits : IsDigits s) :
    IsDigits (dropTrailingZeros s) := by
  intro c hc
  rw [dropTrailingZeros, List.mem_reverse] at hc
  exact digits c (List.mem_reverse.mp (List.dropWhile_subset _ hc))

@[simp]
theorem length_padEndSlice (n : Nat) (s : List Char) : (padEndSlice n s).length = n := by
  simp [padEndSlice]
  omega

theorem padEndSlice_of_le {n : Nat} {s : List Char} (short : s.length ≤ n) :
    padEndSlice n s = s ++ List.replicate (n - s.length) '0' := by
  rw [padEndSlice, List.take_of_length_le (by simp; omega)]

theorem isDigits_padEndSlice {s : List Char} (digits : IsDigits s) (n : Nat) :
    IsDigits (padEndSlice n s) :=
  (isDigits_append.mpr ⟨digits, isDigits_replicate_zero _⟩).take n

theorem natOf_padEndSlice {n : Nat} {s : List Char} (short : s.length ≤ n) :
    natOf (padEndSlice n s) = natOf s * 10 ^ (n - s.length) := by
  rw [padEndSlice_of_le short, natOf_append, natOf_replicate_zero, List.length_replicate, add_zero]

theorem natOf_padStart (n : Nat) (s : List Char) : natOf (padStart n s) = natOf s := by
  rw [padStart, natOf_append, natOf_replicate_zero, Nat.zero_mul, Nat.zero_add]

theorem isDigits_padStart {s : List Char} (digits : IsDigits s) (n : Nat) :
    IsDigits (padStart n s) :=
  isDigits_append.mpr ⟨isDigits_replicate_zero _, digits⟩

theorem le_length_padStart (n : Nat) (s : List Char) : n ≤ (padStart n s).length := by
  simp [padStart]
  omega

/-! ## Comparison -/

/-- `a < b` on strings of one length. -/
def lexLt : List Char → List Char → Bool
  | [], [] => false
  | [], _ :: _ => true
  | _ :: _, [] => false
  | a :: as, b :: bs => if a.toNat < b.toNat then true else if b.toNat < a.toNat then false else lexLt as bs

/-- The shorter string first, then character by character. -/
def compareBig (a b : List Char) : Int :=
  if a.length ≠ b.length then (if a.length < b.length then -1 else 1)
  else if lexLt a b then -1
  else if lexLt b a then 1
  else 0

theorem lexLt_iff {a b : List Char} (same : a.length = b.length) (ha : IsDigits a)
    (hb : IsDigits b) : lexLt a b = true ↔ natOf a < natOf b := by
  induction a generalizing b with
  | nil =>
      cases b with
      | nil => simp [lexLt]
      | cons => simp at same
  | cons x xs ih =>
      cases b with
      | nil => simp at same
      | cons y ys =>
          have hlen : xs.length = ys.length := by simpa using same
          obtain ⟨hx, hxs⟩ := isDigits_cons.mp ha
          obtain ⟨hy, hys⟩ := isDigits_cons.mp hb
          have hxr := digit_range hx
          have hyr := digit_range hy
          have hxlt := natOf_lt hxs
          have hylt := natOf_lt hys
          rw [hlen] at hxlt
          rw [natOf_cons, natOf_cons, hlen]
          -- the leading digits decide unless they are equal
          have apart : ∀ {u v p q e : Nat}, u < v → p < e → u * e + p < v * e + q := by
            intro u v p q e huv hp
            calc u * e + p < u * e + e := Nat.add_lt_add_left hp _
              _ = (u + 1) * e := by ring
              _ ≤ v * e := Nat.mul_le_mul_right _ huv
              _ ≤ v * e + q := Nat.le_add_right _ _
          rw [lexLt]
          rcases lt_trichotomy x.toNat y.toNat with h | h | h
          · rw [if_pos h]
            simpa using apart (by omega) hxlt
          · rw [if_neg (by omega), if_neg (by omega), ih hlen hxs hys, h]
            omega
          · rw [if_neg (by omega), if_pos h]
            have := apart (q := natOf xs) (show y.toNat - 48 < x.toNat - 48 by omega) hylt
            simp only [Bool.false_eq_true, false_iff, not_lt]
            exact this.le

/-- Strings without leading zeros compare as the numbers they denote. -/
theorem compareBig_eq_of_length {a b : List Char} (same : a.length = b.length) (ha : IsDigits a)
    (hb : IsDigits b) : compareBig a b = sign3 (natOf a) (natOf b) := by
  unfold compareBig sign3
  rw [if_neg (by simpa using same)]
  simp only [lexLt_iff same ha hb, lexLt_iff same.symm hb ha]

/-- A string that `replace(/^0+/, "") || "0"` returns. -/
def Stripped (s : List Char) : Prop := s = ['0'] ∨ ∃ c rest, s = c :: rest ∧ c ≠ '0'

theorem stripped_stripLeading (s : List Char) : Stripped (stripLeading s) := by
  unfold stripLeading
  split
  · exact .inl rfl
  · rename_i nonempty
    right
    cases hdrop : dropZeros s with
    | nil => exact absurd hdrop nonempty
    | cons c rest =>
        refine ⟨c, rest, rfl, ?_⟩
        have head := List.head_dropWhile_not (· = '0') (l := s) (by simpa [dropZeros] using nonempty)
        have hc : (s.dropWhile (· = '0')).head (by simpa [dropZeros] using nonempty) = c := by
          simp only [dropZeros] at hdrop
          simp [hdrop]
        rw [hc] at head
        simpa using head

theorem natOf_lt_of_length_lt {a b : List Char} (ha : IsDigits a) (hb : IsDigits b)
    (stripped : Stripped b) (nonempty : a ≠ []) (shorter : a.length < b.length) :
    natOf a < natOf b := by
  rcases stripped with rfl | ⟨c, rest, rfl, hc⟩
  · cases a with
    | nil => exact absurd rfl nonempty
    | cons => simp at shorter
  · obtain ⟨hdigit, _⟩ := isDigits_cons.mp hb
    have hrange := digit_range hdigit
    have lead : 1 ≤ c.toNat - 48 := by
      have : c.toNat ≠ 48 := fun h => hc (Char.ext (UInt32.toNat_inj.mp h))
      omega
    calc natOf a < 10 ^ a.length := natOf_lt ha
      _ ≤ 10 ^ rest.length := Nat.pow_le_pow_right (by decide) (by simpa using Nat.lt_succ_iff.mp shorter)
      _ ≤ (c.toNat - 48) * 10 ^ rest.length := Nat.le_mul_of_pos_left _ lead
      _ ≤ natOf (c :: rest) := by rw [natOf_cons]; exact Nat.le_add_right _ _

theorem Stripped.ne_nil {s : List Char} (stripped : Stripped s) : s ≠ [] := by
  rcases stripped with rfl | ⟨_, _, rfl, _⟩ <;> simp

theorem compareBig_eq {a b : List Char} (ha : IsDigits a) (hb : IsDigits b)
    (sa : Stripped a) (sb : Stripped b) : compareBig a b = sign3 (natOf a) (natOf b) := by
  by_cases same : a.length = b.length
  · exact compareBig_eq_of_length same ha hb
  · unfold compareBig
    rw [if_pos same]
    by_cases shorter : a.length < b.length
    · rw [if_pos shorter, sign3, if_pos (natOf_lt_of_length_lt ha hb sb sa.ne_nil shorter)]
    · have longer : b.length < a.length := by omega
      have hlt := natOf_lt_of_length_lt hb ha sa sb.ne_nil longer
      rw [if_neg shorter, sign3, if_neg (not_lt.mpr hlt.le), if_pos hlt]

/-! ## Fixed-point notation -/

/-- A fraction after its point, or nothing. -/
def dotted (frac : List Char) : List Char := if frac = [] then [] else '.' :: frac

/-- The digits of a number of `10 ^ -scale` units, with a point and without superfluous zeros. -/
def fixedPointText (scale : Nat) (digits : List Char) : List Char :=
  let abs := padStart (scale + 1) digits
  let intPart := stripLeading (abs.take (abs.length - scale))
  let fracPart := dropTrailingZeros (abs.drop (abs.length - scale))
  intPart ++ dotted fracPart

def fixedPoint (scale n : Nat) : List Char := fixedPointText scale (Nat.toDigits 10 n)

/-- What a fixed-point text says: its digits, and the units they denote. -/
structure FixedPointParts (scale : Nat) (int frac : List Char) (n : Nat) : Prop where
  intDigits : IsDigits int
  intNonempty : int ≠ []
  fracDigits : IsDigits frac
  fracShort : frac.length ≤ scale
  units : natOf int * 10 ^ scale + natOf frac * 10 ^ (scale - frac.length) = n

theorem fixedPoint_parts (scale n : Nat) :
    ∃ int frac, fixedPoint scale n = int ++ dotted frac ∧ FixedPointParts scale int frac n := by
  have absDigits := isDigits_padStart (isDigits_toDigits n) (scale + 1)
  have absLength := le_length_padStart (scale + 1) (Nat.toDigits 10 n)
  have absValue : natOf (padStart (scale + 1) (Nat.toDigits 10 n)) = n := by
    rw [natOf_padStart, natOf_toDigits]
  refine ⟨_, _, rfl, ?_⟩
  revert absDigits absLength absValue
  generalize padStart (scale + 1) (Nat.toDigits 10 n) = abs
  intro absDigits absLength absValue
  have cut : (abs.drop (abs.length - scale)).length = scale := by
    rw [List.length_drop]
    omega
  have halves := List.take_append_drop (abs.length - scale) abs
  have fracDigits : IsDigits (abs.drop (abs.length - scale)) := fun c hc =>
    absDigits c (List.mem_of_mem_drop hc)
  obtain ⟨k, htrail⟩ := exists_dropTrailingZeros (abs.drop (abs.length - scale))
  have hlength : (dropTrailingZeros (abs.drop (abs.length - scale))).length + k = scale := by
    have := congrArg List.length htrail
    rw [cut, List.length_append, List.length_replicate] at this
    exact this.symm
  constructor
  · exact isDigits_stripLeading (absDigits.take _)
  · exact (stripped_stripLeading _).ne_nil
  · exact isDigits_dropTrailingZeros fracDigits
  · omega
  · have hfrac : natOf (dropTrailingZeros (abs.drop (abs.length - scale))) *
        10 ^ (scale - (dropTrailingZeros (abs.drop (abs.length - scale))).length) =
        natOf (abs.drop (abs.length - scale)) := by
      rw [show scale - (dropTrailingZeros (abs.drop (abs.length - scale))).length = k by omega]
      conv_rhs => rw [htrail, natOf_append, natOf_replicate_zero, List.length_replicate, add_zero]
    rw [hfrac, natOf_stripLeading, ← absValue]
    conv_rhs => rw [← halves, natOf_append, cut]

end BrainCore.Foundation
