import BrainCore.Foundation.Digits
import Mathlib.Algebra.Order.Floor.Semifield
import Mathlib.Data.Rat.Floor
import Mathlib.Tactic.FieldSimp
import Mathlib.Tactic.Positivity

/-!
# Decimal numbers without a sign

Texts of the grammar `\d+(\.\d+)?`, of any length: the number a text denotes,
and the whole number of units that is left of it when its fraction is filled up
with zeros and cut off after some digits.
-/

namespace BrainCore.Foundation

/-- `/^\d+(\.\d+)?$/`. -/
def isUnsignedDecimal (s : List Char) : Bool :=
  !(s.takeWhile Char.isDigit).isEmpty &&
    match s.dropWhile Char.isDigit with
    | [] => true
    | c :: frac => c == '.' && frac.all Char.isDigit && !frac.isEmpty

/-- The text before the first point. -/
def intPart (s : List Char) : List Char := s.takeWhile (· ≠ '.')

/-- The text between the first point and the second one. -/
def fracPart (s : List Char) : List Char := (s.dropWhile (· ≠ '.')).tail.takeWhile (· ≠ '.')

/-- The number that a text denotes. -/
def decimalValue (s : List Char) : ℚ :=
  natOf (intPart s) + natOf (fracPart s) / 10 ^ (fracPart s).length

/-- The digits of a fraction, filled up with zeros and cut off. -/
def cutFraction (n : Nat) (frac : List Char) : List Char := (frac ++ List.replicate n '0').take n

/-- The number of whole units of `10 ^ -n`. -/
def wholeUnits (n : Nat) (s : List Char) : Nat := natOf (intPart s ++ cutFraction n (fracPart s))

/-- The number is a whole number of units of `10 ^ -n`. -/
def IsWhole (n : Nat) (s : List Char) : Prop := ∃ units : Nat, decimalValue s * 10 ^ n = units

variable {n : Nat} {s : List Char}

@[simp]
theorem length_cutFraction (n : Nat) (frac : List Char) : (cutFraction n frac).length = n := by
  simp [cutFraction]

/-- The last digits of a number are cut off by a division. -/
theorem natOf_take {digits : List Char} (h : IsDigits digits) (n : Nat) :
    natOf (digits.take n) = natOf digits / 10 ^ (digits.length - n) := by
  have hlt : natOf (digits.drop n) < 10 ^ (digits.length - n) := by
    have hdrop : IsDigits (digits.drop n) := fun c hc => h c (List.mem_of_mem_drop hc)
    simpa using natOf_lt hdrop
  have hsplit : natOf digits =
      natOf (digits.take n) * 10 ^ (digits.length - n) + natOf (digits.drop n) := by
    conv_lhs => rw [← List.take_append_drop n digits, natOf_append, List.length_drop]
  rw [hsplit, Nat.add_comm, Nat.add_mul_div_right _ _ (by positivity), Nat.div_eq_of_lt hlt,
    Nat.zero_add]

theorem natOf_cutFraction {frac : List Char} (h : IsDigits frac) (n : Nat) :
    natOf (cutFraction n frac) = natOf frac * 10 ^ n / 10 ^ frac.length := by
  unfold cutFraction
  rw [natOf_take (isDigits_append.mpr ⟨h, isDigits_replicate_zero n⟩), natOf_append,
    natOf_replicate_zero, List.length_append, List.length_replicate, Nat.add_zero,
    Nat.add_sub_cancel]

/-- A text of the grammar is digits, and a fraction or none. -/
structure DecimalParts (s int frac : List Char) : Prop where
  text : s = int ++ dotted frac
  intDigits : IsDigits int
  intNonempty : int ≠ []
  fracDigits : IsDigits frac

theorem digit_ne_point {c : Char} (h : c.isDigit = true) : c ≠ '.' := by
  rintro rfl
  revert h
  decide

namespace DecimalParts

variable {int frac : List Char}

theorem no_point (h : DecimalParts s int frac) :
    ∀ c ∈ int, decide (c ≠ '.') = true :=
  fun c hc => decide_eq_true (digit_ne_point (h.intDigits c hc))

theorem frac_eq (h : DecimalParts s int frac) : fracPart s = frac := by
  have hfrac : frac.takeWhile (· ≠ '.') = frac :=
    List.takeWhile_eq_self_iff.mpr fun c hc => decide_eq_true (digit_ne_point (h.fracDigits c hc))
  rw [fracPart, h.text, List.dropWhile_append_of_pos h.no_point, dotted]
  split
  · rename_i hnil
    rw [hnil]
    rfl
  · rw [List.dropWhile_cons_of_neg (by simp), List.tail_cons, hfrac]

/-- Digits end at a fraction. -/
theorem takeWhile_digits (h : DecimalParts s int frac) :
    s.takeWhile Char.isDigit = int ∧ s.dropWhile Char.isDigit = dotted frac := by
  rw [h.text, List.takeWhile_append_of_pos h.intDigits, List.dropWhile_append_of_pos h.intDigits,
    dotted]
  split
  · exact ⟨List.append_nil int, rfl⟩
  · constructor
    · rw [List.takeWhile_cons_of_neg (by decide), List.append_nil]
    · rw [List.dropWhile_cons_of_neg (by decide)]

end DecimalParts

theorem isUnsignedDecimal_iff :
    isUnsignedDecimal s = true ↔ ∃ int frac, DecimalParts s int frac := by
  constructor
  · intro h
    have hdigits : IsDigits (s.takeWhile Char.isDigit) := fun c hc => List.mem_takeWhile_imp hc
    have hsplit := @List.takeWhile_append_dropWhile Char Char.isDigit s
    unfold isUnsignedDecimal at h
    rw [Bool.and_eq_true] at h
    have hnonempty : s.takeWhile Char.isDigit ≠ [] := by simpa using h.1
    cases hrest : s.dropWhile Char.isDigit with
    | nil =>
        rw [hrest, List.append_nil] at hsplit
        exact ⟨_, [], by simpa [dotted] using hsplit.symm, hdigits, hnonempty, by simp [IsDigits]⟩
    | cons c frac =>
        rw [hrest] at h hsplit
        simp only [Bool.and_eq_true, beq_iff_eq, Bool.not_eq_true', List.isEmpty_eq_false_iff,
          List.all_eq_true] at h
        obtain ⟨-, ⟨rfl, hfrac⟩, hne⟩ := h
        exact ⟨_, frac, by rw [dotted, if_neg hne, hsplit], hdigits, hnonempty, hfrac⟩
  · rintro ⟨int, frac, h⟩
    obtain ⟨htake, hdrop⟩ := h.takeWhile_digits
    unfold isUnsignedDecimal
    rw [htake, hdrop, Bool.and_eq_true]
    refine ⟨by simpa using h.intNonempty, ?_⟩
    by_cases hfrac : frac = []
    · simp [dotted, hfrac]
    · rw [dotted, if_neg hfrac]
      simpa [hfrac, IsDigits] using h.fracDigits

/-- The fraction of a number is written in digits. -/
theorem isDigits_fracPart (h : isUnsignedDecimal s = true) : IsDigits (fracPart s) := by
  obtain ⟨int, frac, hparts⟩ := isUnsignedDecimal_iff.mp h
  rw [hparts.frac_eq]
  exact hparts.fracDigits

/-- The units of a number are what is whole of them. -/
theorem wholeUnits_eq_floor (h : isUnsignedDecimal s = true) (n : Nat) :
    wholeUnits n s = ⌊decimalValue s * 10 ^ n⌋₊ := by
  have hpos : 0 < 10 ^ (fracPart s).length := by positivity
  have hvalue : decimalValue s * 10 ^ n =
      ((natOf (intPart s) * 10 ^ n * 10 ^ (fracPart s).length + natOf (fracPart s) * 10 ^ n : Nat) : ℚ) /
        ((10 ^ (fracPart s).length : Nat) : ℚ) := by
    unfold decimalValue
    push_cast
    field_simp
  rw [wholeUnits, natOf_append, length_cutFraction, natOf_cutFraction (isDigits_fracPart h), hvalue,
    Nat.floor_div_eq_div, Nat.add_comm, Nat.add_comm (_ * _), Nat.add_mul_div_right _ _ hpos]

/-- Whole units are exact. -/
theorem IsWhole.eq (h : isUnsignedDecimal s = true) (hwhole : IsWhole n s) :
    decimalValue s * 10 ^ n = wholeUnits n s := by
  obtain ⟨units, hunits⟩ := hwhole
  rw [wholeUnits_eq_floor h, hunits, Nat.floor_natCast]

/-- A number with few digits is whole. -/
theorem isWhole_of_length (h : (fracPart s).length ≤ n) : IsWhole n s := by
  refine ⟨natOf (intPart s) * 10 ^ n + natOf (fracPart s) * 10 ^ (n - (fracPart s).length), ?_⟩
  have hpow : (10 : ℚ) ^ n = 10 ^ (fracPart s).length * 10 ^ (n - (fracPart s).length) := by
    rw [← pow_add, Nat.add_sub_cancel' h]
  unfold decimalValue
  push_cast
  rw [add_mul, hpow]
  field_simp

/-- What is whole in large units is whole in small ones. -/
theorem IsWhole.mono {m : Nat} (hwhole : IsWhole n s) (hle : n ≤ m) : IsWhole m s := by
  obtain ⟨units, hunits⟩ := hwhole
  refine ⟨units * 10 ^ (m - n), ?_⟩
  push_cast
  rw [← hunits, mul_assoc, ← pow_add, Nat.add_sub_cancel' hle]

end BrainCore.Foundation
