import BrainCore.Shared.DecimalArithmetic

/-!
# Where the decimal helpers are exact

The three copies add, subtract and compare the rationals that amounts denote,
but for one comparison: the VM and the gate take the sign of a zero for the sign
of its value, where the evidence validator reads the number.
-/

namespace BrainCore.Shared

open BrainCore.Foundation

variable {a b : DecimalString}

/-- The comparison is that of the values unless zeros of two signs meet. -/
theorem compareSigned_eq_sign3_iff {na nb : Bool} {m n : Nat} :
    compareSigned na nb m n = sign3 (signed na m) (signed nb n) ↔ (m = 0 → n = 0 → na = nb) := by
  constructor
  · rintro h rfl rfl
    cases na <;> cases nb
    · rfl
    · exact absurd h (by decide)
    · exact absurd h (by decide)
    · rfl
  · intro h
    unfold compareSigned signed
    cases na <;> cases nb
    · exact sign3_congr (by simp) (by simp)
    · have hzero : ¬(m = 0 ∧ n = 0) := fun hzero => Bool.false_ne_true (h hzero.1 hzero.2)
      simp only [ne_eq, not_false_eq_true, if_true, if_false, Bool.false_eq_true]
      rw [sign3, if_neg (by omega), if_pos (by omega)]
    · have hzero : ¬(m = 0 ∧ n = 0) := fun hzero => Bool.false_ne_true (h hzero.1 hzero.2).symm
      simp only [ne_eq, reduceCtorEq, not_false_eq_true, if_true, if_false, Bool.false_eq_true]
      rw [sign3, if_pos (by omega)]
    · simp only [ne_eq, not_true_eq_false, if_false, if_true, sign3_swap]
      exact sign3_congr (by simp) (by simp)

namespace DecimalString

theorem sign3_value (a b : DecimalString) : sign3 a.value b.value = sign3 a.units b.units :=
  sign3_congr value_lt_iff value_lt_iff

theorem value_eq_zero_iff (a : DecimalString) : a.value = 0 ↔ a.magnitude = 0 := by
  have hten : (10 : ℚ) ^ 18 ≠ 0 := by norm_num
  rw [value, div_eq_zero_iff, or_iff_left hten, Int.cast_eq_zero, units, signed]
  split <;> omega

theorem value_decimalOfUnits (sum : Int) : (decimalOfUnits sum).value = sum / 10 ^ 18 := by
  rw [value, units_renderUnits]

theorem value_add (a b : DecimalString) :
    (decimalOfUnits (a.units + b.units)).value = a.value + b.value := by
  rw [value_decimalOfUnits, value, value, Int.cast_add, add_div]

theorem value_sub (a b : DecimalString) :
    (decimalOfUnits (a.units - b.units)).value = a.value - b.value := by
  rw [value_decimalOfUnits, value, value, Int.cast_sub, sub_div]

/-- The magnitude of an amount that is not negative is its value. -/
theorem magnitude_of_nonneg (h : 0 ≤ a.value) : (a.magnitude : Int) = a.units := by
  have hunits : 0 ≤ a.units := by
    rw [value, le_div_iff₀ (by norm_num), zero_mul] at h
    exact_mod_cast h
  rw [← a.natAbs_units, Int.natAbs_of_nonneg hunits]

end DecimalString

/-! ## The three copies -/

/-- The helpers return the comparison, the sum and the difference of the values. -/
structure ExactDecimals (a b : DecimalString) : Prop where
  vmOrder : compareDecimal a.text b.text = sign3 a.value b.value
  gateOrder : cmpDecimal a.text b.text = sign3 a.value b.value
  evidenceOrder : EvidenceDecimal.compareDecimal a.text b.text = .ok (sign3 a.value b.value)
  vmSum : ∃ sum : DecimalString, addDecimal a.text b.text = .ok sum.text ∧
    sum.value = a.value + b.value
  gateSum : 0 ≤ a.value → 0 ≤ b.value → ∃ sum : DecimalString,
    addDecimalString a.text b.text = .ok sum.text ∧ sum.value = a.value + b.value
  difference : ∃ difference : DecimalString,
    EvidenceDecimal.subtractDecimal a.text b.text = .ok difference.text ∧
      difference.value = a.value - b.value

theorem gateSum_exact (ha : 0 ≤ a.value) (hb : 0 ≤ b.value) : ∃ sum : DecimalString,
    addDecimalString a.text b.text = .ok sum.text ∧ sum.value = a.value + b.value := by
  refine ⟨_, addDecimalString_text a b, ?_⟩
  rw [DecimalString.magnitude_of_nonneg ha, DecimalString.magnitude_of_nonneg hb]
  exact DecimalString.value_add a b

/-- The helpers are exact unless the amounts are zeros of two signs. -/
theorem decimals_exact_iff (a b : DecimalString) :
    ExactDecimals a b ↔ (a.value = 0 → b.value = 0 → a.negative = b.negative) := by
  rw [DecimalString.value_eq_zero_iff, DecimalString.value_eq_zero_iff]
  constructor
  · intro h
    have horder := h.vmOrder
    rw [compareDecimal_eq, DecimalString.sign3_value] at horder
    exact compareSigned_eq_sign3_iff.mp horder
  · intro h
    have horder : compareDecimal a.text b.text = sign3 a.value b.value := by
      rw [compareDecimal_eq, DecimalString.sign3_value]
      exact compareSigned_eq_sign3_iff.mpr h
    exact {
      vmOrder := horder
      gateOrder := (cmpDecimal_eq_compareDecimal _ _).trans horder
      evidenceOrder := by rw [evidence_compareDecimal, DecimalString.sign3_value]
      vmSum := ⟨_, addDecimal_text a b, DecimalString.value_add a b⟩
      gateSum := gateSum_exact
      difference := ⟨_, evidence_subtractDecimal a b, DecimalString.value_sub a b⟩ }

/-- `-0` and `0`. -/
def negativeZero : DecimalString := ⟨"-0", by decide⟩

def plainZero : DecimalString := ⟨"0", by decide⟩

/-- The VM and the gate put `-0` below `0`, and the evidence validator does not. -/
theorem negativeZero_below_zero :
    compareDecimal negativeZero.text plainZero.text = -1 ∧
      cmpDecimal negativeZero.text plainZero.text = -1 ∧
      EvidenceDecimal.compareDecimal negativeZero.text plainZero.text = .ok 0 ∧
      ¬ExactDecimals negativeZero plainZero := by
  refine ⟨by decide, by decide, rfl, fun h => ?_⟩
  have horder := h.vmOrder
  rw [DecimalString.sign3_value] at horder
  exact absurd horder (by decide)

end BrainCore.Shared
