import BrainCore.Shared.DecimalArithmetic
import Mathlib.Data.List.Lex
import Mathlib.Data.Prod.Lex
import Mathlib.Data.Sum.Order

/-!
# The order of amounts

The comparison of amounts is total on all strings, also on those that are no
amounts: it is the order of what the normal form of a string says, the sign
first, then the digits before the point, then those behind it.
-/

namespace BrainCore.Shared

open BrainCore.Foundation

/-! ## Comparing by what is compared first -/

theorem sign3_toLex {α β : Type*} [LinearOrder α] [LinearOrder β] (a a' : α) (b b' : β) :
    sign3 (toLex (a, b)) (toLex (a', b')) =
      if sign3 a a' ≠ 0 then sign3 a a' else sign3 b b' := by
  rcases lt_trichotomy a a' with hlt | rfl | hgt
  · have h : toLex (a, b) < toLex (a', b') := Prod.Lex.toLex_lt_toLex.mpr (.inl hlt)
    simp [sign3, h, hlt]
  · rw [if_neg (by simp [sign3_eq_zero])]
    apply sign3_congr
    · simp [Prod.Lex.toLex_lt_toLex]
    · simp [Prod.Lex.toLex_lt_toLex]
  · have h : toLex (a', b') < toLex (a, b) := Prod.Lex.toLex_lt_toLex.mpr (.inl hgt)
    simp [sign3, h, hgt, h.not_gt, hgt.not_gt]

theorem sign3_toDual {α : Type*} [LinearOrder α] (a b : α) :
    sign3 (OrderDual.toDual a) (OrderDual.toDual b) = -sign3 a b := by
  rw [sign3_swap]
  exact sign3_congr OrderDual.toDual_lt_toDual OrderDual.toDual_lt_toDual

theorem lexLt_iff_lt (a b : List Char) :
    lexLt a b = true ↔ a.map Char.toNat < b.map Char.toNat := by
  induction a generalizing b with
  | nil => cases b <;> simp [lexLt]
  | cons x xs ih =>
      cases b with
      | nil => simp [lexLt]
      | cons y ys =>
          rw [lexLt, List.map_cons, List.map_cons, List.cons_lt_cons_iff, ← ih]
          rcases lt_trichotomy x.toNat y.toNat with h | h | h
          · simp [h]
          · simp [h]
          · simp [h, h.not_gt, h.ne']

/-- What a comparison of digits reads: the length, then the characters. -/
def digitRank (s : List Char) : ℕ ×ₗ List ℕ := toLex (s.length, s.map Char.toNat)

theorem compareBig_eq_rank (a b : List Char) :
    compareBig a b = sign3 (digitRank a) (digitRank b) := by
  rw [digitRank, digitRank, sign3_toLex, compareBig]
  rcases lt_trichotomy a.length b.length with h | h | h
  · simp [sign3, h, h.ne]
  · have hcase : (if lexLt a b then (-1 : Int) else if lexLt b a then 1 else 0) =
        sign3 (a.map Char.toNat) (b.map Char.toNat) := by
      simp only [lexLt_iff_lt, sign3]
      congr
    rw [if_neg (not_not.mpr h), if_neg (not_not.mpr (sign3_eq_zero.mpr h)), hcase]
  · simp [sign3, h, h.ne', h.not_gt]

/-! ## The order of all strings -/

/-- A magnitude: the digits before the point, then those behind it. -/
abbrev MagnitudeRank := (ℕ ×ₗ List ℕ) ×ₗ (ℕ ×ₗ List ℕ)

def magnitudeRank (n : NormalizedDecimal) : MagnitudeRank :=
  toLex (digitRank n.int, digitRank n.frac)

/-- The negative strings come first, the larger magnitude before the smaller. -/
def decimalRank (s : String) : MagnitudeRankᵒᵈ ⊕ₗ MagnitudeRank :=
  let n := normalizeDecimal s
  if n.negative then toLex (.inl (OrderDual.toDual (magnitudeRank n)))
  else toLex (.inr (magnitudeRank n))

theorem compareDecimal_eq_rank (a b : String) :
    compareDecimal a b = sign3 (decimalRank a) (decimalRank b) := by
  unfold compareDecimal decimalRank
  generalize normalizeDecimal a = m
  generalize normalizeDecimal b = n
  have hmagnitude : sign3 (magnitudeRank m) (magnitudeRank n) =
      if compareBig m.int n.int ≠ 0 then compareBig m.int n.int else compareBig m.frac n.frac := by
    rw [magnitudeRank, magnitudeRank, sign3_toLex, compareBig_eq_rank, compareBig_eq_rank]
  have hmagnitude' : sign3 (magnitudeRank m) (magnitudeRank n) =
      if compareBig m.int n.int ≠ 0 then compareBig m.int n.int
      else if compareBig m.frac n.frac = 0 then 0 else compareBig m.frac n.frac := by
    rw [hmagnitude]
    by_cases hfrac : compareBig m.frac n.frac = 0 <;> simp [hfrac]
  cases hm : m.negative <;> cases hn : n.negative <;>
    simp only [hm, hn, ne_eq, not_true_eq_false, reduceCtorEq, not_false_eq_true, if_true, if_false,
      Bool.false_eq_true]
  · rw [sign3_congr (Sum.Lex.inr_lt_inr_iff (a := magnitudeRank m) (b := magnitudeRank n))
      Sum.Lex.inr_lt_inr_iff, hmagnitude']
  · simp [sign3]
  · simp [sign3]
  · rw [sign3_congr Sum.Lex.inl_lt_inl_iff Sum.Lex.inl_lt_inl_iff, sign3_toDual, hmagnitude']
    by_cases hint : compareBig m.int n.int = 0
    · by_cases hfrac : compareBig m.frac n.frac = 0 <;> simp [hint, hfrac]
    · simp [hint]

theorem compareDecimal_nonpos (a b : String) :
    compareDecimal a b ≤ 0 ↔ decimalRank a ≤ decimalRank b := by
  rw [compareDecimal_eq_rank, sign3_nonpos]

theorem compareDecimal_pos (a b : String) :
    0 < compareDecimal a b ↔ decimalRank b < decimalRank a := by
  rw [compareDecimal_eq_rank, sign3_pos]

theorem compareDecimal_neg (a b : String) :
    compareDecimal a b < 0 ↔ decimalRank a < decimalRank b := by
  rw [compareDecimal_eq_rank, sign3_neg]

theorem cmpDecimal_pos (a b : String) :
    0 < cmpDecimal a b ↔ decimalRank b < decimalRank a := by
  rw [cmpDecimal_eq_compareDecimal, compareDecimal_pos]

end BrainCore.Shared
