import BrainCore.Foundation.Digits
import Mathlib.Data.Rat.Cast.Order
import Mathlib.Tactic.Linarith

/-!
# Decimal strings

Amounts travel as strings of the grammar `^-?\d+(\.\d{1,18})?$`.  The value of
such a string is read off its digits here, independently of the helpers of the
policy VM and of the gate, which are then shown to compare and to add values.
-/

namespace BrainCore.Shared

open BrainCore.Foundation

/-! ## The grammar -/

/-- The digits after the sign: `\d+(\.\d{1,18})?`. -/
def isUnsignedAmount (s : List Char) : Bool :=
  !(s.takeWhile Char.isDigit).isEmpty &&
    match s.dropWhile Char.isDigit with
    | [] => true
    | c :: frac => c == '.' && frac.all Char.isDigit && !frac.isEmpty && frac.length ≤ 18

/-- `AMOUNT_VALUE_RE = /^-?\d+(\.\d{1,18})?$/`. -/
def amountValueRe (s : String) : Bool :=
  match s.toList with
  | '-' :: rest => isUnsignedAmount rest
  | unsigned => isUnsignedAmount unsigned

/-- A magnitude with its sign. -/
def signed (negative : Bool) (magnitude : Nat) : Int :=
  if negative then -magnitude else magnitude

/-- A string of the amount grammar. -/
@[ext]
structure DecimalString where
  text : String
  wellFormed : amountValueRe text = true
deriving DecidableEq

namespace DecimalString

/-- A leading minus sign. -/
def negative (s : DecimalString) : Bool := s.text.toList.head? = some '-'

/-- The text after the sign. -/
def unsigned (s : DecimalString) : List Char :=
  if s.negative then s.text.toList.tail else s.text.toList

/-- The digits before the point. -/
def int (s : DecimalString) : List Char := s.unsigned.takeWhile Char.isDigit

/-- The digits after the point. -/
def frac (s : DecimalString) : List Char := (s.unsigned.dropWhile Char.isDigit).tail

/-- The absolute value in units of `10 ^ -18`. -/
def magnitude (s : DecimalString) : Nat :=
  natOf s.int * 10 ^ 18 + natOf s.frac * 10 ^ (18 - s.frac.length)

/-- The value in units of `10 ^ -18`. -/
def units (s : DecimalString) : Int := signed s.negative s.magnitude

/-- The rational number the string denotes. -/
def value (s : DecimalString) : ℚ := s.units / 10 ^ 18

theorem value_le_iff {a b : DecimalString} : a.value ≤ b.value ↔ a.units ≤ b.units := by
  rw [value, value, div_le_div_iff_of_pos_right (by norm_num)]
  exact Int.cast_le

theorem value_lt_iff {a b : DecimalString} : a.value < b.value ↔ a.units < b.units := by
  rw [value, value, div_lt_div_iff_of_pos_right (by norm_num)]
  exact Int.cast_lt

end DecimalString

theorem takeWhile_digits_append {int rest : List Char} (digits : IsDigits int)
    (stops : rest.head?.all (fun c => !c.isDigit) = true) :
    (int ++ rest).takeWhile Char.isDigit = int ∧ (int ++ rest).dropWhile Char.isDigit = rest := by
  have stop : rest.takeWhile Char.isDigit = [] ∧ rest.dropWhile Char.isDigit = rest := by
    cases rest with
    | nil => exact ⟨rfl, rfl⟩
    | cons c rest =>
        have hc : c.isDigit = false := by simpa using stops
        exact ⟨by simp [hc], by simp [hc]⟩
  constructor
  · rw [List.takeWhile_append_of_pos digits, stop.1, List.append_nil]
  · rw [List.dropWhile_append_of_pos digits, stop.2]

theorem dotted_stops (frac : List Char) :
    (dotted frac).head?.all (fun c => !c.isDigit) = true := by
  unfold dotted
  split
  · rfl
  · simp

/-- The shape of an unsigned amount. -/
theorem isUnsignedAmount_iff {s : List Char} :
    isUnsignedAmount s = true ↔ ∃ int frac, s = int ++ dotted frac ∧ IsDigits int ∧ int ≠ [] ∧
      IsDigits frac ∧ frac.length ≤ 18 := by
  constructor
  · intro accepted
    have split := List.takeWhile_append_dropWhile (p := Char.isDigit) (l := s)
    have digits : IsDigits (s.takeWhile Char.isDigit) := fun c hc => List.mem_takeWhile_imp hc
    unfold isUnsignedAmount at accepted
    rw [Bool.and_eq_true] at accepted
    have nonempty : s.takeWhile Char.isDigit ≠ [] := by simpa using accepted.1
    cases hrest : s.dropWhile Char.isDigit with
    | nil =>
        refine ⟨_, [], ?_, digits, nonempty, by simp [IsDigits], by simp⟩
        rw [hrest, List.append_nil] at split
        simpa [dotted] using split.symm
    | cons c frac =>
        rw [hrest] at accepted
        simp only [Bool.and_eq_true, beq_iff_eq, Bool.not_eq_true', List.isEmpty_eq_false_iff,
          decide_eq_true_eq, List.all_eq_true] at accepted
        obtain ⟨_, ⟨⟨hc, hfrac⟩, hne⟩, hlen⟩ := accepted
        refine ⟨_, frac, ?_, digits, nonempty, hfrac, hlen⟩
        rw [dotted, if_neg hne, ← hc, ← hrest, split]
  · rintro ⟨int, frac, rfl, digits, nonempty, fracDigits, short⟩
    obtain ⟨htake, hdrop⟩ := takeWhile_digits_append digits (dotted_stops frac)
    rw [isUnsignedAmount, htake, hdrop, Bool.and_eq_true]
    refine ⟨by simpa using nonempty, ?_⟩
    by_cases hfrac : frac = []
    · simp [dotted, hfrac]
    · rw [dotted, if_neg hfrac]
      simpa [short, hfrac, IsDigits] using fracDigits

theorem digit_ne {c : Char} (digit : c.isDigit = true) : c ≠ '-' ∧ c ≠ '.' := by
  have := digit_range digit
  constructor <;> rintro rfl <;> revert this <;> decide

/-- An unsigned amount does not start with a minus sign. -/
theorem unsigned_head {int rest : List Char} (digits : IsDigits int) (nonempty : int ≠ []) :
    (int ++ rest).head? ≠ some '-' := by
  cases int with
  | nil => exact absurd rfl nonempty
  | cons c int =>
      intro h
      have hc := (isDigits_cons.mp digits).1
      have : c = '-' := by simpa using h
      exact (digit_ne hc).1 this

namespace DecimalString

theorem unsigned_wellFormed (s : DecimalString) : isUnsignedAmount s.unsigned = true := by
  have h := s.wellFormed
  unfold amountValueRe at h
  unfold unsigned negative
  split at h
  · rename_i rest hs
    simpa [hs] using h
  · rename_i hs
    have : s.text.toList.head? ≠ some '-' := by
      intro hhead
      cases hl : s.text.toList with
      | nil => simp [hl] at hhead
      | cons c rest =>
          rw [hl] at hhead
          exact hs rest (by rw [hl]; simpa using hhead)
    simpa [this] using h

/-- Every decimal string is a sign, digits and at most eighteen fraction digits. -/
structure Parts (s : DecimalString) : Prop where
  unsigned_eq : s.unsigned = s.int ++ dotted s.frac
  intDigits : IsDigits s.int
  intNonempty : s.int ≠ []
  fracDigits : IsDigits s.frac
  fracShort : s.frac.length ≤ 18

theorem parts (s : DecimalString) : s.Parts := by
  obtain ⟨int, frac, hsplit, digits, nonempty, fracDigits, short⟩ :=
    isUnsignedAmount_iff.mp s.unsigned_wellFormed
  obtain ⟨htake, hdrop⟩ := takeWhile_digits_append digits (dotted_stops frac)
  have hint : s.int = int := by rw [DecimalString.int, hsplit, htake]
  have hfrac : s.frac = frac := by
    rw [DecimalString.frac, hsplit, hdrop]
    unfold dotted
    split
    · rename_i h
      simp [h]
    · rfl
  exact ⟨by rw [hint, hfrac]; exact hsplit, hint ▸ digits, hint ▸ nonempty,
    hfrac ▸ fracDigits, hfrac ▸ short⟩

/-- The decimal string of a sign and a fixed-point text. -/
theorem wellFormed_of_parts (neg : Bool) {int frac : List Char} (digits : IsDigits int)
    (nonempty : int ≠ []) (fracDigits : IsDigits frac) (short : frac.length ≤ 18) :
    amountValueRe (String.ofList ((if neg then ['-'] else []) ++ (int ++ dotted frac))) = true := by
  have accepted : isUnsignedAmount (int ++ dotted frac) = true :=
    isUnsignedAmount_iff.mpr ⟨int, frac, rfl, digits, nonempty, fracDigits, short⟩
  unfold amountValueRe
  cases neg with
  | true => simpa using accepted
  | false =>
      rw [String.toList_ofList]
      simp only [Bool.false_eq_true, if_false, List.nil_append]
      split
      · rename_i rest heq
        exact absurd (by rw [heq]; rfl) (unsigned_head digits nonempty)
      · exact accepted

/-- The sign and the digits of a string are read off its text. -/
theorem of_parts {s : DecimalString} {neg : Bool} {int frac : List Char}
    (text : s.text.toList = (if neg then ['-'] else []) ++ (int ++ dotted frac))
    (digits : IsDigits int) (nonempty : int ≠ []) :
    s.negative = neg ∧ s.int = int ∧ s.frac = frac := by
  have hneg : s.negative = neg := by
    rw [negative, text]
    cases neg with
    | true => simp
    | false => simpa using @unsigned_head _ (dotted frac) digits nonempty
  have hunsigned : s.unsigned = int ++ dotted frac := by
    rw [unsigned, hneg, text]
    cases neg <;> simp
  obtain ⟨htake, hdrop⟩ := takeWhile_digits_append digits (dotted_stops frac)
  refine ⟨hneg, by rw [DecimalString.int, hunsigned, htake], ?_⟩
  rw [DecimalString.frac, hunsigned, hdrop]
  unfold dotted
  split
  · rename_i h
    simp [h]
  · rfl

end DecimalString

end BrainCore.Shared
