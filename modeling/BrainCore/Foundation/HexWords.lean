import BrainCore.Foundation.Evm
import BrainCore.Foundation.Text
import Mathlib.Data.List.Induction

/-!
# Words in hexadecimal

A word of the virtual machine is sixty-four hexadecimal digits.  A number below
`2 ^ 256` that is padded to that length reads back as itself.
-/

namespace BrainCore.Foundation

/-! ## Digits of a radix up to sixteen -/

theorem digitValue_digitChar : ∀ n < 16, digitValue (Nat.digitChar n) = n := by decide

theorem digitValue_lt_of_isHexDigit {c : Char} (hex : isHexDigit c = true) : digitValue c < 16 := by
  unfold digitValue
  simp only [isHexDigit, Bool.or_eq_true, Bool.and_eq_true, decide_eq_true_eq] at hex
  by_cases hdigit : c.isDigit = true
  · have hrange := digit_range hdigit
    rw [if_pos hdigit]
    omega
  · rw [if_neg hdigit]
    by_cases hlower : 'a' ≤ c ∧ c ≤ 'f'
    · have hle : c.toNat ≤ 102 := UInt32.le_iff_toNat_le.mp hlower.2
      rw [if_pos hlower]
      omega
    · have hupper : 'A' ≤ c ∧ c ≤ 'F' := by
        rcases hex with (h | h) | h
        · exact absurd h hdigit
        · exact absurd h hlower
        · exact h
      have hle : c.toNat ≤ 70 := UInt32.le_iff_toNat_le.mp hupper.2
      rw [if_neg hlower, if_pos hupper]
      omega

/-- The number a text of digits denotes in a radix. -/
def radixValue (radix : Nat) (s : List Char) : Nat :=
  s.foldl (fun n c => n * radix + digitValue c) 0

theorem radixValue_snoc (radix : Nat) (s : List Char) (c : Char) :
    radixValue radix (s ++ [c]) = radixValue radix s * radix + digitValue c := by
  simp [radixValue]

theorem radixNat?_eq {radix : Nat} {s : List Char} (nonempty : s ≠ [])
    (digits : ∀ c ∈ s, digitValue c < radix) : radixNat? radix s = some (radixValue radix s) :=
  if_pos ⟨nonempty, List.all_eq_true.mpr fun c hc => decide_eq_true (digits c hc)⟩

theorem radixValue_lt {radix : Nat} {s : List Char} (digits : ∀ c ∈ s, digitValue c < radix) :
    radixValue radix s < radix ^ s.length := by
  induction s using List.reverseRecOn with
  | nil => simp [radixValue]
  | append_singleton s c ih =>
      have hs := ih fun d hd => digits d (List.mem_append_left _ hd)
      have hc : digitValue c < radix := digits c (by simp)
      rw [radixValue_snoc, List.length_append, List.length_singleton, Nat.pow_succ]
      calc radixValue radix s * radix + digitValue c < radixValue radix s * radix + radix :=
            Nat.add_lt_add_left hc _
        _ = (radixValue radix s + 1) * radix := by ring
        _ ≤ radix ^ s.length * radix := Nat.mul_le_mul_right _ hs

section Radix

variable {radix : Nat} (large : 1 < radix) (small : radix ≤ 16)
include large small

theorem radixValue_toDigits (n : Nat) : radixValue radix (Nat.toDigits radix n) = n := by
  induction n using Nat.strongRecOn with
  | ind n ih =>
      rw [Nat.toDigits_eq_if large]
      split
      · simp [radixValue, digitValue_digitChar n (by omega)]
      · rename_i hle
        have hdiv : n / radix < n := Nat.div_lt_self (by omega) large
        have hmod : n % radix < radix := Nat.mod_lt _ (by omega)
        rw [radixValue_snoc, ih _ hdiv, digitValue_digitChar _ (by omega), Nat.mul_comm,
          Nat.div_add_mod]

theorem digitValue_lt_of_mem_toDigits (n : Nat) :
    ∀ c ∈ Nat.toDigits radix n, digitValue c < radix := by
  induction n using Nat.strongRecOn with
  | ind n ih =>
      rw [Nat.toDigits_eq_if large]
      split
      · intro c hc
        rw [List.mem_singleton.mp hc, digitValue_digitChar n (by omega)]
        assumption
      · intro c hc
        have hmod : n % radix < radix := Nat.mod_lt _ (by omega)
        rcases List.mem_append.mp hc with hc | hc
        · exact ih _ (Nat.div_lt_self (by omega) large) c hc
        · rw [List.mem_singleton.mp hc, digitValue_digitChar _ (by omega)]
          exact hmod

end Radix

theorem radixValue_padStart (radix n : Nat) (s : List Char) :
    radixValue radix (padStart n s) = radixValue radix s := by
  have zeros (k : Nat) : (List.replicate k '0').foldl (fun n c => n * radix + digitValue c) 0 = 0 := by
    induction k with
    | zero => rfl
    | succ k ih => simpa [List.replicate_succ, digitValue] using ih
  rw [padStart, radixValue, List.foldl_append, zeros]
  rfl

/-! ## Words -/

/-- The word of sixty-four hexadecimal digits. -/
def word? (s : List Char) : Option Uint256 :=
  if s.length = 64 then
    (radixNat? 16 s).bind fun n => if h : n < 2 ^ 256 then some ⟨n, h⟩ else none
  else none

/-- A number as sixty-four hexadecimal digits, or more when it is no word. -/
def hexWord (n : Nat) : List Char := padStart 64 (Nat.toDigits 16 n)

theorem length_hexWord {n : Nat} (h : n < 2 ^ 256) : (hexWord n).length = 64 := by
  have hshort : (Nat.toDigits 16 n).length ≤ 64 :=
    (Nat.length_toDigits_le_iff (by decide) (by decide)).mpr (by simpa using h)
  rw [hexWord, padStart, List.length_append, List.length_replicate]
  omega

theorem word?_eq {s : List Char} (length : s.length = 64)
    (digits : ∀ c ∈ s, digitValue c < 16) : ∃ word, word? s = some word ∧ word.val = radixValue 16 s := by
  have hlt : radixValue 16 s < 2 ^ 256 := by
    have := radixValue_lt digits
    rwa [length, show (16 : Nat) ^ 64 = 2 ^ 256 from rfl] at this
  refine ⟨⟨radixValue 16 s, hlt⟩, ?_, rfl⟩
  have nonempty : s ≠ [] := by
    rintro rfl
    cases length
  rw [word?, if_pos length, radixNat?_eq nonempty digits, Option.bind_some, dif_pos hlt]

/-- A padded word reads back. -/
theorem word?_hexWord {n : Nat} (h : n < 2 ^ 256) : word? (hexWord n) = some ⟨n, h⟩ := by
  have digits : ∀ c ∈ hexWord n, digitValue c < 16 := by
    intro c hc
    rcases List.mem_append.mp hc with hc | hc
    · rw [List.eq_of_mem_replicate hc]
      decide
    · exact digitValue_lt_of_mem_toDigits (by decide) (by decide) n c hc
  obtain ⟨word, hword, hvalue⟩ := word?_eq (length_hexWord h) digits
  rw [hword]
  refine congrArg some (Fin.ext (hvalue.trans ?_))
  rw [hexWord, radixValue_padStart, radixValue_toDigits (by decide) (by decide)]

end BrainCore.Foundation
