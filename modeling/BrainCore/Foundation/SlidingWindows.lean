import Mathlib.Algebra.Order.Floor.Div
import Mathlib.Data.List.Basic
import Mathlib.Tactic.Linarith

/-!
# Sliding windows

A sliding window lets a hit through while fewer than `limit` of the hits it has
let through lie in the window that ends with the hit.  In a span of time it lets
`limit` hits through for each window that begins in the span.
-/

namespace BrainCore.Foundation

/-- Hits, newest first, that are let through one after the other. -/
def Admitted (window limit : Nat) : List Nat → Prop
  | [] => True
  | now :: earlier =>
      Admitted window limit earlier ∧ (∀ hit ∈ earlier, hit ≤ now) ∧
        (earlier.countP fun hit => now < hit + window) < limit

/-- Somewhere `count` hits are let through within a span of time. -/
def Permits (window limit span count : Nat) : Prop :=
  ∃ hits start, Admitted window limit hits ∧
    (hits.countP fun hit => start ≤ hit ∧ hit ≤ start + span) = count

/-- The windows of length `window` it takes to cover a span of that many instants. -/
def windowsIn (window instants : Nat) : Nat := (instants - 1) / window + 1

section Bound

variable {window limit span count : Nat} {hits : List Nat}

/-- No window holds more hits than the limit. -/
theorem Admitted.count_window (h : Admitted window limit hits) (start : Nat) :
    (hits.countP fun hit => start ≤ hit ∧ hit < start + window) ≤ limit := by
  induction hits with
  | nil => exact Nat.zero_le _
  | cons now earlier ih =>
      obtain ⟨hearlier, hlast, hcount⟩ := h
      rw [List.countP_cons]
      split
      · rename_i hnow
        have hin : start ≤ now ∧ now < start + window := by simpa using hnow
        have hsub : (earlier.countP fun hit => start ≤ hit ∧ hit < start + window) ≤
            earlier.countP fun hit => now < hit + window := by
          apply List.countP_mono_left
          intro hit _ hhit
          have hbetween : start ≤ hit ∧ hit < start + window := by simpa using hhit
          simp only [decide_eq_true_eq]
          omega
        omega
      · exact ih hearlier

/-- What one of two counts covers. -/
theorem countP_le_add {p q r : Nat → Bool} (h : ∀ hit, p hit = true → q hit = true ∨ r hit = true)
    (hits : List Nat) : hits.countP p ≤ hits.countP q + hits.countP r := by
  induction hits with
  | nil => exact Nat.zero_le _
  | cons hit rest ih =>
      rw [List.countP_cons, List.countP_cons, List.countP_cons]
      have hhead : (if p hit = true then 1 else 0) ≤
          (if q hit = true then 1 else 0) + if r hit = true then 1 else 0 := by
        have hor := h hit
        split_ifs <;> simp_all
      omega

/-- Windows side by side. -/
theorem Admitted.count_windows (h : Admitted window limit hits) (start windows : Nat) :
    (hits.countP fun hit => start ≤ hit ∧ hit < start + windows * window) ≤ limit * windows := by
  induction windows with
  | zero =>
      rw [List.countP_eq_zero.mpr]
      · exact Nat.zero_le _
      · intro hit _
        simp only [decide_eq_true_eq]
        omega
  | succ windows ih =>
      have hlast := h.count_window (start + windows * window)
      have hsplit := countP_le_add
        (p := fun hit => decide (start ≤ hit ∧ hit < start + (windows + 1) * window))
        (q := fun hit => decide (start ≤ hit ∧ hit < start + windows * window))
        (r := fun hit => decide (start + windows * window ≤ hit ∧
          hit < start + windows * window + window))
        (fun hit hhit => by
          simp only [decide_eq_true_eq, Nat.succ_mul] at hhit ⊢
          omega) hits
      rw [Nat.mul_succ]
      omega

end Bound

section Attained

variable (window limit : Nat)

/-- As many hits as the limit allows at the start of each of some windows. -/
def pulses : Nat → List Nat
  | 0 => []
  | windows + 1 => List.replicate limit (windows * window) ++ pulses windows

variable {window limit}

theorem pulses_length (windows : Nat) : (pulses window limit windows).length = limit * windows := by
  induction windows with
  | zero => rfl
  | succ windows ih => rw [pulses, List.length_append, List.length_replicate, ih, Nat.mul_succ]; omega

theorem lt_of_mem_pulses (positive : 0 < window) {windows hit : Nat}
    (h : hit ∈ pulses window limit windows) : hit + window ≤ windows * window := by
  induction windows with
  | zero => cases h
  | succ windows ih =>
      rw [Nat.succ_mul]
      rcases List.mem_append.mp h with hnew | hold
      · rw [(List.mem_replicate.mp hnew).2]
      · have := ih hold
        omega

theorem admitted_replicate (positive : 0 < window) {now copies : Nat} {earlier : List Nat}
    (admitted : Admitted window limit earlier) (before : ∀ hit ∈ earlier, hit + window ≤ now)
    (within : copies ≤ limit) : Admitted window limit (List.replicate copies now ++ earlier) := by
  induction copies with
  | zero => exact admitted
  | succ copies ih =>
      refine ⟨ih (by omega), fun hit hmem => ?_, ?_⟩
      · rcases List.mem_append.mp hmem with hnew | hold
        · exact Nat.le_of_eq (List.mem_replicate.mp hnew).2
        · have := before hit hold
          omega
      · change List.countP _ (List.replicate copies now ++ earlier) < limit
        rw [List.countP_append, (List.countP_eq_zero (l := earlier)).mpr]
        · have hle := List.countP_le_length (p := fun hit => decide (now < hit + window))
            (l := List.replicate copies now)
          rw [List.length_replicate] at hle
          omega
        · intro hit hmem
          have := before hit hmem
          simp only [decide_eq_true_eq]
          omega

theorem admitted_pulses (positive : 0 < window) (windows : Nat) :
    Admitted window limit (pulses window limit windows) := by
  induction windows with
  | zero => trivial
  | succ windows ih =>
      exact admitted_replicate positive ih (fun _ => lt_of_mem_pulses positive) (Nat.le_refl _)

theorem Admitted.drop {hits : List Nat} (h : Admitted window limit hits) (n : Nat) :
    Admitted window limit (hits.drop n) := by
  induction n generalizing hits with
  | zero => exact h
  | succ n ih =>
      cases hits with
      | nil => trivial
      | cons now earlier => exact ih h.1

end Attained

section Permits

variable {window limit window' limit' span count : Nat}

/-- What a window permits in a span. -/
theorem permits_iff (positive : 0 < window) :
    Permits window limit span count ↔ count ≤ limit * (span / window + 1) := by
  have hcover : span < (span / window + 1) * window := Nat.lt_mul_of_div_lt (Nat.lt_succ_self _) positive
  constructor
  · rintro ⟨hits, start, hadmitted, rfl⟩
    refine le_trans (List.countP_mono_left fun hit _ hhit => ?_)
      (hadmitted.count_windows start (span / window + 1))
    simp only [decide_eq_true_eq] at hhit ⊢
    omega
  · intro hle
    have hadmitted : Admitted window limit (pulses window limit (span / window + 1)) :=
      admitted_pulses positive _
    refine ⟨(pulses window limit (span / window + 1)).drop (limit * (span / window + 1) - count), 0,
      hadmitted.drop _, ?_⟩
    rw [List.countP_eq_length.mpr, List.length_drop, pulses_length]
    · omega
    · intro hit hmem
      have hlt := lt_of_mem_pulses positive (List.mem_of_mem_drop hmem)
      have hspan := Nat.div_mul_le_self span window
      rw [Nat.succ_mul] at hlt
      simp only [decide_eq_true_eq]
      omega

/-- One window permits at least what another does, in every span, exactly when its limit makes up
for the windows of the other that begin in it. -/
theorem permits_mono_iff (positive : 0 < window) (positive' : 0 < window') :
    (∀ span count, Permits window limit span count → Permits window' limit' span count) ↔
      limit * windowsIn window window' ≤ limit' := by
  simp only [permits_iff positive, permits_iff positive']
  constructor
  · intro h
    have hone := h (window' - 1) (limit * windowsIn window window') (Nat.le_refl _)
    rw [Nat.div_eq_of_lt (by omega), Nat.zero_add, Nat.mul_one] at hone
    exact hone
  · intro hlimit span count hcount
    have hcover : window' ≤ windowsIn window window' * window := by
      have hlt : window' - 1 < windowsIn window window' * window :=
        Nat.lt_mul_of_div_lt (Nat.lt_succ_self _) positive
      omega
    have hspan : span < (span / window' + 1) * window' :=
      Nat.lt_mul_of_div_lt (Nat.lt_succ_self _) positive'
    have hwindows : span / window + 1 ≤ (span / window' + 1) * windowsIn window window' := by
      refine Nat.div_lt_of_lt_mul (lt_of_lt_of_le hspan ?_)
      calc (span / window' + 1) * window'
          ≤ (span / window' + 1) * (windowsIn window window' * window) :=
            Nat.mul_le_mul_left _ hcover
        _ = window * ((span / window' + 1) * windowsIn window window') := by
            rw [← Nat.mul_assoc, Nat.mul_comm]
    calc count ≤ limit * (span / window + 1) := hcount
      _ ≤ limit * ((span / window' + 1) * windowsIn window window') :=
          Nat.mul_le_mul_left _ hwindows
      _ = limit * windowsIn window window' * (span / window' + 1) := by
          rw [Nat.mul_comm (span / window' + 1), Nat.mul_assoc]
      _ ≤ limit' * (span / window' + 1) := Nat.mul_le_mul_right _ hlimit

/-- A window that is no longer needs no higher limit. -/
theorem windowsIn_of_le (positive : 0 < window) (h : window' ≤ window) : windowsIn window window' = 1 := by
  rw [windowsIn, Nat.div_eq_of_lt (by omega)]

/-- Counting in a finer unit changes nothing. -/
theorem windowsIn_mul {unit : Nat} (hunit : 0 < unit) (positive' : 0 < window') :
    windowsIn (window * unit) (window' * unit) = windowsIn window window' := by
  have hlast : (window' * unit - 1) / unit = window' - 1 := by
    obtain ⟨n, rfl⟩ : ∃ n, window' = n + 1 := ⟨window' - 1, by omega⟩
    rw [Nat.succ_mul, Nat.add_sub_assoc hunit, Nat.mul_comm n, Nat.mul_add_div hunit,
      Nat.div_eq_of_lt (by omega)]
    rfl
  rw [windowsIn, windowsIn, Nat.mul_comm window, ← Nat.div_div_eq_div_mul, hlast]

end Permits

end BrainCore.Foundation
