import BrainCore.Members.AuthorizeApproval
import BrainCore.Shared.Decimal
import Mathlib.Algebra.Order.Field.Basic
import Mathlib.Order.Bounds.Basic
import Mathlib.Tactic.FieldSimp
import Mathlib.Tactic.Linarith

/-!
# Amounts to the cent

A member's limit counts cents and an amount may carry any number of digits
after its point.  The cents that are compared with the limit are the least
integer that is not below the amount, so an approval within the limit is
within it before rounding.
-/

namespace BrainCore.Members

open BrainCore.Foundation BrainCore.Shared

/-! ## What an amount denotes -/

/-- `int` and `frac` are the digits of an amount around its point. -/
structure AmountDigits (value : String) (int frac : List Char) : Prop where
  text : trim value.toList = int ++ dotted frac
  intDigits : IsDigits int
  intNonempty : int ≠ []
  fracDigits : IsDigits frac

/-- The decimal string `value` denotes `q`. -/
def Denotes (value : String) (q : ℚ) : Prop :=
  ∃ int frac, AmountDigits value int frac ∧ q = natOf int + natOf frac / 10 ^ frac.length

/-- The values of a `BIGINT` column. -/
def Bigint (n : Int) : Prop := -9223372036854775808 ≤ n ∧ n < 9223372036854775808

instance decidableBigint (n : Int) : Decidable (Bigint n) :=
  inferInstanceAs (Decidable (_ ∧ _))

/-! ## Digits beyond the second -/

/-- Two digits of a fraction, and what they leave out. -/
theorem natOf_padEndSlice_two (frac : List Char) :
    natOf frac * 100 =
      natOf (padEndSlice 2 frac) * 10 ^ frac.length + natOf (frac.drop 2) * 100 := by
  by_cases short : frac.length ≤ 2
  · rw [natOf_padEndSlice short, List.drop_eq_nil_of_le short, natOf_nil, Nat.zero_mul,
      Nat.add_zero, Nat.mul_assoc, ← Nat.pow_add, Nat.sub_add_cancel short]
  · have long : 2 ≤ frac.length := by omega
    have hslice : padEndSlice 2 frac = frac.take 2 := by
      rw [padEndSlice, List.take_append_of_le_length long]
    have hpow : 10 ^ frac.length = 10 ^ (frac.drop 2).length * 100 := by
      rw [List.length_drop, show (100 : Nat) = 10 ^ 2 from rfl, ← Nat.pow_add,
        Nat.sub_add_cancel long]
    calc natOf frac * 100 = natOf (frac.take 2 ++ frac.drop 2) * 100 := by
          rw [List.take_append_drop]
      _ = natOf (frac.take 2) * (10 ^ (frac.drop 2).length * 100) + natOf (frac.drop 2) * 100 := by
          rw [natOf_append, Nat.add_mul, Nat.mul_assoc]
      _ = natOf (padEndSlice 2 frac) * 10 ^ frac.length + natOf (frac.drop 2) * 100 := by
          rw [hslice, hpow]

/-- What two digits leave out is less than a cent. -/
theorem natOf_drop_two_lt {frac : List Char} (digits : IsDigits frac) :
    natOf (frac.drop 2) * 100 < 10 ^ frac.length := by
  by_cases short : frac.length ≤ 2
  · rw [List.drop_eq_nil_of_le short]
    simp
  · have hrest : natOf (frac.drop 2) < 10 ^ (frac.drop 2).length :=
      natOf_lt fun c hc => digits c (List.mem_of_mem_drop hc)
    have hpow : 10 ^ frac.length = 10 ^ (frac.drop 2).length * 100 := by
      rw [List.length_drop, show (100 : Nat) = 10 ^ 2 from rfl, ← Nat.pow_add]
      congr 1
      omega
    rw [hpow]
    omega

/-- A text of zeros denotes zero, and no other does. -/
theorem natOf_eq_zero_iff {s : List Char} (digits : IsDigits s) :
    natOf s = 0 ↔ (s.any fun c => c ≠ '0') = false := by
  induction s with
  | nil => simp
  | cons c s ih =>
      obtain ⟨hc, hs⟩ := isDigits_cons.mp digits
      have hrange := digit_range hc
      have hzero : c.toNat - 48 = 0 ↔ c = '0' := by
        constructor
        · intro h
          have hcode : c.toNat = 48 := by omega
          exact Char.ext (UInt32.toNat_inj.mp hcode)
        · rintro rfl
          rfl
      rw [natOf_cons, Nat.add_eq_zero_iff, Nat.mul_eq_zero, ih hs]
      simp [hzero]

/-! ## Rounding up -/

/-- The least integer above a number and a proper fraction. -/
theorem isLeast_ceil (n t d : Nat) (proper : t < d) :
    IsLeast {c : ℤ | (n : ℚ) + t / d ≤ c} ((n + (if t = 0 then 0 else 1) : Nat) : ℤ) := by
  have hd : (0 : ℚ) < d := by exact_mod_cast Nat.zero_lt_of_lt proper
  have hbelow : (t : ℚ) / d < 1 := by
    rw [div_lt_one hd]
    exact_mod_cast proper
  by_cases exact : t = 0
  · subst exact
    constructor
    · simp
    · intro c hc
      have hc : (n : ℚ) ≤ c := by simpa using hc
      simpa using (by exact_mod_cast hc : (n : ℤ) ≤ c)
  · have hpos : (0 : ℚ) < t / d := div_pos (by exact_mod_cast Nat.pos_of_ne_zero exact) hd
    rw [if_neg exact]
    constructor
    · change (n : ℚ) + t / d ≤ ((n + 1 : Nat) : ℤ)
      push_cast
      linarith
    · intro c hc
      have hlt : (n : ℚ) < c := lt_of_lt_of_le (by linarith) (show (n : ℚ) + t / d ≤ c from hc)
      have hlt : (n : ℤ) < c := by exact_mod_cast hlt
      push_cast
      omega

/-! ## The cents of an amount -/

/-- The branch of the source in which the pattern matches. -/
theorem decimalAmountToCents_digits {value : String} {int frac : List Char}
    (digits : AmountDigits value int frac) :
    decimalAmountToCents value = ((natOf int * 100 + natOf (padEndSlice 2 frac) +
      (if natOf (frac.drop 2) = 0 then 0 else 1) : Nat) : ℤ) := by
  obtain ⟨htake, hdrop⟩ := takeWhile_digits_append digits.intDigits (dotted_stops frac)
  have hround : (if (frac.drop 2).any fun c => c ≠ '0' then 1 else 0) =
      if natOf (frac.drop 2) = 0 then 0 else 1 := by
    have hiff := natOf_eq_zero_iff (s := frac.drop 2) fun c hc =>
      digits.fracDigits c (List.mem_of_mem_drop hc)
    cases hany : (frac.drop 2).any fun c => c ≠ '0' with
    | true =>
        rw [hany] at hiff
        simp [hiff]
    | false =>
        rw [hany] at hiff
        simp [hiff]
  unfold decimalAmountToCents
  simp only [digits.text, htake, hdrop]
  by_cases hfrac : frac = []
  · subst hfrac
    rw [if_neg (by simpa [dotted] using digits.intNonempty)]
    rfl
  · have hdotted : dotted frac = '.' :: frac := if_neg hfrac
    rw [hdotted, List.tail_cons, if_neg, hround]
    rintro (hint | hrest)
    · exact digits.intNonempty hint
    · exact hrest (.inr ⟨rfl, hfrac, List.all_eq_true.mpr digits.fracDigits⟩)

/-- A text the pattern does not match is no decimal string. -/
theorem decimalAmountToCents_unparseable {value : String}
    (none : ¬∃ q, Denotes value q) : decimalAmountToCents value = unparseableAmountCents := by
  unfold decimalAmountToCents
  dsimp only
  refine if_pos ?_
  by_contra hmatch
  rw [not_or, not_not] at hmatch
  obtain ⟨hint, hrest⟩ := hmatch
  have hsplit := List.takeWhile_append_dropWhile (p := Char.isDigit) (l := trim value.toList)
  have hdigits : IsDigits ((trim value.toList).takeWhile Char.isDigit) := fun c hc =>
    List.mem_takeWhile_imp hc
  rcases hrest with hnil | ⟨hpoint, hfrac, hall⟩
  · refine none ⟨_, _, [], ⟨?_, hdigits, hint, by simp [IsDigits]⟩, rfl⟩
    rw [hnil, List.append_nil] at hsplit
    simpa [dotted] using hsplit.symm
  · refine none ⟨_, _, _, ⟨?_, hdigits, hint, List.all_eq_true.mp hall⟩, rfl⟩
    rw [dotted, if_neg hfrac, ← List.eq_cons_of_mem_head? hpoint, hsplit]

/-- The cents of a decimal string are its value in cents, rounded up. -/
theorem decimalAmountToCents_isLeast {value : String} {q : ℚ} (denotes : Denotes value q) :
    IsLeast {c : ℤ | 100 * q ≤ c} (decimalAmountToCents value) := by
  obtain ⟨int, frac, digits, rfl⟩ := denotes
  have hsplit := natOf_padEndSlice_two frac
  have hscale : ((10 ^ frac.length : Nat) : ℚ) ≠ 0 := by positivity
  have hcents : 100 * ((natOf int : ℚ) + natOf frac / 10 ^ frac.length) =
      ((natOf int * 100 + natOf (padEndSlice 2 frac) : Nat) : ℚ) +
        ((natOf (frac.drop 2) * 100 : Nat) : ℚ) / ((10 ^ frac.length : Nat) : ℚ) := by
    have hsplit : (natOf frac : ℚ) * 100 =
        natOf (padEndSlice 2 frac) * 10 ^ frac.length + natOf (frac.drop 2) * 100 := by
      exact_mod_cast hsplit
    push_cast at hscale ⊢
    field_simp
    linarith
  have hleast := isLeast_ceil (natOf int * 100 + natOf (padEndSlice 2 frac))
    (natOf (frac.drop 2) * 100) (10 ^ frac.length) (natOf_drop_two_lt digits.fracDigits)
  rw [decimalAmountToCents_digits digits]
  simpa [hcents] using hleast

/-- An amount whose cents are within a limit is within it exactly. -/
theorem exact_of_cents_le {value : String} {limit : Int} (bigint : Bigint limit)
    (hle : decimalAmountToCents value ≤ limit) : ∃ q, Denotes value q ∧ 100 * q ≤ limit := by
  by_cases hdecimal : ∃ q, Denotes value q
  · obtain ⟨q, hq⟩ := hdecimal
    have hcents : 100 * q ≤ decimalAmountToCents value := (decimalAmountToCents_isLeast hq).1
    exact ⟨q, hq, hcents.trans (by exact_mod_cast hle)⟩
  · rw [decimalAmountToCents_unparseable hdecimal] at hle
    exact absurd (lt_of_le_of_lt hle bigint.2) (lt_irrefl _)

/-! ## Approvals within a limit -/

/-- What the checks on the member alone leave. -/
theorem checkAuthority_ok {member : MemberAuthority} {proposal : ApprovalDomainSource}
    (h : checkAuthority member proposal = .ok ()) :
    member.active = true ∧ isApprovalCapableRole member.role = true ∧
      proposal.domain ∈ member.approvalDomains ∧ proposal.amountCents ≤ member.perItemLimitCents ∧
      selfApproval member proposal = none := by
  unfold checkAuthority at h
  by_cases hactive : member.active = true
  · rw [if_neg (by simpa using hactive)] at h
    by_cases hrole : isApprovalCapableRole member.role = true
    · rw [if_neg (by simpa using hrole)] at h
      by_cases hdomain : proposal.domain ∈ member.approvalDomains
      · rw [if_neg (by simpa using hdomain)] at h
        by_cases hlimit : member.perItemLimitCents < proposal.amountCents
        · rw [if_pos hlimit] at h
          cases h
        · rw [if_neg hlimit] at h
          cases hself : selfApproval member proposal with
          | none => exact ⟨hactive, hrole, hdomain, not_lt.mp hlimit, rfl⟩
          | some detail =>
              rw [hself] at h
              cases h
      · rw [if_pos hdomain] at h
        cases h
    · rw [if_pos hrole] at h
      cases h
  · rw [if_pos hactive] at h
    cases h

/-- A payee that has an address is somebody else, and an employee has one. -/
theorem selfApproval_none {member : MemberAuthority} {proposal : ApprovalDomainSource}
    (h : selfApproval member proposal = none) :
    (∀ payee, normalizeApprovalEmail proposal.payeeEmail = some payee →
      normalizeApprovalEmail (some member.email) ≠ some payee) ∧
    (proposal.payeeKind = .employee → normalizeApprovalEmail proposal.payeeEmail ≠ none) := by
  unfold selfApproval at h
  cases hpayee : normalizeApprovalEmail proposal.payeeEmail with
  | none =>
      rw [hpayee] at h
      refine ⟨fun payee hsome => (by cases hsome), fun hemployee => ?_⟩
      rw [if_pos hemployee] at h
      cases h
  | some payee =>
      rw [hpayee] at h
      refine ⟨fun other hother => ?_, fun _ hnone => by cases hnone⟩
      obtain rfl := Option.some.inj hother
      intro hsame
      have h : (if some payee = normalizeApprovalEmail (some member.email) then _ else none) =
        none := h
      rw [if_pos hsame.symm] at h
      cases h

/-- Several approvals are needed where the policy or the member's own threshold asks for them. -/
theorem one_lt_distinctApprovals {member : MemberAuthority} {proposal : ApprovalDomainSource}
    {required : Nat} : 1 < distinctApprovals member proposal required ↔
      1 < required ∨ aboveOwnThreshold member proposal = true := by
  unfold distinctApprovals
  split
  · rename_i habove
    simp [habove]
  · rename_i hbelow
    simp [hbelow]

/-- Where several approvals are needed, a grant goes to a member who has not signed. -/
theorem authorizeApproval_distinct {input : AuthorizeApprovalInput} {grant : ApprovalGrant}
    {member : MemberAuthority} (h : authorizeApproval input = .ok grant)
    (hmember : input.member = some member)
    (several : 1 < input.requiredDistinctApprovals ∨
      aboveOwnThreshold member input.proposal = true) :
    member.id ∉ input.existingApproverMemberIds := by
  unfold authorizeApproval at h
  rw [hmember] at h
  obtain ⟨_, _, h⟩ := bind_ok.mp h
  intro hsigned
  dsimp only at h
  rw [if_pos ⟨one_lt_distinctApprovals.mpr several, List.mem_toFinset.mpr hsigned⟩] at h
  cases h

/-- A member with a limit of a thousand. -/
def clerk : MemberAuthority :=
  { id := "usr_1", email := "clerk@example.com", role := .approver, active := true
    approvalDomains := [.ap], perItemLimitCents := 100000
    requiresSecondApproverAboveCents := none }

/-- An invoice of 999.991, which one approval settles. -/
def invoiceApproval (existing : List String) : AuthorizeApprovalInput :=
  { actorMemberId := "usr_1", member := some clerk
    proposal :=
      { domain := .ap, amountCents := decimalAmountToCents "999.991", payeeKind := .vendor
        payeeEmail := some "Vendor+ap@Example.com" }
    existingApproverMemberIds := existing, requiredDistinctApprovals := 1 }

end BrainCore.Members
