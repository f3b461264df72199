import BrainCore.Ledger.Reservations
import Mathlib.Algebra.Order.BigOperators.Group.List

/-!
# When a reservation is decided

`reserveIfAvailable` answers on every account and balance but for one kind: it
reads the available balance with the parser of amounts, which refuses a minus
sign, so an overdrawn balance throws where it should be found insufficient.
-/

namespace BrainCore.Ledger

open BrainCore.Foundation BrainCore.Shared

variable {accounts : Accounts} {balances : Balances} {reservations : Reservations}
  {input : ReservationRow} {account : AccountRow} {available : Numeric8}

namespace Reservations

theorem activeTotal_nonneg (reservations : Reservations) (accountId : String) :
    0 ≤ reservations.activeTotal accountId := by
  refine List.sum_nonneg fun weight hweight => ?_
  obtain ⟨row, -, rfl⟩ := List.mem_map.mp hweight
  split
  · exact row.positive.le
  · exact le_refl 0

/-- The total that is printed is read back. -/
theorem toScaled8_sumActiveReservations (reservations : Reservations) (accountId : String) :
    ReservationDecimal.toScaled8 (reservations.sumActiveReservations accountId) =
      .ok (reservations.activeTotal accountId) := by
  obtain ⟨total, htotal⟩ := Int.eq_ofNat_of_zero_le (reservations.activeTotal_nonneg accountId)
  cases hread : ReservationDecimal.toScaled8 (reservations.sumActiveReservations accountId) with
  | ok value => rw [(reservations.sumActiveReservations_read accountId hread).1]
  | error message =>
      unfold sumActiveReservations at hread
      split at hread
      · rw [htotal, ReservationDecimal.toScaled8_numericText] at hread
        cases hread
      · rw [ReservationDecimal.toScaled8_zero] at hread
        cases hread

end Reservations

/-- The text of what a reservation needs, with the active ones. -/
def requiredText (reservations : Reservations) (input : ReservationRow) : String :=
  String.ofList (fixedPointText 8
    (intText (input.amount.scaled + reservations.activeTotal input.accountId)))

theorem addDecimalString_required (reservations : Reservations) (input : ReservationRow) :
    ReservationDecimal.addDecimalString input.amount.text.text
      (reservations.sumActiveReservations input.accountId) =
        .ok (requiredText reservations input) := by
  obtain ⟨amount, hamount⟩ := Int.eq_ofNat_of_zero_le input.positive.le
  have hread : ReservationDecimal.toScaled8 input.amount.text.text = .ok input.amount.scaled := by
    change ReservationDecimal.toScaled8 (numericText input.amount.scaled) = _
    rw [hamount, ReservationDecimal.toScaled8_numericText]
  rw [ReservationDecimal.addDecimalString, hread, reservations.toScaled8_sumActiveReservations]
  rfl

theorem toScaled8_required (reservations : Reservations) (input : ReservationRow) :
    ReservationDecimal.toScaled8 (requiredText reservations input) =
      .ok (input.amount.scaled + reservations.activeTotal input.accountId) := by
  obtain ⟨required, hrequired⟩ := Int.eq_ofNat_of_zero_le
    (add_nonneg input.positive.le (reservations.activeTotal_nonneg input.accountId))
  rw [requiredText, hrequired, ReservationDecimal.toScaled8_sum]

/-- A balance that is not overdrawn is compared exactly. -/
theorem cmpDecimal_required (reservations : Reservations) (input : ReservationRow)
    (h : 0 ≤ available.scaled) :
    ReservationDecimal.cmpDecimal available.text.text (requiredText reservations input) =
      .ok (sign3 available.scaled
        (input.amount.scaled + reservations.activeTotal input.accountId)) := by
  obtain ⟨scaled, hscaled⟩ := Int.eq_ofNat_of_zero_le h
  have hread : ReservationDecimal.toScaled8 available.text.text = .ok available.scaled := by
    change ReservationDecimal.toScaled8 (numericText available.scaled) = _
    rw [hscaled, ReservationDecimal.toScaled8_numericText]
  rw [ReservationDecimal.cmpDecimal, hread, toScaled8_required]
  rfl

theorem cmpDecimal_overdrawn (h : available.scaled < 0) (required : String) :
    ReservationDecimal.cmpDecimal available.text.text required =
      .error "reservation decimal must be non-negative" := by
  have hread := ReservationDecimal.toScaled8_negative h
  change ReservationDecimal.toScaled8 available.text.text = _ at hread
  rw [ReservationDecimal.cmpDecimal, hread]
  rfl

/-! ## The decision -/

/-- The account is active, and the balance in the currency of the payment is there. -/
structure Balanced (accounts : Accounts) (balances : Balances) (input : ReservationRow)
    (available : Numeric8) : Prop where
  active : ∃ account, accounts.find? input.accountId = some account ∧ account.status = "active" ∧
    snapshot account (latestBalance balances input.accountId) = (input.currency, some available)

/-- The balance covers the amount with the active reservations. -/
def Covered (accounts : Accounts) (balances : Balances) (reservations : Reservations)
    (input : ReservationRow) : Prop :=
  ∃ available, Balanced accounts balances input available ∧
    input.amount.scaled + reservations.activeTotal input.accountId ≤ available.scaled

/-- One reservation is inserted when the balance covers it, and in every other case the answer is a
refusal, with nothing inserted. -/
structure Decides (accounts : Accounts) (balances : Balances) (reservations : Reservations)
    (input : ReservationRow) : Prop where
  granted : Covered accounts balances reservations input → ∃ next,
    reserveIfAvailable accounts balances reservations input = .ok (.ok next) ∧
      next.rows = reservations.rows ++ [input] ∧ input.status = .active
  refused : ¬Covered accounts balances reservations input → ∃ refusal,
    reserveIfAvailable accounts balances reservations input = .ok (.error refusal)

theorem Balanced.unique {other : Numeric8} (h : Balanced accounts balances input available)
    (hother : Balanced accounts balances input other) : other = available := by
  obtain ⟨account, haccount, -, hsnapshot⟩ := h.active
  obtain ⟨account', haccount', -, hsnapshot'⟩ := hother.active
  cases haccount.symm.trans haccount'
  rw [hsnapshot] at hsnapshot'
  exact (Option.some.inj (Prod.mk.inj hsnapshot').2).symm

/-- What is left to do once the balance is known. -/
theorem reserveIfAvailable_balanced (h : Balanced accounts balances input available) :
    reserveIfAvailable accounts balances reservations input =
      (do
        let order ← ReservationDecimal.cmpDecimal available.text.text
          (requiredText reservations input)
        if order < 0 then
          pure (.error { reason := "insufficient_balance"
                         availableBalance := some available.text.text
                         reserved := some (reservations.sumActiveReservations input.accountId)
                         required := some (requiredText reservations input) })
        else
          match reservations.insert? input with
          | none => throw "duplicate key value violates unique constraint"
          | some next => pure (.ok next)) := by
  obtain ⟨account, haccount, hactive, hsnapshot⟩ := h.active
  unfold reserveIfAvailable
  rw [haccount]
  dsimp only
  rw [if_neg (not_not.mpr hactive), hsnapshot]
  dsimp only
  rw [if_neg (not_not.mpr rfl), addDecimalString_required]
  rfl

/-- Without a balance the answer is a refusal. -/
theorem reserveIfAvailable_unbalanced
    (h : ¬∃ available, Balanced accounts balances input available) : ∃ refusal,
      reserveIfAvailable accounts balances reservations input = .ok (.error refusal) := by
  unfold reserveIfAvailable
  cases haccount : accounts.find? input.accountId with
  | none => exact ⟨_, rfl⟩
  | some account =>
      dsimp only
      split
      · exact ⟨_, rfl⟩
      · rename_i hactive
        cases hsnapshot : snapshot account (latestBalance balances input.accountId) with
        | mk currency balance =>
            dsimp only
            split
            · exact ⟨_, rfl⟩
            · rename_i hcurrency
              cases balance with
              | none => exact ⟨_, rfl⟩
              | some available =>
                  rw [not_not] at hactive hcurrency
                  exact absurd ⟨available, ⟨account, haccount, hactive, hcurrency ▸ hsnapshot⟩⟩ h

theorem decides_of_nonneg (hfresh : reservations.find? input.id = none)
    (hactive : input.status = .active) (h : Balanced accounts balances input available) (hpositive : 0 ≤ available.scaled) :
    Decides accounts balances reservations input where
  granted hcovered := by
    obtain ⟨balance, hbalance, hcovers⟩ := hcovered
    obtain rfl := h.unique hbalance
    have horder : ¬sign3 balance.scaled
        (input.amount.scaled + reservations.activeTotal input.accountId) < 0 := by
      rw [sign3_neg]
      exact not_lt.mpr hcovers
    obtain ⟨next, hnext⟩ := Table.exists_insert hfresh
    refine ⟨next, ?_, Table.insert?_rows hnext, hactive⟩
    rw [reserveIfAvailable_balanced h, cmpDecimal_required _ _ hpositive]
    change (if _ then _ else _) = _
    rw [if_neg horder, hnext]
    rfl
  refused huncovered := by
    have horder : sign3 available.scaled
        (input.amount.scaled + reservations.activeTotal input.accountId) < 0 := by
      rw [sign3_neg]
      by_contra hcovers
      exact huncovered ⟨available, h, not_lt.mp hcovers⟩
    rw [reserveIfAvailable_balanced h, cmpDecimal_required _ _ hpositive]
    exact ⟨_, if_pos horder⟩

/-- With a reservation id that is not in use, the decision is total and exact unless the balance it
comes to read is overdrawn. -/
theorem decides_iff (hfresh : reservations.find? input.id = none)
    (hactive : input.status = .active) :
    Decides accounts balances reservations input ↔
      ∀ available, Balanced accounts balances input available → 0 ≤ available.scaled := by
  constructor
  · intro h available hbalanced
    by_contra hnegative
    have hthrown : reserveIfAvailable accounts balances reservations input = _ :=
      reserveIfAvailable_balanced hbalanced
    rw [cmpDecimal_overdrawn (not_le.mp hnegative)] at hthrown
    have huncovered : ¬Covered accounts balances reservations input := by
      rintro ⟨other, hother, hcovers⟩
      obtain rfl := hbalanced.unique hother
      have := input.positive
      have := reservations.activeTotal_nonneg input.accountId
      omega
    obtain ⟨refusal, hrefusal⟩ := h.refused huncovered
    cases hthrown.symm.trans hrefusal
  · intro h
    by_cases hbalanced : ∃ available, Balanced accounts balances input available
    · obtain ⟨available, hbalanced⟩ := hbalanced
      exact decides_of_nonneg hfresh hactive hbalanced (h available hbalanced)
    · refine ⟨fun hcovered => ?_, fun _ => reserveIfAvailable_unbalanced hbalanced⟩
      obtain ⟨available, hcovered, -⟩ := hcovered
      exact absurd ⟨available, hcovered⟩ hbalanced

namespace CurrentAccount

/-- A row of `ledger_accounts` with an available balance in euro cents. -/
def holding (cents : Int) (inRange : (cents * 1000000).natAbs < 10 ^ 28) : AccountRow :=
  { id := "acct_1", status := "active", currency := "EUR",
    availableBalance := some ⟨cents * 1000000, inRange⟩ }

def holdings (cents : Int) (inRange : (cents * 1000000).natAbs < 10 ^ 28) : Accounts :=
  ⟨[holding cents inRange], List.nodup_singleton _⟩

/-- Five euros. -/
def hold : ReservationRow where
  id := "rsv_1"
  ownerId := "tnt_1"
  accountId := "acct_1"
  amount := ⟨500000000, by decide⟩
  currency := "EUR"
  paymentIntentId := "pi_1"
  policyDecisionId := "pd_1"
  reservingAgentId := "agent_1"
  reservedUntil := 0
  positive := by decide

theorem balanced_holding {cents : Int} {inRange : (cents * 1000000).natAbs < 10 ^ 28} :
    Balanced (holdings cents inRange) .empty hold ⟨cents * 1000000, inRange⟩ :=
  ⟨⟨holding cents inRange, rfl, rfl, rfl⟩⟩

theorem seven_euros_decide :
    (∀ available, Balanced (holdings 700 (by decide)) .empty hold available → 0 ≤ available.scaled) ∧
      Decides (holdings 700 (by decide)) .empty .empty hold := by
  have hnonneg : ∀ available, Balanced (holdings 700 (by decide)) .empty hold available →
      0 ≤ available.scaled := by
    intro available h
    rw [balanced_holding.unique h]
    decide
  exact ⟨hnonneg, (decides_iff rfl rfl).mpr hnonneg⟩

/-- The account is overdrawn by one euro. -/
theorem overdrawn_throws :
    reserveIfAvailable (holdings (-100) (by decide)) .empty .empty hold =
        .error "reservation decimal must be non-negative" ∧
      ¬Decides (holdings (-100) (by decide)) .empty .empty hold := by
  have hthrown : reserveIfAvailable (holdings (-100) (by decide)) .empty .empty hold =
      .error "reservation decimal must be non-negative" := by
    rw [reserveIfAvailable_balanced balanced_holding, cmpDecimal_overdrawn (by decide)]
    rfl
  refine ⟨hthrown, fun h => ?_⟩
  by_cases hcovered : Covered (holdings (-100) (by decide)) .empty .empty hold
  · obtain ⟨next, hnext, -⟩ := h.granted hcovered
    cases hthrown.symm.trans hnext
  · obtain ⟨refusal, hrefusal⟩ := h.refused hcovered
    cases hthrown.symm.trans hrefusal

end CurrentAccount

end BrainCore.Ledger
