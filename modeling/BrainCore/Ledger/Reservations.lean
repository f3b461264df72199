import BrainCore.Foundation.Result
import BrainCore.Foundation.Table
import BrainCore.Ledger.PaymentIntents
import BrainCore.Policy.Cron

/-!
# The arithmetic of reservations

`toScaled8`, `cmpDecimal` and `addDecimalString` of
`services/ledger/src/repository/reservations.ts`.  They cut a text to eight
fraction digits and refuse a minus sign; on the text of a `NUMERIC(28, 8)`
column they are exact.
-/

namespace BrainCore.Ledger.ReservationDecimal

open BrainCore.Foundation BrainCore.Shared

def toScaled8 (s : String) : Except String Int :=
  let trimmed := trim s.toList
  if trimmed.head? = some '-' then .error "reservation decimal must be non-negative"
  else
    -- `const [intPart = "0", fracPart = ""] = trimmed.split(".")`
    let intPart := trimmed.takeWhile (· ≠ '.')
    let fracPart := ((trimmed.dropWhile (· ≠ '.')).tail).takeWhile (· ≠ '.')
    bigInt (stripLeading intPart ++ padEndSlice 8 fracPart)

def cmpDecimal (a b : String) : Except String Int := do
  let sa ← toScaled8 a
  let sb ← toScaled8 b
  pure (sign3 sa sb)

def addDecimalString (a b : String) : Except String String := do
  let sa ← toScaled8 a
  let sb ← toScaled8 b
  pure (String.ofList (fixedPointText 8 (intText (sa + sb))))

/-! ## On plain decimal texts -/

/-- A text of digits, with at most eight of them after the point, is read exactly. -/
theorem toScaled8_digits {text : String} {int frac : List Char}
    (htext : text.toList = int ++ dotted frac) (digits : IsDigits int) (nonempty : int ≠ [])
    (fracDigits : IsDigits frac) (short : frac.length ≤ 8) :
    toScaled8 text = .ok (natOf int * 10 ^ 8 + natOf frac * 10 ^ (8 - frac.length) : Nat) := by
  have clean : ∀ c ∈ int ++ dotted frac, isJsSpace c = false := by
    intro c hc
    rcases List.mem_append.mp hc with hint | hdot
    · exact digit_not_space (digits c hint)
    · unfold dotted at hdot
      split at hdot
      · cases hdot
      · rcases List.mem_cons.mp hdot with rfl | hfrac
        · decide
        · exact digit_not_space (fracDigits c hfrac)
  obtain ⟨hint, hfrac⟩ := DecimalString.split_dot digits fracDigits
  have hscaled : IsDigits (stripLeading int ++ padEndSlice 8 frac) :=
    isDigits_append.mpr ⟨isDigits_stripLeading digits, isDigits_padEndSlice fracDigits 8⟩
  have hne : stripLeading int ++ padEndSlice 8 frac ≠ [] := by
    apply List.append_ne_nil_of_left_ne_nil
    exact (stripped_stripLeading int).ne_nil
  unfold toScaled8
  rw [htext, trim_of_not_space clean]
  dsimp only
  rw [if_neg (unsigned_head digits nonempty), hint, hfrac, bigInt, bigInt?_digits hscaled hne,
    natOf_append, natOf_stripLeading, natOf_padEndSlice short, length_padEndSlice]

/-- The column text of a value that is not negative is read exactly. -/
theorem toScaled8_numericText (n : Nat) : toScaled8 (numericText n) = .ok (n : Int) := by
  have htext : (numericText n).toList =
      Nat.toDigits 10 (n / 10 ^ 8) ++ dotted (fracDigits8 n) := by
    rw [numericText, String.toList_ofList, if_neg (by omega), List.nil_append, Int.natAbs_natCast]
  rw [toScaled8_digits htext (isDigits_toDigits _) Nat.toDigits_ne_nil (isDigits_fracDigits8 n)
    (by rw [length_fracDigits8]), natOf_toDigits, natOf_fracDigits8, length_fracDigits8]
  have := Nat.div_add_mod n (10 ^ 8)
  congr 2
  omega

/-- A negative column value is refused. -/
theorem toScaled8_negative {scaled : Int} (h : scaled < 0) :
    toScaled8 (numericText scaled) = .error "reservation decimal must be non-negative" := by
  have hhead : (numericText scaled).toList.head? = some '-' := by
    rw [numericText, String.toList_ofList, if_pos h]
    rfl
  have htrim : trim (numericText scaled).toList = (numericText scaled).toList :=
    (numericString scaled).trim_text
  unfold toScaled8
  rw [htrim]
  exact if_pos hhead

theorem toScaled8_zero : toScaled8 "0" = .ok 0 := by rfl

/-- A column value is read exactly, when it is read. -/
theorem of_toScaled8 {scaled value : Int} (h : toScaled8 (numericText scaled) = .ok value) :
    value = scaled ∧ 0 ≤ scaled := by
  rcases lt_or_ge scaled 0 with hneg | hpos
  · rw [toScaled8_negative hneg] at h
    cases h
  · obtain ⟨n, rfl⟩ := Int.eq_ofNat_of_zero_le hpos
    exact ⟨(Except.ok.inj ((toScaled8_numericText n).symm.trans h)).symm, hpos⟩

/-- The text of a sum is read back as the sum. -/
theorem toScaled8_sum (n : Nat) :
    toScaled8 (String.ofList (fixedPointText 8 (intText (n : Int)))) = .ok (n : Int) := by
  obtain ⟨int, frac, htext, hparts⟩ := fixedPoint_parts 8 n
  have hint : intText (n : Int) = Nat.toDigits 10 n := by
    rw [intText, if_neg (by omega), List.nil_append, Int.natAbs_natCast]
  rw [hint, ← fixedPoint, toScaled8_digits (String.toList_ofList.trans htext) hparts.intDigits hparts.intNonempty
    hparts.fracDigits hparts.fracShort, hparts.units]

end BrainCore.Ledger.ReservationDecimal

/-!
## Reservations

`services/ledger/src/repository/reservations.ts`: an active reservation holds a
slice of an account's available balance from the hand-off of a payment until it
is consumed, released or expired.  The hand-off runs in one transaction that
locks the account row, so it is one step here.
-/

namespace BrainCore.Ledger

open BrainCore.Foundation BrainCore.Policy

structure AccountRow where
  id : String
  status : String
  currency : String
  availableBalance : Option Numeric8
deriving DecidableEq

abbrev Accounts := Table AccountRow.id

structure BalanceRow where
  accountId : String
  asOf : Instant
  currency : String
  availableBalance : Option Numeric8
deriving DecidableEq

/-- `UNIQUE (account_id, as_of)`. -/
def BalanceRow.key (row : BalanceRow) : String × Instant := (row.accountId, row.asOf)

abbrev Balances := Table BalanceRow.key

inductive ReservationStatus where
  | active
  | consumed
  | released
  | expired
deriving DecidableEq

structure ReservationRow where
  id : String
  ownerId : String
  accountId : String
  amount : Numeric8
  currency : String
  paymentIntentId : String
  policyDecisionId : String
  reservingAgentId : String
  reservedUntil : Instant
  status : ReservationStatus := .active
  /-- `CHECK (amount > 0)`. -/
  positive : 0 < amount.scaled

abbrev Reservations := Table ReservationRow.id

/-! ## Balances -/

/-- `ORDER BY as_of DESC LIMIT 1`. -/
def latestBalance (balances : Balances) (accountId : String) : Option BalanceRow :=
  (balances.rows.filter (·.accountId = accountId)).foldl
    (fun latest row =>
      match latest with
      | none => some row
      | some best => if best.asOf < row.asOf then some row else some best) none

/-- The currency and the available balance a hand-off is checked against. -/
def snapshot (account : AccountRow) (latest : Option BalanceRow) : String × Option Numeric8 :=
  match latest with
  | none => (account.currency, account.availableBalance)
  | some balance => (balance.currency, balance.availableBalance.orElse fun _ => account.availableBalance)

namespace Reservations

/-- The active amounts against an account, in units of `10 ^ -8`. -/
def activeTotal (reservations : Reservations) (accountId : String) : Int :=
  reservations.total fun row =>
    if row.accountId = accountId ∧ row.status = .active then row.amount.scaled else 0

/-- `COALESCE(SUM(amount), 0)::text`. -/
def sumActiveReservations (reservations : Reservations) (accountId : String) : String :=
  if reservations.rows.any fun row => row.accountId = accountId ∧ row.status = .active then
    numericText (reservations.activeTotal accountId)
  else "0"

/-- The row of `UPDATE … SET status = $1 WHERE id = $2 AND status = 'active'`. -/
def transitioned (reservations : Reservations) (id : String) (target : ReservationStatus) :
    Option ReservationRow :=
  match reservations.find? id with
  | none => none
  | some row => if row.status = .active then some { row with status := target } else none

def transition (reservations : Reservations) (id : String) (target : ReservationStatus) :
    Reservations :=
  reservations.updateWhere (fun row => row.id = id ∧ row.status = .active)
    (fun row => { row with status := target }) fun _ => rfl

def consume (reservations : Reservations) (id : String) : Reservations :=
  reservations.transition id .consumed

def release (reservations : Reservations) (id : String) : Reservations :=
  reservations.transition id .released

def expireDueReservations (reservations : Reservations) (now : Instant) : Reservations :=
  reservations.updateWhere (fun row => row.status = .active ∧ row.reservedUntil ≤ now)
    (fun row => { row with status := .expired }) fun _ => rfl

end Reservations

/-! ## The hand-off -/

structure ReserveRefusal where
  reason : String
  availableBalance : Option String := none
  reserved : Option String := none
  required : Option String := none
deriving DecidableEq

/-- A result, or the text of what was thrown. -/
def reserveIfAvailable (accounts : Accounts) (balances : Balances) (reservations : Reservations)
    (input : ReservationRow) : Except String (Except ReserveRefusal Reservations) :=
  match accounts.find? input.accountId with
  | none => .ok (.error { reason := "account_not_found" })
  | some account =>
      if account.status ≠ "active" then .ok (.error { reason := "account_inactive" })
      else
        let (accountCurrency, availableBalance) :=
          snapshot account (latestBalance balances input.accountId)
        if accountCurrency ≠ input.currency then .ok (.error { reason := "currency_mismatch" })
        else
          match availableBalance with
          | none => .ok (.error { reason := "available_balance_missing" })
          | some available => do
              let reserved := reservations.sumActiveReservations input.accountId
              let required ← ReservationDecimal.addDecimalString input.amount.text.text reserved
              let order ← ReservationDecimal.cmpDecimal available.text.text required
              if order < 0 then
                pure (.error { reason := "insufficient_balance"
                               availableBalance := some available.text.text
                               reserved := some reserved
                               required := some required })
              else
                match reservations.insert? input with
                | none => throw "duplicate key value violates unique constraint"
                | some next => pure (.ok next)

/-! ## What the statements do -/

namespace Reservations

theorem find?_transition (reservations : Reservations) (id other : String)
    (target : ReservationStatus) :
    (reservations.transition id target).find? other =
      (reservations.find? other).map fun row =>
        if row.id = id ∧ row.status = .active then { row with status := target } else row := by
  rw [transition, Table.find?_updateWhere]
  simp only [decide_eq_true_eq]

/-- The update writes one row, or none. -/
theorem transition_eq (reservations : Reservations) (id : String) (target : ReservationStatus) :
    reservations.transition id target =
      ((reservations.transitioned id target).map reservations.put).getD reservations := by
  unfold transition transitioned
  cases hrow : reservations.find? id with
  | none =>
      refine Table.updateWhere_of_none fun row hrow' => ?_
      have hne : row.id ≠ id := by
        rintro rfl
        rw [Table.find?_key hrow'] at hrow
        cases hrow
      simp [hne]
  | some row =>
      obtain ⟨hmem, hid⟩ := Table.find?_eq_some_iff.mp hrow
      have honly : ∀ other ∈ reservations.rows, other.id = id → other = row := fun other hother h =>
        List.inj_on_of_nodup_map reservations.nodup hother hmem (h.trans hid.symm)
      dsimp only
      by_cases hactive : row.status = .active
      · rw [if_pos hactive, Option.map_some, Option.getD_some,
          @Table.put_eq_update _ _ _ _ _ _ _ (fun row => { row with status := target })
            (fun _ => rfl) hrow]
        refine Table.updateWhere_congr fun other hother => ?_
        by_cases h : other.id = id
        · simp [honly other hother h, hid, hactive]
        · simp [h]
      · rw [if_neg hactive]
        refine Table.updateWhere_of_none fun other hother => ?_
        by_cases h : other.id = id
        · simp [honly other hother h, hactive]
        · simp [h]

/-- The total that is printed is read back, and it is not negative. -/
theorem sumActiveReservations_read (reservations : Reservations) (accountId : String) {value : Int}
    (h : ReservationDecimal.toScaled8 (reservations.sumActiveReservations accountId) = .ok value) :
    value = reservations.activeTotal accountId ∧ 0 ≤ reservations.activeTotal accountId := by
  unfold sumActiveReservations at h
  split at h
  · exact ReservationDecimal.of_toScaled8 h
  · rename_i hnone
    have hzero : reservations.activeTotal accountId = 0 := by
      have hrows : ∀ row ∈ reservations.rows,
          (if row.accountId = accountId ∧ row.status = .active then row.amount.scaled else 0) =
            (0 : Int) := by
        intro row hrow
        rw [if_neg fun hactive => hnone (List.any_eq_true.mpr ⟨row, hrow, by simpa using hactive⟩)]
      rw [activeTotal, Table.total_congr hrows, Table.total]
      simp
    rw [ReservationDecimal.toScaled8_zero] at h
    rw [hzero]
    exact ⟨(Except.ok.inj h).symm, le_refl 0⟩

end Reservations

end BrainCore.Ledger
