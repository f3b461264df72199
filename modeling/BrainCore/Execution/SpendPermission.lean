import BrainCore.Foundation.Result
import BrainCore.Foundation.Text
import BrainCore.Foundation.UnsignedDecimal

/-!
# Spend permissions

`services/execution/src/open-ecosystem/spend-permission.ts`: what a permission
of a smart wallet authorizes, and its projections onto a window cap and onto
the shape of a session key.  Amounts are decimal texts; the validator reads
eight digits of their fractions and the projection refuses more than six.
-/

namespace BrainCore.Execution.OpenEcosystem

open BrainCore.Foundation

structure SpendPermission where
  account : String
  spender : String
  token : String
  allowance : String
  period : Rat
  start : Rat
  end_ : Rat
  salt : String

structure SpendRequest where
  token : String
  spender : String
  amount : String
  nowSeconds : Rat

structure SpendValidation where
  valid : Bool
  failures : List String

/-! ## Texts -/

/-- `0x` and this many hexadecimal digits. -/
def isHexText (length : Nat) (s : String) : Bool :=
  s.toList.take 2 == ['0', 'x'] && (s.toList.drop 2).length == length &&
    (s.toList.drop 2).all isHexDigit

/-- `/^0x[0-9a-fA-F]{40}$/`. -/
def ADDRESS (s : String) : Bool := isHexText 40 s

/-- `/^0x[0-9a-fA-F]{64}$/`. -/
def BYTES32 (s : String) : Bool := isHexText 64 s

def DECIMAL (s : String) : Bool := isUnsignedDecimal s.toList

/-- Of two texts of hexadecimal digits. -/
def addrEq (a b : String) : Bool := a.toList.map Char.toLower == b.toList.map Char.toLower

/-- The argument of `BigInt`, which is a text of digits where `DECIMAL` has been tested. -/
def unitDigits (s : String) (decimals : Nat) : List Char :=
  (if intPart s.toList = [] then ['0'] else intPart s.toList) ++
    cutFraction decimals (fracPart s.toList)

def toScaled8 (s : String) : Nat := natOf (unitDigits s 8)

def cmpDecimal (a b : String) : Int := sign3 (toScaled8 a) (toScaled8 b)

def decimalToRawUnits (s : String) (decimals : Nat) : Except String String :=
  if !DECIMAL s then .error "amount must be a positive decimal"
  else if (fracPart s.toList).length > decimals then
    .error "amount has more precision than the token supports"
  else .ok (toString (natOf (unitDigits s decimals)))

/-! ## Validation -/

/-- `if (condition) failures.push(message)`. -/
def failure (condition : Bool) (message : String) : List String :=
  if condition then [message] else []

def validateSpendPermission (p : SpendPermission) (req : SpendRequest) : SpendValidation :=
  let failures :=
    failure (!ADDRESS p.account) "account is not a 0x address" ++
    failure (!ADDRESS p.spender) "spender is not a 0x address" ++
    failure (!ADDRESS p.token) "token is not a 0x address" ++
    failure (!BYTES32 p.salt) "salt is not a bytes32 hex" ++
    failure (!DECIMAL p.allowance || cmpDecimal p.allowance "0" ≤ 0)
      "allowance must be a positive decimal" ++
    failure (!DECIMAL req.amount || cmpDecimal req.amount "0" ≤ 0)
      "amount must be a positive decimal" ++
    failure (!p.period.isInt || p.period ≤ 0) "period must be a positive integer" ++
    failure (p.end_ < p.start) "permission end is before its start" ++
    failure (ADDRESS p.token && ADDRESS req.token && !addrEq p.token req.token)
      "token does not match the expected settlement asset (USDC on Base)" ++
    failure (ADDRESS p.spender && ADDRESS req.spender && !addrEq p.spender req.spender)
      "spender does not match the expected settlement spender" ++
    failure (DECIMAL p.allowance && DECIMAL req.amount &&
      cmpDecimal req.amount p.allowance > 0) "amount exceeds the permission allowance" ++
    failure (req.nowSeconds < p.start) "permission is not yet valid" ++
    failure (req.nowSeconds > p.end_) "permission has expired"
  { valid := failures.length = 0, failures }

/-! ## Projections -/

structure MicropaymentWindowCap where
  currency : String
  value : String
  windowSeconds : Rat

def toMicropaymentWindowCap (p : SpendPermission) (currency : String := "USDC") :
    MicropaymentWindowCap :=
  { currency, value := p.allowance, windowSeconds := p.period }

structure SessionKeyShape where
  holder : String
  allowedTargets : List String
  allowedSelectors : List String
  capToken : String
  maxPerTx : String
  maxPerPeriod : String
  periodSeconds : Rat
  validAfter : Rat
  validUntil : Rat

def toSessionKeyShape (p : SpendPermission) : Except String SessionKeyShape :=
  (decimalToRawUnits p.allowance 6).map fun allowanceRawUnits =>
    { holder := p.spender
      allowedTargets := [p.token]
      allowedSelectors := ["0xa9059cbb"]
      capToken := p.token
      maxPerTx := allowanceRawUnits
      maxPerPeriod := allowanceRawUnits
      periodSeconds := p.period
      validAfter := p.start
      validUntil := p.end_ }

/-! ## Amounts -/

/-- The number that an amount denotes. -/
def valueOf (amount : String) : ℚ := decimalValue amount.toList

variable {s t : String}

/-- A text without digits before the point is read as one with a zero there. -/
theorem natOf_unitDigits (s : String) (decimals : Nat) :
    natOf (unitDigits s decimals) = wholeUnits decimals s.toList := by
  unfold unitDigits wholeUnits
  split
  · rename_i hnil
    rw [hnil, natOf_append, natOf_append]
    rfl
  · rfl

theorem toScaled8_eq (s : String) : toScaled8 s = wholeUnits 8 s.toList := natOf_unitDigits s 8

theorem toScaled8_zero : toScaled8 "0" = 0 := by decide

/-- Eight digits tell all of an amount that has no more. -/
theorem toScaled8_exact (h : DECIMAL s = true) (hwhole : IsWhole 8 s.toList) :
    (toScaled8 s : ℚ) = valueOf s * 10 ^ 8 := by
  rw [toScaled8_eq]
  exact (hwhole.eq h).symm

theorem cmpDecimal_nonpos : cmpDecimal s t ≤ 0 ↔ toScaled8 s ≤ toScaled8 t := sign3_nonpos

theorem cmpDecimal_zero_pos : 0 < cmpDecimal s "0" ↔ 0 < toScaled8 s := by
  rw [cmpDecimal, toScaled8_zero, sign3_pos]

theorem natOf_toString (n : Nat) : natOf (toString n).toList = n := by
  have htext : (toString n).toList = Nat.toDigits 10 n := by simp [toString, Nat.repr]
  rw [htext, natOf_toDigits]

theorem addrEq_self (a : String) : addrEq a a = true := beq_self_eq_true _

/-! ## What is accepted -/

theorem failure_eq_nil {condition : Bool} {message : String} :
    failure condition message = [] ↔ condition = false := by
  cases condition <;> simp [failure]

/-- What the validator asks of a permission alone. -/
structure Wellformed (p : SpendPermission) : Prop where
  account : ADDRESS p.account = true
  spender : ADDRESS p.spender = true
  token : ADDRESS p.token = true
  salt : BYTES32 p.salt = true
  allowance : DECIMAL p.allowance = true ∧ 0 < toScaled8 p.allowance
  period : p.period.isInt = true ∧ 0 < p.period
  window : p.start ≤ p.end_

/-- What it asks of the parties of a request. -/
structure SameParties (p : SpendPermission) (req : SpendRequest) : Prop where
  token : ADDRESS req.token = true → addrEq p.token req.token = true
  spender : ADDRESS req.spender = true → addrEq p.spender req.spender = true

/-- What it asks of the amount and of the time. -/
structure Authorized (p : SpendPermission) (amount : String) (now : Rat) : Prop where
  positive : DECIMAL amount = true ∧ 0 < toScaled8 amount
  allowance : toScaled8 amount ≤ toScaled8 p.allowance
  start : p.start ≤ now
  end_ : now ≤ p.end_

theorem valid_iff {p : SpendPermission} {req : SpendRequest} :
    (validateSpendPermission p req).valid = true ↔
      Wellformed p ∧ SameParties p req ∧ Authorized p req.amount req.nowSeconds := by
  have hpositive (amount : String) :
      (!DECIMAL amount || decide (cmpDecimal amount "0" ≤ 0)) = false ↔
        DECIMAL amount = true ∧ 0 < toScaled8 amount := by
    rw [Bool.or_eq_false_iff, Bool.not_eq_false', decide_eq_false_iff_not, not_le,
      cmpDecimal_zero_pos]
  simp only [validateSpendPermission, List.length_eq_zero_iff, decide_eq_true_iff,
    List.append_eq_nil_iff, failure_eq_nil, hpositive, Bool.not_eq_false', Bool.or_eq_false_iff,
    decide_eq_false_iff_not, not_le, not_lt, gt_iff_lt, Bool.and_eq_false_iff]
  constructor
  · rintro ⟨⟨⟨⟨⟨⟨⟨⟨⟨⟨⟨⟨haccount, hspender⟩, htoken⟩, hsalt⟩, hallowance⟩, hamount⟩, hperiod⟩,
      hwindow⟩, hsameToken⟩, hsameSpender⟩, hcovered⟩, hstart⟩, hend⟩
    refine ⟨⟨haccount, hspender, htoken, hsalt, hallowance, hperiod, hwindow⟩,
      ⟨fun h => ?_, fun h => ?_⟩, ⟨hamount, ?_, hstart, hend⟩⟩
    · simpa [htoken, h] using hsameToken
    · simpa [hspender, h] using hsameSpender
    · simpa [hallowance.1, hamount.1, cmpDecimal_nonpos] using hcovered
  · rintro ⟨hp, hparties, hamount⟩
    refine ⟨⟨⟨⟨⟨⟨⟨⟨⟨⟨⟨⟨hp.account, hp.spender⟩, hp.token⟩, hp.salt⟩, hp.allowance⟩,
      hamount.positive⟩, hp.period⟩, hp.window⟩, ?_⟩, ?_⟩,
      .inr (cmpDecimal_nonpos.mpr hamount.allowance)⟩, hamount.start⟩, hamount.end_⟩
    · exact (Bool.eq_false_or_eq_true (ADDRESS req.token)).elim (fun h => .inr (hparties.token h))
        fun h => .inl (.inr h)
    · exact (Bool.eq_false_or_eq_true (ADDRESS req.spender)).elim
        (fun h => .inr (hparties.spender h)) fun h => .inl (.inr h)

/-! ## What is projected -/

theorem decimalToRawUnits_ok_iff {decimals : Nat} {units : String} (h : DECIMAL s = true) :
    decimalToRawUnits s decimals = .ok units ↔
      (fracPart s.toList).length ≤ decimals ∧ units = toString (wholeUnits decimals s.toList) := by
  unfold decimalToRawUnits
  rw [h, natOf_unitDigits]
  by_cases hlong : (fracPart s.toList).length > decimals
  · simp [hlong, Nat.not_le.mpr hlong]
  · simp [hlong, Nat.not_lt.mp hlong, eq_comm]

/-- The key of a permission, and its limit. -/
theorem toSessionKeyShape_ok {p : SpendPermission} {key : SessionKeyShape}
    (hallowance : DECIMAL p.allowance = true) (h : toSessionKeyShape p = .ok key) :
    (fracPart p.allowance.toList).length ≤ 6 ∧
      natOf key.maxPerTx.toList = wholeUnits 6 p.allowance.toList ∧ key.validAfter = p.start ∧
      key.validUntil = p.end_ := by
  obtain ⟨units, hunits, rfl⟩ := map_ok.mp h
  obtain ⟨hlength, rfl⟩ := (decimalToRawUnits_ok_iff hallowance).mp hunits
  exact ⟨hlength, natOf_toString _, rfl, rfl⟩

theorem exists_sessionKeyShape {p : SpendPermission} (hallowance : DECIMAL p.allowance = true) :
    (∃ key, toSessionKeyShape p = .ok key) ↔ (fracPart p.allowance.toList).length ≤ 6 := by
  constructor
  · rintro ⟨key, hkey⟩
    exact (toSessionKeyShape_ok hallowance hkey).1
  · intro hlength
    have hunits := (decimalToRawUnits_ok_iff hallowance).mpr ⟨hlength, rfl⟩
    exact ⟨_, map_ok.mpr ⟨_, hunits, rfl⟩⟩

/-! ## Agreement -/

/-- The key lets an amount through: a positive number of raw units of six decimals, within the
limit. -/
def SessionKeyShape.Admits (key : SessionKeyShape) (amount : String) : Prop :=
  DECIMAL amount = true ∧ ∃ units : Nat, valueOf amount * 10 ^ 6 = units ∧ 0 < units ∧
    units ≤ natOf key.maxPerTx.toList

/-- With six digits the number of units of eight digits is a multiple. -/
theorem wholeUnits_eight (h : DECIMAL s = true) (hwhole : IsWhole 6 s.toList) :
    toScaled8 s = wholeUnits 6 s.toList * 100 := by
  have hsix := hwhole.eq h
  have height := toScaled8_exact h (hwhole.mono (by omega))
  have hscale : valueOf s * 10 ^ 8 = decimalValue s.toList * 10 ^ 6 * 100 := by
    rw [valueOf]
    ring
  rw [hscale, hsix] at height
  exact_mod_cast height

/-- The key admits what the validator reads as a positive number of whole raw units within the
allowance. -/
theorem admits_iff {p : SpendPermission} {key : SessionKeyShape} {amount : String}
    (hallowance : DECIMAL p.allowance = true) (h : toSessionKeyShape p = .ok key) :
    key.Admits amount ↔ DECIMAL amount = true ∧ IsWhole 6 amount.toList ∧ 0 < toScaled8 amount ∧
      toScaled8 amount ≤ toScaled8 p.allowance := by
  obtain ⟨hlength, hlimit, -⟩ := toSessionKeyShape_ok hallowance h
  have hcap := wholeUnits_eight hallowance (isWhole_of_length hlength)
  unfold SessionKeyShape.Admits
  rw [hlimit]
  refine and_congr_right fun hdecimal => ⟨?_, ?_⟩
  · rintro ⟨units, hunits, hpos, hle⟩
    have hwhole : IsWhole 6 amount.toList := ⟨units, hunits⟩
    have hsame : wholeUnits 6 amount.toList = units := by
      exact_mod_cast (hwhole.eq hdecimal).symm.trans hunits
    have hamount := wholeUnits_eight hdecimal hwhole
    exact ⟨hwhole, by omega, by omega⟩
  · rintro ⟨hwhole, hpos, hle⟩
    have hamount := wholeUnits_eight hdecimal hwhole
    exact ⟨wholeUnits 6 amount.toList, hwhole.eq hdecimal, by omega, by omega⟩

/-- The validator and the key agree about a permission and a request. -/
structure Agrees (p : SpendPermission) (req : SpendRequest) : Prop where
  value : valueOf req.amount ≤ valueOf p.allowance
  admitted : ∃ key, toSessionKeyShape p = .ok key ∧ key.Admits req.amount
  accepted : ∀ key, toSessionKeyShape p = .ok key → ∀ amount now, key.Admits amount →
    key.validAfter ≤ now → now ≤ key.validUntil →
    (validateSpendPermission p { req with amount, nowSeconds := now }).valid = true

/-- What a key admits in its window is accepted, whatever the precision of the amounts. -/
theorem accepted_of_admits {p : SpendPermission} {req : SpendRequest}
    (hvalid : (validateSpendPermission p req).valid = true) {key : SessionKeyShape}
    (hkey : toSessionKeyShape p = .ok key) (amount : String) (now : Rat)
    (hadmits : key.Admits amount) (hstart : key.validAfter ≤ now) (hend : now ≤ key.validUntil) :
    (validateSpendPermission p { req with amount, nowSeconds := now }).valid = true := by
  obtain ⟨hp, hparties, -⟩ := valid_iff.mp hvalid
  obtain ⟨-, -, hafter, huntil⟩ := toSessionKeyShape_ok hp.allowance.1 hkey
  obtain ⟨hdecimal, -, hpos, hle⟩ := (admits_iff hp.allowance.1 hkey).mp hadmits
  exact valid_iff.mpr ⟨hp, ⟨hparties.token, hparties.spender⟩,
    ⟨⟨hdecimal, hpos⟩, hle, hafter ▸ hstart, huntil ▸ hend⟩⟩

/-- The amount and the allowance are numbers of raw units of the token: neither has a fraction that
the projection refuses. -/
structure RawUnits (p : SpendPermission) (req : SpendRequest) : Prop where
  allowance : (fracPart p.allowance.toList).length ≤ 6
  amount : IsWhole 6 req.amount.toList

/-- The projections of a permission agree with the validator exactly on what is a whole number of raw
units. -/
theorem spend_permission_agrees_iff (p : SpendPermission) (req : SpendRequest) :
    ((validateSpendPermission p req).valid = true → Agrees p req) ↔
      ((validateSpendPermission p req).valid = true → RawUnits p req) := by
  refine imp_congr_right fun hvalid => ?_
  obtain ⟨hp, hparties, hamount⟩ := valid_iff.mp hvalid
  constructor
  · rintro ⟨-, ⟨key, hkey, hadmits⟩, -⟩
    exact ⟨(toSessionKeyShape_ok hp.allowance.1 hkey).1,
      ((admits_iff hp.allowance.1 hkey).mp hadmits).2.1⟩
  · rintro ⟨hlength, hwhole⟩
    obtain ⟨key, hkey⟩ := (exists_sessionKeyShape hp.allowance.1).mpr hlength
    refine ⟨?_, ⟨key, hkey, (admits_iff hp.allowance.1 hkey).mpr
      ⟨hamount.positive.1, hwhole, hamount.positive.2, hamount.allowance⟩⟩,
      fun _ => accepted_of_admits hvalid⟩
    have hspent := toScaled8_exact hamount.positive.1 (hwhole.mono (by omega))
    have hallowed := toScaled8_exact hp.allowance.1 (isWhole_of_length (hlength.trans (by omega)))
    have hle : (toScaled8 req.amount : ℚ) ≤ toScaled8 p.allowance := by
      exact_mod_cast hamount.allowance
    rw [hspent, hallowed] at hle
    exact le_of_mul_le_mul_right hle (by norm_num)

def walletAddress : String := "0xefefefefefefefefefefefefefefefefefefefef"

def payeeAddress : String := "0xcdcdcdcdcdcdcdcdcdcdcdcdcdcdcdcdcdcdcdcd"

def usdcAddress : String := "0xabababababababababababababababababababab"

def someSalt : String := "0x1212121212121212121212121212121212121212121212121212121212121212"

/-- A permission over some dollars. -/
def permissionOver (allowance : String) : SpendPermission where
  account := walletAddress
  spender := payeeAddress
  token := usdcAddress
  allowance := allowance
  period := 86400
  start := 1000
  end_ := 2000000
  salt := someSalt

def requestOf (amount : String) : SpendRequest where
  token := usdcAddress
  spender := payeeAddress
  amount := amount
  nowSeconds := 50000

theorem requestOf_accepted {allowance amount : String}
    (hallowance : DECIMAL allowance = true ∧ 0 < toScaled8 allowance)
    (hamount : DECIMAL amount = true ∧ 0 < toScaled8 amount)
    (hle : toScaled8 amount ≤ toScaled8 allowance) :
    (validateSpendPermission (permissionOver allowance) (requestOf amount)).valid = true := by
  have haccount : ADDRESS walletAddress = true := by decide
  have hspender : ADDRESS payeeAddress = true := by decide
  have htoken : ADDRESS usdcAddress = true := by decide
  have hsalt : BYTES32 someSalt = true := by decide
  refine valid_iff.mpr ⟨⟨haccount, hspender, htoken, hsalt, hallowance, ⟨rfl, ?_⟩, ?_⟩,
    ⟨fun _ => addrEq_self _, fun _ => addrEq_self _⟩, hamount, hle, ?_, ?_⟩
  · norm_num [permissionOver]
  · norm_num [permissionOver]
  · norm_num [permissionOver, requestOf]
  · norm_num [permissionOver, requestOf]

/-- An amount over the allowance is accepted, and a permission that no key stands for. -/
theorem ninth_digit_accepted :
    (validateSpendPermission (permissionOver "1") (requestOf "1.000000009")).valid = true ∧
      valueOf "1" < valueOf "1.000000009" ∧
      (validateSpendPermission (permissionOver "1.0000001") (requestOf "1")).valid = true ∧
      toSessionKeyShape (permissionOver "1.0000001") =
        .error "amount has more precision than the token supports" := by
  have hone : valueOf "1" = 1 := by
    have hint : natOf (intPart "1".toList) = 1 := by decide
    have hfrac : fracPart "1".toList = [] := by decide
    rw [valueOf, decimalValue, hint, hfrac]
    norm_num
  have hover : valueOf "1.000000009" = 1 + 9 / 10 ^ 9 := by
    have hint : natOf (intPart "1.000000009".toList) = 1 := by decide
    have hfrac : natOf (fracPart "1.000000009".toList) = 9 ∧
        (fracPart "1.000000009".toList).length = 9 := by decide
    rw [valueOf, decimalValue, hint, hfrac.1, hfrac.2]
    norm_num
  refine ⟨requestOf_accepted (by decide) (by decide) (by decide), ?_,
    requestOf_accepted (by decide) (by decide) (by decide), rfl⟩
  rw [hone, hover]
  norm_num

end BrainCore.Execution.OpenEcosystem
