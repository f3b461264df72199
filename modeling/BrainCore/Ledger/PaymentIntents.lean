import BrainCore.Foundation.Table
import BrainCore.Gate.Types
import BrainCore.Shared.DecimalArithmetic

/-!
# The `NUMERIC(28, 8)` columns

A column value is an integer number of `10 ^ -8` units of at most twenty-eight
digits.  The driver returns it as text with all eight fraction digits, which is
a string of the amount grammar with the same value.
-/

namespace BrainCore.Ledger

open BrainCore.Foundation BrainCore.Shared

/-- A value of a `NUMERIC(28, 8)` column. -/
structure Numeric8 where
  scaled : Int
  inRange : scaled.natAbs < 10 ^ 28
deriving DecidableEq

/-- The eight fraction digits `numeric_out` prints. -/
def fracDigits8 (n : Nat) : List Char := padStart 8 (Nat.toDigits 10 (n % 10 ^ 8))

/-- `numeric_out` at scale eight. -/
def numericText (scaled : Int) : String :=
  String.ofList ((if scaled < 0 then ['-'] else []) ++
    (Nat.toDigits 10 (scaled.natAbs / 10 ^ 8) ++ dotted (fracDigits8 scaled.natAbs)))

theorem length_fracDigits8 (n : Nat) : (fracDigits8 n).length = 8 := by
  have short : (Nat.toDigits 10 (n % 10 ^ 8)).length ≤ 8 :=
    (Nat.length_toDigits_le_iff (by decide) (by decide)).mpr (Nat.mod_lt _ (by decide))
  rw [fracDigits8, padStart, List.length_append, List.length_replicate]
  omega

theorem isDigits_fracDigits8 (n : Nat) : IsDigits (fracDigits8 n) :=
  isDigits_padStart (isDigits_toDigits _) 8

theorem natOf_fracDigits8 (n : Nat) : natOf (fracDigits8 n) = n % 10 ^ 8 := by
  rw [fracDigits8, natOf_padStart, natOf_toDigits]

theorem numericText_wellFormed (scaled : Int) : amountValueRe (numericText scaled) = true := by
  have h := DecimalString.wellFormed_of_parts (decide (scaled < 0))
    (isDigits_toDigits (scaled.natAbs / 10 ^ 8)) Nat.toDigits_ne_nil
    (isDigits_fracDigits8 scaled.natAbs) (by rw [length_fracDigits8]; decide)
  simpa [numericText] using h

/-- The text of a column value or of a sum of column values. -/
def numericString (scaled : Int) : DecimalString := ⟨numericText scaled, numericText_wellFormed scaled⟩

theorem units_numericString (scaled : Int) : (numericString scaled).units = scaled * 10 ^ 10 := by
  have nonempty : fracDigits8 scaled.natAbs ≠ [] := by
    intro h
    have := length_fracDigits8 scaled.natAbs
    rw [h] at this
    cases this
  have text : (numericString scaled).text.toList = (if decide (scaled < 0) then ['-'] else []) ++
      (Nat.toDigits 10 (scaled.natAbs / 10 ^ 8) ++ dotted (fracDigits8 scaled.natAbs)) := by
    change (numericText scaled).toList = _
    rw [numericText, String.toList_ofList]
    simp
  obtain ⟨hneg, hint, hfrac⟩ := DecimalString.of_parts text (isDigits_toDigits _) Nat.toDigits_ne_nil
  have hmagnitude : (numericString scaled).magnitude = scaled.natAbs * 10 ^ 10 := by
    rw [DecimalString.magnitude, hint, hfrac, natOf_toDigits, natOf_fracDigits8, length_fracDigits8]
    have := Nat.div_add_mod scaled.natAbs (10 ^ 8)
    omega
  rw [DecimalString.units, hmagnitude, hneg]
  unfold signed
  by_cases h : scaled < 0
  · simp only [h, decide_true, if_true]
    omega
  · simp only [h, decide_false, Bool.false_eq_true, if_false]
    omega

namespace Numeric8

/-- The text the driver returns for a column. -/
def text (n : Numeric8) : DecimalString := numericString n.scaled

theorem units_text (n : Numeric8) : n.text.units = n.scaled * 10 ^ 10 :=
  units_numericString n.scaled

/-- An unsigned decimal text cast to the column: rounded half up at the eighth fraction digit, and
`none` when it is out of range. -/
def ofText? (text : String) : Option Numeric8 :=
  let frac := (text.toList.dropWhile Char.isDigit).tail
  let up := if frac[8]?.any fun digit => '5' ≤ digit then 1 else 0
  let scaled : Int := natOf (text.toList.takeWhile Char.isDigit) * 10 ^ 8 +
    natOf (padEndSlice 8 frac) + up
  if inRange : scaled.natAbs < 10 ^ 28 then some ⟨scaled, inRange⟩ else none

/-- Column arithmetic overflows with an error. -/
def add? (a b : Numeric8) : Option Numeric8 :=
  if inRange : (a.scaled + b.scaled).natAbs < 10 ^ 28 then some ⟨a.scaled + b.scaled, inRange⟩
  else none

theorem add?_scaled {a b sum : Numeric8} (h : a.add? b = some sum) :
    sum.scaled = a.scaled + b.scaled := by
  unfold add? at h
  split at h <;> cases h
  rfl

end Numeric8

/-!
## Payment intents

The rows of `ledger_payment_intents` and the statements of
`services/ledger/src/repository/payment_intents.ts` over them, with the state
machine of `services/execution/src/payment-intents/state-machine.ts`.  The table
is the one of a single tenant.
-/

open BrainCore.Foundation BrainCore.Gate BrainCore.Policy

/-! ## The state machine -/

inductive PaymentIntentState where
  | proposed
  | pendingApproval
  | awaitingSecondApproval
  | approved
  | paused
  | dispatching
  | rejected
  | executed
  | failed
  | cancelled
deriving DecidableEq

def PaymentIntentState.text : PaymentIntentState → String
  | .proposed => "proposed"
  | .pendingApproval => "pending_approval"
  | .awaitingSecondApproval => "awaiting_second_approval"
  | .approved => "approved"
  | .paused => "paused"
  | .dispatching => "dispatching"
  | .rejected => "rejected"
  | .executed => "executed"
  | .failed => "failed"
  | .cancelled => "cancelled"

def isValidPaymentIntentTransition : PaymentIntentState → PaymentIntentState → Bool
  | .proposed, target => target ∈ [.pendingApproval, .approved, .rejected, .cancelled]
  | .pendingApproval, target => target ∈ [.awaitingSecondApproval, .approved, .rejected, .cancelled]
  | .awaitingSecondApproval, target => target ∈ [.approved, .rejected]
  | .approved, target => target ∈ [.dispatching, .rejected, .failed, .paused]
  | .dispatching, target => target ∈ [.executed, .failed]
  | .paused, target => target ∈ [.approved, .cancelled]
  | .executed, target => target = .failed
  | .rejected, _ | .failed, _ | .cancelled, _ => false

/-! ## The rows -/

structure PaymentIntentRow where
  id : String
  ownerId : String
  createdByAgentId : Option String
  actionType : ActionType
  sourceAccountId : String
  destinationCounterpartyId : String
  amount : Numeric8
  currency : String
  obligationId : Option String := none
  invoiceId : Option String := none
  status : PaymentIntentState
  policyDecisionId : Option String
  approvalIds : List String := []
  executionReceiptIds : List String := []
  evidenceIds : List String := []
  confidence : Rat := 1
  evidenceScore : Option Rat := none
  riskLevel : Option RiskLevel := none
  proposalDedupKey : Option String := none
  settlementPayTo : Option String := none
  escrowId : Option String := none
  jobTermsHash : Option String := none
  updatedAt : Instant
  /-- `CHECK (amount > 0)`. -/
  positive : 0 < amount.scaled
deriving DecidableEq

abbrev PaymentIntents := Table PaymentIntentRow.id

namespace PaymentIntents

/-- Look up by the proposal-layer dedup key. -/
def findByDedupKey (intents : PaymentIntents) (dedupKey : String) : Option PaymentIntentRow :=
  intents.rows.find? fun row => row.proposalDedupKey = some dedupKey

/-- The insert, refused by the primary key and by the unique dedup index. -/
def insert (intents : PaymentIntents) (row : PaymentIntentRow) : Option PaymentIntents :=
  if (row.proposalDedupKey.bind intents.findByDedupKey).isSome then none else intents.insert? row

/-- The row with a new status, as the conditional update writes it. -/
def withStatus (target : PaymentIntentState) (now : Instant) (row : PaymentIntentRow) :
    PaymentIntentRow :=
  { row with status := target, updatedAt := now }

/-- `UPDATE … WHERE id = $2 AND status = $3 RETURNING *`; `none` when no row matched. -/
def transitioned (intents : PaymentIntents) (id : String) (source target : PaymentIntentState)
    (now : Instant) : Option PaymentIntentRow :=
  match intents.find? id with
  | none => none
  | some row => if row.status = source then some (withStatus target now row) else none

def transition (intents : PaymentIntents) (id : String) (source target : PaymentIntentState)
    (now : Instant) : Option PaymentIntents :=
  (intents.transitioned id source target now).map intents.put

def appendApprovalId (intents : PaymentIntents) (id approvalId : String) (now : Instant) :
    PaymentIntents :=
  intents.updateWhere (fun row => row.id = id ∧ approvalId ∉ row.approvalIds)
    (fun row => { row with approvalIds := row.approvalIds ++ [approvalId], updatedAt := now })
    fun _ => rfl

/-- The row with one more execution, as `appendExecutionReceiptId` writes it. -/
def withReceiptId (executionId : String) (now : Instant) (row : PaymentIntentRow) :
    PaymentIntentRow :=
  { row with executionReceiptIds := row.executionReceiptIds ++ [executionId], updatedAt := now }

/-! ## What the statements do -/

theorem transitioned_eq_some {intents : PaymentIntents} {id : String} {moved : PaymentIntentRow}
    {source target : PaymentIntentState} {now : Instant}
    (h : intents.transitioned id source target now = some moved) :
    ∃ row, intents.find? id = some row ∧ row.status = source ∧ moved = withStatus target now row := by
  unfold transitioned at h
  cases hrow : intents.find? id with
  | none =>
      rw [hrow] at h
      cases h
  | some row =>
      rw [hrow] at h
      dsimp only at h
      split at h
      · rename_i hstatus
        exact ⟨row, rfl, hstatus, (Option.some.inj h).symm⟩
      · cases h

/-- A transition that took place found its row in the expected status and wrote the new one. -/
theorem transition_eq_some {intents next : PaymentIntents} {id : String}
    {source target : PaymentIntentState} {now : Instant}
    (h : intents.transition id source target now = some next) :
    ∃ row, intents.find? id = some row ∧ row.status = source ∧
      next = intents.put (withStatus target now row) := by
  obtain ⟨moved, hmoved, rfl⟩ := Option.map_eq_some_iff.mp h
  obtain ⟨row, hrow, hstatus, rfl⟩ := transitioned_eq_some hmoved
  exact ⟨row, hrow, hstatus, rfl⟩

theorem transition_of_find? {intents : PaymentIntents} {id : String} {row : PaymentIntentRow}
    (hrow : intents.find? id = some row) (target : PaymentIntentState) (now : Instant) :
    intents.transition id row.status target now =
      some (intents.put (withStatus target now row)) := by
  rw [transition, transitioned, hrow]
  dsimp only
  rw [if_pos rfl, Option.map_some]

end PaymentIntents

/-! ## The intent as the gate sees it -/

/-- `gateSettlement`. -/
def gateSettlement (actionType : ActionType) (currency amount : String) (payTo : Option String) :
    Option Settlement :=
  if actionType = .x402Settle then payTo.map fun payTo => ⟨currency, "base", amount, payTo⟩ else none

/-- `gateEscrow`. -/
def gateEscrow (actionType : ActionType) (escrowId jobTermsHash : Option String) : Option Escrow :=
  if actionType = .escrowRelease then
    match escrowId, jobTermsHash with
    | some escrowId, some jobTermsHash => some ⟨escrowId, jobTermsHash⟩
    | _, _ => none
  else none

def intentToGate (row : PaymentIntentRow) : GatePaymentIntent :=
  { id := row.id
    ownerId := row.ownerId
    createdByAgentId := row.createdByAgentId
    actionType := row.actionType
    sourceAccountId := row.sourceAccountId
    destinationCounterpartyId := row.destinationCounterpartyId
    amount := row.amount.text.text
    currency := row.currency
    evidenceIds := row.evidenceIds
    confidence := some row.confidence
    evidenceScore := row.evidenceScore
    riskLevel := row.riskLevel
    invoiceId := row.invoiceId
    obligationId := row.obligationId
    settlement := gateSettlement row.actionType row.currency row.amount.text.text row.settlementPayTo
    escrow := gateEscrow row.actionType row.escrowId row.jobTermsHash }

end BrainCore.Ledger
