import BrainCore.Contracts.Escrow
import BrainCore.Execution.PaymentIntentService
import BrainCore.Foundation.HexWords
import BrainCore.Gate.Soundness

/-!
# The escrow rail

A release, from the intent to the transfer: the gate compares its amount with
what the escrow holds (`services/policy/src/escrow-resolver.ts`), the hand-off
counts it in units of `10 ^ -6`, and the rail encodes the units in a call of the
escrow contract (`services/execution/src/rails/escrow-base.ts`).
-/

namespace BrainCore.Execution

open BrainCore.Contracts (BrainEscrow EscrowError TokenCall)
open BrainCore.Foundation BrainCore.Gate BrainCore.Ledger BrainCore.Shared

/-! ## What the gate reads of the chain -/

/-- What `getEscrow` returns. -/
structure EscrowRecord where
  payer : String
  payee : String
  token : String
  amount : Uint256
  released : Uint256
  refunded : Uint256
  jobTermsHash : String
  stateRaw : Nat

def zeroAddressText : String := "0x0000000000000000000000000000000000000000"

def ESCROW_STATE_MAP (stateRaw : Nat) : EscrowOnchainState :=
  match stateRaw with
  | 1 => .locked
  | 2 => .settled
  | _ => .none

def SETTLEMENT_DECIMALS : Nat := 6

def formatUnits (value : Int) (decimals : Nat) : String :=
  String.ofList ((if value < 0 then ['-'] else []) ++ fixedPoint decimals value.natAbs)

namespace EscrowRecord

/-- `amount - released - refunded`. -/
def remaining (record : EscrowRecord) : Int :=
  record.amount.val - record.released.val - record.refunded.val

def resolved (record : EscrowRecord) (settlementToken : String) : ResolvedEscrowState :=
  { state := ESCROW_STATE_MAP record.stateRaw
    payee := record.payee
    assetMatchesSettlement := record.token.toLower = settlementToken.toLower
    remaining := formatUnits record.remaining SETTLEMENT_DECIMALS
    jobTermsHash := record.jobTermsHash }

end EscrowRecord

def makeResolveEscrowState (settlementToken : String)
    (getEscrow : String → Except String EscrowRecord) (escrowId : String) :
    Except String (Option ResolvedEscrowState) := do
  let record ← getEscrow escrowId
  if record.payer = zeroAddressText then pure none else pure (some (record.resolved settlementToken))

/-! ## The rail -/

/-- `/^0x[0-9a-fA-F]{64}$/`. -/
def isBytes32 (s : String) : Bool :=
  s.toList.take 2 == ['0', 'x'] && (s.toList.drop 2).length == 64 &&
    (s.toList.drop 2).all isHexDigit

/-- `/^\d+$/`. -/
def isBaseUnits (s : String) : Bool := s.toList ≠ [] && s.toList.all Char.isDigit

def RELEASE_SELECTOR : List Char := "0x66afd8ef".toList

structure EscrowReleaseAction where
  escrowId : String
  amountUnits : String

def parseEscrowAction (action : List (String × Json)) : Except ServiceError EscrowReleaseAction :=
  match action.lookup "escrow_id" with
  | some (.str escrowId) =>
      if ¬isBytes32 escrowId then
        .error ⟨"validation_failed", "escrow_release action requires a 0x 32-byte escrow_id"⟩
      else
        match action.lookup "amount_units" with
        | some (.str amountUnits) =>
            if ¬isBaseUnits amountUnits then
              .error ⟨"validation_failed",
                "escrow_release action requires an integer amount_units in base units"⟩
            else if 2 ^ 256 - 1 < natOf amountUnits.toList then
              .error ⟨"validation_failed", "escrow_release amount_units exceeds uint256"⟩
            else .ok ⟨escrowId, amountUnits⟩
        | _ =>
            .error ⟨"validation_failed",
              "escrow_release action requires an integer amount_units in base units"⟩
  | _ => .error ⟨"validation_failed", "escrow_release action requires a 0x 32-byte escrow_id"⟩

def encodeRelease (escrowId amountUnits : String) : List Char :=
  RELEASE_SELECTOR ++ escrowId.toList.drop 2 ++ hexWord (natOf amountUnits.toList)

/-- The call data that `dispatch` passes on for an action. -/
def dispatchData (action : List (String × Json)) : Except ServiceError (List Char) := do
  let action ← parseEscrowAction action
  pure (encodeRelease action.escrowId action.amountUnits)

/-! ## The call at the contract -/

/-- The arguments of a call of `release(bytes32,uint256)`. -/
def decodeRelease (data : List Char) : Option (Bytes32 × Uint256) :=
  if data.take 10 = RELEASE_SELECTOR then do
    let escrowId ← word? ((data.drop 10).take 64)
    let amount ← word? ((data.drop 74).take 64)
    pure (escrowId, amount)
  else none

/-- The escrow contract, called with the data of a release. -/
def callRelease (contract : BrainEscrow) (context : CallContext) (data : List Char) :
    Option (Except EscrowError (BrainEscrow × TokenCall)) :=
  (decodeRelease data).map fun arguments => contract.release context arguments.1 arguments.2

/-- An action the rail accepts. -/
theorem parseEscrowAction_ok {action : List (String × Json)} {parsed : EscrowReleaseAction}
    (h : parseEscrowAction action = .ok parsed) :
    action.lookup "escrow_id" = some (.str parsed.escrowId) ∧ isBytes32 parsed.escrowId = true ∧
      action.lookup "amount_units" = some (.str parsed.amountUnits) ∧
      natOf parsed.amountUnits.toList < 2 ^ 256 := by
  unfold parseEscrowAction at h
  split at h
  · rename_i escrowId hescrow
    split at h
    · cases h
    · rename_i hbytes
      split at h
      · rename_i amountUnits hamount
        split at h
        · cases h
        · split at h
          · cases h
          · rename_i hfits
            obtain rfl := Except.ok.inj h
            exact ⟨hescrow, by simpa using hbytes, hamount, by dsimp only; omega⟩
      · cases h
  · cases h

/-- The contract reads back the number that was encoded. -/
theorem decodeRelease_encodeRelease {escrowId amountUnits : String}
    (bytes : isBytes32 escrowId = true) (fits : natOf amountUnits.toList < 2 ^ 256) :
    ∃ id, decodeRelease (encodeRelease escrowId amountUnits) =
      some (id, ⟨natOf amountUnits.toList, fits⟩) := by
  simp only [isBytes32, Bool.and_eq_true, beq_iff_eq, List.all_eq_true] at bytes
  obtain ⟨⟨_, hlength⟩, hdigits⟩ := bytes
  obtain ⟨id, hid, _⟩ := word?_eq hlength fun c hc => digitValue_lt_of_isHexDigit (hdigits c hc)
  have hselector : RELEASE_SELECTOR.length = 10 := rfl
  have hword := length_hexWord fits
  have htake : (encodeRelease escrowId amountUnits).take 10 = RELEASE_SELECTOR := by
    rw [encodeRelease, List.append_assoc, List.take_append_of_le_length hselector.ge,
      List.take_of_length_le hselector.le]
  have hfirst : ((encodeRelease escrowId amountUnits).drop 10).take 64 = escrowId.toList.drop 2 := by
    rw [encodeRelease, List.append_assoc, List.drop_left' hselector, List.take_left' hlength]
  have hsecond : ((encodeRelease escrowId amountUnits).drop 74).take 64 =
      hexWord (natOf amountUnits.toList) := by
    rw [encodeRelease, List.drop_left' (by rw [List.length_append, hselector, hlength]),
      List.take_of_length_le hword.le]
  refine ⟨id, ?_⟩
  rw [decodeRelease, if_pos htake, hfirst, hsecond, hid, word?_hexWord fits]
  rfl

/-- A release transfers the amount it is called with. -/
theorem release_transfers {contract next : BrainEscrow} {context : CallContext} {id : Bytes32}
    {amount : Uint256} {call : TokenCall}
    (h : contract.release context id amount = .ok (next, call)) :
    ∃ token payee, call = .transfer token payee amount := by
  unfold BrainEscrow.release at h
  split at h
  · cases h
  · split at h
    · cases h
    · unfold BrainEscrow.payOut at h
      split at h
      · cases h
      · obtain ⟨_, _, h⟩ := bind_ok.mp h
        split at h
        · cases h
        · obtain ⟨_, _, h⟩ := bind_ok.mp h
          obtain ⟨_, _, h⟩ := bind_ok.mp h
          have hcall := congrArg Prod.snd (pure_ok.mp h)
          exact ⟨_, _, hcall.symm⟩

end BrainCore.Execution
