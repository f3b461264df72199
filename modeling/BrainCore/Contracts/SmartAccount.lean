import BrainCore.Foundation.Evm
import BrainCore.Foundation.Machine
import BrainCore.Foundation.Result
import Mathlib.Logic.Function.Basic

/-!
# The smart account

`contracts/src/BrainSmartAccount.sol`: an owner grants session keys, and a
holder executes calls within the scope and the caps of its key.
-/

namespace BrainCore.Contracts

open BrainCore.Foundation

abbrev Selector := Fin (2 ^ 32)

abbrev Calldata := List (Fin 256)

inductive CapMode where
  | native
  | erc20
  | call
deriving DecidableEq

structure SessionKey where
  holder : Address := 0
  validAfter : Uint256 := 0
  validUntil : Uint256 := 0
  allowedTargets : List Address := []
  allowedSelectors : List Selector := []
  capMode : CapMode := .native
  capToken : Address := 0
  allowedRecipients : List Address := []
  capAmountOffset : Uint256 := 0
  pinOffset : Uint256 := 0
  pinValue : Bytes32 := 0
  maxPerTx : Uint256 := 0
  maxPerPeriod : Uint256 := 0
  periodSeconds : Uint256 := 0
  policyVersion : Bytes32 := 0
deriving DecidableEq

inductive AccountError where
  | notOwner
  | notPendingOwner
  | notHolder
  | keyPaused
  | keyNotActive
  | keyExpired
  | zeroAddress
  | targetNotAllowed (target : Address)
  | selectorNotAllowed (selector : Selector)
  | exceedsPerTxCap
  | exceedsPerPeriodCap
  | policyVersionMismatch
  | callFailed
  | targetsRequired
  | selectorsRequired
  | reentrantCall
  | badNonce (expected supplied : Uint256)
  | accountIsPaused
  | capTokenAllowlistMismatch
  | nonDecodableSelectorInErc20Mode (selector : Selector)
  | valueNotAllowedInErc20Mode
  | targetMustEqualCapTokenInErc20Mode
  | approveNotPermittedInErc20Mode
  | erc20SelectorNotPermittedInCallMode (selector : Selector)
  | capTokenNotAllowedInThisMode
  | recipientsRequired
  | recipientsNotAllowedInThisMode
  | recipientNotAllowed (recipient : Address)
  | selectorsNotAllowedInNativeMode
  | calldataNotAllowedInNativeMode
  | valueNotAllowedInCallMode
  | capAmountOffsetNotAllowedInThisMode
  | invalidCapAmountOffset (offset : Uint256)
  | callModeRequiresOneSelector
  | pinNotAllowedInThisMode
  | invalidPinOffset (offset : Uint256)
  | pinnedArgumentMismatch (expected actual : Bytes32)
  | malformedErc20Calldata (length : ℕ)
  | calldataTooShortForCapOffset (length required : ℕ)
  | allowlistTooLarge (maxAllowed : ℕ)
  | invalidValidityWindow (validAfter validUntil : Uint256)
  | policyVersionNotRegistered (policyVersion : Bytes32)
  | arithmeticOverflow
deriving DecidableEq

/-! ## Calldata -/

/-- The number the bytes spell, most significant first. -/
def bytesToNat (bytes : Calldata) : ℕ := bytes.foldl (fun n byte => n * 256 + byte.val) 0

/-- `bytes32(data[offset:offset + 32])`. -/
def wordAt (data : Calldata) (offset : ℕ) : Bytes32 :=
  Fin.ofNat (2 ^ 256) (bytesToNat ((data.drop offset).take 32))

/-- `address(uint160(uint256(word)))`. -/
def addressOf (word : Bytes32) : Address := Fin.ofNat (2 ^ 160) word.val

/-- `data.length >= 4 ? bytes4(data[:4]) : bytes4(0)`. -/
def selectorOf (data : Calldata) : Selector :=
  if 4 ≤ data.length then Fin.ofNat (2 ^ 32) (bytesToNat (data.take 4)) else 0

def SELECTOR_TRANSFER : Selector := 0xa9059cbb

def SELECTOR_APPROVE : Selector := 0x095ea7b3

def SELECTOR_TRANSFER_FROM : Selector := 0x23b872dd

def SELECTOR_INCREASE_ALLOWANCE : Selector := 0x39509351

def MAX_ALLOWLIST : ℕ := 32

/-! ## Which keys can be granted -/

namespace SessionKey

def validateNative (key : SessionKey) : Except AccountError Unit :=
  if key.allowedSelectors.length ≠ 0 then .error .selectorsNotAllowedInNativeMode
  else if key.allowedRecipients.length ≠ 0 then .error .recipientsNotAllowedInThisMode
  else if key.capToken ≠ 0 then .error .capTokenNotAllowedInThisMode
  else if key.capAmountOffset ≠ 0 then .error .capAmountOffsetNotAllowedInThisMode
  else if key.pinOffset ≠ 0 ∨ key.pinValue ≠ 0 then .error .pinNotAllowedInThisMode
  else .ok ()

/-- The first selector that moves no tokens of the holder's. -/
def validateErc20Selectors : List Selector → Except AccountError Unit
  | [] => .ok ()
  | selector :: rest =>
      if selector = SELECTOR_APPROVE then .error .approveNotPermittedInErc20Mode
      else if selector ≠ SELECTOR_TRANSFER ∧ selector ≠ SELECTOR_TRANSFER_FROM then
        .error (.nonDecodableSelectorInErc20Mode selector)
      else validateErc20Selectors rest

def validateErc20 (key : SessionKey) : Except AccountError Unit :=
  if key.capToken = 0 then .error .zeroAddress
  else if key.allowedTargets ≠ [key.capToken] then .error .capTokenAllowlistMismatch
  else if key.allowedSelectors.length = 0 then .error .selectorsRequired
  else if key.allowedRecipients.length = 0 then .error .recipientsRequired
  else if key.capAmountOffset ≠ 0 then .error .capAmountOffsetNotAllowedInThisMode
  else if key.pinOffset ≠ 0 ∨ key.pinValue ≠ 0 then .error .pinNotAllowedInThisMode
  else do
    validateErc20Selectors key.allowedSelectors
    if key.allowedRecipients.contains 0 then .error .zeroAddress else .ok ()

/-- A word after the selector. -/
def isArgumentOffset (offset : Uint256) : Bool := 4 ≤ offset.val && (offset.val - 4) % 32 = 0

def validateCall (key : SessionKey) : Except AccountError Unit :=
  match key.allowedSelectors with
  | [] => .error .selectorsRequired
  | [selector] =>
      if key.allowedRecipients.length ≠ 0 then .error .recipientsNotAllowedInThisMode
      else if key.capToken ≠ 0 then .error .capTokenNotAllowedInThisMode
      else if selector ∈ [SELECTOR_APPROVE, SELECTOR_INCREASE_ALLOWANCE, SELECTOR_TRANSFER,
          SELECTOR_TRANSFER_FROM] then
        .error (.erc20SelectorNotPermittedInCallMode selector)
      else if !isArgumentOffset key.capAmountOffset then
        .error (.invalidCapAmountOffset key.capAmountOffset)
      else if key.pinOffset ≠ 0 then
        if !isArgumentOffset key.pinOffset ∨ key.pinOffset = key.capAmountOffset then
          .error (.invalidPinOffset key.pinOffset)
        else .ok ()
      else if key.pinValue ≠ 0 then .error (.invalidPinOffset 0)
      else .ok ()
  | _ => .error .callModeRequiresOneSelector

/-- The checks of `grantSessionKey`; `registered` is `isRegisteredHash` for the account's tenant. -/
def validate (key : SessionKey) (timestamp : Uint256) (registered : Bytes32 → Bool) :
    Except AccountError Unit :=
  if key.holder = 0 then .error .zeroAddress
  else if key.validUntil ≤ timestamp then .error .keyExpired
  else if key.validAfter = 0 ∨ key.validUntil ≤ key.validAfter then
    .error (.invalidValidityWindow key.validAfter key.validUntil)
  else if key.allowedTargets.length = 0 then .error .targetsRequired
  else if key.policyVersion = 0 then .error .policyVersionMismatch
  else if MAX_ALLOWLIST < key.allowedTargets.length ∨ MAX_ALLOWLIST < key.allowedSelectors.length ∨
      MAX_ALLOWLIST < key.allowedRecipients.length then .error (.allowlistTooLarge MAX_ALLOWLIST)
  else if !registered key.policyVersion then
    .error (.policyVersionNotRegistered key.policyVersion)
  else
    match key.capMode with
    | .native => key.validateNative
    | .erc20 => key.validateErc20
    | .call => key.validateCall

/-! ## The capped amount -/

/-- Where a token transfer names its recipient and its amount. -/
def decodeTransfer (data : Calldata) : Except AccountError (Address × Uint256) :=
  if selectorOf data = SELECTOR_TRANSFER then
    if data.length ≠ 68 then .error (.malformedErc20Calldata data.length)
    else .ok (addressOf (wordAt data 4), wordAt data 36)
  else if data.length ≠ 100 then .error (.malformedErc20Calldata data.length)
  else .ok (addressOf (wordAt data 36), wordAt data 68)

/-- The word at an offset, for data that is long enough. -/
def wordWithin (data : Calldata) (offset : Uint256) : Except AccountError Bytes32 := do
  let required ← checked .arithmeticOverflow (Uint256.add? offset 32)
  if data.length < required.val then .error (.calldataTooShortForCapOffset data.length required.val)
  else pure (wordAt data offset.val)

def requirePin (key : SessionKey) (data : Calldata) : Except AccountError Unit :=
  if key.pinOffset = 0 then .ok ()
  else do
    let actual ← wordWithin data key.pinOffset
    if actual ≠ key.pinValue then .error (.pinnedArgumentMismatch key.pinValue actual) else .ok ()

/-- `_capAmount`: the amount the caps of a key apply to. -/
def capAmount (key : SessionKey) (target : Address) (value : Uint256) (data : Calldata) :
    Except AccountError Uint256 :=
  match key.capMode with
  | .native => if data.length ≠ 0 then .error .calldataNotAllowedInNativeMode else .ok value
  | .erc20 =>
      if value ≠ 0 then .error .valueNotAllowedInErc20Mode
      else if target ≠ key.capToken then .error .targetMustEqualCapTokenInErc20Mode
      else do
        let (recipient, amount) ← decodeTransfer data
        if !key.allowedRecipients.contains recipient then .error (.recipientNotAllowed recipient)
        else pure amount
  | .call =>
      if value ≠ 0 then .error .valueNotAllowedInCallMode
      else do
        key.requirePin data
        wordWithin data key.capAmountOffset

end SessionKey

/-! ## The account -/

structure BrainSmartAccount where
  self : Address
  owner : Address
  pendingOwner : Address := 0
  keys : Address → SessionKey := fun _ => {}
  windowSpent : Address → Uint256 → Uint256 := fun _ _ => 0
  windowAnchor : Address → Uint256 := fun _ => 0
  paused : Address → Bool := fun _ => false
  nonces : Address → Uint256 := fun _ => 0
  locked : Address → Bool := fun _ => false
  allPaused : Bool := false
  balance : Uint256 := 0

/-- A call that passed every check: under which key, and what the caps were charged. -/
structure Execution where
  holder : Address
  target : Address
  value : Uint256
  data : Calldata
  key : SessionKey
  timestamp : Uint256
  amount : Uint256
  window : Option Uint256

/-- `anchor + (elapsed - (elapsed % period))`. -/
def windowStart (anchor period timestamp : Uint256) : Option Uint256 :=
  (Uint256.sub? timestamp anchor).bind fun elapsed =>
    Uint256.add? anchor ⟨elapsed.val - elapsed.val % period.val,
      Nat.lt_of_le_of_lt (Nat.sub_le _ _) elapsed.isLt⟩

/-- The functions of the owner, and the acceptance of an ownership. -/
inductive OwnerCall where
  | transferOwnership (next : Address)
  | acceptOwnership
  | grantSessionKey (key : SessionKey) (registered : Bytes32 → Bool)
  | revokeSessionKey (holder : Address)
  | pauseSessionKey (holder : Address)
  | unpauseSessionKey (holder : Address)
  | pauseAll
  | unpauseAll

namespace BrainSmartAccount

variable (s : BrainSmartAccount) (context : CallContext)

/-- The modifier of every function of the owner. -/
def onlyOwner (result : Except AccountError BrainSmartAccount) :
    Except AccountError BrainSmartAccount :=
  if context.sender ≠ s.owner then .error .notOwner else result

def transferOwnership (next : Address) : Except AccountError BrainSmartAccount :=
  s.onlyOwner context (.ok { s with pendingOwner := next })

def acceptOwnership : Except AccountError BrainSmartAccount :=
  if context.sender ≠ s.pendingOwner then .error .notPendingOwner
  else .ok { s with owner := s.pendingOwner, pendingOwner := 0 }

/-- The first grant of a holder fixes its anchor. -/
def anchorAt (holder : Address) (timestamp : Uint256) : Address → Uint256 :=
  if s.windowAnchor holder = 0 then Function.update s.windowAnchor holder timestamp
  else s.windowAnchor

def grantSessionKey (key : SessionKey) (registered : Bytes32 → Bool) :
    Except AccountError BrainSmartAccount :=
  s.onlyOwner context do
    key.validate context.timestamp registered
    pure { s with
      windowAnchor := s.anchorAt key.holder context.timestamp
      keys := Function.update s.keys key.holder key }

def revokeSessionKey (holder : Address) : Except AccountError BrainSmartAccount :=
  s.onlyOwner context (.ok { s with
    keys := Function.update s.keys holder {}
    paused := Function.update s.paused holder false })

def pauseSessionKey (holder : Address) : Except AccountError BrainSmartAccount :=
  s.onlyOwner context (.ok { s with paused := Function.update s.paused holder true })

def unpauseSessionKey (holder : Address) : Except AccountError BrainSmartAccount :=
  s.onlyOwner context (.ok { s with paused := Function.update s.paused holder false })

def pauseAll : Except AccountError BrainSmartAccount :=
  s.onlyOwner context (.ok { s with allPaused := true })

def unpauseAll : Except AccountError BrainSmartAccount :=
  s.onlyOwner context (.ok { s with allPaused := false })

def manage : OwnerCall → Except AccountError BrainSmartAccount
  | .transferOwnership next => s.transferOwnership context next
  | .acceptOwnership => s.acceptOwnership context
  | .grantSessionKey key registered => s.grantSessionKey context key registered
  | .revokeSessionKey holder => s.revokeSessionKey context holder
  | .pauseSessionKey holder => s.pauseSessionKey context holder
  | .unpauseSessionKey holder => s.unpauseSessionKey context holder
  | .pauseAll => s.pauseAll context
  | .unpauseAll => s.unpauseAll context

/-! ## Executing through a session key -/

/-- The key of the sender, if it is in force. -/
def activeKey : Except AccountError SessionKey :=
  let key := s.keys context.sender
  if s.allPaused then .error .accountIsPaused
  else if s.locked context.sender then .error .reentrantCall
  else if key.holder ≠ context.sender then .error .notHolder
  else if s.paused context.sender then .error .keyPaused
  else if context.timestamp < key.validAfter ∨ key.validUntil ≤ context.timestamp then
    .error .keyNotActive
  else .ok key

/-- The nonce is used up, and the holder cannot come back before the call ends. -/
def useNonce (nonceSupplied : Uint256) : Except AccountError BrainSmartAccount :=
  if nonceSupplied ≠ s.nonces context.sender then
    .error (.badNonce (s.nonces context.sender) nonceSupplied)
  else do
    let next ← checked .arithmeticOverflow (Uint256.add? (s.nonces context.sender) 1)
    pure { s with
      nonces := Function.update s.nonces context.sender next
      locked := Function.update s.locked context.sender true }

/-- The window charged, if the key has a period. -/
def meter (holder : Address) (key : SessionKey) (timestamp amount : Uint256) :
    Except AccountError (BrainSmartAccount × Option Uint256) :=
  if key.periodSeconds = 0 then .ok (s, none)
  else do
    let window ← checked .arithmeticOverflow
      (windowStart (s.windowAnchor holder) key.periodSeconds timestamp)
    let spent ← checked .arithmeticOverflow (Uint256.add? (s.windowSpent holder window) amount)
    if key.maxPerPeriod < spent then .error .exceedsPerPeriodCap
    else pure ({ s with
      windowSpent := Function.update s.windowSpent holder
        (Function.update (s.windowSpent holder) window spent) }, some window)

/-- Ether leaves with the call, unless the account calls itself. -/
def pay (target : Address) (value : Uint256) : Except AccountError BrainSmartAccount :=
  if s.balance < value then .error .callFailed
  else if target = s.self then .ok s
  else do
    let balance ← checked .callFailed (Uint256.sub? s.balance value)
    pure { s with balance }

/-- `executeViaSessionKey`, up to the moment the target runs. -/
def executeViaSessionKey (nonceSupplied : Uint256) (target : Address) (value : Uint256)
    (data : Calldata) : Except AccountError (BrainSmartAccount × Execution) := do
  let key ← s.activeKey context
  let s ← s.useNonce context nonceSupplied
  if !key.allowedTargets.contains target then .error (.targetNotAllowed target)
  else if key.allowedSelectors.length ≠ 0 ∧ !key.allowedSelectors.contains (selectorOf data) then
    .error (.selectorNotAllowed (selectorOf data))
  else do
    let amount ← key.capAmount target value data
    if key.maxPerTx < amount then .error .exceedsPerTxCap
    else do
      let (s, window) ← s.meter context.sender key context.timestamp amount
      let s ← s.pay target value
      pure (s, { holder := context.sender, target, value, data, key,
                 timestamp := context.timestamp, amount, window })

def unlock (holder : Address) : BrainSmartAccount :=
  { s with locked := Function.update s.locked holder false }

/-- `receive() external payable {}`. -/
def receive (amount : Uint256) : Option BrainSmartAccount :=
  (Uint256.add? s.balance amount).map fun balance => { s with balance }

end BrainSmartAccount

/-! ## Runs -/

/-- The account with its history: the executions that have not been undone, newest first, and the
ether that came in. -/
structure AccountHistory where
  account : BrainSmartAccount
  executions : List Execution := []
  received : ℕ := 0

/-- An execution that waits for its target, and what its failure puts back. -/
structure ExecutionFrame where
  holder : Address
  saved : AccountHistory

structure AccountWorld where
  current : AccountHistory
  frames : List ExecutionFrame := []
  clock : Uint256 := 0

/-- Calls of any senders, outside or inside the targets that run. -/
inductive AccountLabel where
  | manage (context : CallContext) (call : OwnerCall)
  | execute (context : CallContext) (nonceSupplied : Uint256) (target : Address) (value : Uint256)
      (data : Calldata)
  | receive (amount : Uint256)
  /-- The innermost target returns or fails. -/
  | targetReturns (success : Bool)

namespace AccountWorld

variable (w : AccountWorld)

/-- Block times never decrease. -/
def at? (context : CallContext) (next : AccountWorld) : Option AccountWorld :=
  if w.clock ≤ context.timestamp then some { next with clock := context.timestamp } else none

/-- A function of the owner, which reverts or has its effect. -/
def managed (result : Except AccountError BrainSmartAccount) : AccountWorld :=
  match result with
  | .ok account => { w with current := { w.current with account } }
  | .error _ => w

/-- The checks of an execution revert, or its target starts to run. -/
def executed (result : Except AccountError (BrainSmartAccount × Execution)) : AccountWorld :=
  match result with
  | .ok (account, execution) =>
      { w with
        current := { w.current with account, executions := execution :: w.current.executions }
        frames := ⟨execution.holder, w.current⟩ :: w.frames }
  | .error _ => w

def targetReturns (success : Bool) : Option AccountWorld :=
  match w.frames with
  | [] => none
  | frame :: frames =>
      if success then some { w with
        current := { w.current with account := w.current.account.unlock frame.holder }, frames }
      else some { w with current := frame.saved, frames }

def step : AccountLabel → Option AccountWorld
  | .manage context call => w.at? context (w.managed (w.current.account.manage context call))
  | .execute context nonceSupplied target value data =>
      w.at? context (w.executed
        (w.current.account.executeViaSessionKey context nonceSupplied target value data))
  | .receive amount =>
      (w.current.account.receive amount).map fun account =>
        { w with current := { w.current with
            account, received := w.current.received + amount.val } }
  | .targetReturns success => w.targetReturns success

end AccountWorld

def accountMachine : Machine AccountWorld AccountLabel := ⟨AccountWorld.step⟩

end BrainCore.Contracts
