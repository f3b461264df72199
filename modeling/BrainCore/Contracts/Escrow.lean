import BrainCore.Foundation.Evm
import BrainCore.Foundation.Machine
import BrainCore.Foundation.Result
import Mathlib.Logic.Function.Basic

/-!
# The escrow

`contracts/src/BrainEscrow.sol`.  The guarded functions end in a call of the
token, and whatever the token does before it returns is part of the run: it may
call back into the contract, and tokens may arrive.  A failed call puts back the
state from before the guarded function.
-/

namespace BrainCore.Contracts

open BrainCore.Foundation

inductive EscrowError where
  | escrowExists (escrowId : Bytes32)
  | escrowNotLocked (escrowId : Bytes32)
  | zeroAddress
  | zeroAmount
  | amountExceedsRemaining (escrowId : Bytes32) (requested remaining : Uint256)
  | notAuthorized
  | notPendingArbiter
  | deadlineNotReached (deadline : Fin (2 ^ 64))
  | deadlineInPast (deadline : Fin (2 ^ 64))
  | transferFailed
  | arithmeticOverflow
deriving DecidableEq

inductive EscrowStatus where
  | none
  | locked
  | settled
deriving DecidableEq

structure Escrow where
  payer : Address := 0
  payee : Address := 0
  token : Address := 0
  amount : Uint256 := 0
  released : Uint256 := 0
  refunded : Uint256 := 0
  jobTermsHash : Bytes32 := 0
  deadline : Fin (2 ^ 64) := 0
  state : EscrowStatus := .none
deriving DecidableEq

/-- `e.amount - e.released - e.refunded`. -/
def Escrow.remaining (e : Escrow) : Option Uint256 :=
  (Uint256.sub? e.amount e.released).bind fun left => Uint256.sub? left e.refunded

/-- A part that was paid out, and the end of the escrow when nothing is left. -/
def Escrow.paid (e : Escrow) (released refunded : Uint256) : Except EscrowError Escrow := do
  let total ← checked .arithmeticOverflow (Uint256.add? released refunded)
  pure { e with released, refunded, state := if total = e.amount then .settled else e.state }

/-- The storage, and what each token's ledger holds for the contract. -/
structure BrainEscrow where
  /-- `address(this)`. -/
  self : Address
  arbiter : Address
  pendingArbiter : Address := 0
  escrows : Bytes32 → Escrow := fun _ => {}
  balance : Address → Uint256

/-- The token call a guarded function ends in. -/
inductive TokenCall where
  | transferFrom (escrowId : Bytes32) (escrow : Escrow) (balanceBefore : Uint256)
  | transfer (token recipient : Address) (amount : Uint256)

namespace BrainEscrow

/-- The constructor, at an address tokens may have been sent to. -/
def deployed (self arbiter : Address) (balance : Address → Uint256) :
    Except EscrowError BrainEscrow :=
  if arbiter = 0 then .error .zeroAddress else .ok { self, arbiter, balance }

variable (s : BrainEscrow) (context : CallContext)

def setArbiter (next : Address) : Except EscrowError BrainEscrow :=
  if context.sender ≠ s.arbiter then .error .notAuthorized else .ok { s with pendingArbiter := next }

def acceptArbiter : Except EscrowError BrainEscrow :=
  if context.sender ≠ s.pendingArbiter then .error .notPendingArbiter
  else .ok { s with arbiter := s.pendingArbiter, pendingArbiter := 0 }

/-- Up to the pull of the funds; the contract itself has no `balanceOf`. -/
def lock (escrowId : Bytes32) (payee token : Address) (amount : Uint256) (jobTermsHash : Bytes32)
    (deadline : Fin (2 ^ 64)) : Except EscrowError TokenCall :=
  if (s.escrows escrowId).state ≠ .none then .error (.escrowExists escrowId)
  else if payee = 0 ∨ token = 0 then .error .zeroAddress
  else if amount = 0 then .error .zeroAmount
  else if deadline.val ≤ context.timestamp.val then .error (.deadlineInPast deadline)
  else if token = s.self then .error .transferFailed
  else .ok (.transferFrom escrowId
    { payer := context.sender, payee, token, jobTermsHash, deadline, state := .locked }
    (s.balance token))

/-- What arrived is what is locked. -/
def locked (escrowId : Bytes32) (escrow : Escrow) (balanceBefore : Uint256) :
    Except EscrowError BrainEscrow := do
  let received ← checked .arithmeticOverflow (Uint256.sub? (s.balance escrow.token) balanceBefore)
  if received = 0 then .error .zeroAmount
  else pure { s with
    escrows := Function.update s.escrows escrowId { escrow with amount := received } }

/-- What `release` and `refund` do once the caller is authorized, up to the transfer. -/
def payOut (escrowId : Bytes32) (amount : Uint256) (toPayee : Bool) :
    Except EscrowError (BrainEscrow × TokenCall) :=
  let e := s.escrows escrowId
  if amount = 0 then .error .zeroAmount
  else do
    let remaining ← checked .arithmeticOverflow e.remaining
    if amount > remaining then .error (.amountExceedsRemaining escrowId amount remaining)
    else do
      let cumulative ← checked .arithmeticOverflow
        (Uint256.add? (if toPayee then e.released else e.refunded) amount)
      let next ← (if toPayee then e.paid cumulative e.refunded else e.paid e.released cumulative)
      pure ({ s with escrows := Function.update s.escrows escrowId next },
        .transfer e.token (if toPayee then e.payee else e.payer) amount)

def release (escrowId : Bytes32) (amount : Uint256) : Except EscrowError (BrainEscrow × TokenCall) :=
  if (s.escrows escrowId).state ≠ .locked then .error (.escrowNotLocked escrowId)
  else if context.sender ≠ (s.escrows escrowId).payer ∧ context.sender ≠ s.arbiter then
    .error .notAuthorized
  else s.payOut escrowId amount true

def refund (escrowId : Bytes32) (amount : Uint256) : Except EscrowError (BrainEscrow × TokenCall) :=
  let e := s.escrows escrowId
  let byArbiter := context.sender = s.arbiter
  let byPayerAfterDeadline := context.sender = e.payer ∧ e.deadline.val ≤ context.timestamp.val
  if e.state ≠ .locked then .error (.escrowNotLocked escrowId)
  else if ¬byArbiter ∧ ¬byPayerAfterDeadline then
    if context.sender = e.payer then .error (.deadlineNotReached e.deadline)
    else .error .notAuthorized
  else s.payOut escrowId amount false

/-- Tokens that others send, or that a pull delivers. -/
def receive (token : Address) (amount : Uint256) : Option BrainEscrow :=
  (Uint256.add? (s.balance token) amount).map fun balance =>
    { s with balance := Function.update s.balance token balance }

/-- Tokens that leave, unless the contract pays itself. -/
def send (token recipient : Address) (amount : Uint256) : Option BrainEscrow :=
  if recipient = s.self then some s
  else (Uint256.sub? (s.balance token) amount).map fun balance =>
    { s with balance := Function.update s.balance token balance }

end BrainEscrow

/-! ## Runs -/

/-- A guarded function that waits for its token call, and the state it started from. -/
structure GuardedCall where
  saved : BrainEscrow
  call : TokenCall

structure EscrowWorld where
  contract : BrainEscrow
  guarded : Option GuardedCall := none

/-- Calls of any senders, at any times, in or outside a token call. -/
inductive EscrowLabel where
  | setArbiter (context : CallContext) (next : Address)
  | acceptArbiter (context : CallContext)
  | lock (context : CallContext) (escrowId : Bytes32) (payee token : Address) (amount : Uint256)
      (jobTermsHash : Bytes32) (deadline : Fin (2 ^ 64))
  | release (context : CallContext) (escrowId : Bytes32) (amount : Uint256)
  | refund (context : CallContext) (escrowId : Bytes32) (amount : Uint256)
  /-- Tokens arrive in a transfer by somebody else. -/
  | receive (token : Address) (amount : Uint256)
  /-- The token call returns success; for a pull, this much arrived. -/
  | tokenReturns (delivered : Uint256)
  /-- The token call succeeds without a transfer. -/
  | tokenIgnores
  | tokenFails

namespace EscrowWorld

variable (w : EscrowWorld)

/-- An unguarded function. -/
def open? (result : Except EscrowError BrainEscrow) : EscrowWorld :=
  match result with
  | .ok contract => { w with contract }
  | .error _ => w

/-- A guarded function, which reverts inside another one. -/
def enter (result : Except EscrowError (BrainEscrow × TokenCall)) : EscrowWorld :=
  match w.guarded, result with
  | none, .ok (contract, call) => { contract, guarded := some ⟨w.contract, call⟩ }
  | _, _ => w

/-- The guarded function ends, or puts back what was there before it. -/
def leave (saved : BrainEscrow) (result : Except EscrowError BrainEscrow) : EscrowWorld :=
  match result with
  | .ok contract => { contract }
  | .error _ => { contract := saved }

/-- The token call returns; nothing can be delivered that the token's ledger cannot hold. -/
def returns (frame : GuardedCall) (delivered : Uint256) : Option EscrowWorld :=
  match frame.call with
  | .transferFrom escrowId escrow balanceBefore =>
      (w.contract.receive escrow.token delivered).map fun contract =>
        leave frame.saved (contract.locked escrowId escrow balanceBefore)
  | .transfer token recipient amount =>
      (w.contract.send token recipient amount).map fun contract => { contract }

/-- The call returns and no balance has changed. -/
def ignores (frame : GuardedCall) : EscrowWorld :=
  match frame.call with
  | .transferFrom escrowId escrow balanceBefore =>
      leave frame.saved (w.contract.locked escrowId escrow balanceBefore)
  | .transfer _ _ _ => { contract := w.contract }

def step : EscrowLabel → Option EscrowWorld
  | .setArbiter context next => some (w.open? (w.contract.setArbiter context next))
  | .acceptArbiter context => some (w.open? (w.contract.acceptArbiter context))
  | .lock context escrowId payee token amount jobTermsHash deadline =>
      some (w.enter ((w.contract.lock context escrowId payee token amount jobTermsHash deadline).map
        fun call => (w.contract, call)))
  | .release context escrowId amount => some (w.enter (w.contract.release context escrowId amount))
  | .refund context escrowId amount => some (w.enter (w.contract.refund context escrowId amount))
  | .receive token amount =>
      (w.contract.receive token amount).map fun contract => { w with contract }
  | .tokenReturns delivered => w.guarded.bind fun frame => w.returns frame delivered
  | .tokenIgnores => w.guarded.map fun frame => w.ignores frame
  | .tokenFails => w.guarded.map fun frame => { contract := frame.saved }

end EscrowWorld

def escrowMachine : Machine EscrowWorld EscrowLabel := ⟨EscrowWorld.step⟩

end BrainCore.Contracts
