import BrainCore.Foundation.Json
import BrainCore.Foundation.Ports

/-!
# The x402 seller protocol

`services/api/src/commercial/x402-seller-protocol.ts`: a payment is verified and
settled with the facilitator, confirmed and sealed on the chain, and recorded,
before the handler runs.  An error of the handler, or of recording what it
returned, queues a refund of the payment.
-/

namespace BrainCore.Commercial

open BrainCore.Foundation

inductive X402Network where
  | baseSepolia
  | baseMainnet
deriving DecidableEq

/-- `X402_BASE_SEPOLIA_NETWORK` and `X402_BASE_MAINNET_NETWORK`. -/
def X402Network.text : X402Network → String
  | .baseSepolia => "eip155:84532"
  | .baseMainnet => "eip155:8453"

structure X402V2ExactRequirements where
  network : X402Network
  asset : String
  amount : String
  payTo : String

/-- What is thrown: an `Error`, or any other value. -/
inductive Thrown where
  | error (message : String)
  | other
deriving DecidableEq

/-- `error instanceof Error ? error.message : "handler_failed"`. -/
def Thrown.reason : Thrown → String
  | .error message => message
  | .other => "handler_failed"

structure FacilitatorRequest where
  paymentPayload : Json
  paymentRequirements : X402V2ExactRequirements

structure FacilitatorVerification where
  valid : Bool
  payer : Option String
  reason : Option String

structure FacilitatorSettlement where
  success : Bool
  payer : String
  transaction : Option String
  network : String
  errorReason : Option String

structure CoinbaseExactFacilitator where
  verify : FacilitatorRequest → Except Thrown FacilitatorVerification
  settle : FacilitatorRequest → Except Thrown FacilitatorSettlement

structure BaseSettlementFinality where
  requireRpcConfirmation : String → Except Thrown Unit
  requireSealed : String → Except Thrown Unit

structure SettledPayment where
  transactionHash : String
  payer : String

structure MatchingRefund extends SettledPayment where
  reason : String

/-- A call of a port, with its arguments. -/
inductive PortCall (T : Type) where
  | authenticate
  | reserveAllowance
  | createQuote
  | captureFacilitatorSupport
  | verify (request : FacilitatorRequest)
  | settle (request : FacilitatorRequest)
  | requireRpcConfirmation (transactionHash : String)
  | requireSealed (transactionHash : String)
  | persistSettlement (settled : SettledPayment)
  | fulfill
  | executeHandler
  | persistFulfillment (result : T)
  | queueMatchingRefund (refund : MatchingRefund)

abbrev Seller (T : Type) := Ported (PortCall T) Thrown

section Settlement

variable {T : Type} (facilitator : CoinbaseExactFacilitator) (finality : BaseSettlementFinality)
  (request : FacilitatorRequest)

/-- The network of the quote, or the facilitator's name of it. -/
def sameNetwork (requirements : X402V2ExactRequirements) (network : String) : Bool :=
  network = requirements.network.text ||
    (requirements.network = .baseSepolia && network = "base-sepolia")

def verifyPayment : Seller T Unit := do
  let verification ← .call (.verify request) (facilitator.verify request)
  if verification.valid then pure ()
  else .throw (.error ("x402 verification failed: " ++ verification.reason.getD "unknown"))

/-- A settlement that did not succeed, or names no transaction, is an error. -/
def settlePayment : Seller T (SettledPayment × String) := do
  let settlement ← .call (.settle request) (facilitator.settle request)
  match settlement.success, settlement.transaction with
  | true, some transaction => pure (⟨transaction, settlement.payer⟩, settlement.network)
  | _, _ => .throw (.error ("x402 settlement failed: " ++ settlement.errorReason.getD "unknown"))

def requireNetwork (network : String) : Seller T Unit :=
  if sameNetwork request.paymentRequirements network then pure ()
  else .throw (.error "x402 settlement network does not match the quote")

/-- The network of the settlement, and its finality. -/
def requireFinality (settled : SettledPayment) (network : String) : Seller T Unit := do
  requireNetwork request network
  .call (.requireRpcConfirmation settled.transactionHash)
    (finality.requireRpcConfirmation settled.transactionHash)
  .call (.requireSealed settled.transactionHash) (finality.requireSealed settled.transactionHash)

/-- What both ways of selling start with, from the verification on. -/
def settleWithFinality : Seller T SettledPayment := do
  verifyPayment facilitator request
  let (settled, network) ← settlePayment facilitator request
  requireFinality finality request settled network
  pure settled

def settleBeforeFulfillment (fulfill : Except Thrown T) : Seller T (T × SettledPayment) := do
  let settled ← settleWithFinality facilitator finality request
  let result ← .call .fulfill fulfill
  pure (result, settled)

end Settlement

structure UpfrontSettlementInput (T : Type) where
  authenticate : Except Thrown Unit
  reserveAllowance : Except Thrown Unit
  createQuote : Except Thrown X402V2ExactRequirements
  captureFacilitatorSupport : Except Thrown Unit
  facilitator : CoinbaseExactFacilitator
  finality : BaseSettlementFinality
  paymentPayload : Json
  persistSettlement : SettledPayment → Except Thrown Unit
  executeHandler : Except Thrown T
  persistFulfillment : T → Except Thrown Unit
  queueMatchingRefund : MatchingRefund → Except Thrown Unit

section Upfront

variable {T : Type} (input : UpfrontSettlementInput T)

def fulfillment : Seller T T := do
  let result ← .call .executeHandler input.executeHandler
  .call (.persistFulfillment result) (input.persistFulfillment result)
  pure result

/-- What the `catch` does with an error of the fulfillment. -/
def refundAndRethrow (settled : SettledPayment) (thrown : Thrown) : Seller T T := do
  let refund : MatchingRefund := { settled with reason := thrown.reason }
  .call (.queueMatchingRefund refund) (input.queueMatchingRefund refund)
  .throw thrown

def executeX402UpfrontSettlement : Seller T T := do
  .call .authenticate input.authenticate
  .call .reserveAllowance input.reserveAllowance
  let requirements ← .call .createQuote input.createQuote
  .call .captureFacilitatorSupport input.captureFacilitatorSupport
  let settled ← settleWithFinality input.facilitator input.finality
    ⟨input.paymentPayload, requirements⟩
  .call (.persistSettlement settled) (input.persistSettlement settled)
  .tryCatch (fulfillment input) (refundAndRethrow input settled)

end Upfront

end BrainCore.Commercial
