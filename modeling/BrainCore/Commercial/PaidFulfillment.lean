import BrainCore.Commercial.X402Seller
import Mathlib.Logic.Basic

/-!
# Paid is fulfilled or refunded

What has happened to a payment when the seller ends: up to the record of the
settlement an error ends the call with neither handler nor refund, and from
there on exactly one of the two outcomes is reached.
-/

namespace BrainCore.Commercial

open BrainCore.Foundation

variable {T : Type}

/-! ## The settlement -/

section Settlement

variable {facilitator : CoinbaseExactFacilitator} {finality : BaseSettlementFinality}
  {request : FacilitatorRequest} {settled : SettledPayment} {network : String}

/-- The facilitator reports success, with a transaction. -/
structure Settles (facilitator : CoinbaseExactFacilitator) (request : FacilitatorRequest)
    (settled : SettledPayment) (network : String) : Prop where
  answered : ∃ errorReason, facilitator.settle request =
    .ok ⟨true, settled.payer, some settled.transactionHash, network, errorReason⟩

/-- The settlement is on the network of the quote and final. -/
structure Final (finality : BaseSettlementFinality) (request : FacilitatorRequest)
    (settled : SettledPayment) (network : String) : Prop where
  network : sameNetwork request.paymentRequirements network = true
  confirmed : finality.requireRpcConfirmation settled.transactionHash = .ok ()
  sealed : finality.requireSealed settled.transactionHash = .ok ()

theorem settlePayment_ok_iff :
    (settlePayment facilitator request : Seller T _).result = .ok (settled, network) ↔
      Settles facilitator request settled network := by
  constructor
  · intro h
    obtain ⟨⟨success, payer, transaction, net, errorReason⟩, hanswer, h⟩ :=
      Ported.result_bind_ok.mp h
    cases success <;> cases transaction <;> cases h
    exact ⟨errorReason, hanswer⟩
  · rintro ⟨errorReason, hanswer⟩
    exact Ported.result_bind_ok.mpr ⟨_, hanswer, rfl⟩

theorem requireNetwork_ok_iff :
    (requireNetwork request network : Seller T Unit).result = .ok () ↔
      sameNetwork request.paymentRequirements network = true := by
  unfold requireNetwork
  split <;> simp [*]

theorem requireFinality_ok_iff :
    (requireFinality finality request settled network : Seller T Unit).result = .ok () ↔
      Final finality request settled network := by
  constructor
  · intro h
    simp only [requireFinality, Ported.result_bind_ok, Ported.result_call] at h
    obtain ⟨⟨⟩, hnetwork, ⟨⟩, hconfirmed, hsealed⟩ := h
    exact ⟨requireNetwork_ok_iff.mp hnetwork, hconfirmed, hsealed⟩
  · intro h
    simp only [requireFinality, Ported.result_bind_ok, Ported.result_call]
    exact ⟨(), requireNetwork_ok_iff.mpr h.network, (), h.confirmed, h.sealed⟩

theorem settleWithFinality_ok_iff :
    (settleWithFinality facilitator finality request : Seller T _).result = .ok settled ↔
      (verifyPayment facilitator request : Seller T Unit).result = .ok () ∧
        ∃ network, Settles facilitator request settled network ∧
          Final finality request settled network := by
  constructor
  · intro h
    simp only [settleWithFinality, Ported.result_bind_ok, Ported.result_pure] at h
    obtain ⟨⟨⟩, hverify, ⟨settled', network⟩, hsettle, ⟨⟩, hfinal, hsame⟩ := h
    cases hsame
    exact ⟨hverify, network, settlePayment_ok_iff.mp hsettle, requireFinality_ok_iff.mp hfinal⟩
  · rintro ⟨hverify, network, hsettles, hfinal⟩
    simp only [settleWithFinality, Ported.result_bind_ok, Ported.result_pure]
    exact ⟨(), hverify, (settled, network), settlePayment_ok_iff.mpr hsettles, (),
      requireFinality_ok_iff.mpr hfinal, rfl⟩

@[simp]
theorem calls_verifyPayment :
    (verifyPayment facilitator request : Seller T Unit).calls = [.verify request] := by
  refine Ported.calls_bind_of_quiet fun verification => ?_
  split <;> rfl

@[simp]
theorem calls_settlePayment :
    (settlePayment facilitator request : Seller T _).calls = [.settle request] := by
  refine Ported.calls_bind_of_quiet fun settlement => ?_
  split <;> rfl

@[simp]
theorem calls_requireNetwork : (requireNetwork request network : Seller T Unit).calls = [] := by
  unfold requireNetwork
  split <;> rfl

/-- A call of the settlement is one of the facilitator or of the chain. -/
theorem mem_calls_settleWithFinality {made : PortCall T}
    (h : made ∈ (settleWithFinality facilitator finality request : Seller T _).calls) :
    made = .verify request ∨ made = .settle request ∨
      (∃ transactionHash, made = .requireRpcConfirmation transactionHash) ∨
      ∃ transactionHash, made = .requireSealed transactionHash := by
  simp only [settleWithFinality, requireFinality, Ported.mem_calls_bind, calls_verifyPayment,
    calls_settlePayment, calls_requireNetwork, Ported.calls_call, Ported.calls_pure,
    List.mem_singleton, List.not_mem_nil, false_or, and_false, exists_false, or_false] at h
  rcases h with rfl | ⟨_, _, rfl | ⟨settled, _, _, _, rfl | ⟨_, _, rfl⟩⟩⟩
  · exact .inl rfl
  · exact .inr (.inl rfl)
  · exact .inr (.inr (.inl ⟨_, rfl⟩))
  · exact .inr (.inr (.inr ⟨_, rfl⟩))

/-- The facilitator is asked to settle what it has verified. -/
theorem settle_mem_settleWithFinality {asked : FacilitatorRequest} :
    .settle asked ∈ (settleWithFinality facilitator finality request : Seller T _).calls ↔
      (verifyPayment facilitator request : Seller T Unit).result = .ok () ∧ asked = request := by
  constructor
  · intro h
    simp only [settleWithFinality, requireFinality, Ported.mem_calls_bind, calls_verifyPayment,
      calls_settlePayment, calls_requireNetwork, Ported.calls_call, Ported.calls_pure,
      List.mem_singleton, List.not_mem_nil, false_or, and_false, exists_false, or_false,
      reduceCtorEq, PortCall.settle.injEq] at h
    obtain ⟨⟨⟩, hverify, rfl⟩ := h
    exact ⟨hverify, rfl⟩
  · rintro ⟨hverify, rfl⟩
    simp only [settleWithFinality, Ported.mem_calls_bind, calls_settlePayment, List.mem_singleton]
    exact .inr ⟨(), hverify, .inl trivial⟩

/-- Fulfillment is called exactly for a verified payment that is settled and final. -/
theorem fulfill_mem_iff {fulfill : Except Thrown T} :
    .fulfill ∈ (settleBeforeFulfillment facilitator finality request fulfill).calls ↔
      (verifyPayment facilitator request : Seller T Unit).result = .ok () ∧
        ∃ settled network, Settles facilitator request settled network ∧
          Final finality request settled network := by
  have hearlier : .fulfill ∉ (settleWithFinality facilitator finality request : Seller T _).calls := by
    intro hmem
    rcases mem_calls_settleWithFinality hmem with h | h | ⟨_, h⟩ | ⟨_, h⟩ <;> cases h
  simp only [settleBeforeFulfillment, Ported.mem_calls_bind, hearlier, Ported.calls_call,
    Ported.calls_pure, List.mem_singleton, List.not_mem_nil, and_false, exists_false, or_false,
    false_or, and_true, settleWithFinality_ok_iff]
  exact exists_and_left

end Settlement

/-! ## The run -/

variable {input : UpfrontSettlementInput T} {requirements : X402V2ExactRequirements}
  {settled : SettledPayment}

/-- The payment has come to the settlement, for a quote. -/
structure Quoted (input : UpfrontSettlementInput T) (requirements : X402V2ExactRequirements) :
    Prop where
  authenticated : input.authenticate = .ok ()
  reserved : input.reserveAllowance = .ok ()
  quoted : input.createQuote = .ok requirements
  supported : input.captureFacilitatorSupport = .ok ()
  verified : (verifyPayment input.facilitator ⟨input.paymentPayload, requirements⟩ :
    Seller T Unit).result = .ok ()

/-- The settlement of the payment is recorded. -/
def Recorded (input : UpfrontSettlementInput T) (settled : SettledPayment) : Prop :=
  ∃ requirements network, Quoted input requirements ∧
    Settles input.facilitator ⟨input.paymentPayload, requirements⟩ settled network ∧
    Final input.finality ⟨input.paymentPayload, requirements⟩ settled network ∧
    input.persistSettlement settled = .ok ()

/-- The outcome of a recorded payment. -/
def outcome (input : UpfrontSettlementInput T) (settled : SettledPayment) : Seller T T :=
  .tryCatch (fulfillment input) (refundAndRethrow input settled)

/-- The steps up to the record of the settlement, one after the other. -/
theorem recorded_iff {holds : SettledPayment → Prop} :
    (∃ value, input.authenticate = .ok value ∧ ∃ value, input.reserveAllowance = .ok value ∧
      ∃ requirements, input.createQuote = .ok requirements ∧
      ∃ value, input.captureFacilitatorSupport = .ok value ∧
      ∃ settled, (settleWithFinality input.facilitator input.finality
        ⟨input.paymentPayload, requirements⟩ : Seller T _).result = .ok settled ∧
      ∃ value, input.persistSettlement settled = .ok value ∧ holds settled) ↔
      ∃ settled, Recorded input settled ∧ holds settled := by
  constructor
  · rintro ⟨⟨⟩, hauthenticated, ⟨⟩, hreserved, requirements, hquoted, ⟨⟩, hsupported, settled,
      hsettled, ⟨⟩, hrecorded, hholds⟩
    obtain ⟨hverified, network, hsettles, hfinal⟩ := settleWithFinality_ok_iff.mp hsettled
    exact ⟨settled, ⟨requirements, network,
      ⟨hauthenticated, hreserved, hquoted, hsupported, hverified⟩, hsettles, hfinal, hrecorded⟩,
      hholds⟩
  · rintro ⟨settled, ⟨requirements, network, hquote, hsettles, hfinal, hrecorded⟩, hholds⟩
    exact ⟨(), hquote.authenticated, (), hquote.reserved, requirements, hquote.quoted, (),
      hquote.supported, settled,
      settleWithFinality_ok_iff.mpr ⟨hquote.verified, network, hsettles, hfinal⟩, (), hrecorded,
      hholds⟩

theorem result_ok_iff {result : T} :
    (executeX402UpfrontSettlement input).result = .ok result ↔
      ∃ settled, Recorded input settled ∧ (outcome input settled).result = .ok result := by
  simp only [executeX402UpfrontSettlement, Ported.result_bind_ok, Ported.result_call]
  exact recorded_iff

/-- What only the outcome of a recorded payment calls. -/
def Late : PortCall T → Prop
  | .executeHandler | .persistFulfillment _ | .queueMatchingRefund _ => True
  | _ => False

theorem late_mem_iff {made : PortCall T} (hlate : Late made) :
    made ∈ (executeX402UpfrontSettlement input).calls ↔
      ∃ settled, Recorded input settled ∧ made ∈ (outcome input settled).calls := by
  have hearly : ∀ {requirements}, made ∉ (settleWithFinality input.facilitator input.finality
      ⟨input.paymentPayload, requirements⟩ : Seller T _).calls := by
    intro requirements hmem
    rcases mem_calls_settleWithFinality hmem with rfl | rfl | ⟨_, rfl⟩ | ⟨_, rfl⟩ <;> exact hlate
  have hsingle : ∀ other : PortCall T, ¬Late other → made ∉ [other] := by
    intro other hother hmem
    rw [List.mem_singleton] at hmem
    exact hother (hmem ▸ hlate)
  simp only [executeX402UpfrontSettlement, Ported.mem_calls_bind, Ported.result_call,
    Ported.calls_call, hearly, hsingle .authenticate id, hsingle .reserveAllowance id,
    hsingle .createQuote id, hsingle .captureFacilitatorSupport id,
    hsingle (.persistSettlement _) id, false_or]
  exact recorded_iff

/-- The facilitator is asked once, with what was quoted. -/
theorem settle_mem_iff {request : FacilitatorRequest} :
    .settle request ∈ (executeX402UpfrontSettlement input).calls ↔
      ∃ requirements, Quoted input requirements ∧ request = ⟨input.paymentPayload, requirements⟩ := by
  have hlater : ∀ settled, .settle request ∉ (outcome input settled).calls := by
    simp [outcome, fulfillment, refundAndRethrow]
  unfold outcome at hlater
  simp only [executeX402UpfrontSettlement, Ported.mem_calls_bind, Ported.result_call,
    Ported.calls_call, List.mem_singleton, reduceCtorEq, settle_mem_settleWithFinality, hlater,
    false_or, and_false, exists_false, or_false]
  constructor
  · rintro ⟨⟨⟩, hauthenticated, ⟨⟩, hreserved, requirements, hquoted, ⟨⟩, hsupported, hverified,
      rfl⟩
    exact ⟨requirements, ⟨hauthenticated, hreserved, hquoted, hsupported, hverified⟩, rfl⟩
  · rintro ⟨requirements, hquote, rfl⟩
    exact ⟨(), hquote.authenticated, (), hquote.reserved, requirements, hquote.quoted, (),
      hquote.supported, hquote.verified, rfl⟩

/-- What the facilitator reports decides the payment. -/
theorem Settles.unique {facilitator : CoinbaseExactFacilitator} {request : FacilitatorRequest}
    {settled other : SettledPayment} {network network' : String}
    (h : Settles facilitator request settled network)
    (h' : Settles facilitator request other network') : settled = other ∧ network = network' := by
  obtain ⟨_, hanswer⟩ := h
  obtain ⟨_, hanswer'⟩ := h'
  have hsame := Except.ok.inj (hanswer.symm.trans hanswer')
  simp only [FacilitatorSettlement.mk.injEq, Option.some.injEq, true_and] at hsame
  obtain ⟨hpayer, hhash, hnetwork, -⟩ := hsame
  cases settled
  cases other
  exact ⟨congrArg₂ SettledPayment.mk hhash hpayer, hnetwork⟩

/-- One payment is recorded at most. -/
theorem Recorded.unique {other : SettledPayment} (h : Recorded input settled)
    (h' : Recorded input other) : settled = other := by
  obtain ⟨requirements, network, hquote, hsettles, -⟩ := h
  obtain ⟨requirements', network', hquote', hsettles', -⟩ := h'
  obtain rfl := Except.ok.inj (hquote.quoted.symm.trans hquote'.quoted)
  exact (hsettles.unique hsettles').1

/-! ## Both outcomes -/

/-- The call of the facilitator's `settle` reported success, with a transaction. -/
structure Reported (input : UpfrontSettlementInput T) (request : FacilitatorRequest)
    (settled : SettledPayment) (network : String) : Prop where
  called : .settle request ∈ (executeX402UpfrontSettlement input).calls
  settles : Settles input.facilitator request settled network

/-- The network of the settlement is that of the quote, it is final, and it is recorded. -/
structure Accepted (input : UpfrontSettlementInput T) (request : FacilitatorRequest)
    (settled : SettledPayment) (network : String) : Prop where
  final : Final input.finality request settled network
  recorded : input.persistSettlement settled = .ok ()

/-- The handler succeeded, what it returned is recorded, and it is returned. -/
def Fulfilled (input : UpfrontSettlementInput T) : Prop :=
  ∃ result, input.executeHandler = .ok result ∧ input.persistFulfillment result = .ok () ∧
    .executeHandler ∈ (executeX402UpfrontSettlement input).calls ∧
    .persistFulfillment result ∈ (executeX402UpfrontSettlement input).calls ∧
    (executeX402UpfrontSettlement input).result = .ok result

/-- A refund of the payment is queued, and of no other one. -/
def Refunded (input : UpfrontSettlementInput T) (settled : SettledPayment) : Prop :=
  (∃ refund, .queueMatchingRefund refund ∈ (executeX402UpfrontSettlement input).calls ∧
    input.queueMatchingRefund refund = .ok ()) ∧
  ∀ refund, .queueMatchingRefund refund ∈ (executeX402UpfrontSettlement input).calls →
    refund.toSettledPayment = settled

/-- The call ends with an error, and neither the handler nor a refund was called. -/
structure Untouched (input : UpfrontSettlementInput T) : Prop where
  throws : ∃ thrown, (executeX402UpfrontSettlement input).result = .error thrown
  unhandled : .executeHandler ∉ (executeX402UpfrontSettlement input).calls
  unrefunded : ∀ refund,
    .queueMatchingRefund refund ∉ (executeX402UpfrontSettlement input).calls

/-- A payment is recorded when it is reported and accepted. -/
theorem recorded_of_accepted {request : FacilitatorRequest} {network : String}
    (h : Reported input request settled network) (haccepted : Accepted input request settled network) :
    Recorded input settled := by
  obtain ⟨requirements, hquote, rfl⟩ := settle_mem_iff.mp h.called
  exact ⟨requirements, network, hquote, h.settles, haccepted.final, haccepted.recorded⟩

theorem accepted_of_recorded (h : Recorded input settled) :
    ∃ request network, Reported input request settled network ∧
      Accepted input request settled network := by
  obtain ⟨requirements, network, hquote, hsettles, hfinal, hrecorded⟩ := h
  exact ⟨_, network, ⟨settle_mem_iff.mpr ⟨requirements, hquote, rfl⟩, hsettles⟩, hfinal, hrecorded⟩

/-- One settlement is reported at most. -/
theorem Reported.unique {request request' : FacilitatorRequest} {other : SettledPayment}
    {network network' : String} (h : Reported input request settled network)
    (h' : Reported input request' other network') :
    request = request' ∧ settled = other ∧ network = network' := by
  obtain ⟨requirements, hquote, rfl⟩ := settle_mem_iff.mp h.called
  obtain ⟨requirements', hquote', rfl⟩ := settle_mem_iff.mp h'.called
  obtain rfl := Except.ok.inj (hquote.quoted.symm.trans hquote'.quoted)
  exact ⟨rfl, h.settles.unique h'.settles⟩

theorem untouched_of_unrecorded (h : ∀ settled, ¬Recorded input settled) : Untouched input := by
  have hnever : ∀ made, Late made → made ∉ (executeX402UpfrontSettlement input).calls := by
    intro made hlate hmem
    obtain ⟨settled, hrecorded, -⟩ := (late_mem_iff hlate).mp hmem
    exact h settled hrecorded
  refine ⟨?_, hnever _ trivial, fun refund => hnever _ trivial⟩
  cases hresult : (executeX402UpfrontSettlement input).result with
  | error thrown => exact ⟨thrown, rfl⟩
  | ok result =>
      obtain ⟨settled, hrecorded, -⟩ := result_ok_iff.mp hresult
      exact absurd hrecorded (h settled)

theorem fulfillment_ok_iff {result : T} :
    (fulfillment input).result = .ok result ↔
      input.executeHandler = .ok result ∧ input.persistFulfillment result = .ok () := by
  simp only [fulfillment, Ported.result_bind_ok, Ported.result_call, Ported.result_pure]
  constructor
  · rintro ⟨value, hhandler, ⟨⟩, hpersist, hsame⟩
    obtain rfl := Except.ok.inj hsame
    exact ⟨hhandler, hpersist⟩
  · rintro ⟨hhandler, hpersist⟩
    exact ⟨result, hhandler, (), hpersist, rfl⟩

theorem outcome_ok_iff {result : T} :
    (outcome input settled).result = .ok result ↔ (fulfillment input).result = .ok result := by
  simp [outcome, refundAndRethrow]

theorem refund_mem_outcome {refund : MatchingRefund} :
    .queueMatchingRefund refund ∈ (outcome input settled).calls ↔
      ∃ thrown, (fulfillment input).result = .error thrown ∧
        refund = { settled with reason := thrown.reason } := by
  have hearlier : .queueMatchingRefund refund ∉ (fulfillment input).calls := by simp [fulfillment]
  simp [outcome, refundAndRethrow, hearlier]

theorem fulfilled_iff (h : Recorded input settled) :
    Fulfilled input ↔ ∃ result, (fulfillment input).result = .ok result := by
  constructor
  · rintro ⟨result, hhandler, hpersist, -⟩
    exact ⟨result, fulfillment_ok_iff.mpr ⟨hhandler, hpersist⟩⟩
  · rintro ⟨result, hresult⟩
    obtain ⟨hhandler, hpersist⟩ := fulfillment_ok_iff.mp hresult
    have hcalls : ∀ made, Late made → made ∈ (fulfillment input).calls →
        made ∈ (executeX402UpfrontSettlement input).calls := by
      intro made hlate hmem
      exact (late_mem_iff hlate).mpr ⟨settled, h, Ported.mem_calls_tryCatch.mpr (.inl hmem)⟩
    refine ⟨result, hhandler, hpersist, hcalls _ trivial ?_, hcalls _ trivial ?_,
      result_ok_iff.mpr ⟨settled, h, outcome_ok_iff.mpr hresult⟩⟩
    · simp [fulfillment]
    · simp [fulfillment, hhandler]

theorem refunded_iff (hqueue : ∀ refund, input.queueMatchingRefund refund = .ok ())
    (h : Recorded input settled) :
    Refunded input settled ↔ ∃ thrown, (fulfillment input).result = .error thrown := by
  have hrefund : ∀ refund, .queueMatchingRefund refund ∈ (executeX402UpfrontSettlement input).calls ↔
      ∃ thrown, (fulfillment input).result = .error thrown ∧
        refund = { settled with reason := thrown.reason } := by
    intro refund
    have hlate : Late (.queueMatchingRefund refund : PortCall T) := trivial
    rw [late_mem_iff hlate]
    constructor
    · rintro ⟨other, hother, hmem⟩
      rw [hother.unique h] at hmem
      exact refund_mem_outcome.mp hmem
    · exact fun hthrown => ⟨settled, h, refund_mem_outcome.mpr hthrown⟩
  constructor
  · rintro ⟨⟨refund, hmem, -⟩, -⟩
    obtain ⟨thrown, hthrown, -⟩ := (hrefund refund).mp hmem
    exact ⟨thrown, hthrown⟩
  · rintro ⟨thrown, hthrown⟩
    refine ⟨⟨_, (hrefund _).mpr ⟨thrown, hthrown, rfl⟩, hqueue _⟩, ?_⟩
    intro refund hmem
    obtain ⟨_, -, rfl⟩ := (hrefund refund).mp hmem
    rfl

/-- A payment that is settled with a transaction, on the network of its quote, final and recorded
is fulfilled or refunded, and not both; any other one ends with an error, untouched. -/
theorem fulfilled_or_refunded (hqueue : ∀ refund, input.queueMatchingRefund refund = .ok ()) :
    (∀ request settled network, Reported input request settled network →
      (Accepted input request settled network → Xor (Fulfilled input) (Refunded input settled)) ∧
      (¬Accepted input request settled network → Untouched input)) ∧
    ((∀ request settled network, ¬Reported input request settled network) → Untouched input) := by
  refine ⟨fun request settled network hreported => ⟨fun haccepted => ?_, fun hrefused => ?_⟩, ?_⟩
  · have hrecorded := recorded_of_accepted hreported haccepted
    rw [fulfilled_iff hrecorded, refunded_iff hqueue hrecorded]
    cases hresult : (fulfillment input).result with
    | ok result => exact .inl ⟨⟨result, rfl⟩, by rintro ⟨_, ⟨⟩⟩⟩
    | error thrown => exact .inr ⟨⟨thrown, rfl⟩, by rintro ⟨_, ⟨⟩⟩⟩
  · refine untouched_of_unrecorded fun other hother => hrefused ?_
    obtain ⟨request', network', hreported', haccepted⟩ := accepted_of_recorded hother
    obtain ⟨rfl, rfl, rfl⟩ := hreported'.unique hreported
    exact haccepted
  · intro hnone
    refine untouched_of_unrecorded fun other hother => ?_
    obtain ⟨request, network, hreported, -⟩ := accepted_of_recorded hother
    exact hnone request other network hreported

/-! ## A sale -/

def saleRequirements : X402V2ExactRequirements :=
  { network := .baseSepolia, asset := "0x036CbD53842c5426634e7929541eC2318f3dCF7e"
    amount := "10000", payTo := "0x1111111111111111111111111111111111111111" }

def salePayment : SettledPayment := ⟨"0xdd", "0xpayer"⟩

/-- A payment that settles; the wait for the seal and the handler answer as given. -/
def sale (sealing : Except Thrown Unit) (handler : Except Thrown String) :
    UpfrontSettlementInput String where
  authenticate := .ok ()
  reserveAllowance := .ok ()
  createQuote := .ok saleRequirements
  captureFacilitatorSupport := .ok ()
  facilitator :=
    { verify := fun _ => .ok ⟨true, some salePayment.payer, none⟩
      settle := fun _ => .ok ⟨true, salePayment.payer, some salePayment.transactionHash,
        "base-sepolia", none⟩ }
  finality := { requireRpcConfirmation := fun _ => .ok (), requireSealed := fun _ => sealing }
  paymentPayload := .obj []
  persistSettlement := fun _ => .ok ()
  executeHandler := handler
  persistFulfillment := fun _ => .ok ()
  queueMatchingRefund := fun _ => .ok ()

theorem sale_reported (sealing : Except Thrown Unit) (handler : Except Thrown String) :
    Reported (sale sealing handler) ⟨.obj [], saleRequirements⟩ salePayment "base-sepolia" :=
  ⟨settle_mem_iff.mpr ⟨saleRequirements, ⟨rfl, rfl, rfl, rfl, rfl⟩, rfl⟩, ⟨none, rfl⟩⟩

/-- A handler that fails: the payment is either fulfilled or refunded. -/
theorem failed_sale_once :
    Xor (Fulfilled (sale (.ok ()) (.error (.error "handler unavailable"))))
      (Refunded (sale (.ok ()) (.error (.error "handler unavailable"))) salePayment) :=
  ((fulfilled_or_refunded fun _ => rfl).1 _ _ _ (sale_reported _ _)).1 ⟨⟨rfl, rfl, rfl⟩, rfl⟩

/-- A payment that settled and is not sealed in time is neither fulfilled nor refunded. -/
theorem unsealed_sale :
    (∀ refund, (sale (.error (.error "not sealed")) (.ok "ok")).queueMatchingRefund refund =
      .ok ()) ∧
    (∃ request network, Reported (sale (.error (.error "not sealed")) (.ok "ok")) request
      salePayment network) ∧
    ¬Xor (Fulfilled (sale (.error (.error "not sealed")) (.ok "ok")))
      (Refunded (sale (.error (.error "not sealed")) (.ok "ok")) salePayment) := by
  refine ⟨fun _ => rfl, ⟨_, _, sale_reported _ _⟩, ?_⟩
  have huntouched : Untouched (sale (.error (.error "not sealed")) (.ok "ok")) := by
    refine untouched_of_unrecorded fun settled hrecorded => ?_
    obtain ⟨_, _, -, -, hfinal, -⟩ := hrecorded
    cases hfinal.sealed
  rintro (⟨⟨_, -, -, hmem, -⟩, -⟩ | ⟨⟨⟨refund, hmem, -⟩, -⟩, -⟩)
  · exact huntouched.unhandled hmem
  · exact huntouched.unrefunded refund hmem

end BrainCore.Commercial
