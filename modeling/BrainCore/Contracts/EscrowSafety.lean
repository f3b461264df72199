import BrainCore.Contracts.EscrowConservation

/-!
# Safety of the escrow over whole runs

What holds in every state of every run, who can move an escrow's tokens, and
which facts about an escrow never change.
-/

namespace BrainCore.Contracts

open BrainCore.Foundation

/-! ## The invariant -/

/-- What a transfer that has not returned is about to take. -/
def sendingOf : Option GuardedCall → Address → ℕ
  | some ⟨_, .transfer token _ amount⟩ => fun other => if other = token then amount.val else 0
  | _ => fun _ => 0

/-- A guarded function that waits; a pull has touched no escrow yet. -/
structure GuardedCall.Waits (frame : GuardedCall) (s : BrainEscrow) : Prop where
  saved : frame.saved.Solvent fun _ => 0
  continues : frame.saved.Continues s
  pull : ∀ escrowId e balanceBefore, frame.call = .transferFrom escrowId e balanceBefore →
    (s.escrows escrowId).state = .none ∧ e.state = .locked ∧ e.released = 0 ∧ e.refunded = 0 ∧
      BrainEscrow.owed s.escrows e.token ≤ balanceBefore.val

/-- What waits does so through every call that leaves the escrows alone. -/
theorem GuardedCall.Waits.of_eq {frame : GuardedCall} {s next : BrainEscrow} (h : frame.Waits s)
    (same : next.escrows = s.escrows) : frame.Waits next := by
  obtain ⟨hsaved, ⟨hterms, hused⟩, hpull⟩ := h
  constructor
  · exact hsaved
  · exact ⟨fun id => by rw [same, hterms], fun id => by rw [same, hused]⟩
  · rw [same]
    exact hpull

namespace EscrowWorld

structure Inv (w : EscrowWorld) : Prop where
  contract : w.contract.Solvent (sendingOf w.guarded)
  waits : ∀ frame, w.guarded = some frame → frame.Waits w.contract

/-- An escrow that is used stays used, with its terms. -/
def Keeps (w next : EscrowWorld) : Prop :=
  ∀ escrowId, (w.contract.escrows escrowId).state ≠ .none →
    (next.contract.escrows escrowId).state ≠ .none ∧
      (next.contract.escrows escrowId).terms = (w.contract.escrows escrowId).terms

theorem Keeps.refl (w : EscrowWorld) : w.Keeps w := fun _ hused => ⟨hused, rfl⟩

theorem Keeps.trans {w next last : EscrowWorld} (h : w.Keeps next) (h' : next.Keeps last) :
    w.Keeps last := by
  intro escrowId hused
  obtain ⟨hnext, hterms⟩ := h escrowId hused
  obtain ⟨hlast, hterms'⟩ := h' escrowId hnext
  exact ⟨hlast, hterms'.trans hterms⟩

theorem keeps_of_eq {w next : EscrowWorld} (same : next.contract.escrows = w.contract.escrows) :
    w.Keeps next := by
  intro escrowId hused
  rw [same]
  exact ⟨hused, rfl⟩

variable {w next : EscrowWorld}

/-! ## The steps -/

/-- A step that changes no escrow and nothing that waits. -/
theorem Inv.of_eq {contract : BrainEscrow} (h : w.Inv)
    (hsolvent : contract.Solvent (sendingOf w.guarded))
    (same : contract.escrows = w.contract.escrows) :
    Inv { w with contract } ∧ w.Keeps { w with contract } :=
  ⟨⟨hsolvent, fun frame hframe => (h.waits frame hframe).of_eq same⟩, keeps_of_eq same⟩

theorem Inv.open? {result : Except EscrowError BrainEscrow} (h : w.Inv)
    (hresult : ∀ contract, result = .ok contract →
      contract.Solvent (sendingOf w.guarded) ∧ contract.escrows = w.contract.escrows) :
    (w.open? result).Inv ∧ w.Keeps (w.open? result) := by
  unfold EscrowWorld.open?
  cases result with
  | error e => exact ⟨h, .refl w⟩
  | ok contract =>
      obtain ⟨hsolvent, same⟩ := hresult contract rfl
      exact h.of_eq hsolvent same

theorem Inv.enter {result : Except EscrowError (BrainEscrow × TokenCall)} (h : w.Inv)
    (hresult : ∀ contract call, w.guarded = none → result = .ok (contract, call) →
      contract.Solvent (sendingOf (some ⟨w.contract, call⟩)) ∧
        GuardedCall.Waits ⟨w.contract, call⟩ contract) :
    (w.enter result).Inv ∧ w.Keeps (w.enter result) := by
  unfold EscrowWorld.enter
  cases hguarded : w.guarded with
  | some frame => exact ⟨h, .refl w⟩
  | none =>
      cases result with
      | error e => exact ⟨h, .refl w⟩
      | ok entered =>
          obtain ⟨contract, call⟩ := entered
          obtain ⟨hsolvent, hwaits⟩ := hresult contract call hguarded rfl
          refine ⟨⟨hsolvent, fun frame hframe => ?_⟩, fun escrowId hused => ?_⟩
          · obtain rfl := Option.some.inj hframe
            exact hwaits
          · refine ⟨fun hnone => hused ?_, hwaits.continues.terms escrowId⟩
            exact (hwaits.continues.used escrowId).mp hnone

/-- Back to the state from before the guarded function. -/
theorem Inv.revert {frame : GuardedCall} (h : w.Inv) (hframe : w.guarded = some frame) :
    Inv { contract := frame.saved } ∧ w.Keeps { contract := frame.saved } := by
  obtain ⟨hsaved, hcontinues, -⟩ := h.waits frame hframe
  refine ⟨⟨hsaved, fun _ hnone => (nomatch hnone)⟩, fun escrowId hused => ⟨?_, ?_⟩⟩
  · exact fun hnone => hused ((hcontinues.used escrowId).mpr hnone)
  · exact (hcontinues.terms escrowId).symm

/-- The end of a pull, when tokens may have arrived. -/
theorem Inv.leave {frame : GuardedCall} {contract : BrainEscrow} {escrowId : Bytes32} {e : Escrow}
    {balanceBefore : Uint256} (h : w.Inv) (hframe : w.guarded = some frame)
    (hcall : frame.call = .transferFrom escrowId e balanceBefore)
    (hsolvent : contract.Solvent fun _ => 0) (same : contract.escrows = w.contract.escrows) :
    (leave frame.saved (contract.locked escrowId e balanceBefore)).Inv ∧
      w.Keeps (leave frame.saved (contract.locked escrowId e balanceBefore)) := by
  unfold EscrowWorld.leave
  cases hlocked : contract.locked escrowId e balanceBefore with
  | error e => exact h.revert hframe
  | ok next =>
      obtain ⟨hfree, hstate, hreleased, hrefunded, howed⟩ :=
        (h.waits frame hframe).pull _ _ _ hcall
      rw [← same] at hfree howed
      obtain ⟨hnext, hkept⟩ := hsolvent.locked hfree hstate hreleased hrefunded howed hlocked
      refine ⟨⟨hnext, fun _ hnone => (nomatch hnone)⟩, fun other hused => ?_⟩
      rw [← same] at hused ⊢
      dsimp only
      rw [hkept other hused]
      exact ⟨hused, rfl⟩

theorem sendingOf_pull {frame : GuardedCall} {escrowId : Bytes32} {e : Escrow}
    {balanceBefore : Uint256} (hcall : frame.call = .transferFrom escrowId e balanceBefore) :
    sendingOf (some frame) = fun _ => 0 := by
  obtain ⟨saved, call⟩ := frame
  cases hcall
  rfl

theorem Inv.returns {frame : GuardedCall} {delivered : Uint256} (h : w.Inv)
    (hframe : w.guarded = some frame) (hstep : w.returns frame delivered = some next) :
    next.Inv ∧ w.Keeps next := by
  have hcontract := h.contract
  rw [hframe] at hcontract
  unfold EscrowWorld.returns at hstep
  cases hcall : frame.call with
  | transferFrom escrowId e balanceBefore =>
      rw [hcall] at hstep
      obtain ⟨contract, hreceive, rfl⟩ := Option.map_eq_some_iff.mp hstep
      rw [sendingOf_pull hcall] at hcontract
      obtain ⟨hsolvent, same, -⟩ := hcontract.receive hreceive
      exact h.leave hframe hcall hsolvent same
  | transfer token recipient amount =>
      rw [hcall] at hstep
      obtain ⟨contract, hsend, rfl⟩ := Option.map_eq_some_iff.mp hstep
      obtain ⟨saved, call⟩ := frame
      cases hcall
      obtain ⟨hsolvent, same⟩ := hcontract.send hsend
      exact ⟨⟨hsolvent, fun _ hnone => (nomatch hnone)⟩, keeps_of_eq same⟩

theorem Inv.ignores {frame : GuardedCall} (h : w.Inv) (hframe : w.guarded = some frame) :
    (w.ignores frame).Inv ∧ w.Keeps (w.ignores frame) := by
  have hcontract := h.contract
  rw [hframe] at hcontract
  unfold EscrowWorld.ignores
  cases hcall : frame.call with
  | transferFrom escrowId e balanceBefore =>
      rw [sendingOf_pull hcall] at hcontract
      exact h.leave hframe hcall hcontract rfl
  | transfer token recipient amount =>
      refine ⟨⟨⟨hcontract.arbiter_ne_zero, hcontract.sound, fun other => ?_⟩,
        fun _ hnone => (nomatch hnone)⟩, keeps_of_eq rfl⟩
      exact (Nat.add_le_add_left (Nat.zero_le _) _).trans (hcontract.covered other)

/-- What an authorized payment asks of the contract. -/
theorem Inv.pays {escrowId : Bytes32} {amount : Uint256} {toPayee : Bool} {contract : BrainEscrow}
    {call : TokenCall} (h : w.Inv) (hguarded : w.guarded = none)
    (hlocked : (w.contract.escrows escrowId).state = .locked)
    (hpay : w.contract.payOut escrowId amount toPayee = .ok (contract, call)) :
    contract.Solvent (sendingOf (some ⟨w.contract, call⟩)) ∧
      GuardedCall.Waits ⟨w.contract, call⟩ contract := by
  have hcontract := h.contract
  rw [hguarded] at hcontract
  obtain ⟨e, hpays, rfl, rfl⟩ := BrainEscrow.payOut_ok hlocked hpay
  obtain ⟨hsolvent, hcontinues⟩ := hcontract.pays hlocked hpays
  exact ⟨hsolvent, hcontract, hcontinues, fun _ _ _ hcall => (nomatch hcall)⟩

/-! ## The guarded functions -/

theorem lock_ok {s : BrainEscrow} {context : CallContext} {escrowId jobTermsHash : Bytes32}
    {payee token : Address} {amount : Uint256} {deadline : Fin (2 ^ 64)} {call : TokenCall}
    (h : s.lock context escrowId payee token amount jobTermsHash deadline = .ok call) :
    (s.escrows escrowId).state = .none ∧ call = .transferFrom escrowId
      { payer := context.sender, payee, token, jobTermsHash, deadline, state := .locked }
      (s.balance token) := by
  unfold BrainEscrow.lock at h
  split at h
  · cases h
  rename_i hfree
  split at h
  · cases h
  split at h
  · cases h
  split at h
  · cases h
  split at h
  · cases h
  exact ⟨not_not.mp hfree, (Except.ok.inj h).symm⟩

/-- A release is asked for by the payer or the arbiter. -/
theorem release_ok {s : BrainEscrow} {context : CallContext} {escrowId : Bytes32}
    {amount : Uint256} {entered : BrainEscrow × TokenCall}
    (h : s.release context escrowId amount = .ok entered) :
    (s.escrows escrowId).state = .locked ∧
      (context.sender = (s.escrows escrowId).payer ∨ context.sender = s.arbiter) ∧
      s.payOut escrowId amount true = .ok entered := by
  unfold BrainEscrow.release at h
  split at h
  · cases h
  rename_i hlocked
  split at h
  · cases h
  rename_i hsender
  rw [not_and_or, not_not, not_not] at hsender
  exact ⟨not_not.mp hlocked, hsender, h⟩

/-- A refund is asked for by the arbiter, or by the payer once the deadline has come. -/
theorem refund_ok {s : BrainEscrow} {context : CallContext} {escrowId : Bytes32}
    {amount : Uint256} {entered : BrainEscrow × TokenCall}
    (h : s.refund context escrowId amount = .ok entered) :
    (s.escrows escrowId).state = .locked ∧
      (context.sender = s.arbiter ∨ context.sender = (s.escrows escrowId).payer ∧
        (s.escrows escrowId).deadline.val ≤ context.timestamp.val) ∧
      s.payOut escrowId amount false = .ok entered := by
  unfold BrainEscrow.refund at h
  dsimp only at h
  split at h
  · cases h
  rename_i hlocked
  split at h
  · split at h <;> cases h
  rename_i hsender
  rw [not_and_or, not_not, not_not] at hsender
  exact ⟨not_not.mp hlocked, hsender, h⟩

theorem Inv.step {label : EscrowLabel} (h : w.Inv) (hstep : w.step label = some next) :
    next.Inv ∧ w.Keeps next := by
  cases label with
  | setArbiter context proposed =>
      obtain rfl := Option.some.inj hstep
      exact h.open? fun contract hcall => h.contract.setArbiter hcall
  | acceptArbiter context =>
      obtain rfl := Option.some.inj hstep
      exact h.open? fun contract hcall => h.contract.acceptArbiter hcall
  | lock context escrowId payee token amount jobTermsHash deadline =>
      obtain rfl := Option.some.inj hstep
      refine h.enter fun contract call hguarded hcall => ?_
      obtain ⟨entered, hentered, hpair⟩ := map_ok.mp hcall
      obtain ⟨rfl, rfl⟩ := Prod.mk.inj hpair
      obtain ⟨hfree, rfl⟩ := lock_ok hentered
      have hcontract := h.contract
      rw [hguarded] at hcontract
      refine ⟨hcontract, hcontract, .of_eq rfl, fun id e balanceBefore hpull => ?_⟩
      cases hpull
      exact ⟨hfree, rfl, rfl, rfl, (Nat.le_add_right _ _).trans (hcontract.covered token)⟩
  | release context escrowId amount =>
      obtain rfl := Option.some.inj hstep
      refine h.enter fun contract call hguarded hcall => ?_
      obtain ⟨hlocked, -, hpay⟩ := release_ok hcall
      exact h.pays hguarded hlocked hpay
  | refund context escrowId amount =>
      obtain rfl := Option.some.inj hstep
      refine h.enter fun contract call hguarded hcall => ?_
      obtain ⟨hlocked, -, hpay⟩ := refund_ok hcall
      exact h.pays hguarded hlocked hpay
  | receive token amount =>
      obtain ⟨contract, hreceive, rfl⟩ := Option.map_eq_some_iff.mp hstep
      obtain ⟨hsolvent, same, -⟩ := h.contract.receive hreceive
      exact h.of_eq hsolvent same
  | tokenReturns delivered =>
      obtain ⟨frame, hframe, hreturns⟩ := Option.bind_eq_some_iff.mp hstep
      exact h.returns hframe hreturns
  | tokenIgnores =>
      obtain ⟨frame, hframe, rfl⟩ := Option.map_eq_some_iff.mp hstep
      exact h.ignores hframe
  | tokenFails =>
      obtain ⟨frame, hframe, rfl⟩ := Option.map_eq_some_iff.mp hstep
      exact h.revert hframe

/-! ## What every reachable state guarantees -/

/-- Who may have a transfer made: the payer or the arbiter to the payee; the arbiter, or the payer
from the deadline on, to the payer. -/
def Authorizes (w : EscrowWorld) (token recipient : Address) (amount : Uint256) :
    EscrowLabel → Prop
  | .release context escrowId paid =>
      let e := w.contract.escrows escrowId
      e.state = .locked ∧ token = e.token ∧ recipient = e.payee ∧ amount = paid ∧
        (context.sender = e.payer ∨ context.sender = w.contract.arbiter)
  | .refund context escrowId paid =>
      let e := w.contract.escrows escrowId
      e.state = .locked ∧ token = e.token ∧ recipient = e.payer ∧ amount = paid ∧
        (context.sender = w.contract.arbiter ∨
          context.sender = e.payer ∧ e.deadline.val ≤ context.timestamp.val)
  | _ => False

structure Safe (w : EscrowWorld) : Prop where
  within : ∀ escrowId, (w.contract.escrows escrowId).released.val +
    (w.contract.escrows escrowId).refunded.val ≤ (w.contract.escrows escrowId).amount.val
  settled_iff : ∀ escrowId, (w.contract.escrows escrowId).state ≠ .none →
    ((w.contract.escrows escrowId).state = .settled ↔
      (w.contract.escrows escrowId).released.val + (w.contract.escrows escrowId).refunded.val =
        (w.contract.escrows escrowId).amount.val)
  covered : ∀ token, ∑ escrowId, (w.contract.escrows escrowId).owedBy token ≤
    (w.contract.balance token).val
  arbiter_ne_zero : w.contract.arbiter ≠ 0
  /-- A used id cannot be locked again. -/
  once : ∀ context escrowId payee token amount jobTermsHash deadline,
    (w.contract.escrows escrowId).state ≠ .none →
    w.contract.lock context escrowId payee token amount jobTermsHash deadline =
      .error (.escrowExists escrowId)
  /-- A transfer is made for a call of somebody who may have it made. -/
  authorized : ∀ label next saved token recipient amount, w.guarded = none →
    w.step label = some next → next.guarded = some ⟨saved, .transfer token recipient amount⟩ →
    w.Authorizes token recipient amount label

theorem enter_eq {result : Except EscrowError (BrainEscrow × TokenCall)} {frame : GuardedCall}
    (hguarded : w.guarded = none) (h : (w.enter result).guarded = some frame) :
    ∃ contract, result = .ok (contract, frame.call) := by
  unfold enter at h
  rw [hguarded] at h
  cases result with
  | error e =>
      rw [hguarded] at h
      cases h
  | ok entered =>
      obtain rfl := Option.some.inj h
      exact ⟨entered.1, rfl⟩

theorem authorizes_of_step {label : EscrowLabel} {saved : BrainEscrow} {token recipient : Address}
    {amount : Uint256} (hguarded : w.guarded = none) (hstep : w.step label = some next)
    (hnext : next.guarded = some ⟨saved, .transfer token recipient amount⟩) :
    w.Authorizes token recipient amount label := by
  cases label with
  | setArbiter | acceptArbiter =>
      obtain rfl := Option.some.inj hstep
      unfold open? at hnext
      split at hnext <;> cases hguarded.symm.trans hnext
  | lock context escrowId payee locked value jobTermsHash deadline =>
      obtain rfl := Option.some.inj hstep
      obtain ⟨contract, hcall⟩ := enter_eq hguarded hnext
      obtain ⟨call, hlock, hpair⟩ := map_ok.mp hcall
      obtain ⟨-, rfl⟩ := lock_ok hlock
      cases (Prod.mk.inj hpair).2
  | release context escrowId paid =>
      obtain rfl := Option.some.inj hstep
      obtain ⟨contract, hcall⟩ := enter_eq hguarded hnext
      obtain ⟨hlocked, hsender, hpay⟩ := release_ok hcall
      obtain ⟨_, -, -, hsent⟩ := BrainEscrow.payOut_ok hlocked hpay
      cases hsent
      exact ⟨hlocked, rfl, rfl, rfl, hsender⟩
  | refund context escrowId paid =>
      obtain rfl := Option.some.inj hstep
      obtain ⟨contract, hcall⟩ := enter_eq hguarded hnext
      obtain ⟨hlocked, hsender, hpay⟩ := refund_ok hcall
      obtain ⟨_, -, -, hsent⟩ := BrainEscrow.payOut_ok hlocked hpay
      cases hsent
      exact ⟨hlocked, rfl, rfl, rfl, hsender⟩
  | receive received value =>
      obtain ⟨contract, -, rfl⟩ := Option.map_eq_some_iff.mp hstep
      cases hguarded.symm.trans hnext
  | tokenReturns delivered =>
      obtain ⟨frame, hframe, -⟩ := Option.bind_eq_some_iff.mp hstep
      cases hguarded.symm.trans hframe
  | tokenIgnores | tokenFails =>
      obtain ⟨frame, hframe, -⟩ := Option.map_eq_some_iff.mp hstep
      cases hguarded.symm.trans hframe

theorem Inv.safe (h : w.Inv) : w.Safe := by
  refine ⟨fun escrowId => (h.contract.sound escrowId).within,
    fun escrowId hused => (h.contract.sound escrowId).settled_iff hused, fun token => ?_,
    h.contract.arbiter_ne_zero, fun _ _ _ _ _ _ _ hused => if_pos hused,
    fun _ _ _ _ _ _ hguarded hstep hnext => authorizes_of_step hguarded hstep hnext⟩
  exact (Nat.le_add_right _ _).trans (h.contract.covered token)

/-- Whatever is called, by whom and when, and whatever the tokens do in between. -/
theorem safe_of_run {self arbiter : Address} {balance : Address → Uint256} {s : BrainEscrow}
    {before after : List EscrowLabel} {final : EscrowWorld}
    (hdeployed : BrainEscrow.deployed self arbiter balance = .ok s)
    (hbefore : escrowMachine.run { contract := s } before = some w)
    (hafter : escrowMachine.run w after = some final) : w.Safe ∧ w.Keeps final := by
  have hstart : Inv { contract := s } :=
    ⟨BrainEscrow.deployed_solvent hdeployed, fun _ hnone => (nomatch hnone)⟩
  have hw := escrowMachine.invariant_of_run (fun _ _ _ hs hstep => (hs.step hstep).1) hstart hbefore
  refine ⟨hw.safe, ?_⟩
  have hkeeps : final.Inv ∧ w.Keeps final := by
    refine @Machine.invariant_of_run _ _ escrowMachine (fun s => s.Inv ∧ w.Keeps s) ?_ _ _ _
      ⟨hw, .refl w⟩ hafter
    intro state label next hs hstep
    obtain ⟨hinv, hkept⟩ := hs.1.step hstep
    exact ⟨hinv, hs.2.trans hkept⟩
  exact hkeeps.2

/-! ## An arbiter that pays -/

def arbiterAt (timestamp : Uint256) (htime : timestamp ≠ 0) : CallContext :=
  ⟨1, timestamp, 8453, by decide, htime⟩

/-- The arbiter locks fifty tokens until time one thousand. -/
def arbiterPays : List EscrowLabel :=
  [.lock (arbiterAt 10 (by decide)) 5 2 3 50 9 1000, .tokenReturns 50]

def arbiterContract : BrainEscrow := { self := 100, arbiter := 1, balance := fun _ => 0 }

def arbiterPaid : EscrowWorld :=
  { contract :=
      { arbiterContract with
        escrows := Function.update (fun _ => {}) 5
          { payer := 1, payee := 2, token := 3, amount := 50, jobTermsHash := 9, deadline := 1000,
            state := .locked }
        balance := Function.update (fun _ => 0) 3 50 } }

theorem arbiterPaid_safe :
    arbiterPaid.Safe ∧ arbiterPaid.Keeps (arbiterPaid.enter
      (arbiterPaid.contract.refund (arbiterAt 20 (by decide)) 5 50)) := by
  have hdeployed : BrainEscrow.deployed 100 1 (fun _ => 0) = .ok arbiterContract := rfl
  have hbefore : escrowMachine.run { contract := arbiterContract } arbiterPays = some arbiterPaid :=
    rfl
  have hafter : escrowMachine.run arbiterPaid [.refund (arbiterAt 20 (by decide)) 5 50] =
      some (arbiterPaid.enter (arbiterPaid.contract.refund (arbiterAt 20 (by decide)) 5 50)) := rfl
  exact safe_of_run hdeployed hbefore hafter

/-- The payer refunds itself long before the deadline: it is the arbiter. -/
theorem arbiter_refunds_itself :
    escrowMachine.run { contract := arbiterContract } arbiterPays = some arbiterPaid ∧
      (arbiterAt 20 (by decide)).sender = (arbiterPaid.contract.escrows 5).payer ∧
      (arbiterPaid.contract.refund (arbiterAt 20 (by decide)) 5 50).isOk = true ∧
      ¬(arbiterPaid.contract.escrows 5).deadline.val ≤ (arbiterAt 20 (by decide)).timestamp.val :=
  ⟨rfl, rfl, rfl, by decide⟩

end EscrowWorld

end BrainCore.Contracts
