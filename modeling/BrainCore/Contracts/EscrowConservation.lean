import BrainCore.Contracts.Escrow
import Mathlib.Algebra.BigOperators.Group.Finset.Basic
import Mathlib.Data.Fintype.BigOperators

/-!
# Conservation of escrowed tokens

For each token the contract holds at least what its unsettled escrows still owe,
in every state of every run, a state in the middle of a token call included.
-/

namespace BrainCore.Contracts

open BrainCore.Foundation

/-! ## One escrow -/

namespace Escrow

/-- What was agreed when the escrow was locked. -/
def terms (e : Escrow) : Address × Address × Address × Uint256 × Bytes32 × Fin (2 ^ 64) :=
  (e.payer, e.payee, e.token, e.amount, e.jobTermsHash, e.deadline)

/-- What an escrow of a token still owes. -/
def owedBy (token : Address) (e : Escrow) : ℕ :=
  if e.token = token ∧ e.state = .locked then e.amount.val - e.released.val - e.refunded.val else 0

/-- An escrow is blank, or owes something, or is settled and owes nothing. -/
def Sound (e : Escrow) : Prop :=
  match e.state with
  | .none => e = {}
  | .locked => e.released.val + e.refunded.val < e.amount.val
  | .settled => e.released.val + e.refunded.val = e.amount.val

theorem Sound.within {e : Escrow} (h : e.Sound) : e.released.val + e.refunded.val ≤ e.amount.val := by
  unfold Sound at h
  split at h
  · rw [h]
    exact le_refl 0
  · exact le_of_lt h
  · exact le_of_eq h

theorem Sound.settled_iff {e : Escrow} (h : e.Sound) (hused : e.state ≠ .none) :
    e.state = .settled ↔ e.released.val + e.refunded.val = e.amount.val := by
  unfold Sound at h
  cases hstate : e.state with
  | none => exact absurd hstate hused
  | locked =>
      rw [hstate] at h
      constructor
      · intro hsettled
        cases hsettled
      · intro heq
        exact absurd heq (ne_of_lt h)
  | settled =>
      rw [hstate] at h
      exact ⟨fun _ => h, fun _ => rfl⟩

/-- A payment of part of what is owed. -/
structure Pays (e next : Escrow) (amount : ℕ) : Prop where
  sound : next.Sound
  terms : next.terms = e.terms
  used : next.state ≠ .none
  owed : ∀ token, owedBy token next + (if token = e.token then amount else 0) = owedBy token e

theorem paid_ok {e next : Escrow} {released refunded : Uint256} {amount : ℕ}
    (hlocked : e.state = .locked) (h : e.paid released refunded = .ok next)
    (htotal : released.val + refunded.val = e.released.val + e.refunded.val + amount)
    (hwithin : e.released.val + e.refunded.val + amount ≤ e.amount.val) :
    e.Pays next amount ∧ next.released = released ∧ next.refunded = refunded := by
  unfold paid at h
  obtain ⟨total, hsum, h⟩ := bind_ok.mp h
  rw [checked_ok, Uint256.add?_eq_some_iff] at hsum
  obtain rfl := pure_ok.mp h
  by_cases hall : total = e.amount
  · have hamount : e.amount.val = released.val + refunded.val := hall ▸ hsum
    refine ⟨⟨?_, rfl, ?_, fun token => ?_⟩, rfl, rfl⟩
    · simpa [Sound, hall] using hamount.symm
    · simp [hall]
    · by_cases htoken : token = e.token
      · simp [owedBy, hall, hlocked, htoken]
        omega
      · simp [owedBy, hall, htoken, Ne.symm htoken]
  · have hne : e.amount.val ≠ released.val + refunded.val :=
      fun heq => hall (Fin.ext (hsum.trans heq.symm))
    refine ⟨⟨?_, rfl, ?_, fun token => ?_⟩, rfl, rfl⟩
    · simp only [Sound, hall, if_false, hlocked]
      omega
    · simp [hall, hlocked]
    · by_cases htoken : token = e.token
      · simp [owedBy, hall, hlocked, htoken]
        omega
      · simp [owedBy, hall, htoken, Ne.symm htoken]

end Escrow

/-! ## The sum over all escrows -/

/-- Changing one value of a family moves the sum by the change of that value. -/
theorem sum_add_of_eq_off {κ : Type} [Fintype κ] [DecidableEq κ] {f g : κ → ℕ} (key : κ)
    (same : ∀ other, other ≠ key → g other = f other) :
    ∑ other, g other + f key = ∑ other, f other + g key := by
  rw [← Finset.add_sum_erase _ f (Finset.mem_univ key), ← Finset.add_sum_erase _ g (Finset.mem_univ key)]
  have hrest : ∑ other ∈ Finset.univ.erase key, g other = ∑ other ∈ Finset.univ.erase key, f other :=
    Finset.sum_congr rfl fun other hother => same other (Finset.ne_of_mem_erase hother)
  rw [hrest]
  omega

namespace BrainEscrow

/-- What the unsettled escrows of a token still owe. -/
def owed (escrows : Bytes32 → Escrow) (token : Address) : ℕ :=
  ∑ escrowId, (escrows escrowId).owedBy token

theorem owed_update (escrows : Bytes32 → Escrow) (escrowId : Bytes32) (next : Escrow)
    (token : Address) :
    owed (Function.update escrows escrowId next) token + (escrows escrowId).owedBy token =
      owed escrows token + next.owedBy token := by
  have hsum := @sum_add_of_eq_off Bytes32 _ _ (fun id => (escrows id).owedBy token)
    (fun id => (Function.update escrows escrowId next id).owedBy token) escrowId
    fun other hother => by rw [Function.update_of_ne hother]
  simp only [Function.update_self] at hsum
  exact hsum

/-- A contract that can pay what it owes and what it is about to send. -/
structure Solvent (s : BrainEscrow) (sending : Address → ℕ) : Prop where
  arbiter_ne_zero : s.arbiter ≠ 0
  sound : ∀ escrowId, (s.escrows escrowId).Sound
  covered : ∀ token, owed s.escrows token + sending token ≤ (s.balance token).val

/-- The same escrows with the same terms, of which at least as much is paid. -/
structure Continues (s next : BrainEscrow) : Prop where
  terms : ∀ escrowId, (next.escrows escrowId).terms = (s.escrows escrowId).terms
  used : ∀ escrowId, (next.escrows escrowId).state = .none ↔ (s.escrows escrowId).state = .none

theorem Continues.of_eq {s next : BrainEscrow} (same : next.escrows = s.escrows) :
    s.Continues next :=
  ⟨fun escrowId => by rw [same], fun escrowId => by rw [same]⟩

theorem deployed_solvent {self arbiter : Address} {balance : Address → Uint256} {s : BrainEscrow}
    (h : deployed self arbiter balance = .ok s) : s.Solvent fun _ => 0 := by
  unfold deployed at h
  split at h
  · cases h
  · rename_i harbiter
    obtain rfl := Except.ok.inj h
    refine ⟨harbiter, fun _ => rfl, fun token => ?_⟩
    have hnone : owed (fun _ => ({} : Escrow)) token = 0 :=
      Finset.sum_eq_zero fun _ _ => by simp [Escrow.owedBy]
    rw [hnone, Nat.add_zero]
    exact Nat.zero_le _

/-! ## The operations -/

variable {s next : BrainEscrow} {context : CallContext} {sending : Address → ℕ}

theorem Solvent.setArbiter {proposed : Address} (hs : s.Solvent sending)
    (h : s.setArbiter context proposed = .ok next) :
    next.Solvent sending ∧ next.escrows = s.escrows := by
  unfold BrainEscrow.setArbiter at h
  split at h
  · cases h
  · obtain rfl := Except.ok.inj h
    exact ⟨⟨hs.arbiter_ne_zero, hs.sound, hs.covered⟩, rfl⟩

/-- The pending arbiter proves that it is a sender. -/
theorem Solvent.acceptArbiter (hs : s.Solvent sending) (h : s.acceptArbiter context = .ok next) :
    next.Solvent sending ∧ next.escrows = s.escrows := by
  unfold BrainEscrow.acceptArbiter at h
  split at h
  · cases h
  · rename_i hsender
    rw [not_not] at hsender
    obtain rfl := Except.ok.inj h
    exact ⟨⟨hsender ▸ context.sender_ne_zero, hs.sound, hs.covered⟩, rfl⟩

theorem Solvent.receive {token : Address} {amount : Uint256} (hs : s.Solvent sending)
    (h : s.receive token amount = some next) :
    next.Solvent sending ∧ next.escrows = s.escrows ∧
      ∀ other, (s.balance other).val ≤ (next.balance other).val := by
  obtain ⟨balance, hbalance, rfl⟩ := Option.map_eq_some_iff.mp h
  rw [Uint256.add?_eq_some_iff] at hbalance
  have hle : ∀ other, (s.balance other).val ≤ (Function.update s.balance token balance other).val := by
    intro other
    by_cases same : other = token
    · subst same
      rw [Function.update_self]
      omega
    · rw [Function.update_of_ne same]
  exact ⟨⟨hs.arbiter_ne_zero, hs.sound, fun other => (hs.covered other).trans (hle other)⟩, rfl, hle⟩

/-- What is sent was set aside. -/
theorem Solvent.send {token recipient : Address} {amount : Uint256}
    (hs : s.Solvent fun other => if other = token then amount.val else 0)
    (h : s.send token recipient amount = some next) :
    next.Solvent (fun _ => 0) ∧ next.escrows = s.escrows := by
  unfold BrainEscrow.send at h
  split at h
  · obtain rfl := Option.some.inj h
    refine ⟨⟨hs.arbiter_ne_zero, hs.sound, fun other => ?_⟩, rfl⟩
    exact (Nat.add_le_add_left (Nat.zero_le _) _).trans (hs.covered other)
  · obtain ⟨balance, hbalance, rfl⟩ := Option.map_eq_some_iff.mp h
    rw [Uint256.sub?_eq_some_iff] at hbalance
    refine ⟨⟨hs.arbiter_ne_zero, hs.sound, fun other => ?_⟩, rfl⟩
    have hcovered := hs.covered other
    dsimp only
    by_cases same : other = token
    · subst same
      rw [if_pos rfl] at hcovered
      rw [Function.update_self]
      omega
    · rw [if_neg same] at hcovered
      rw [Function.update_of_ne same]
      exact hcovered

theorem payOut_ok {escrowId : Bytes32} {amount : Uint256} {toPayee : Bool} {call : TokenCall}
    (hlocked : (s.escrows escrowId).state = .locked)
    (h : s.payOut escrowId amount toPayee = .ok (next, call)) :
    ∃ e, (s.escrows escrowId).Pays e amount.val ∧
      next = { s with escrows := Function.update s.escrows escrowId e } ∧
      call = .transfer (s.escrows escrowId).token
        (if toPayee then (s.escrows escrowId).payee else (s.escrows escrowId).payer) amount := by
  unfold payOut at h
  dsimp only at h
  split at h
  · cases h
  obtain ⟨remaining, hremaining, h⟩ := bind_ok.mp h
  split at h
  · cases h
  rename_i hle
  rw [checked_ok, Escrow.remaining, Option.bind_eq_some_iff] at hremaining
  obtain ⟨left, hleft, hremaining⟩ := hremaining
  rw [Uint256.sub?_eq_some_iff] at hleft hremaining
  have hle : amount.val ≤ remaining.val := Fin.le_def.mp (not_lt.mp hle)
  obtain ⟨cumulative, hcumulative, h⟩ := bind_ok.mp h
  rw [checked_ok, Uint256.add?_eq_some_iff] at hcumulative
  obtain ⟨e, hpaid, h⟩ := bind_ok.mp h
  obtain ⟨rfl, rfl⟩ := Prod.mk.inj (pure_ok.mp h)
  refine ⟨e, ?_, rfl, rfl⟩
  cases toPayee with
  | true =>
      rw [if_pos rfl] at hcumulative hpaid
      exact (Escrow.paid_ok hlocked hpaid (by omega) (by omega)).1
  | false =>
      rw [if_neg Bool.false_ne_true] at hcumulative hpaid
      exact (Escrow.paid_ok hlocked hpaid (by omega) (by omega)).1

/-- What is paid out is set aside for the transfer. -/
theorem Solvent.pays {escrowId : Bytes32} {e : Escrow} {amount : ℕ} (hs : s.Solvent fun _ => 0)
    (hlocked : (s.escrows escrowId).state = .locked) (hpays : (s.escrows escrowId).Pays e amount) :
    Solvent { s with escrows := Function.update s.escrows escrowId e }
      (fun token => if token = (s.escrows escrowId).token then amount else 0) ∧
    s.Continues { s with escrows := Function.update s.escrows escrowId e } := by
  refine ⟨⟨hs.arbiter_ne_zero, fun other => ?_, fun token => ?_⟩, fun other => ?_, fun other => ?_⟩
  · dsimp only
    by_cases same : other = escrowId
    · subst same
      rw [Function.update_self]
      exact hpays.sound
    · rw [Function.update_of_ne same]
      exact hs.sound other
  · have hsum := owed_update s.escrows escrowId e token
    have howed := hpays.owed token
    have hcovered := hs.covered token
    dsimp only at hcovered ⊢
    omega
  · dsimp only
    by_cases same : other = escrowId
    · subst same
      rw [Function.update_self]
      exact hpays.terms
    · rw [Function.update_of_ne same]
  · dsimp only
    by_cases same : other = escrowId
    · subst same
      rw [Function.update_self]
      refine iff_of_false hpays.used ?_
      rw [hlocked]
      intro hnone
      cases hnone
    · rw [Function.update_of_ne same]

/-- What arrived since the pull began is what the new escrow owes. -/
theorem Solvent.locked {escrowId : Bytes32} {e : Escrow} {balanceBefore : Uint256}
    (hs : s.Solvent fun _ => 0) (hfree : (s.escrows escrowId).state = .none)
    (hlocked : e.state = .locked) (hreleased : e.released = 0) (hrefunded : e.refunded = 0)
    (howed : owed s.escrows e.token ≤ balanceBefore.val)
    (h : s.locked escrowId e balanceBefore = .ok next) :
    next.Solvent (fun _ => 0) ∧
      ∀ other, (s.escrows other).state ≠ .none → next.escrows other = s.escrows other := by
  unfold BrainEscrow.locked at h
  obtain ⟨received, hreceived, h⟩ := bind_ok.mp h
  rw [checked_ok, Uint256.sub?_eq_some_iff] at hreceived
  split at h
  · cases h
  rename_i hpositive
  obtain rfl := pure_ok.mp h
  refine ⟨⟨hs.arbiter_ne_zero, fun other => ?_, fun token => ?_⟩, fun other hused => ?_⟩
  · dsimp only
    by_cases same : other = escrowId
    · subst same
      rw [Function.update_self]
      simpa [Escrow.Sound, hlocked, hreleased, hrefunded] using Fin.pos_iff_ne_zero.mpr hpositive
    · rw [Function.update_of_ne same]
      exact hs.sound other
  · have hsum := owed_update s.escrows escrowId { e with amount := received } token
    have hcovered := hs.covered token
    have hold : (s.escrows escrowId).owedBy token = 0 := by simp [Escrow.owedBy, hfree]
    have hnew : Escrow.owedBy token { e with amount := received } =
        if e.token = token then received.val else 0 := by
      simp [Escrow.owedBy, hlocked, hreleased, hrefunded]
    rw [hold, hnew] at hsum
    dsimp only at hcovered ⊢
    by_cases same : e.token = token
    · subst same
      rw [if_pos rfl] at hsum
      omega
    · rw [if_neg same] at hsum
      omega
  · refine Function.update_of_ne ?_ _ _
    rintro rfl
    exact hused hfree

end BrainEscrow

end BrainCore.Contracts
