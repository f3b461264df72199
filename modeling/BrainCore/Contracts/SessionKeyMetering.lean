import BrainCore.Contracts.SessionKeyScope

/-!
# Session-key metering

Every execution is charged to its key: the nonces count the executions, the
recorded spend of a window is the sum of the amounts charged to it, and the
ether that left is the native amount of the executions.
-/

namespace BrainCore.Contracts

open BrainCore.Foundation

/-! ## What the functions do when they do not revert -/

/-- The ether of an execution leaves the account. -/
def Execution.PaysOut (e : Execution) (self : Address) : Prop :=
  e.target ≠ self ∧ e.key.capMode = .native

instance (e : Execution) (self : Address) : Decidable (e.PaysOut self) :=
  inferInstanceAs (Decidable (_ ∧ _))

namespace BrainSmartAccount

/-- The key of a holder is in force at a time. -/
structure InForce (s : BrainSmartAccount) (holder : Address) (timestamp : Uint256) : Prop where
  active : s.allPaused = false
  unpaused : s.paused holder = false
  granted : (s.keys holder).holder = holder
  started : (s.keys holder).validAfter ≤ timestamp
  unexpired : timestamp < (s.keys holder).validUntil

theorem activeKey_ok {s : BrainSmartAccount} {context : CallContext} {key : SessionKey}
    (h : s.activeKey context = .ok key) :
    key = s.keys context.sender ∧ s.InForce context.sender context.timestamp := by
  unfold activeKey at h
  dsimp only at h
  split at h
  · cases h
  rename_i hall
  split at h
  · cases h
  split at h
  · cases h
  rename_i hholder
  split at h
  · cases h
  rename_i hpaused
  split at h
  · cases h
  rename_i htime
  cases h
  rw [not_or, not_lt, not_le] at htime
  exact ⟨rfl, eq_false_of_ne_true hall, eq_false_of_ne_true hpaused, not_not.mp hholder, htime.1,
    htime.2⟩

theorem useNonce_ok {s next : BrainSmartAccount} {context : CallContext} {nonceSupplied : Uint256}
    (h : s.useNonce context nonceSupplied = .ok next) :
    nonceSupplied = s.nonces context.sender ∧
      ∃ nonce : Uint256, nonce.val = (s.nonces context.sender).val + 1 ∧ next = { s with
        nonces := Function.update s.nonces context.sender nonce
        locked := Function.update s.locked context.sender true } := by
  unfold useNonce at h
  split at h
  · cases h
  · rename_i hnonce
    obtain ⟨nonce, hadd, hnext⟩ := bind_ok.mp h
    cases hnext
    exact ⟨not_not.mp hnonce, nonce, Uint256.add?_eq_some_iff.mp (checked_ok.mp hadd), rfl⟩

/-- What a window holds after it is charged. -/
def charged (s : BrainSmartAccount) (holder : Address) (window spent : Uint256) :
    Address → Uint256 → Uint256 :=
  Function.update s.windowSpent holder (Function.update (s.windowSpent holder) window spent)

theorem charged_val {s : BrainSmartAccount} {holder other : Address}
    {start window spent amount : Uint256}
    (hspent : spent.val = (s.windowSpent holder start).val + amount.val) :
    (s.charged holder start spent other window).val = (s.windowSpent other window).val +
      if holder = other ∧ some start = some window then amount.val else 0 := by
  unfold charged
  by_cases hother : other = holder
  · subst hother
    rw [Function.update_self]
    by_cases hwindow : window = start
    · subst hwindow
      rw [Function.update_self, if_pos ⟨rfl, rfl⟩, hspent]
    · rw [Function.update_of_ne hwindow,
        if_neg fun h => hwindow (Option.some.inj h.2).symm, Nat.add_zero]
  · rw [Function.update_of_ne hother, if_neg fun h => hother h.1.symm, Nat.add_zero]

/-- How a window is charged. -/
structure Charges (s : BrainSmartAccount) (holder : Address) (key : SessionKey)
    (timestamp amount : Uint256) (spending : Address → Uint256 → Uint256)
    (window : Option Uint256) : Prop where
  start : window = if key.periodSeconds = 0 then none else
    windowStart (s.windowAnchor holder) key.periodSeconds timestamp
  windowed : key.periodSeconds ≠ 0 → window.isSome
  spent : ∀ other start, (spending other start).val = (s.windowSpent other start).val +
    if holder = other ∧ window = some start then amount.val else 0
  perPeriod : ∀ start, window = some start → spending holder start ≤ key.maxPerPeriod

theorem meter_ok {s next : BrainSmartAccount} {holder : Address} {key : SessionKey}
    {timestamp amount : Uint256} {window : Option Uint256}
    (h : s.meter holder key timestamp amount = .ok (next, window)) :
    ∃ spending, next = { s with windowSpent := spending } ∧
      s.Charges holder key timestamp amount spending window := by
  unfold meter at h
  split at h
  · rename_i hperiod
    cases h
    refine ⟨s.windowSpent, rfl, (if_pos hperiod).symm, fun hne => absurd hperiod hne, ?_,
      fun _ hnone => (nomatch hnone)⟩
    intro other start
    rw [if_neg fun hmetered => nomatch hmetered.2]
    rfl
  · rename_i hperiod
    obtain ⟨start, hstart, h⟩ := bind_ok.mp h
    obtain ⟨spent, hspent, h⟩ := bind_ok.mp h
    have hstart := checked_ok.mp hstart
    have hspent := Uint256.add?_eq_some_iff.mp (checked_ok.mp hspent)
    split at h
    · cases h
    · rename_i hcap
      cases h
      refine ⟨s.charged holder start spent, rfl, hstart.symm.trans (if_neg hperiod).symm,
        fun _ => rfl, fun other window => charged_val hspent, ?_⟩
      rintro window hwindow
      cases hwindow
      unfold charged
      rw [Function.update_self, Function.update_self]
      exact not_lt.mp hcap

theorem pay_ok {s next : BrainSmartAccount} {target : Address} {value : Uint256}
    (h : s.pay target value = .ok next) : ∃ balance : Uint256,
      s.balance.val = balance.val + (if target = s.self then 0 else value.val) ∧
        next = { s with balance } := by
  unfold pay at h
  split at h
  · cases h
  split at h
  · rename_i hself
    cases h
    exact ⟨s.balance, by rw [if_pos hself, Nat.add_zero], rfl⟩
  · rename_i hself
    obtain ⟨balance, hsub, hnext⟩ := bind_ok.mp h
    cases hnext
    refine ⟨balance, ?_, rfl⟩
    rw [if_neg hself, Uint256.sub?_eq_some_iff.mp (checked_ok.mp hsub), Nat.add_comm]

/-- The keys that are there were granted. -/
def KeysGranted (s : BrainSmartAccount) : Prop := ∀ holder,
  (s.keys holder).holder ≠ 0 → (s.keys holder).Meterable ∧ s.windowAnchor holder ≠ 0

/-- An execution that passed every check, and what it did to the account. -/
structure Accepts (s : BrainSmartAccount) (context : CallContext) (nonceSupplied : Uint256)
    (next : BrainSmartAccount) (e : Execution) : Prop where
  holder : e.holder = context.sender
  key : e.key = s.keys context.sender
  timestamp : e.timestamp = context.timestamp
  inForce : s.InForce context.sender context.timestamp
  inScope : e.InScope
  nonceSupplied : nonceSupplied = s.nonces context.sender
  nonce : (next.nonces context.sender).val = (s.nonces context.sender).val + 1
  nonces : ∀ other, other ≠ context.sender → next.nonces other = s.nonces other
  window : e.window = if e.key.periodSeconds = 0 then none else
    windowStart (s.windowAnchor context.sender) e.key.periodSeconds context.timestamp
  windowed : e.key.periodSeconds ≠ 0 → e.window.isSome
  spent : ∀ holder start, (next.windowSpent holder start).val = (s.windowSpent holder start).val +
    if e.holder = holder ∧ e.window = some start then e.amount.val else 0
  perPeriod : ∀ start, e.window = some start →
    next.windowSpent context.sender start ≤ e.key.maxPerPeriod
  balance : s.balance.val = next.balance.val +
    if e.PaysOut s.self then e.amount.val else 0
  self : next.self = s.self
  keys : next.keys = s.keys
  windowAnchor : next.windowAnchor = s.windowAnchor

theorem executeViaSessionKey_ok {s next : BrainSmartAccount} {context : CallContext}
    {nonceSupplied value : Uint256} {target : Address} {data : Calldata} {e : Execution}
    (hkeys : s.KeysGranted)
    (h : s.executeViaSessionKey context nonceSupplied target value data = .ok (next, e)) :
    s.Accepts context nonceSupplied next e ∧ e.target = target ∧ e.value = value ∧
      e.data = data := by
  unfold executeViaSessionKey at h
  obtain ⟨key, hkey, h⟩ := bind_ok.mp h
  obtain ⟨rfl, hforce⟩ := activeKey_ok hkey
  obtain ⟨s₁, hnonce, h⟩ := bind_ok.mp h
  obtain ⟨hsupplied, nonce, hval, rfl⟩ := useNonce_ok hnonce
  split at h
  · cases h
  rename_i htarget
  split at h
  · cases h
  rename_i hselector
  obtain ⟨amount, hamount, h⟩ := bind_ok.mp h
  split at h
  · cases h
  rename_i hmax
  obtain ⟨⟨s₂, window⟩, hmeter, h⟩ := bind_ok.mp h
  obtain ⟨s₃, hpay, h⟩ := bind_ok.mp h
  cases h
  obtain ⟨hmeterable, -⟩ := hkeys context.sender (by
    rw [hforce.granted]
    exact context.sender_ne_zero)
  have hallowed : (s.keys context.sender).allowedSelectors ≠ [] →
      selectorOf data ∈ (s.keys context.sender).allowedSelectors := by
    intro hsome
    by_contra hnot
    exact hselector ⟨fun hlen => hsome (List.eq_nil_of_length_eq_zero hlen), by simpa using hnot⟩
  have hmeasures := SessionKey.capAmount_ok hmeterable hallowed hamount
  have hvalue : ∀ self, (if target = self then 0 else value.val) =
      if target ≠ self ∧ (s.keys context.sender).capMode = .native then amount.val else 0 := by
    intro self
    rw [hmeasures.value]
    by_cases hself : target = self
    · rw [if_pos hself, if_neg fun h => h.1 hself]
    · by_cases hmode : (s.keys context.sender).capMode = .native
      · rw [if_neg hself, if_pos hmode, if_pos ⟨hself, hmode⟩]
      · rw [if_neg hself, if_neg hmode, if_neg fun h => hmode h.2]
        rfl
  refine ⟨?_, rfl, rfl, rfl⟩
  obtain ⟨spending, rfl, hcharges⟩ := meter_ok hmeter
  obtain ⟨balance, hbalance, rfl⟩ := pay_ok hpay
  constructor
  · rfl
  · rfl
  · rfl
  · exact hforce
  · exact ⟨by simpa using htarget, hallowed, hmeasures, not_lt.mp hmax⟩
  · exact hsupplied
  · dsimp only
    rw [Function.update_self]
    exact hval
  · intro other hother
    dsimp only
    rw [Function.update_of_ne hother]
  · exact hcharges.start
  · exact hcharges.windowed
  · exact hcharges.spent
  · exact hcharges.perPeriod
  · exact hbalance.trans (congrArg (balance.val + ·) (hvalue s.self))
  · rfl
  · rfl
  · rfl

/-! ## The functions of the owner -/

/-- What no function of the owner touches. -/
structure SameSpending (s next : BrainSmartAccount) : Prop where
  self : next.self = s.self
  nonces : next.nonces = s.nonces
  windowSpent : next.windowSpent = s.windowSpent
  balance : next.balance = s.balance
  anchored : ∀ holder, s.windowAnchor holder ≠ 0 → next.windowAnchor holder = s.windowAnchor holder

/-- A holder that has an anchor keeps it. -/
theorem anchorAt_eq {s : BrainSmartAccount} {granted holder : Address} {timestamp : Uint256}
    (h : s.windowAnchor holder ≠ 0) :
    s.anchorAt granted timestamp holder = s.windowAnchor holder := by
  unfold anchorAt
  split
  · rename_i hnone
    exact Function.update_of_ne (fun heq => h (by rw [heq]; exact hnone)) ..
  · rfl

theorem onlyOwner_ok {s next : BrainSmartAccount} {context : CallContext}
    {result : Except AccountError BrainSmartAccount} (h : s.onlyOwner context result = .ok next) :
    context.sender = s.owner ∧ result = .ok next := by
  unfold onlyOwner at h
  split at h
  · cases h
  · rename_i howner
    exact ⟨not_not.mp howner, h⟩

/-- A change of nothing that the keys and the spending are about. -/
theorem SameSpending.of_eq {s next : BrainSmartAccount} (hkeys : s.KeysGranted)
    (self : next.self = s.self) (keys : next.keys = s.keys) (nonces : next.nonces = s.nonces)
    (windowSpent : next.windowSpent = s.windowSpent) (balance : next.balance = s.balance)
    (windowAnchor : next.windowAnchor = s.windowAnchor) :
    s.SameSpending next ∧ next.KeysGranted := by
  refine ⟨⟨self, nonces, windowSpent, balance, fun holder _ => congrFun windowAnchor holder⟩, ?_⟩
  intro holder
  rw [keys, windowAnchor]
  exact hkeys holder

theorem grantSessionKey_ok {s next : BrainSmartAccount} {context : CallContext} {key : SessionKey}
    {registered : Bytes32 → Bool} (hkeys : s.KeysGranted)
    (h : s.grantSessionKey context key registered = .ok next) :
    s.SameSpending next ∧ next.KeysGranted := by
  obtain ⟨-, h⟩ := onlyOwner_ok h
  obtain ⟨_, hvalid, h⟩ := bind_ok.mp h
  cases h
  refine ⟨⟨rfl, rfl, rfl, rfl, fun holder hanchor => anchorAt_eq hanchor⟩, ?_⟩
  intro holder
  dsimp only
  by_cases hgranted : holder = key.holder
  · subst hgranted
    rw [Function.update_self]
    refine fun _ => ⟨SessionKey.validate_ok hvalid, ?_⟩
    unfold anchorAt
    split
    · rw [Function.update_self]
      exact context.timestamp_ne_zero
    · assumption
  · rw [Function.update_of_ne hgranted]
    intro hholder
    obtain ⟨hmeterable, hanchor⟩ := hkeys holder hholder
    exact ⟨hmeterable, by rw [anchorAt_eq hanchor]; exact hanchor⟩

theorem revokeSessionKey_ok {s next : BrainSmartAccount} {context : CallContext} {holder : Address}
    (hkeys : s.KeysGranted) (h : s.revokeSessionKey context holder = .ok next) :
    s.SameSpending next ∧ next.KeysGranted := by
  obtain ⟨-, h⟩ := onlyOwner_ok h
  cases h
  refine ⟨⟨rfl, rfl, rfl, rfl, fun _ _ => rfl⟩, fun other => ?_⟩
  dsimp only
  by_cases hother : other = holder
  · rw [hother, Function.update_self]
    exact fun hne => absurd rfl hne
  · rw [Function.update_of_ne hother]
    exact hkeys other

theorem manage_ok {s next : BrainSmartAccount} {context : CallContext} {call : OwnerCall}
    (hkeys : s.KeysGranted) (h : s.manage context call = .ok next) :
    s.SameSpending next ∧ next.KeysGranted := by
  cases call with
  | grantSessionKey key registered => exact grantSessionKey_ok hkeys h
  | revokeSessionKey holder => exact revokeSessionKey_ok hkeys h
  | acceptOwnership =>
      change s.acceptOwnership context = .ok next at h
      unfold acceptOwnership at h
      split at h
      · cases h
      · cases h
        exact SameSpending.of_eq hkeys rfl rfl rfl rfl rfl rfl
  | transferOwnership next =>
      obtain ⟨-, h⟩ := onlyOwner_ok h
      cases h
      exact SameSpending.of_eq hkeys rfl rfl rfl rfl rfl rfl
  | pauseSessionKey holder =>
      obtain ⟨-, h⟩ := onlyOwner_ok h
      cases h
      exact SameSpending.of_eq hkeys rfl rfl rfl rfl rfl rfl
  | unpauseSessionKey holder =>
      obtain ⟨-, h⟩ := onlyOwner_ok h
      cases h
      exact SameSpending.of_eq hkeys rfl rfl rfl rfl rfl rfl
  | pauseAll =>
      obtain ⟨-, h⟩ := onlyOwner_ok h
      cases h
      exact SameSpending.of_eq hkeys rfl rfl rfl rfl rfl rfl
  | unpauseAll =>
      obtain ⟨-, h⟩ := onlyOwner_ok h
      cases h
      exact SameSpending.of_eq hkeys rfl rfl rfl rfl rfl rfl

end BrainSmartAccount

/-! ## What the history adds up to -/

/-- The amounts of the executions with a property. -/
def totalAmount (p : Execution → Prop) [DecidablePred p] (executions : List Execution) : ℕ :=
  (executions.map fun e => if p e then e.amount.val else 0).sum

theorem totalAmount_cons (p : Execution → Prop) [DecidablePred p] (e : Execution)
    (executions : List Execution) :
    totalAmount p (e :: executions) =
      (if p e then e.amount.val else 0) + totalAmount p executions :=
  List.sum_cons

/-- More executions count when more of the amounts do. -/
theorem totalAmount_mono {p q : Execution → Prop} [DecidablePred p] [DecidablePred q]
    {executions : List Execution}
    (h : ∀ e ∈ executions, p e → e.amount ≠ 0 → q e) :
    totalAmount p executions ≤ totalAmount q executions := by
  induction executions with
  | nil => exact Nat.le_refl _
  | cons e executions ih =>
      rw [totalAmount_cons, totalAmount_cons]
      refine Nat.add_le_add ?_ (ih fun e' hmem => h e' (List.mem_cons_of_mem _ hmem))
      by_cases hp : p e
      · by_cases hzero : e.amount = 0
        · rw [hzero]
          split <;> exact Nat.zero_le _
        · rw [if_pos hp, if_pos (h e List.mem_cons_self hp hzero)]
      · rw [if_neg hp]
        exact Nat.zero_le _

theorem totalAmount_append (p : Execution → Prop) [DecidablePred p] (later earlier : List Execution) :
    totalAmount p (later ++ earlier) = totalAmount p later + totalAmount p earlier := by
  unfold totalAmount
  rw [List.map_append, List.sum_append]

theorem totalAmount_eq_zero {p : Execution → Prop} [DecidablePred p] {executions : List Execution}
    (h : ∀ e ∈ executions, p e → e.amount = 0) : totalAmount p executions = 0 := by
  induction executions with
  | nil => rfl
  | cons e executions ih =>
      obtain ⟨hfirst, hrest⟩ := List.forall_mem_cons.mp h
      rw [totalAmount_cons, ih hrest, Nat.add_zero]
      split
      · rename_i hp
        rw [hfirst hp]
        rfl
      · rfl

/-- What the executions charged to a window of a holder. -/
def spentIn (executions : List Execution) (holder : Address) (window : Uint256) : ℕ :=
  totalAmount (fun e => e.holder = holder ∧ e.window = some window) executions

namespace AccountHistory

/-- The records of the account agree with its history, from an initial balance on. -/
structure Metered (initial : ℕ) (clock : Uint256) (h : AccountHistory) : Prop where
  keys : h.account.KeysGranted
  inScope : ∀ e ∈ h.executions, e.InScope
  nonce : ∀ holder, (h.account.nonces holder).val =
    h.executions.countP fun e => e.holder = holder
  spent : ∀ holder window, (h.account.windowSpent holder window).val =
    spentIn h.executions holder window
  perPeriod : ∀ later e earlier, h.executions = later ++ e :: earlier →
    ∀ window, e.window = some window →
      spentIn (e :: earlier) e.holder window ≤ e.key.maxPerPeriod.val
  windows : ∀ e ∈ h.executions, e.timestamp ≤ clock ∧ h.account.windowAnchor e.holder ≠ 0 ∧
    (e.window = if e.key.periodSeconds = 0 then none else
      windowStart (h.account.windowAnchor e.holder) e.key.periodSeconds e.timestamp) ∧
    (e.key.periodSeconds ≠ 0 → e.window.isSome)
  balance : h.account.balance.val +
      totalAmount (fun e => e.PaysOut h.account.self) h.executions = initial + h.received

variable {initial : ℕ} {clock : Uint256} {h : AccountHistory}

/-- Time goes on, and the owner changes keys and pauses. -/
theorem Metered.manage {account : BrainSmartAccount} {later : Uint256}
    (hm : h.Metered initial clock) (hle : clock ≤ later)
    (hsame : h.account.SameSpending account) (hkeys : account.KeysGranted) :
    Metered initial later { h with account } := by
  constructor
  · exact hkeys
  · exact hm.inScope
  · intro holder
    rw [hsame.nonces]
    exact hm.nonce holder
  · intro holder window
    rw [hsame.windowSpent]
    exact hm.spent holder window
  · exact hm.perPeriod
  · intro e hmem
    obtain ⟨htime, hanchor, hwindow⟩ := hm.windows e hmem
    dsimp only
    rw [hsame.anchored e.holder hanchor]
    exact ⟨htime.trans hle, hanchor, hwindow⟩
  · dsimp only
    rw [hsame.balance, hsame.self]
    exact hm.balance

theorem Metered.mono {later : Uint256} (hm : h.Metered initial clock) (hle : clock ≤ later) :
    h.Metered initial later := by
  obtain ⟨hsame, hkeys⟩ := BrainSmartAccount.SameSpending.of_eq hm.keys rfl rfl rfl rfl rfl rfl
  exact hm.manage hle hsame hkeys

theorem Metered.unlock {holder : Address} (hm : h.Metered initial clock) :
    Metered initial clock { h with account := h.account.unlock holder } := by
  obtain ⟨hsame, hkeys⟩ :
      h.account.SameSpending (h.account.unlock holder) ∧ (h.account.unlock holder).KeysGranted :=
    BrainSmartAccount.SameSpending.of_eq hm.keys rfl rfl rfl rfl rfl rfl
  exact hm.manage (le_refl clock) hsame hkeys

theorem Metered.receive {account : BrainSmartAccount} {amount : Uint256}
    (hm : h.Metered initial clock) (hreceive : h.account.receive amount = some account) :
    Metered initial clock { h with account, received := h.received + amount.val } := by
  unfold BrainSmartAccount.receive at hreceive
  obtain ⟨balance, hadd, rfl⟩ := Option.map_eq_some_iff.mp hreceive
  have hval := Uint256.add?_eq_some_iff.mp hadd
  refine ⟨hm.keys, hm.inScope, hm.nonce, hm.spent, hm.perPeriod, hm.windows, ?_⟩
  have hbalance := hm.balance
  dsimp only
  omega

/-- An accepted execution is counted, charged and paid. -/
theorem Metered.accept {account : BrainSmartAccount} {context : CallContext}
    {nonceSupplied : Uint256} {e : Execution} (hm : h.Metered initial clock)
    (hle : clock ≤ context.timestamp)
    (haccepts : h.account.Accepts context nonceSupplied account e) :
    Metered initial context.timestamp
      { h with account, executions := e :: h.executions } := by
  have hspent : ∀ holder window, (account.windowSpent holder window).val =
      spentIn (e :: h.executions) holder window := by
    intro holder window
    rw [spentIn, totalAmount_cons, haccepts.spent, hm.spent, Nat.add_comm]
    rfl
  constructor
  · intro holder
    rw [haccepts.keys, haccepts.windowAnchor]
    exact hm.keys holder
  · intro other hmem
    rcases List.mem_cons.mp hmem with rfl | hmem
    · exact haccepts.inScope
    · exact hm.inScope other hmem
  · intro holder
    rw [List.countP_cons, ← hm.nonce holder]
    by_cases hholder : holder = context.sender
    · rw [hholder, haccepts.nonce, if_pos (decide_eq_true haccepts.holder)]
    · rw [haccepts.nonces holder hholder, if_neg, Nat.add_zero]
      rw [haccepts.holder, decide_eq_true_iff]
      exact fun heq => hholder heq.symm
  · exact hspent
  · intro later other earlier hsplit window hwindow
    cases later with
    | nil =>
        obtain ⟨rfl, rfl⟩ := List.cons.inj hsplit
        rw [← hspent, haccepts.holder]
        exact haccepts.perPeriod window hwindow
    | cons first later =>
        obtain ⟨-, hsplit⟩ := List.cons.inj hsplit
        exact hm.perPeriod later other earlier hsplit window hwindow
  · intro other hmem
    dsimp only
    rw [haccepts.windowAnchor]
    rcases List.mem_cons.mp hmem with rfl | hmem
    · rw [haccepts.holder, haccepts.timestamp]
      refine ⟨le_refl _, ?_, haccepts.window, haccepts.windowed⟩
      refine (hm.keys context.sender ?_).2
      rw [haccepts.inForce.granted]
      exact context.sender_ne_zero
    · obtain ⟨htime, hrest⟩ := hm.windows other hmem
      exact ⟨htime.trans hle, hrest⟩
  · have hbalance := hm.balance
    have hpaid := haccepts.balance
    dsimp only
    rw [totalAmount_cons, haccepts.self]
    omega

end AccountHistory
end BrainCore.Contracts
