import BrainCore.Contracts.SessionKeyMetering

/-!
# Safety of session keys over whole runs

What holds of the account after any calls of its owner and its holders, also of
holders that call while the target of another holder runs.
-/

namespace BrainCore.Contracts

open BrainCore.Foundation

namespace AccountWorld

/-! ## One execution -/

/-- What becomes of a call of `executeViaSessionKey`: nothing, or an execution that waits for its
target. -/
inductive Executes (w : AccountWorld) (context : CallContext) (nonceSupplied : Uint256)
    (target : Address) (value : Uint256) (data : Calldata) : AccountWorld → Prop where
  | rejected : Executes w context nonceSupplied target value data
      { w with clock := context.timestamp }
  | accepted (account : BrainSmartAccount) (e : Execution)
      (accepts : w.current.account.Accepts context nonceSupplied account e)
      (target_eq : e.target = target) (value_eq : e.value = value) (data_eq : e.data = data) :
      Executes w context nonceSupplied target value data
        { current := { w.current with account, executions := e :: w.current.executions }
          frames := ⟨context.sender, w.current⟩ :: w.frames
          clock := context.timestamp }

variable {w next : AccountWorld} {initial : ℕ}

theorem at?_some {context : CallContext} {result : AccountWorld}
    (h : w.at? context result = some next) :
    w.clock ≤ context.timestamp ∧ next = { result with clock := context.timestamp } := by
  unfold at? at h
  split at h
  · rename_i hle
    cases h
    exact ⟨hle, rfl⟩
  · cases h

theorem executes_of_step {context : CallContext} {nonceSupplied value : Uint256} {target : Address}
    {data : Calldata} (hkeys : w.current.account.KeysGranted)
    (hstep : w.step (.execute context nonceSupplied target value data) = some next) :
    w.clock ≤ context.timestamp ∧ w.Executes context nonceSupplied target value data next := by
  obtain ⟨hle, rfl⟩ := at?_some hstep
  refine ⟨hle, ?_⟩
  cases hresult : w.current.account.executeViaSessionKey context nonceSupplied target value data with
  | error e => exact .rejected
  | ok accepted =>
      obtain ⟨account, e⟩ := accepted
      obtain ⟨haccepts, htarget, hvalue, hdata⟩ :=
        BrainSmartAccount.executeViaSessionKey_ok hkeys hresult
      rw [executed, haccepts.holder]
      exact .accepted account e haccepts htarget hvalue hdata

/-! ## The invariant -/

/-- The history is metered, also each history that a failure would put back. -/
structure Inv (initial : ℕ) (w : AccountWorld) : Prop where
  current : w.current.Metered initial w.clock
  saved : ∀ frame ∈ w.frames, frame.saved.Metered initial w.clock

theorem Inv.later {current : AccountHistory} {later : Uint256} (h : w.Inv initial)
    (hle : w.clock ≤ later) (hcurrent : current.Metered initial later) :
    Inv initial { w with current, clock := later } :=
  ⟨hcurrent, fun frame hmem => (h.saved frame hmem).mono hle⟩

theorem Inv.manage {context : CallContext} {call : OwnerCall} (h : w.Inv initial)
    (hstep : w.step (.manage context call) = some next) : next.Inv initial := by
  obtain ⟨hle, rfl⟩ := at?_some hstep
  cases hresult : w.current.account.manage context call with
  | error e => exact h.later hle (h.current.mono hle)
  | ok account =>
      obtain ⟨hsame, hkeys⟩ := BrainSmartAccount.manage_ok h.current.keys hresult
      exact h.later hle (h.current.manage hle hsame hkeys)

theorem Inv.execute {context : CallContext} {nonceSupplied value : Uint256} {target : Address}
    {data : Calldata} (h : w.Inv initial)
    (hstep : w.step (.execute context nonceSupplied target value data) = some next) :
    next.Inv initial := by
  obtain ⟨hle, hexecutes⟩ := executes_of_step h.current.keys hstep
  cases hexecutes with
  | rejected => exact h.later hle (h.current.mono hle)
  | accepted account e haccepts =>
      refine ⟨h.current.accept hle haccepts, fun frame hmem => ?_⟩
      rcases List.mem_cons.mp hmem with rfl | hmem
      · exact h.current.mono hle
      · exact (h.saved frame hmem).mono hle

theorem Inv.targetReturns {success : Bool} (h : w.Inv initial)
    (hstep : w.targetReturns success = some next) : next.Inv initial := by
  obtain ⟨current, frames, clock⟩ := w
  cases frames with
  | nil => cases hstep
  | cons frame frames =>
      have hframes : ∀ other ∈ frames, other.saved.Metered initial clock :=
        fun other hmem => h.saved other (List.mem_cons_of_mem _ hmem)
      cases success with
      | true =>
          cases hstep
          exact ⟨h.current.unlock, hframes⟩
      | false =>
          cases hstep
          exact ⟨h.saved frame List.mem_cons_self, hframes⟩

theorem Inv.step {label : AccountLabel} (h : w.Inv initial) (hstep : w.step label = some next) :
    next.Inv initial := by
  cases label with
  | manage context call => exact h.manage hstep
  | execute context nonceSupplied target value data => exact h.execute hstep
  | receive amount =>
      obtain ⟨account, hreceive, rfl⟩ := Option.map_eq_some_iff.mp hstep
      exact h.later (le_refl _) (h.current.receive hreceive)
  | targetReturns success => exact h.targetReturns hstep

/-! ## A call that fails is undone -/

/-- A run in which at least so many executions wait all the time. -/
def StaysAbove (depth : ℕ) : AccountWorld → List AccountLabel → AccountWorld → Prop
  | w, [], final => depth ≤ w.frames.length ∧ w = final
  | w, label :: labels, final =>
      depth ≤ w.frames.length ∧ ∃ next, w.step label = some next ∧ StaysAbove depth next labels final

/-- One step pushes, keeps or pops frames. -/
theorem frames_of_step {label : AccountLabel} (hstep : w.step label = some next) :
    w.frames <:+ next.frames ∨ ∃ frame, w.frames = frame :: next.frames := by
  cases label with
  | manage context call =>
      obtain ⟨-, rfl⟩ := at?_some hstep
      left
      unfold managed
      split <;> exact List.suffix_refl _
  | execute context nonceSupplied target value data =>
      obtain ⟨-, rfl⟩ := at?_some hstep
      left
      unfold executed
      split
      · exact List.suffix_cons _ _
      · exact List.suffix_refl _
  | receive amount =>
      obtain ⟨account, -, rfl⟩ := Option.map_eq_some_iff.mp hstep
      exact .inl (List.suffix_refl _)
  | targetReturns success =>
      right
      obtain ⟨current, frames, clock⟩ := w
      cases frames with
      | nil => cases hstep
      | cons frame frames =>
          cases success with
          | true =>
              cases hstep
              exact ⟨frame, rfl⟩
          | false =>
              cases hstep
              exact ⟨frame, rfl⟩

/-- What waits at the start of such a run waits at its end. -/
theorem suffix_of_staysAbove {base : List ExecutionFrame} {labels : List AccountLabel}
    {final : AccountWorld} (hbase : base <:+ w.frames)
    (hrun : StaysAbove base.length w labels final) : base <:+ final.frames := by
  induction labels generalizing w with
  | nil =>
      obtain ⟨-, rfl⟩ := hrun
      exact hbase
  | cons label labels ih =>
      obtain ⟨-, next, hstep, hrest⟩ := hrun
      apply ih _ hrest
      rcases frames_of_step hstep with hpush | ⟨frame, hpop⟩
      · exact hbase.trans hpush
      · have hdepth : base.length ≤ next.frames.length := by
          cases labels with
          | nil => exact hrest.1
          | cons => exact hrest.1
        rw [hpop] at hbase
        rcases List.suffix_cons_iff.mp hbase with rfl | hsuffix
        · rw [List.length_cons] at hdepth
          exact absurd hdepth (Nat.not_succ_le_self _)
        · exact hsuffix

/-- A failing target puts back what was there before its execution, whatever was called in it. -/
theorem undone_of_fails {inner last final : AccountWorld} {context : CallContext}
    {nonceSupplied value : Uint256} {target : Address} {data : Calldata}
    {labels : List AccountLabel} (hkeys : w.current.account.KeysGranted)
    (hstep : w.step (.execute context nonceSupplied target value data) = some inner)
    (haccepted : inner.frames.length = w.frames.length + 1)
    (hrun : StaysAbove inner.frames.length inner labels last)
    (hdepth : last.frames.length = inner.frames.length)
    (hfails : last.step (.targetReturns false) = some final) :
    final.current = w.current ∧ final.frames = w.frames := by
  have hframes := (suffix_of_staysAbove (List.suffix_refl _) hrun).eq_of_length hdepth.symm
  obtain ⟨-, hexecutes⟩ := executes_of_step hkeys hstep
  cases hexecutes with
  | rejected => exact absurd haccepted (Nat.ne_of_lt (Nat.lt_succ_self _))
  | accepted account e haccepts =>
      dsimp only at hframes
      obtain ⟨current, frames, clock⟩ := last
      cases hframes
      cases hfails
      exact ⟨rfl, rfl⟩

/-! ## Every run -/

/-- What the claims of the contract come to in one state. -/
structure Safe (initial : ℕ) (w : AccountWorld) : Prop where
  metered : w.current.Metered initial w.clock
  executes : ∀ context nonceSupplied target value data next,
    w.step (.execute context nonceSupplied target value data) = some next →
      w.Executes context nonceSupplied target value data next
  undone : ∀ context nonceSupplied target value data labels inner last final,
    w.step (.execute context nonceSupplied target value data) = some inner →
      inner.frames.length = w.frames.length + 1 → StaysAbove inner.frames.length inner labels last →
        last.frames.length = inner.frames.length → last.step (.targetReturns false) = some final →
          final.current = w.current ∧ final.frames = w.frames
  stopped : ∀ context holder next, context.sender = w.current.account.owner → holder ≠ 0 →
    (w.step (.manage context (.revokeSessionKey holder)) = some next ∨
      w.step (.manage context (.pauseSessionKey holder)) = some next ∨
      w.step (.manage context .pauseAll) = some next) →
    ∀ timestamp, ¬next.current.account.InForce holder timestamp

theorem onlyOwner_eq {s next : BrainSmartAccount} {context : CallContext}
    (howner : context.sender = s.owner) : s.onlyOwner context (.ok next) = .ok next :=
  if_neg (not_not.mpr howner)

/-- Revoking and pausing take effect at once. -/
theorem not_inForce_of_stops {context : CallContext} {holder : Address} {timestamp : Uint256}
    (howner : context.sender = w.current.account.owner) (hholder : holder ≠ 0)
    (hstep : w.step (.manage context (.revokeSessionKey holder)) = some next ∨
      w.step (.manage context (.pauseSessionKey holder)) = some next ∨
      w.step (.manage context .pauseAll) = some next) :
    ¬next.current.account.InForce holder timestamp := by
  intro hforce
  rcases hstep with hrevoke | hpause | hall
  · obtain ⟨-, rfl⟩ := at?_some hrevoke
    have hgranted := hforce.granted
    rw [BrainSmartAccount.manage, BrainSmartAccount.revokeSessionKey, onlyOwner_eq howner] at hgranted
    dsimp only [managed] at hgranted
    rw [Function.update_self] at hgranted
    exact hholder hgranted.symm
  · obtain ⟨-, rfl⟩ := at?_some hpause
    have hunpaused := hforce.unpaused
    rw [BrainSmartAccount.manage, BrainSmartAccount.pauseSessionKey, onlyOwner_eq howner] at hunpaused
    dsimp only [managed] at hunpaused
    rw [Function.update_self] at hunpaused
    cases hunpaused
  · obtain ⟨-, rfl⟩ := at?_some hall
    have hactive := hforce.active
    rw [BrainSmartAccount.manage, BrainSmartAccount.pauseAll, onlyOwner_eq howner] at hactive
    cases hactive

theorem Inv.safe (h : w.Inv initial) : w.Safe initial := by
  constructor
  · exact h.current
  · intro context nonceSupplied target value data next hstep
    exact (executes_of_step h.current.keys hstep).2
  · intro context nonceSupplied target value data labels inner last final
    exact undone_of_fails h.current.keys
  · intro context holder next howner hholder hstep timestamp
    exact not_inForce_of_stops howner hholder hstep

/-- The constructor; the account may have been sent ether before. -/
def deploy (context : CallContext) (self owner policyRegistry : Address) (balance : Uint256) :
    Except AccountError AccountWorld :=
  if owner = 0 ∨ policyRegistry = 0 then .error .zeroAddress
  else .ok { current := { account := { self, owner, balance } }, clock := context.timestamp }

theorem inv_deploy {context : CallContext} {self owner policyRegistry : Address}
    {balance : Uint256} (h : deploy context self owner policyRegistry balance = .ok w) :
    w.Inv balance.val := by
  unfold deploy at h
  split at h
  · cases h
  · cases h
    refine ⟨⟨?_, ?_, ?_, ?_, ?_, ?_, ?_⟩, fun _ hmem => (nomatch hmem)⟩
    · exact fun holder hne => absurd rfl hne
    · exact fun _ hmem => (nomatch hmem)
    · exact fun _ => rfl
    · exact fun _ _ => rfl
    · intro later e earlier hsplit
      exact absurd hsplit.symm (List.append_ne_nil_of_right_ne_nil _ (List.cons_ne_nil _ _))
    · exact fun _ hmem => (nomatch hmem)
    · rfl

theorem inv_of_run {context : CallContext} {self owner policyRegistry : Address}
    {balance : Uint256} {start : AccountWorld} {labels : List AccountLabel}
    (hdeploy : deploy context self owner policyRegistry balance = .ok start)
    (hrun : accountMachine.run start labels = some w) : w.Inv balance.val :=
  accountMachine.invariant_of_run (fun _ _ _ => Inv.step) (inv_deploy hdeploy) hrun

/-- Session-key metering, after any calls at non-decreasing times. -/
theorem metered_of_run {context : CallContext} {self owner policyRegistry : Address}
    {balance : Uint256} {start : AccountWorld} {labels : List AccountLabel}
    (hdeploy : deploy context self owner policyRegistry balance = .ok start)
    (hrun : accountMachine.run start labels = some w) : w.Safe balance.val :=
  (inv_of_run hdeploy hrun).safe

/-! ## A key that spends its whole budget -/

def deployerCalls : CallContext := ⟨29, 900, 8453, by decide, by decide⟩

def ownerGrants : CallContext := ⟨21, 1200, 8453, by decide, by decide⟩

def ownerRegrants : CallContext := ⟨21, 5000, 8453, by decide, by decide⟩

def holderSpends : CallContext := ⟨24, 5000, 8453, by decide, by decide⟩

def holderSpendsAgain : CallContext := ⟨24, 5001, 8453, by decide, by decide⟩

/-- One hundred wei a day, to one target. -/
def dailyKey : SessionKey :=
  { holder := 24, validAfter := 1200, validUntil := 100000, allowedTargets := [5], capMode := .native
    maxPerTx := 100, maxPerPeriod := 100, periodSeconds := 86400, policyVersion := 7 }

/-- The holder spends the budget, and once more, which is rejected. -/
def spendsTheBudget : List AccountLabel :=
  [.manage ownerGrants (.grantSessionKey dailyKey fun _ => true),
   .execute holderSpends 0 5 100 [], .targetReturns true,
   .execute holderSpendsAgain 1 5 1 []]

def funded : AccountWorld :=
  { current := { account := { self := 1, owner := 21, balance := 500 } }, clock := 900 }

theorem spendsTheBudget_safe : ∃ final,
    accountMachine.run funded spendsTheBudget = some final ∧ final.Safe 500 ∧
      final.current.account.balance = 400 ∧ final.frames.length = 0 := by
  have hdeploy : deploy deployerCalls 1 21 3 500 = .ok funded := rfl
  have hrun : ∃ final, accountMachine.run funded spendsTheBudget = some final ∧
      final.current.account.balance = 400 ∧ final.frames.length = 0 := ⟨_, rfl, rfl, rfl⟩
  obtain ⟨final, hfinal, hbalance, hframes⟩ := hrun
  exact ⟨final, hfinal, metered_of_run hdeploy hfinal, hbalance, hframes⟩

end AccountWorld
end BrainCore.Contracts
