import BrainCore.Contracts.SessionKeySafety

/-!
# The budget of a period

Spend is recorded for the start of a window, which depends on the period of the
key in force.  A key of another period reads another record, so the budget of a
window holds as long as what the holder spent in it was charged to it.
-/

namespace BrainCore.Contracts

open BrainCore.Foundation

/-- What a holder spent from a time on, under any key. -/
def spentSince (executions : List Execution) (holder : Address) (start : Uint256) : ℕ :=
  totalAmount (fun e => e.holder = holder ∧ start ≤ e.timestamp) executions

namespace AccountHistory

/-- At each acceptance under a key with a period, all that the holder spent since the start of the
window is within the cap of that key. -/
def BudgetKept (h : AccountHistory) : Prop :=
  ∀ later e earlier, h.executions = later ++ e :: earlier → ∀ start, e.window = some start →
    spentSince (e :: earlier) e.holder start ≤ e.key.maxPerPeriod.val

end AccountHistory

namespace AccountWorld

/-- What the holder spent since the start of its window was charged to this window. -/
def ChargedTogether (w : AccountWorld) (holder : Address) (timestamp : Uint256) : Prop :=
  let account := w.current.account
  ∀ start, windowStart (account.windowAnchor holder) (account.keys holder).periodSeconds timestamp =
      some start →
    ∀ e ∈ w.current.executions, e.holder = holder → start ≤ e.timestamp → e.amount ≠ 0 →
      e.key.periodSeconds ≠ 0 ∧
        windowStart (account.windowAnchor holder) e.key.periodSeconds e.timestamp = some start

/-- The steps on which the budget relies: executions under a key with a period. -/
def OneWindow (w : AccountWorld) : AccountLabel → Prop
  | .execute context _ _ _ _ =>
      (w.current.account.keys context.sender).periodSeconds ≠ 0 →
        w.ChargedTogether context.sender context.timestamp
  | _ => True

variable {w next : AccountWorld} {initial : ℕ}

/-- The budget is kept, also by each history that a failure would put back. -/
structure Budgeted (initial : ℕ) (w : AccountWorld) : Prop where
  inv : w.Inv initial
  current : w.current.BudgetKept
  saved : ∀ frame ∈ w.frames, frame.saved.BudgetKept

theorem budgetKept_accept {account : BrainSmartAccount} {context : CallContext}
    {nonceSupplied : Uint256} {e : Execution} (h : w.Budgeted initial)
    (hle : w.clock ≤ context.timestamp)
    (haccepts : w.current.account.Accepts context nonceSupplied account e)
    (hguard : (w.current.account.keys context.sender).periodSeconds ≠ 0 →
      w.ChargedTogether context.sender context.timestamp) :
    AccountHistory.BudgetKept
      { w.current with account, executions := e :: w.current.executions } := by
  intro later other earlier hsplit start hwindow
  cases later with
  | cons first later =>
      obtain ⟨-, hsplit⟩ := List.cons.inj hsplit
      exact h.current later other earlier hsplit start hwindow
  | nil =>
      obtain ⟨rfl, rfl⟩ := List.cons.inj hsplit
      have hcharged := (h.inv.current.accept hle haccepts).perPeriod [] e _ rfl start hwindow
      refine (totalAmount_mono ?_).trans hcharged
      have hcomputed := haccepts.window
      rw [hwindow] at hcomputed
      by_cases hperiod : e.key.periodSeconds = 0
      · rw [if_pos hperiod] at hcomputed
        cases hcomputed
      rw [if_neg hperiod] at hcomputed
      rw [haccepts.key] at hperiod hcomputed
      rintro e' hmem ⟨hholder, hsince⟩ hamount
      refine ⟨hholder, ?_⟩
      rcases List.mem_cons.mp hmem with rfl | hmem
      · exact hwindow
      rw [haccepts.holder] at hholder
      obtain ⟨hperiod', hstart⟩ := hguard hperiod start hcomputed.symm e' hmem hholder hsince hamount
      obtain ⟨-, -, hwindow', -⟩ := h.inv.current.windows e' hmem
      rw [hwindow', if_neg hperiod', hholder, hstart]

theorem Budgeted.step {label : AccountLabel} (hguard : w.OneWindow label)
    (h : w.Budgeted initial) (hstep : w.step label = some next) : next.Budgeted initial := by
  suffices hkept : next.current.BudgetKept ∧ ∀ frame ∈ next.frames, frame.saved.BudgetKept from
    ⟨h.inv.step hstep, hkept.1, hkept.2⟩
  cases label with
  | manage context call =>
      obtain ⟨-, rfl⟩ := at?_some hstep
      unfold managed
      split <;> exact ⟨h.current, h.saved⟩
  | receive amount =>
      obtain ⟨account, -, rfl⟩ := Option.map_eq_some_iff.mp hstep
      exact ⟨h.current, h.saved⟩
  | execute context nonceSupplied target value data =>
      obtain ⟨hle, hexecutes⟩ := executes_of_step h.inv.current.keys hstep
      cases hexecutes with
      | rejected => exact ⟨h.current, h.saved⟩
      | accepted account e haccepts =>
          exact ⟨budgetKept_accept h hle haccepts hguard,
            List.forall_mem_cons.mpr ⟨h.current, h.saved⟩⟩
  | targetReturns success =>
      obtain ⟨current, frames, clock⟩ := w
      cases frames with
      | nil => cases hstep
      | cons frame frames =>
          obtain ⟨hframe, hframes⟩ := List.forall_mem_cons.mp h.saved
          cases success with
          | true =>
              cases hstep
              exact ⟨h.current, hframes⟩
          | false =>
              cases hstep
              exact ⟨hframe, hframes⟩

/-- No period budget is exceeded in a run whose executions are charged together. -/
theorem budgetKept_of_meets {context : CallContext} {self owner policyRegistry : Address}
    {balance : Uint256} {start : AccountWorld} {labels : List AccountLabel}
    (hdeploy : deploy context self owner policyRegistry balance = .ok start)
    (hmeets : accountMachine.Meets OneWindow start labels)
    (hrun : accountMachine.run start labels = some w) : w.current.BudgetKept := by
  have hstart : start.Budgeted balance.val := by
    have hinv := inv_deploy hdeploy
    unfold deploy at hdeploy
    split at hdeploy
    · cases hdeploy
    · cases hdeploy
      refine ⟨hinv, fun later e earlier hsplit => ?_, fun _ hmem => (nomatch hmem)⟩
      exact absurd hsplit.symm (List.append_ne_nil_of_right_ne_nil _ (List.cons_ne_nil _ _))
  have hkeeps : accountMachine.Keeps OneWindow (Budgeted balance.val) :=
    fun _ _ _ hguard h hstep => h.step hguard hstep
  exact (accountMachine.invariant_of_meets hkeeps hstart hmeets hrun).current

theorem spendsTheBudget_budgetKept : ∃ final,
    accountMachine.run funded spendsTheBudget = some final ∧ final.current.BudgetKept := by
  have hdeploy : deploy deployerCalls 1 21 3 500 = .ok funded := rfl
  have hrun : ∃ final, accountMachine.run funded spendsTheBudget = some final := ⟨_, rfl⟩
  obtain ⟨final, hfinal⟩ := hrun
  have hmeets : accountMachine.Meets OneWindow funded spendsTheBudget := by
    refine ⟨trivial, fun granted hgrant => ?_⟩
    cases hgrant
    refine ⟨fun _ _ _ _ hmem => (nomatch hmem), fun executing hexecute => ?_⟩
    cases hexecute
    refine ⟨trivial, fun returned hreturn => ?_⟩
    cases hreturn
    refine ⟨fun _ start hstart e hmem _ _ _ => ?_, fun _ _ => trivial⟩
    obtain rfl := List.mem_singleton.mp hmem
    exact ⟨by decide, hstart⟩
  exact ⟨final, hfinal, budgetKept_of_meets hdeploy hmeets hfinal⟩

/-! ## A refreshed key -/

/-- After the budget of the day is spent the owner grants a key by the hour. -/
def refreshesTheKey : List AccountLabel :=
  [.manage ownerGrants (.grantSessionKey dailyKey fun _ => true),
   .execute holderSpends 0 5 100 [], .targetReturns true,
   .manage ownerRegrants
     (.grantSessionKey { dailyKey with periodSeconds := 3600 } fun _ => true),
   .execute holderSpendsAgain 1 5 100 [], .targetReturns true]

/-- Two hundred wei since the start of the hour, under a cap of one hundred. -/
theorem refreshesTheKey_exceeds : ∃ final,
    accountMachine.run funded refreshesTheKey = some final ∧ ¬final.current.BudgetKept := by
  refine ⟨_, rfl, fun hkept => ?_⟩
  exact absurd (hkept [] _ _ rfl 4800 rfl) (by decide)

end AccountWorld
end BrainCore.Contracts
