import BrainCore.Contracts.SessionKeySafety

/-!
# The histories of a smart account

Besides the current history there is one for each target that runs, to be put
back if the target fails.  The anchor of a holder is the same in all that have
one, and stays while no other key is granted to the holder.
-/

namespace BrainCore.Contracts

open BrainCore.Foundation

/-- The key of an execution was in force. -/
structure Execution.InLifetime (e : Execution) : Prop where
  started : e.key.validAfter ≤ e.timestamp
  unexpired : e.timestamp < e.key.validUntil

namespace AccountHistory

/-- An older history has no anchor of a holder, or the same. -/
def KeepsAnchors (newer older : AccountHistory) : Prop :=
  ∀ holder, older.account.windowAnchor holder ≠ 0 →
    newer.account.windowAnchor holder = older.account.windowAnchor holder

theorem KeepsAnchors.refl (h : AccountHistory) : h.KeepsAnchors h := fun _ _ => rfl

theorem KeepsAnchors.trans {newest newer older : AccountHistory} (hnew : newest.KeepsAnchors newer)
    (hold : newer.KeepsAnchors older) : newest.KeepsAnchors older := by
  intro holder hanchor
  have hsame := hold holder hanchor
  rw [hnew holder (by rw [hsame]; exact hanchor), hsame]

end AccountHistory

/-! ## Grants -/

theorem SessionKey.validate_window {key : SessionKey} {timestamp : Uint256}
    {registered : Bytes32 → Bool} (h : key.validate timestamp registered = .ok ()) :
    key.validAfter < key.validUntil := by
  unfold SessionKey.validate at h
  split at h
  · cases h
  split at h
  · cases h
  split at h
  · cases h
  · rename_i hwindow
    exact not_le.mp (not_or.mp hwindow).2

namespace BrainSmartAccount

/-- Only a grant to a holder sets its anchor. -/
theorem manage_windowAnchor {s next : BrainSmartAccount} {context : CallContext} {call : OwnerCall}
    {holder : Address} (h : s.manage context call = .ok next)
    (hother : ∀ key registered, call = .grantSessionKey key registered → key.holder ≠ holder) :
    next.windowAnchor holder = s.windowAnchor holder := by
  cases call with
  | grantSessionKey key registered =>
      obtain ⟨-, h⟩ := onlyOwner_ok h
      obtain ⟨_, -, h⟩ := bind_ok.mp h
      cases h
      dsimp only
      unfold anchorAt
      split
      · exact Function.update_of_ne (hother key registered rfl).symm ..
      · rfl
  | acceptOwnership =>
      change s.acceptOwnership context = .ok next at h
      unfold acceptOwnership at h
      split at h
      · cases h
      · cases h
        rfl
  | transferOwnership next =>
      obtain ⟨-, h⟩ := onlyOwner_ok h
      cases h
      rfl
  | revokeSessionKey holder =>
      obtain ⟨-, h⟩ := onlyOwner_ok h
      cases h
      rfl
  | pauseSessionKey holder =>
      obtain ⟨-, h⟩ := onlyOwner_ok h
      cases h
      rfl
  | unpauseSessionKey holder =>
      obtain ⟨-, h⟩ := onlyOwner_ok h
      cases h
      rfl
  | pauseAll =>
      obtain ⟨-, h⟩ := onlyOwner_ok h
      cases h
      rfl
  | unpauseAll =>
      obtain ⟨-, h⟩ := onlyOwner_ok h
      cases h
      rfl

end BrainSmartAccount

namespace AccountWorld

/-- A grant that is accepted. -/
structure Grants (w : AccountWorld) (context : CallContext) (key : SessionKey)
    (registered : Bytes32 → Bool) (granted : AccountWorld) : Prop where
  accepted : ∃ account, w.current.account.grantSessionKey context key registered = .ok account
  step : w.step (.manage context (.grantSessionKey key registered)) = some granted

/-- A step that grants a key to a holder. -/
def GrantsTo (holder : Address) (w : AccountWorld) (label : AccountLabel) : Prop :=
  ∃ context key registered granted, label = .manage context (.grantSessionKey key registered) ∧
    key.holder = holder ∧ w.Grants context key registered granted

variable {w next granted : AccountWorld} {initial : ℕ} {context : CallContext} {key : SessionKey}
  {registered : Bytes32 → Bool}

theorem Grants.current (h : w.Grants context key registered granted) :
    key.validAfter < key.validUntil ∧ granted.current.account.windowAnchor =
      w.current.account.anchorAt key.holder context.timestamp := by
  obtain ⟨account, haccount⟩ := h.accepted
  obtain ⟨-, rfl⟩ := at?_some h.step
  obtain ⟨-, hok⟩ := BrainSmartAccount.onlyOwner_ok haccount
  obtain ⟨_, hvalid, hnext⟩ := bind_ok.mp hok
  refine ⟨SessionKey.validate_window hvalid, ?_⟩
  rw [BrainSmartAccount.manage, haccount]
  cases hnext
  rfl

/-! ## The histories of a world -/

/-- The current history, and those that failures would put back, innermost first. -/
def histories (w : AccountWorld) : List AccountHistory :=
  w.current :: w.frames.map (·.saved)

/-- What one step does to the histories. -/
inductive Evolves (w : AccountWorld) (label : AccountLabel) : List AccountHistory → Prop where
  | changed (h : AccountHistory) (older : List AccountHistory)
      (executions : h.executions = w.current.executions) (anchors : h.KeepsAnchors w.current)
      (ungranted : ∀ holder, ¬GrantsTo holder w label →
        h.account.windowAnchor holder = w.current.account.windowAnchor holder)
      (sublist : older.Sublist (w.frames.map (·.saved))) : w.Evolves label (h :: older)
  | executed (h : AccountHistory) (e : Execution)
      (executions : h.executions = e :: w.current.executions) (lifetime : e.InLifetime)
      (anchors : h.account.windowAnchor = w.current.account.windowAnchor) :
      w.Evolves label (h :: w.histories)
  | undone : w.Evolves label (w.frames.map (·.saved))

theorem evolves_of_step {label : AccountLabel} (h : w.Inv initial)
    (hstep : w.step label = some next) : w.Evolves label next.histories := by
  cases label with
  | manage context call =>
      have hgrants := hstep
      obtain ⟨-, rfl⟩ := at?_some hstep
      cases hresult : w.current.account.manage context call with
      | error e => exact .changed _ _ rfl (.refl _) (fun _ _ => rfl) (List.Sublist.refl _)
      | ok account =>
          rw [hresult] at hgrants
          obtain ⟨hsame, -⟩ := BrainSmartAccount.manage_ok h.current.keys hresult
          refine .changed _ _ rfl hsame.anchored ?_ (List.Sublist.refl _)
          intro holder hungranted
          refine BrainSmartAccount.manage_windowAnchor hresult ?_
          rintro key registered rfl rfl
          exact hungranted ⟨context, key, registered, _, rfl, rfl, ⟨account, hresult⟩, hgrants⟩
  | execute context nonceSupplied target value data =>
      obtain ⟨-, hexecutes⟩ := executes_of_step h.current.keys hstep
      cases hexecutes with
      | rejected => exact .changed _ _ rfl (.refl _) (fun _ _ => rfl) (List.Sublist.refl _)
      | accepted account e haccepts =>
          refine .executed _ e rfl ?_ haccepts.windowAnchor
          constructor
          · rw [haccepts.key, haccepts.timestamp]
            exact haccepts.inForce.started
          · rw [haccepts.key, haccepts.timestamp]
            exact haccepts.inForce.unexpired
  | receive amount =>
      obtain ⟨account, hreceive, rfl⟩ := Option.map_eq_some_iff.mp hstep
      unfold BrainSmartAccount.receive at hreceive
      obtain ⟨balance, -, rfl⟩ := Option.map_eq_some_iff.mp hreceive
      exact .changed _ _ rfl (.refl _) (fun _ _ => rfl) (List.Sublist.refl _)
  | targetReturns success =>
      obtain ⟨current, frames, clock⟩ := w
      cases frames with
      | nil => cases hstep
      | cons frame frames =>
          cases success with
          | true =>
              cases hstep
              exact .changed _ _ rfl (.refl _) (fun _ _ => rfl) (List.sublist_cons_self _ _)
          | false =>
              cases hstep
              exact .undone

/-- What no step loses: anchors stay, and executions are made in the lifetime of their keys. -/
structure Lasting (histories : List AccountHistory) : Prop where
  anchors : histories.Pairwise AccountHistory.KeepsAnchors
  lifetimes : ∀ h ∈ histories, ∀ e ∈ h.executions, e.InLifetime

theorem Lasting.evolves {label : AccountLabel} {histories : List AccountHistory}
    (h : Lasting w.histories) (hevolves : w.Evolves label histories) : Lasting histories := by
  obtain ⟨hnewest, holder⟩ := List.pairwise_cons.mp h.anchors
  obtain ⟨hcurrent, hsaved⟩ := List.forall_mem_cons.mp h.lifetimes
  cases hevolves with
  | changed current older hexecutions hanchors _ hsublist =>
      refine ⟨List.pairwise_cons.mpr ⟨fun saved hmem => ?_, holder.sublist hsublist⟩,
        List.forall_mem_cons.mpr ⟨?_, fun saved hmem => hsaved saved (hsublist.subset hmem)⟩⟩
      · exact hanchors.trans (hnewest saved (hsublist.subset hmem))
      · rw [hexecutions]
        exact hcurrent
  | executed current e hexecutions hlifetime hanchors =>
      have hkeeps : current.KeepsAnchors w.current := fun holder _ => congrFun hanchors holder
      refine ⟨List.pairwise_cons.mpr ⟨fun saved hmem => ?_, h.anchors⟩,
        List.forall_mem_cons.mpr ⟨?_, h.lifetimes⟩⟩
      · rcases List.mem_cons.mp hmem with rfl | hmem
        · exact hkeeps
        · exact hkeeps.trans (hnewest saved hmem)
      · rw [hexecutions]
        exact List.forall_mem_cons.mpr ⟨hlifetime, hcurrent⟩
  | undone => exact ⟨holder, hsaved⟩

/-- Each history has no anchor of the holder, or this one. -/
def AnchoredAt (holder : Address) (anchor : Uint256) (histories : List AccountHistory) : Prop :=
  ∀ h ∈ histories, h.account.windowAnchor holder = 0 ∨ h.account.windowAnchor holder = anchor

theorem AnchoredAt.evolves {holder : Address} {anchor : Uint256} {label : AccountLabel}
    {histories : List AccountHistory} (h : AnchoredAt holder anchor w.histories)
    (hungranted : ¬GrantsTo holder w label) (hevolves : w.Evolves label histories) :
    AnchoredAt holder anchor histories := by
  obtain ⟨hcurrent, hsaved⟩ := List.forall_mem_cons.mp h
  cases hevolves with
  | changed current older _ _ hsame hsublist =>
      refine List.forall_mem_cons.mpr ⟨?_, fun saved hmem => hsaved saved (hsublist.subset hmem)⟩
      rw [hsame holder hungranted]
      exact hcurrent
  | executed current e _ _ hanchors =>
      refine List.forall_mem_cons.mpr ⟨?_, h⟩
      rw [hanchors]
      exact hcurrent
  | undone => exact hsaved

/-- The invariant of every run. -/
structure Recorded (initial : ℕ) (w : AccountWorld) : Prop where
  inv : w.Inv initial
  lasting : Lasting w.histories

theorem Recorded.step {label : AccountLabel} (h : w.Recorded initial)
    (hstep : w.step label = some next) : next.Recorded initial :=
  ⟨h.inv.step hstep, h.lasting.evolves (evolves_of_step h.inv hstep)⟩

theorem recorded_of_run {deployer : CallContext} {self owner policyRegistry : Address}
    {balance : Uint256} {start : AccountWorld} {labels : List AccountLabel}
    (hdeploy : deploy deployer self owner policyRegistry balance = .ok start)
    (hrun : accountMachine.run start labels = some w) : w.Recorded balance.val := by
  have hstart : start.Recorded balance.val := by
    have hinv := inv_deploy hdeploy
    unfold deploy at hdeploy
    split at hdeploy
    · cases hdeploy
    · cases hdeploy
      refine ⟨hinv, List.pairwise_singleton _ _, fun history hmem e hexecuted => ?_⟩
      rw [List.mem_singleton.mp hmem] at hexecuted
      cases hexecuted
  exact accountMachine.invariant_of_run (fun _ _ _ => Recorded.step) hstart hrun

/-- What a run without another grant to the holder keeps after a grant to it. -/
structure Anchored (holder : Address) (anchor : Uint256) (initial : ℕ) (w : AccountWorld) :
    Prop where
  recorded : w.Recorded initial
  anchored : AnchoredAt holder anchor w.histories

theorem Grants.anchored (hgrant : w.Grants context key registered granted)
    (h : w.Recorded initial) : granted.Anchored key.holder
      (w.current.account.anchorAt key.holder context.timestamp key.holder) initial := by
  have hrecorded := h.step hgrant.step
  refine ⟨hrecorded, List.forall_mem_cons.mpr ⟨.inr ?_, fun saved hmem => ?_⟩⟩
  · exact congrFun hgrant.current.2 key.holder
  · have hkeeps := (List.pairwise_cons.mp hrecorded.lasting.anchors).1 saved hmem
    by_cases hanchor : saved.account.windowAnchor key.holder = 0
    · exact .inl hanchor
    · right
      rw [← hkeeps key.holder hanchor, hgrant.current.2]

theorem anchored_of_meets {holder : Address} {anchor : Uint256} {labels : List AccountLabel}
    (h : w.Anchored holder anchor initial)
    (hmeets : accountMachine.Meets (fun w label => ¬GrantsTo holder w label) w labels)
    (hrun : accountMachine.run w labels = some next) : next.Anchored holder anchor initial := by
  refine accountMachine.invariant_of_meets ?_ h hmeets hrun
  intro state label after hungranted hstate hstep
  exact ⟨hstate.recorded.step hstep,
    hstate.anchored.evolves hungranted (evolves_of_step hstate.recorded.inv hstep)⟩

end AccountWorld
end BrainCore.Contracts
