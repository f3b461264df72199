import BrainCore.Execution.Outbox.WorkerSafety

/-!
# How often a rail is called

A row is handed to its rail at most as often as its attempts allow, and once
more for each time it was put back.  A rail that has answered with a receipt is
not called again for the row, as long as no row is put back under a call that
may still reach the rail, and no worker stops between the answer and its record.
-/

namespace BrainCore.Execution

open BrainCore.Foundation BrainCore.Gate BrainCore.Ledger BrainCore.Policy

/-! ## One step of a call -/

/-- The rail has answered, and the answer is not stored yet. -/
def RowPhase.holding : RowPhase → Bool
  | .answered _ _ | .audited _ _ _ => true
  | _ => false

/-- Claims take such a row. -/
def OutboxRow.isOpen (row : OutboxRow) : Bool := row.status = .pending || row.status = .reconciling

namespace RowCall

/-- The call may still reach the rail. -/
def mayDispatch (call : RowCall) : Bool :=
  match call.phase with
  | .claimed => call.row.storedReceipt.isNone
  | .dispatching _ => true
  | _ => false

/-- The call may still get a receipt, or has got one. -/
def spends (call : RowCall) : Bool := call.returned || call.mayDispatch

theorem rejected_returned (call : RowCall) (error : DispatchError) :
    (call.rejected error).returned = call.returned := by
  unfold rejected
  split <;> rfl

theorem prepare_returned (call : RowCall) {executionId : String} {blocked : Option String}
    {credentials : Except DispatchError (Option (List (String × Json)))} :
    (call.prepare executionId blocked credentials).returned = call.returned := by
  unfold prepare
  split
  · rfl
  split <;> first | rfl | exact call.rejected_returned _

end RowCall

/-- The request carries the intent and the idempotency key of the row. -/
structure RequestOf (row : OutboxRow) (request : DispatchRequest) : Prop where
  intent : request.proposalId = row.paymentIntentId
  key : request.idempotencyKey = row.idempotencyKey

/-- What a call that goes on keeps. -/
structure CallGoesOn (call latest : RowCall) : Prop where
  row : latest.row = call.row
  spends : latest.spends = true → call.spends = true
  request : ∀ request, latest.request = some request →
    call.request = some request ∨ RequestOf call.row request

/-- How a call marks its row. -/
inductive Marks (call : RowCall) : (OutboxRow → OutboxRow) → RowCall → Prop where
  | stores (executionId : String) (receipt : List (String × Json)) (afterId : String)
      (assign : OutboxRow → OutboxRow) (phase : call.phase = .audited executionId receipt afterId)
      (stored : ∀ row, (assign row).storedReceipt ≠ none)
      (attempts : ∀ row, (assign row).attemptCount = row.attemptCount)
      (closed : ∀ row, (assign row).isOpen = false) :
      Marks call assign { call with phase := .settling executionId (.obj receipt) }
  | ends (assign : OutboxRow → OutboxRow) (holding : call.phase.holding = false)
      (stored : ∀ row, (assign row).storedReceipt = row.storedReceipt)
      (attempts : ∀ row, (assign row).attemptCount = row.attemptCount + 1 ∨
        (assign row).attemptCount = row.attemptCount ∧ (assign row).isOpen = false) :
      Marks call assign { call with phase := .ended }

section Steps

variable {call latest : RowCall} {db next : Database} {recordsSpend : Bool} {step : RowStep}
  {outcome : Database × RowCall}

theorem goesOn_phase {phase : RowPhase}
    (h : RowCall.mayDispatch { call with phase } = true → call.mayDispatch = true) :
    CallGoesOn call { call with phase } := by
  refine ⟨rfl, fun hspends => ?_, fun request => .inl⟩
  unfold RowCall.spends at hspends ⊢
  rcases (Bool.or_eq_true _ _).mp hspends with hreturned | hmay
  · exact (Bool.or_eq_true _ _).mpr (.inl hreturned)
  · exact (Bool.or_eq_true _ _).mpr (.inr (h hmay))

theorem goesOn_rejected (call : RowCall) (error : DispatchError) :
    CallGoesOn call (call.rejected error) := by
  unfold RowCall.rejected
  split <;> exact goesOn_phase fun h => by cases h

theorem goesOn_prepare {executionId : String} {blocked : Option String}
    {credentials : Except DispatchError (Option (List (String × Json)))}
    (hphase : call.phase = .claimed) :
    CallGoesOn call (call.prepare executionId blocked credentials) := by
  unfold RowCall.prepare
  split
  · exact goesOn_phase fun h => by cases h
  split
  · exact goesOn_phase fun h => by cases h
  · exact goesOn_phase fun h => by cases h
  · exact goesOn_rejected call _
  · rename_i hstored
    refine ⟨rfl, fun _ => ?_, fun request hrequest => ?_⟩
    · unfold RowCall.spends RowCall.mayDispatch
      rw [hphase, hstored]
      exact Bool.or_true _
    · cases hrequest
      exact .inr ⟨rfl, rfl⟩

theorem goesOn_receive {executionId : String} {receipt : List (String × Json)}
    (hphase : call.phase = .dispatching executionId) :
    CallGoesOn call (call.receive executionId receipt) := by
  have hspends : call.spends = true := by
    unfold RowCall.spends RowCall.mayDispatch
    rw [hphase]
    exact Bool.or_true _
  unfold RowCall.receive
  split <;> exact ⟨rfl, fun _ => hspends, fun request => .inl⟩

theorem transaction_outbox {now : Instant} {body : Transact Bool} {moved : Bool}
    (hbody : call.transaction recordsSpend now = some body)
    (halone : body.runAlone database db = .ok (next, moved)) : next.outbox = db.outbox := by
  unfold RowCall.transaction at hbody
  split at hbody
  · obtain rfl := Option.some.inj hbody
    rcases completeExecution_alone halone with ⟨row, -, -, rfl⟩ | hcompletes
    · rfl
    · exact hcompletes.outbox
  · obtain rfl := Option.some.inj hbody
    exact (failExecution_alone halone).outbox
  · cases hbody

/-- A transaction leaves the outbox alone, and the call neither reaches the rail nor holds a
receipt of it. -/
theorem transact_cases {now : Instant} {lost : Option String}
    (h : call.transact recordsSpend db now lost = some outcome) :
    call.phase.live = true ∧ call.phase.holding = false ∧ outcome.1.outbox = db.outbox ∧
      CallGoesOn call outcome.2 ∧ outcome.2.returned = call.returned := by
  have hphase : ∀ {body}, call.transaction recordsSpend now = some body →
      call.phase.live = true ∧ call.phase.holding = false ∧ call.mayDispatch = false := by
    intro body hbody
    unfold RowCall.transaction at hbody
    unfold RowCall.mayDispatch
    cases hcall : call.phase <;> rw [hcall] at hbody <;> first | exact ⟨rfl, rfl, rfl⟩ | cases hbody
  have hgoes : ∀ phase : RowPhase, RowCall.mayDispatch { call with phase } = false →
      CallGoesOn call { call with phase } := fun phase hnot => goesOn_phase fun h => by
    rw [hnot] at h
    cases h
  have hthrown : ∀ message,
      RowCall.mayDispatch { call with phase := call.thrown message } = false := by
    intro message
    unfold RowCall.thrown RowCall.mayDispatch
    cases call.phase <;> rfl
  have hcommitted : RowCall.mayDispatch { call with phase := call.committed } = false := by
    unfold RowCall.committed RowCall.mayDispatch
    cases call.phase <;> rfl
  unfold RowCall.transact at h
  split at h
  · cases h
  · rename_i body hbody
    obtain ⟨hlive, hholding, -⟩ := hphase hbody
    refine ⟨hlive, hholding, ?_⟩
    cases halone : body.runAlone database db with
    | error error =>
        rw [halone] at h
        obtain rfl := Option.some.inj h
        exact ⟨rfl, hgoes _ (hthrown _), rfl⟩
    | ok result =>
        obtain ⟨after, moved⟩ := result
        rw [halone] at h
        have houtbox := transaction_outbox hbody halone
        cases lost with
        | none =>
            obtain rfl := Option.some.inj h
            exact ⟨houtbox, hgoes _ hcommitted, rfl⟩
        | some message =>
            obtain rfl := Option.some.inj h
            exact ⟨houtbox, hgoes _ (hthrown _), rfl⟩

/-- A transaction that is rolled back. -/
theorem refuse_cases {message : String}
    (h : call.advance recordsSpend db (.refuse message) = some outcome) :
    call.phase.live = true ∧ (outcome.1.outbox = db.outbox ∧ CallGoesOn call outcome.2) ∧
      call.phase.holding = false ∧ outcome.2.returned = call.returned := by
  obtain ⟨body, hbody, rfl⟩ := Option.map_eq_some_iff.mp h
  unfold RowCall.transaction at hbody
  have hgoes : CallGoesOn call { call with phase := call.thrown message } := by
    refine goesOn_phase fun h => ?_
    unfold RowCall.thrown RowCall.mayDispatch at h
    cases hphase : call.phase <;> rw [hphase] at h <;> cases h
  cases hphase : call.phase <;> rw [hphase] at hbody <;>
    first | exact ⟨rfl, ⟨rfl, hgoes⟩, rfl, rfl⟩ | cases hbody

theorem storedReceipt_congr {first second : OutboxRow}
    (hreceipt : second.railReceipt = first.railReceipt)
    (hid : second.executionId = first.executionId) :
    second.storedReceipt = first.storedReceipt := by
  unfold OutboxRow.storedReceipt
  rw [hreceipt, hid]

/-- A mark updates the row of the call, or its row is missing and the call ends. -/
theorem mark_cases {now : Instant} (h : call.mark db now = some outcome) :
    call.phase.live = true ∧ (
      (call.phase.holding = false ∧ outcome = (db, { call with phase := .ended })) ∨
      ∃ assign keeps latest, Marks call assign latest ∧
        outcome = ({ db with outbox := db.outbox.update call.row.id assign keeps }, latest)) := by
  unfold RowCall.mark at h
  split at h <;> cases h
  all_goals rename_i hphase
  · refine ⟨by rw [hphase]; rfl, .inr ⟨_, _, _, ?_, rfl⟩⟩
    exact .stores _ _ _ _ hphase (fun row h => by cases h) (fun _ => rfl) fun _ => rfl
  · refine ⟨by rw [hphase]; rfl, .inr ⟨_, _, _, ?_, rfl⟩⟩
    exact .ends _ (by rw [hphase]; rfl) (fun row => storedReceipt_congr rfl rfl)
      fun row => .inr ⟨rfl, rfl⟩
  · refine ⟨by rw [hphase]; rfl, .inr ⟨_, _, _, ?_, rfl⟩⟩
    exact .ends _ (by rw [hphase]; rfl) (fun row => storedReceipt_congr rfl rfl) fun row => .inl rfl
  · refine ⟨by rw [hphase]; rfl, ?_⟩
    unfold Outbox.markFailed
    split
    · exact .inl ⟨by rw [hphase]; rfl, rfl⟩
    · refine .inr ⟨Outbox.failedAttempt _ now, fun _ => rfl, _, ?_, rfl⟩
      exact .ends _ (by rw [hphase]; rfl) (fun row => storedReceipt_congr rfl rfl)
        fun row => .inl rfl
  · refine ⟨by rw [hphase]; rfl, ?_⟩
    unfold Outbox.markReconciling
    split
    · exact .inl ⟨by rw [hphase]; rfl, rfl⟩
    · refine .inr ⟨Outbox.ambiguousAttempt _ now, fun _ => rfl, _, ?_, rfl⟩
      exact .ends _ (by rw [hphase]; rfl) (fun row => storedReceipt_congr rfl rfl)
        fun row => .inl rfl

/-- A step of a call leaves the outbox alone, or marks the row of the call. -/
theorem advance_cases (h : call.advance recordsSpend db step = some outcome) :
    call.phase.live = true ∧ (
      (outcome.1.outbox = db.outbox ∧ CallGoesOn call outcome.2) ∨
      ∃ assign keeps, outcome.1.outbox = db.outbox.update call.row.id assign keeps ∧
        Marks call assign outcome.2) := by
  cases step with
  | prepare executionId blocked credentials =>
      simp only [RowCall.advance] at h
      split at h
      · rename_i hphase
        obtain rfl := Option.some.inj h
        exact ⟨by rw [hphase]; rfl, .inl ⟨rfl, goesOn_prepare hphase⟩⟩
      · cases h
  | railAnswers answer =>
      simp only [RowCall.advance] at h
      split at h
      · rename_i hphase
        obtain rfl := Option.some.inj h
        exact ⟨by rw [hphase]; rfl, .inl ⟨rfl, goesOn_rejected call _⟩⟩
      · rename_i hphase
        obtain rfl := Option.some.inj h
        exact ⟨by rw [hphase]; rfl, .inl ⟨rfl, goesOn_receive hphase⟩⟩
      · cases h
  | emit eventId =>
      simp only [RowCall.advance] at h
      split at h
      · rename_i hphase
        obtain rfl := Option.some.inj h
        exact ⟨by rw [hphase]; rfl, .inl ⟨rfl, goesOn_phase fun h => by cases h⟩⟩
      · rename_i hphase
        obtain rfl := Option.some.inj h
        exact ⟨by rw [hphase]; rfl, .inl ⟨rfl, goesOn_phase fun h => by cases h⟩⟩
      · cases h
  | transact now lost =>
      obtain ⟨hlive, -, houtbox, hgoes, -⟩ := transact_cases h
      exact ⟨hlive, .inl ⟨houtbox, hgoes⟩⟩
  | refuse message =>
      obtain ⟨hlive, hgoes, -⟩ := refuse_cases h
      exact ⟨hlive, .inl hgoes⟩
  | mark now =>
      obtain ⟨hlive, ⟨-, rfl⟩ | ⟨assign, keeps, latest, hmarks, rfl⟩⟩ := mark_cases h
      · exact ⟨hlive, .inl ⟨rfl, goesOn_phase fun h => by cases h⟩⟩
      · exact ⟨hlive, .inr ⟨assign, keeps, rfl, hmarks⟩⟩
  | stop =>
      simp only [RowCall.advance] at h
      split at h
      · rename_i hlive
        obtain rfl := Option.some.inj h
        exact ⟨hlive, .inl ⟨rfl, goesOn_phase fun h => by cases h⟩⟩
      · cases h

end Steps

namespace Marks

variable {call latest : RowCall} {assign : OutboxRow → OutboxRow}

theorem goesOn (h : Marks call assign latest) : CallGoesOn call latest := by
  cases h <;> exact goesOn_phase fun h => by cases h

theorem attempts (h : Marks call assign latest) (row : OutboxRow) :
    (assign row).attemptCount = row.attemptCount ∧ (assign row).isOpen = false ∨
      (assign row).attemptCount = row.attemptCount + 1 ∧ latest.phase.live = false := by
  cases h with
  | stores executionId receipt afterId assign phase stored attempts closed =>
      exact .inl ⟨attempts row, closed row⟩
  | ends assign holding stored attempts =>
      rcases attempts row with hmore | hsame
      · exact .inr ⟨hmore, rfl⟩
      · exact .inl hsame

/-- A mark stores a receipt, or leaves what is stored and ends the call. -/
theorem stored (h : Marks call assign latest) :
    (∀ row, (assign row).storedReceipt ≠ none) ∨
      (∀ row, (assign row).storedReceipt = row.storedReceipt) ∧ latest.phase.live = false := by
  cases h with
  | stores executionId receipt afterId assign phase stored attempts closed => exact .inl stored
  | ends assign holding stored attempts => exact .inr ⟨stored, rfl⟩

end Marks

/-! ## Claims -/

/-- The calls on the row of this id that satisfy `p`. -/
def callsOn (calls : List RowCall) (id : String) (p : RowCall → Bool) : Nat :=
  calls.countP fun call => call.row.id = id && p call

/-- How often the row was claimed. -/
def claimsOn (calls : List RowCall) (id : String) : Nat := callsOn calls id fun _ => true

/-- The calls on the row that have not ended. -/
def liveOn (calls : List RowCall) (id : String) : Nat :=
  callsOn calls id fun call => call.phase.live

theorem row_of_updateWhere {outbox : Outbox} {p : OutboxRow → Bool} {assign : OutboxRow → OutboxRow}
    {keeps : ∀ row, (assign row).id = row.id} {id : String} {row : OutboxRow}
    (h : (outbox.updateWhere p assign keeps).find? id = some row) :
    ∃ old, outbox.find? id = some old ∧ (if p old then assign old else old) = row := by
  rw [Table.find?_updateWhere] at h
  exact Option.map_eq_some_iff.mp h

section Counts

variable {calls : List RowCall} {call latest : RowCall} {i : Nat} {id : String} {p : RowCall → Bool}
  {outbox : Outbox}

/-- A call that goes on counts as it did, or no longer. -/
theorem callsOn_set (p : RowCall → Bool) (id : String) (hcall : calls[i]? = some call)
    (hrow : latest.row.id = call.row.id) :
    callsOn (calls.set i latest) id p + (if call.row.id = id ∧ p call = true then 1 else 0) =
      callsOn calls id p + if call.row.id = id ∧ p latest = true then 1 else 0 := by
  have hset := @countP_set _ _ _ _ latest (fun call : RowCall => call.row.id = id && p call) hcall
  simp only [Bool.and_eq_true, decide_eq_true_eq, hrow] at hset
  exact hset

/-- A call under way that goes on leaves as many under way, and one less when it ends. -/
theorem liveOn_set (hcall : calls[i]? = some call) (hrow : latest.row.id = call.row.id)
    (hlive : call.phase.live = true) (id : String) :
    liveOn (calls.set i latest) id ≤ liveOn calls id ∧
      (call.row.id = id ∧ latest.phase.live = false →
        liveOn (calls.set i latest) id + 1 = liveOn calls id) := by
  have hset := callsOn_set (fun call => call.phase.live) id hcall hrow
  unfold liveOn
  by_cases hid : call.row.id = id
  · rw [if_pos ⟨hid, hlive⟩] at hset
    cases hended : latest.phase.live with
    | false =>
        rw [hended, if_neg fun h => Bool.false_ne_true h.2] at hset
        exact ⟨by omega, fun _ => hset⟩
    | true =>
        rw [hended, if_pos ⟨hid, rfl⟩] at hset
        exact ⟨by omega, fun h => by cases h.2⟩
  · rw [if_neg fun h => hid h.1, if_neg fun h => hid h.1] at hset
    exact ⟨by omega, fun h => absurd h.1 hid⟩

theorem callsOn_zero (h : ∀ call ∈ calls, call.row.id = id → p call = false) :
    callsOn calls id p = 0 := by
  refine List.countP_eq_zero.mpr fun call hmem hp => ?_
  obtain ⟨hid, hp⟩ := (Bool.and_eq_true _ _).mp hp
  rw [h call hmem (of_decide_eq_true hid)] at hp
  cases hp

theorem callsOn_mono {q : RowCall → Bool}
    (h : ∀ call ∈ calls, call.row.id = id → p call = true → q call = true) :
    callsOn calls id p ≤ callsOn calls id q := by
  refine List.countP_mono_left fun call hmem hp => ?_
  obtain ⟨hid, hp⟩ := (Bool.and_eq_true _ _).mp hp
  exact (Bool.and_eq_true _ _).mpr ⟨hid, h call hmem (of_decide_eq_true hid) hp⟩

/-- Of rows with distinct ids, one has the id of this row. -/
theorem count_row {rows : List OutboxRow} (hnodup : (rows.map (·.id)).Nodup) {row : OutboxRow}
    (hmem : row ∈ rows) (q : OutboxRow → Bool) :
    (rows.countP fun other => other.id = row.id && q other) = if q row then 1 else 0 := by
  induction rows with
  | nil => cases hmem
  | cons first rows ih =>
      rw [List.map_cons, List.nodup_cons] at hnodup
      rw [List.countP_cons]
      rcases List.mem_cons.mp hmem with rfl | hrest
      · have hnone : (rows.countP fun other => other.id = row.id && q other) = 0 := by
          refine List.countP_eq_zero.mpr fun other hother hq => ?_
          have hid := of_decide_eq_true ((Bool.and_eq_true _ _).mp hq).1
          exact hnodup.1 (hid ▸ List.mem_map_of_mem hother)
        rw [hnone]
        simp
      · have hne : first.id ≠ row.id := fun hid => hnodup.1 (hid ▸ List.mem_map_of_mem hrest)
        rw [ih hnodup.2 hrest]
        simp [hne]

theorem picked_nodup {limit : Nat} {now : Instant} {skipped : List String} :
    ((outbox.picked limit now skipped).map (·.id)).Nodup := by
  unfold Outbox.picked
  have hfilter : ((outbox.rows.filter fun row =>
      Outbox.claimable now row && !skipped.contains row.id).map (·.id)).Nodup :=
    outbox.nodup.sublist (List.filter_sublist.map _)
  have hsorted := ((List.perm_insertionSort (fun first second : OutboxRow =>
    first.createdAt ≤ second.createdAt) _).map fun row => row.id).nodup_iff.mpr hfilter
  exact hsorted.sublist ((List.take_sublist _ _).map _)

variable {workerId : String} {limit : Nat} {now : Instant} {skipped : List String}

theorem callsOn_append {rows : List OutboxRow} :
    callsOn (calls ++ rows.map (RowCall.start workerId)) id p =
      callsOn calls id p + rows.countP fun row => row.id = id && p (.start workerId row) := by
  unfold callsOn
  rw [List.countP_append, List.countP_map]
  rfl

/-- A claim adds one call for a row that it takes. -/
theorem callsOn_taken (p : RowCall → Bool) {row : OutboxRow}
    (hmem : row ∈ outbox.picked limit now skipped) :
    callsOn (calls ++ (outbox.claimNext workerId limit now skipped).2.map (RowCall.start workerId))
        row.id p =
      callsOn calls row.id p +
        if p (.start workerId (Outbox.claimed workerId now row)) then 1 else 0 := by
  have hcount := count_row picked_nodup hmem fun other =>
    p (.start workerId (Outbox.claimed workerId now other))
  rw [callsOn_append, ← hcount, Outbox.claimNext, List.countP_map]
  rfl

theorem callsOn_untaken (p : RowCall → Bool)
    (hnot : ∀ row ∈ outbox.picked limit now skipped, row.id ≠ id) :
    callsOn (calls ++ (outbox.claimNext workerId limit now skipped).2.map (RowCall.start workerId))
      id p = callsOn calls id p := by
  rw [callsOn_append, List.countP_eq_zero.mpr, Nat.add_zero]
  intro row hmem hp
  obtain ⟨old, hold, rfl⟩ := List.mem_map.mp hmem
  exact hnot old hold (of_decide_eq_true ((Bool.and_eq_true _ _).mp hp).1)

/-- A claimed row was open and below the ceiling. -/
theorem picked_open {row : OutboxRow} (hmem : row ∈ outbox.picked limit now skipped) :
    row.isOpen = true ∧ row.attemptCount < MAX_TOTAL_DISPATCH_ATTEMPTS := by
  have hclaimable := (Outbox.mem_picked hmem).2
  simp only [Outbox.claimable, Bool.and_eq_true, decide_eq_true_eq] at hclaimable
  exact hclaimable.1

/-- A row of the outbox after a claim was taken, or stays as it was. -/
theorem claim_cases {row : OutboxRow}
    (hrow : (outbox.claimNext workerId limit now skipped).1.find? id = some row) :
    (∃ old ∈ outbox.picked limit now skipped, outbox.find? id = some old ∧ old.id = id ∧
      row = Outbox.claimed workerId now old) ∨
    outbox.find? id = some row ∧ ∀ row ∈ outbox.picked limit now skipped, row.id ≠ id := by
  obtain ⟨old, hold, hrow⟩ :=
    @row_of_updateWhere outbox _ (Outbox.claimed workerId now) (fun _ => rfl) id row hrow
  have hid : old.id = id := Table.key_of_find? hold
  split at hrow
  · rename_i hmem
    obtain ⟨taken, htaken, hsame⟩ := List.mem_map.mp (of_decide_eq_true hmem)
    have hfind := Table.find?_key (Outbox.mem_picked htaken).1
    rw [hsame, hid] at hfind
    rw [← Option.some.inj (hold.symm.trans hfind)] at htaken
    exact .inl ⟨old, htaken, hold, hid, hrow.symm⟩
  · rename_i hmem
    refine .inr ⟨hrow ▸ hold, fun other hother hsame => hmem (decide_eq_true ?_)⟩
    rw [hid, ← hsame]
    exact List.mem_map_of_mem hother

end Counts

/-- A row after a commit of another component was there, or is new and has no calls. -/
theorem commit_rows {s : WorkerWorld} (hsound : WorkersSound s) {writes : List Write}
    (hwrites : ∀ w ∈ writes, othersWrite s.db w = true) {id : String} {row : OutboxRow}
    (hrow : (database.view s.db writes).outbox.find? id = some row) :
    s.db.outbox.find? id = some row ∨
      row.attemptCount = 0 ∧ ∀ call ∈ s.calls, call.row.id ≠ id := by
  rcases outbox_cases s.db writes id with ⟨other, hmem, hid, hfind⟩ | hsame
  · obtain ⟨hfresh, hmissing⟩ := (Bool.and_eq_true _ _).mp (hwrites _ hmem)
    obtain rfl := Option.some.inj (hfind.symm.trans hrow)
    simp only [OutboxRow.isFresh, Bool.and_eq_true, decide_eq_true_eq] at hfresh
    refine .inr ⟨hfresh.1.1.1.2, fun call hcall hof => ?_⟩
    obtain ⟨stored, hstored, -⟩ := hsound.claimed call hcall
    rw [hof, ← hid] at hstored
    rw [hstored] at hmissing
    cases hmissing
  · exact .inl (hsame.symm.trans hrow)

/-! ## The budget of a row -/

/-- The attempts of a row, what it was put back and the claim under way account for its claims. -/
structure Budgeted (s : WorkerWorld) : Prop where
  claims : ∀ id row, s.db.outbox.find? id = some row →
    claimsOn s.calls id ≤ row.attemptCount + s.reclaims.count id + if row.isOpen then 0 else 1
  bound : ∀ id, claimsOn s.calls id ≤ MAX_TOTAL_DISPATCH_ATTEMPTS + s.reclaims.count id
  attempts : ∀ id row, s.db.outbox.find? id = some row →
    row.attemptCount + liveOn s.calls id ≤ claimsOn s.calls id
  requests : ∀ call ∈ s.calls, ∀ request, call.request = some request → RequestOf call.row request

namespace Budgeted

variable {s next : WorkerWorld} {call latest : RowCall} {i : Nat}

theorem initial : Budgeted {} where
  claims _ _ hrow := nomatch hrow
  bound _ := Nat.zero_le _
  attempts _ _ hrow := nomatch hrow
  requests _ hmem := nomatch hmem

theorem reclaim (h : Budgeted s) (staleSeconds : Nat) (now : Instant) (skipped : List String) :
    Budgeted { s with
      db := { s.db with outbox := (s.db.outbox.reclaimStale staleSeconds now skipped).1 }
      reclaims := s.reclaims ++
        (s.db.outbox.reclaimStale staleSeconds now skipped).2.map (·.1.id) } := by
  have hcount : ∀ {id : String} {row : OutboxRow}, s.db.outbox.find? id = some row →
      (((s.db.outbox.reclaimStale staleSeconds now skipped).2.map (·.1.id)).count id) =
        if Outbox.isStale staleSeconds now row && !skipped.contains row.id then 1 else 0 := by
    intro id row hrow
    obtain rfl : row.id = id := Table.key_of_find? hrow
    rw [← count_row s.db.outbox.nodup (Table.mem_of_find? hrow) fun row =>
      Outbox.isStale staleSeconds now row && !skipped.contains row.id]
    simp only [List.count, Outbox.reclaimStale, List.map_map, List.countP_map, List.countP_filter]
    refine List.countP_congr fun other _ => ?_
    simp only [Function.comp_apply, Outbox.reclaimed, beq_iff_eq, Bool.and_eq_true,
      decide_eq_true_eq]
  constructor
  · intro id row hrow
    obtain ⟨old, hold, rfl⟩ := @row_of_updateWhere _ _ Outbox.reclaimed (fun _ => rfl) id row hrow
    have hold' := h.claims id old hold
    dsimp only
    rw [List.count_append, hcount hold]
    split
    · rename_i hstale
      have hopen : (Outbox.reclaimed old).isOpen = true := rfl
      have hattempts : (Outbox.reclaimed old).attemptCount = old.attemptCount := rfl
      rw [if_pos hopen, hattempts]
      split at hold' <;> omega
    · exact hold'
  · intro id
    rw [List.count_append]
    exact Nat.le_trans (h.bound id) (by omega)
  · intro id row hrow
    obtain ⟨old, hold, rfl⟩ := @row_of_updateWhere _ _ Outbox.reclaimed (fun _ => rfl) id row hrow
    have hold' := h.attempts id old hold
    split <;> exact hold'
  · exact h.requests

theorem claim (h : Budgeted s) (workerId : String) (limit : Nat) (now : Instant)
    (skipped : List String) :
    Budgeted { s with
      db := { s.db with outbox := (s.db.outbox.claimNext workerId limit now skipped).1 }
      calls := s.calls ++
        (s.db.outbox.claimNext workerId limit now skipped).2.map (RowCall.start workerId) } := by
  constructor
  · intro id row hrow
    dsimp only
    rcases claim_cases hrow with ⟨old, hpicked, hold, rfl, rfl⟩ | ⟨hold, hnot⟩
    · have hclaims := h.claims old.id old hold
      have hattempts : (Outbox.claimed workerId now old).attemptCount = old.attemptCount := rfl
      have hclosed : (Outbox.claimed workerId now old).isOpen = false := rfl
      rw [if_pos (picked_open hpicked).1] at hclaims
      rw [claimsOn, callsOn_taken _ hpicked, hattempts, hclosed, if_pos rfl,
        if_neg Bool.false_ne_true]
      exact Nat.succ_le_succ hclaims
    · rw [claimsOn, callsOn_untaken _ hnot]
      exact h.claims id row hold
  · intro id
    dsimp only
    by_cases hmem : id ∈ (s.db.outbox.picked limit now skipped).map (·.id)
    · obtain ⟨row, hpicked, rfl⟩ := List.mem_map.mp hmem
      have hclaims := h.claims row.id row (Table.find?_key (Outbox.mem_picked hpicked).1)
      have hbelow := (picked_open hpicked).2
      rw [if_pos (picked_open hpicked).1, claimsOn] at hclaims
      rw [claimsOn, callsOn_taken _ hpicked, if_pos rfl]
      omega
    · have hnot : ∀ row ∈ s.db.outbox.picked limit now skipped, row.id ≠ id := by
        rintro row hrow rfl
        exact hmem (List.mem_map_of_mem hrow)
      rw [claimsOn, callsOn_untaken _ hnot]
      exact h.bound id
  · intro id row hrow
    dsimp only
    rcases claim_cases hrow with ⟨old, hpicked, hold, rfl, rfl⟩ | ⟨hold, hnot⟩
    · have hattempts := h.attempts old.id old hold
      have hlive : (RowCall.start workerId (Outbox.claimed workerId now old)).phase.live = true :=
        rfl
      rw [claimsOn, liveOn, callsOn_taken _ hpicked, callsOn_taken _ hpicked, if_pos rfl,
        if_pos hlive]
      exact Nat.succ_le_succ hattempts
    · rw [claimsOn, liveOn, callsOn_untaken _ hnot, callsOn_untaken _ hnot]
      exact h.attempts id row hold
  · intro call hmem request hrequest
    rcases List.mem_append.mp hmem with hold | hnew
    · exact h.requests call hold request hrequest
    · obtain ⟨row, -, rfl⟩ := List.mem_map.mp hnew
      cases hrequest

theorem advance (h : Budgeted s) (hcall : s.calls[i]? = some call) {recordsSpend : Bool}
    {step : RowStep} {outcome : Database × RowCall}
    (hstep : call.advance recordsSpend s.db step = some outcome) :
    Budgeted (s.advanced i outcome) := by
  obtain ⟨hlive, hcases⟩ := advance_cases hstep
  have hgoes : CallGoesOn call outcome.2 := by
    rcases hcases with ⟨-, hgoes⟩ | ⟨assign, keeps, -, hmarks⟩
    · exact hgoes
    · exact hmarks.goesOn
  -- What became of a row: it is as it was, or was marked.
  have hrows : ∀ {id : String} {row : OutboxRow}, outcome.1.outbox.find? id = some row →
      ∃ old, s.db.outbox.find? id = some old ∧ (row = old ∨ call.row.id = id ∧
        (row.attemptCount = old.attemptCount ∧ row.isOpen = false ∨
          row.attemptCount = old.attemptCount + 1 ∧ outcome.2.phase.live = false)) := by
    intro id row hrow
    rcases hcases with ⟨houtbox, -⟩ | ⟨assign, keeps, houtbox, hmarks⟩
    · rw [houtbox] at hrow
      exact ⟨row, hrow, .inl rfl⟩
    · rw [houtbox] at hrow
      obtain ⟨old, hold, hrow⟩ := row_of_updateWhere hrow
      refine ⟨old, hold, ?_⟩
      split at hrow
      · rename_i hid
        subst hrow
        refine .inr ⟨?_, hmarks.attempts old⟩
        rw [← of_decide_eq_true hid, Table.key_of_find? hold]
      · exact .inl hrow.symm
  have hclaims : ∀ id, claimsOn (s.calls.set i outcome.2) id = claimsOn s.calls id := by
    intro id
    have hset := callsOn_set (fun _ => true) id hcall (congrArg OutboxRow.id hgoes.row)
    exact Nat.add_right_cancel hset
  have hlives := liveOn_set hcall (congrArg OutboxRow.id hgoes.row) hlive
  constructor
  · intro id row hrow
    obtain ⟨old, hold, hchanged⟩ := hrows hrow
    have hbudget := h.claims id old hold
    change claimsOn (s.calls.set i outcome.2) id ≤ _ + s.reclaims.count id + _
    rw [hclaims]
    rcases hchanged with rfl | ⟨-, ⟨hattempts, hclosed⟩ | ⟨hattempts, -⟩⟩
    · exact hbudget
    · rw [hclosed, hattempts, if_neg Bool.false_ne_true]
      split at hbudget <;> omega
    · rw [hattempts]
      split at hbudget <;> split <;> omega
  · intro id
    change claimsOn (s.calls.set i outcome.2) id ≤ _
    rw [hclaims]
    exact h.bound id
  · intro id row hrow
    obtain ⟨old, hold, hchanged⟩ := hrows hrow
    have hattempts := h.attempts id old hold
    have hset := hlives id
    change _ + liveOn (s.calls.set i outcome.2) id ≤ claimsOn (s.calls.set i outcome.2) id
    rw [hclaims]
    rcases hchanged with rfl | ⟨hid, ⟨hsame, -⟩ | ⟨hmore, hended⟩⟩
    · omega
    · rw [hsame]
      omega
    · have hless := hset.2 ⟨hid, hended⟩
      rw [hmore]
      omega
  · intro other hmem request hrequest
    obtain ⟨j, hother⟩ := List.getElem?_of_mem hmem
    rcases set_cases hcall hother with ⟨-, rfl⟩ | ⟨-, hold⟩
    · rw [hgoes.row]
      rcases hgoes.request request hrequest with hbefore | hnew
      · exact h.requests call (List.mem_of_getElem? hcall) request hbefore
      · exact hnew
    · exact h.requests other (List.mem_of_getElem? hold) request hrequest

theorem commit (h : Budgeted s) (hsound : WorkersSound s) {writes : List Write}
    (hwrites : ∀ w ∈ writes, othersWrite s.db w = true) :
    Budgeted { s with db := database.view s.db writes } := by
  have hrows : ∀ {id : String} {row : OutboxRow},
      (database.view s.db writes).outbox.find? id = some row →
        s.db.outbox.find? id = some row ∨ row.attemptCount = 0 ∧ claimsOn s.calls id = 0 := by
    intro id row hrow
    rcases commit_rows hsound hwrites hrow with hold | ⟨hzero, hnone⟩
    · exact .inl hold
    · refine .inr ⟨hzero, List.countP_eq_zero.mpr fun call hcall hp => hnone call hcall ?_⟩
      exact of_decide_eq_true ((Bool.and_eq_true _ _).mp hp).1
  have hlive : ∀ id, liveOn s.calls id ≤ claimsOn s.calls id := fun id =>
    callsOn_mono fun _ _ _ _ => rfl
  constructor
  · intro id row hrow
    rcases hrows hrow with hold | ⟨-, hnone⟩
    · exact h.claims id row hold
    · change claimsOn s.calls id ≤ _
      rw [hnone]
      exact Nat.zero_le _
  · exact h.bound
  · intro id row hrow
    rcases hrows hrow with hold | ⟨hzero, -⟩
    · exact h.attempts id row hold
    · rw [hzero, Nat.zero_add]
      exact hlive id
  · exact h.requests

theorem step (h : Budgeted s) (hsound : WorkersSound s) {recordsSpend : Bool} {label : WorkerLabel}
    (hstep : s.step recordsSpend label = some next) : Budgeted next := by
  cases label with
  | reclaim staleSeconds now skipped =>
      obtain rfl := Option.some.inj hstep
      exact h.reclaim staleSeconds now skipped
  | claim workerId limit now skipped =>
      obtain rfl := Option.some.inj hstep
      exact h.claim workerId limit now skipped
  | advance i step =>
      simp only [WorkerWorld.step, Option.bind_eq_bind, Option.bind_eq_some_iff] at hstep
      obtain ⟨call, hcall, outcome, hadvance, hnext⟩ := hstep
      obtain rfl := Option.some.inj hnext
      exact h.advance hcall hadvance
  | commit writes =>
      simp only [WorkerWorld.step] at hstep
      split at hstep
      · rename_i hwrites
        obtain rfl := Option.some.inj hstep
        exact h.commit hsound (List.all_eq_true.mp hwrites)
      · cases hstep

end Budgeted

/-- In every run, a row is handed to its rail at most twelve times and once more for each time it
was put back, always under its own idempotency key, and its attempts keep to the same bound. -/
theorem dispatches_bounded {recordsSpend : Bool} {labels : List WorkerLabel} {s : WorkerWorld}
    (hrun : (outboxWorkers recordsSpend).run {} labels = some s) :
    (∀ id, callsOn s.calls id (fun call => call.request.isSome) ≤
      MAX_TOTAL_DISPATCH_ATTEMPTS + s.reclaims.count id) ∧
    (∀ id row, s.db.outbox.find? id = some row →
      row.attemptCount ≤ MAX_TOTAL_DISPATCH_ATTEMPTS + s.reclaims.count id) ∧
    ∀ call ∈ s.calls, ∀ request, call.request = some request →
      ∃ row, s.db.outbox.find? call.row.id = some row ∧ RequestOf row request := by
  have hboth : WorkersSound s ∧ Budgeted s :=
    @Machine.invariant_of_run _ _ (outboxWorkers recordsSpend)
      (fun s => WorkersSound s ∧ Budgeted s)
      (fun _ _ _ h hstep => ⟨h.1.step hstep, h.2.step h.1 hstep⟩) _ _ _
      ⟨WorkersSound.initial, Budgeted.initial⟩ hrun
  obtain ⟨hsound, hbudget⟩ := hboth
  refine ⟨fun id => ?_, fun id row hrow => ?_, fun call hmem request hrequest => ?_⟩
  · exact Nat.le_trans (callsOn_mono fun _ _ _ _ => rfl) (hbudget.bound id)
  · have hattempts := hbudget.attempts id row hrow
    have hbound := hbudget.bound id
    omega
  · obtain ⟨row, hrow, hsame⟩ := hsound.claimed call hmem
    have hof := hbudget.requests call hmem request hrequest
    exact ⟨row, hrow, hof.intent.trans hsame.intent.symm, hof.key.trans hsame.key.symm⟩

/-! ## One receipt for a row -/

/-- The receipts of the rails have what they must have, no worker stops between the answer of a
rail and its record, and a row without a receipt is put back only when all its calls have ended. -/
def orderly (s : WorkerWorld) : WorkerLabel → Bool
  | .reclaim staleSeconds now skipped => s.db.outbox.rows.all fun row =>
      !(Outbox.isStale staleSeconds now row && !skipped.contains row.id) ||
        row.storedReceipt.isSome || liveOn s.calls row.id = 0
  | .advance i (.railAnswers (.ok receipt)) =>
      s.calls[i]?.all fun call => (call.missing receipt).isEmpty
  | .advance i .stop => s.calls[i]?.all fun call => !call.phase.holding
  | _ => true

def Orderly (s : WorkerWorld) (label : WorkerLabel) : Prop := orderly s label = true

/-- While no receipt of the row is stored, one call at most is under way, none while the row is
open, and a receipt that was returned is held by its call. -/
structure Unanswered (calls : List RowCall) (id : String) (row : OutboxRow) : Prop where
  lone : liveOn calls id ≤ 1
  idle : row.isOpen = true → liveOn calls id = 0
  held : ∀ call ∈ calls, call.row.id = id → call.returned = true → call.phase.holding = true

structure Once (s : WorkerWorld) : Prop where
  spends : ∀ id, callsOn s.calls id RowCall.spends ≤ 1
  unanswered : ∀ id row, s.db.outbox.find? id = some row → row.storedReceipt = none →
    Unanswered s.calls id row

theorem live_of_holding {phase : RowPhase} (h : phase.holding = true) : phase.live = true := by
  cases phase <;> first | rfl | cases h

theorem RowCall.live_of_mayDispatch {call : RowCall} (h : call.mayDispatch = true) :
    call.phase.live = true := by
  unfold RowCall.mayDispatch at h
  cases hphase : call.phase <;> rw [hphase] at h <;> first | rfl | cases h

/-- Without a stored receipt, only a call under way spends. -/
theorem Unanswered.spends_le {calls : List RowCall} {id : String} {row : OutboxRow}
    (h : Unanswered calls id row) : callsOn calls id RowCall.spends ≤ liveOn calls id := by
  refine callsOn_mono fun call hmem hid hspends => ?_
  rcases (Bool.or_eq_true _ _).mp hspends with hreturned | hmay
  · exact live_of_holding (h.held call hmem hid hreturned)
  · exact call.live_of_mayDispatch hmay

/-- In an orderly run, a receipt that a call has got stays with it until it is stored. -/
theorem advance_held {s : WorkerWorld} {call : RowCall} {i : Nat} {recordsSpend : Bool}
    {step : RowStep} {outcome : Database × RowCall} (hcall : s.calls[i]? = some call)
    (horderly : Orderly s (.advance i step))
    (h : call.advance recordsSpend s.db step = some outcome)
    (hheld : call.returned = true → call.phase.holding = true)
    (hreturned : outcome.2.returned = true) :
    outcome.2.phase.holding = true ∨ ∃ assign keeps,
      outcome.1.outbox = s.db.outbox.update call.row.id assign keeps ∧
        ∀ row, (assign row).storedReceipt ≠ none := by
  -- A phase that holds nothing belongs to a call without a receipt.
  have hnone : call.phase.holding = false → call.returned = true → False := by
    intro hholding hbefore
    rw [hheld hbefore] at hholding
    cases hholding
  cases step with
  | prepare executionId blocked credentials =>
      simp only [RowCall.advance] at h
      split at h
      · rename_i hphase
        obtain rfl := Option.some.inj h
        exact (hnone (by rw [hphase]; rfl) (call.prepare_returned ▸ hreturned)).elim
      · cases h
  | railAnswers answer =>
      simp only [RowCall.advance] at h
      split at h
      · rename_i hphase
        obtain rfl := Option.some.inj h
        exact (hnone (by rw [hphase]; rfl) (call.rejected_returned _ ▸ hreturned)).elim
      · rename_i receipt hphase
        obtain rfl := Option.some.inj h
        have hcomplete : call.missing receipt = [] := by
          simp only [Orderly, orderly, hcall] at horderly
          exact List.isEmpty_iff.mp horderly
        unfold RowCall.receive
        rw [hcomplete]
        exact .inl rfl
      · cases h
  | emit eventId =>
      simp only [RowCall.advance] at h
      split at h
      · obtain rfl := Option.some.inj h
        exact .inl rfl
      · rename_i hphase
        obtain rfl := Option.some.inj h
        exact (hnone (by rw [hphase]; rfl) hreturned).elim
      · cases h
  | transact now lost =>
      obtain ⟨-, hholding, -, -, hsame⟩ := transact_cases h
      exact (hnone hholding (hsame ▸ hreturned)).elim
  | refuse message =>
      obtain ⟨-, -, hholding, hsame⟩ := refuse_cases h
      exact (hnone hholding (hsame ▸ hreturned)).elim
  | mark now =>
      obtain ⟨-, ⟨hholding, rfl⟩ | ⟨assign, keeps, latest, hmarks, rfl⟩⟩ := mark_cases h
      · exact (hnone hholding hreturned).elim
      · cases hmarks with
        | stores executionId receipt afterId assign phase stored attempts closed =>
            exact .inr ⟨assign, keeps, rfl, stored⟩
        | ends assign holding stored attempts => exact (hnone holding hreturned).elim
  | stop =>
      simp only [RowCall.advance] at h
      split at h
      · obtain rfl := Option.some.inj h
        have hholding : call.phase.holding = false := by
          simp only [Orderly, orderly, hcall] at horderly
          exact (Bool.not_eq_true' _).mp horderly
        exact (hnone hholding hreturned).elim
      · cases h

namespace Once

variable {s next : WorkerWorld} {call : RowCall} {i : Nat}

theorem initial : Once {} where
  spends _ := Nat.zero_le _
  unanswered _ _ hrow := nomatch hrow

theorem reclaim (h : Once s) {staleSeconds : Nat} {now : Instant} {skipped : List String}
    (horderly : Orderly s (.reclaim staleSeconds now skipped)) (reclaims : List String) :
    Once { s with
      db := { s.db with outbox := (s.db.outbox.reclaimStale staleSeconds now skipped).1 }
      reclaims } where
  spends := h.spends
  unanswered id row hrow hnone := by
    obtain ⟨old, hold, rfl⟩ := @row_of_updateWhere _ _ Outbox.reclaimed (fun _ => rfl) id row hrow
    split at hnone
    · rename_i hstale
      have hquiet := h.unanswered id old hold hnone
      have hrow := List.all_eq_true.mp horderly old (Table.mem_of_find? hold)
      have hwithout : old.storedReceipt = none := hnone
      rw [hstale, hwithout] at hrow
      have hzero : liveOn s.calls old.id = 0 := of_decide_eq_true hrow
      rw [Table.key_of_find? hold] at hzero
      exact ⟨hquiet.lone, fun _ => hzero, hquiet.held⟩
    · rename_i hfresh
      rw [if_neg hfresh]
      exact h.unanswered id old hold hnone

theorem claim (h : Once s) (workerId : String) (limit : Nat) (now : Instant)
    (skipped : List String) :
    Once { s with
      db := { s.db with outbox := (s.db.outbox.claimNext workerId limit now skipped).1 }
      calls := s.calls ++
        (s.db.outbox.claimNext workerId limit now skipped).2.map (RowCall.start workerId) } where
  spends id := by
    dsimp only
    by_cases hmem : id ∈ (s.db.outbox.picked limit now skipped).map (·.id)
    · obtain ⟨row, hpicked, rfl⟩ := List.mem_map.mp hmem
      have hspends : RowCall.spends (.start workerId (Outbox.claimed workerId now row)) =
          row.storedReceipt.isNone := rfl
      rw [callsOn_taken _ hpicked, hspends]
      cases hreceipt : row.storedReceipt with
      | some receipt => exact h.spends row.id
      | none =>
          have hfind := Table.find?_key (Outbox.mem_picked hpicked).1
          have hquiet := h.unanswered row.id row hfind hreceipt
          have hzero := hquiet.idle (picked_open hpicked).1
          have hle := hquiet.spends_le
          rw [hzero] at hle
          rw [Nat.le_zero.mp hle]
          exact Nat.le_refl _
    · have hnot : ∀ row ∈ s.db.outbox.picked limit now skipped, row.id ≠ id := by
        rintro row hrow rfl
        exact hmem (List.mem_map_of_mem hrow)
      rw [callsOn_untaken _ hnot]
      exact h.spends id
  unanswered id row hrow hnone := by
    have hnew : ∀ call ∈ (s.db.outbox.claimNext workerId limit now skipped).2.map
        (RowCall.start workerId), call.returned ≠ true := by
      intro call hmem hreturned
      obtain ⟨row, -, rfl⟩ := List.mem_map.mp hmem
      cases hreturned
    rcases claim_cases hrow with ⟨old, hpicked, hold, rfl, rfl⟩ | ⟨hold, hnot⟩
    · have hquiet := h.unanswered old.id old hold hnone
      have hzero := hquiet.idle (picked_open hpicked).1
      refine ⟨?_, fun hopen => (by cases hopen), fun call hmem hid hreturned => ?_⟩
      · rw [liveOn, callsOn_taken _ hpicked]
        rw [liveOn] at hzero
        rw [hzero]
        split <;> omega
      · rcases List.mem_append.mp hmem with hbefore | hafter
        · exact hquiet.held call hbefore hid hreturned
        · exact absurd hreturned (hnew call hafter)
    · have hquiet := h.unanswered id row hold hnone
      refine ⟨?_, fun hopen => ?_, fun call hmem hid hreturned => ?_⟩
      · rw [liveOn, callsOn_untaken _ hnot]
        exact hquiet.lone
      · rw [liveOn, callsOn_untaken _ hnot]
        exact hquiet.idle hopen
      · rcases List.mem_append.mp hmem with hbefore | hafter
        · exact hquiet.held call hbefore hid hreturned
        · exact absurd hreturned (hnew call hafter)

theorem commit (h : Once s) (hsound : WorkersSound s) {writes : List Write}
    (hwrites : ∀ w ∈ writes, othersWrite s.db w = true) :
    Once { s with db := database.view s.db writes } where
  spends := h.spends
  unanswered id row hrow hnone := by
    rcases commit_rows hsound hwrites hrow with hold | ⟨-, hcalls⟩
    · exact h.unanswered id row hold hnone
    · have hzero : liveOn s.calls id = 0 :=
        callsOn_zero fun call hmem hid => absurd hid (hcalls call hmem)
      exact ⟨Nat.le_trans (Nat.le_of_eq hzero) (Nat.zero_le 1), fun _ => hzero,
        fun call hmem hid => absurd hid (hcalls call hmem)⟩

theorem advance (h : Once s) (hcall : s.calls[i]? = some call) {recordsSpend : Bool}
    {step : RowStep} {outcome : Database × RowCall} (horderly : Orderly s (.advance i step))
    (hstep : call.advance recordsSpend s.db step = some outcome) : Once (s.advanced i outcome) := by
  obtain ⟨hlive, hcases⟩ := advance_cases hstep
  have hgoes : CallGoesOn call outcome.2 := by
    rcases hcases with ⟨-, hgoes⟩ | ⟨assign, keeps, -, hmarks⟩
    · exact hgoes
    · exact hmarks.goesOn
  have hrowId : outcome.2.row.id = call.row.id := congrArg OutboxRow.id hgoes.row
  have hlives := liveOn_set hcall hrowId hlive
  -- A row that has no receipt had none, and was opened only by a call that ends.
  have hrows : ∀ {id : String} {row : OutboxRow}, outcome.1.outbox.find? id = some row →
      row.storedReceipt = none → ∃ old, s.db.outbox.find? id = some old ∧ old.storedReceipt = none ∧
        (row.isOpen = true →
          old.isOpen = true ∨ call.row.id = id ∧ outcome.2.phase.live = false) := by
    intro id row hrow hnone
    rcases hcases with ⟨houtbox, -⟩ | ⟨assign, keeps, houtbox, hmarks⟩
    · rw [houtbox] at hrow
      exact ⟨row, hrow, hnone, .inl⟩
    · rw [houtbox] at hrow
      obtain ⟨old, hold, hrow⟩ := row_of_updateWhere hrow
      split at hrow
      · rename_i hid
        subst hrow
        have hof : call.row.id = id := by
          rw [← of_decide_eq_true hid, Table.key_of_find? hold]
        rcases hmarks.stored with hstores | ⟨hkeeps, hended⟩
        · exact absurd hnone (hstores old)
        · exact ⟨old, hold, (hkeeps old).symm.trans hnone, fun _ => .inr ⟨hof, hended⟩⟩
      · subst hrow
        exact ⟨old, hold, hnone, .inl⟩
  constructor
  · intro id
    have hset := callsOn_set RowCall.spends id hcall hrowId
    have hone := h.spends id
    change callsOn (s.calls.set i outcome.2) id RowCall.spends ≤ 1
    by_cases hnew : call.row.id = id ∧ outcome.2.spends = true
    · rw [if_pos hnew, if_pos ⟨hnew.1, hgoes.spends hnew.2⟩] at hset
      omega
    · rw [if_neg hnew] at hset
      omega
  · intro id row hrow hnone
    obtain ⟨old, hold, hbefore, hopened⟩ := hrows hrow hnone
    have hquiet := h.unanswered id old hold hbefore
    have hset := hlives id
    refine ⟨?_, fun hopen => ?_, fun other hmem hid hreturned => ?_⟩
    · have hlone := hquiet.lone
      change liveOn (s.calls.set i outcome.2) id ≤ 1
      omega
    · change liveOn (s.calls.set i outcome.2) id = 0
      rcases hopened hopen with hwas | ⟨hid, hended⟩
      · have hidle := hquiet.idle hwas
        omega
      · have hlone := hquiet.lone
        have hless := hset.2 ⟨hid, hended⟩
        omega
    · obtain ⟨j, hother⟩ := List.getElem?_of_mem hmem
      rcases set_cases hcall hother with ⟨-, rfl⟩ | ⟨-, hkept⟩
      · rw [hrowId] at hid
        have hheld := hquiet.held call (List.mem_of_getElem? hcall) hid
        rcases advance_held hcall horderly hstep hheld hreturned with
          hholding | ⟨assign, keeps, houtbox, hstored⟩
        · exact hholding
        · change outcome.1.outbox.find? id = some row at hrow
          rw [houtbox, ← hid, Table.find?_update_self (hid ▸ hold)] at hrow
          rw [← Option.some.inj hrow] at hnone
          exact absurd hnone (hstored old)
      · exact hquiet.held other (List.mem_of_getElem? hkept) hid hreturned

theorem step (h : Once s) (hsound : WorkersSound s) {recordsSpend : Bool} {label : WorkerLabel}
    (horderly : Orderly s label) (hstep : s.step recordsSpend label = some next) : Once next := by
  cases label with
  | reclaim staleSeconds now skipped =>
      obtain rfl := Option.some.inj hstep
      exact h.reclaim horderly _
  | claim workerId limit now skipped =>
      obtain rfl := Option.some.inj hstep
      exact h.claim workerId limit now skipped
  | advance i step =>
      simp only [WorkerWorld.step, Option.bind_eq_bind, Option.bind_eq_some_iff] at hstep
      obtain ⟨call, hcall, outcome, hadvance, hnext⟩ := hstep
      obtain rfl := Option.some.inj hnext
      exact h.advance hcall horderly hadvance
  | commit writes =>
      simp only [WorkerWorld.step] at hstep
      split at hstep
      · rename_i hwrites
        obtain rfl := Option.some.inj hstep
        exact h.commit hsound (List.all_eq_true.mp hwrites)
      · cases hstep

end Once

/-- In every orderly run, at most one call on a row gets a receipt from the rail. -/
theorem receipt_once {recordsSpend : Bool} {labels : List WorkerLabel} {s : WorkerWorld}
    (horderly : (outboxWorkers recordsSpend).Meets Orderly {} labels)
    (hrun : (outboxWorkers recordsSpend).run {} labels = some s) (id : String) :
    callsOn s.calls id (fun call => call.returned) ≤ 1 := by
  have hboth : WorkersSound s ∧ Once s :=
    @Machine.invariant_of_meets _ _ (outboxWorkers recordsSpend) Orderly
      (fun s => WorkersSound s ∧ Once s)
      (fun _ _ _ horderly h hstep => ⟨h.1.step hstep, h.2.step h.1 horderly hstep⟩) _ _ _
      ⟨WorkersSound.initial, Once.initial⟩ horderly hrun
  refine Nat.le_trans (callsOn_mono fun call _ _ hreturned => ?_) (hboth.2.spends id)
  exact (Bool.or_eq_true _ _).mpr (.inl hreturned)

section Payments

/-- The transfer is dispatched, and the worker that was to settle it stops before it does; another
one settles it from the stored receipt. -/
def resumed : List WorkerLabel :=
  (dispatched "bank_ach" "ach_outbound" [("ach_trace", .str "T1")]).take 7 ++
    [.advance 0 .stop,
      .reclaim 300 400000 [],
      .claim "worker_2" 10 400000 [],
      .advance 1 (.prepare "exec_2" none (.ok none)),
      .advance 1 (.transact 400000 none),
      .advance 1 (.mark 400000)]

/-- The calls on the row that reached the rail, after a run. -/
def callsAfter (labels : List WorkerLabel) : Option Nat :=
  ((outboxWorkers false).run {} labels).map fun s =>
    callsOn s.calls "exo_1" fun call => call.request.isSome

theorem resumed_bounded : ∃ s, (outboxWorkers false).run {} resumed = some s ∧
    s.reclaims = ["exo_1"] ∧ callsOn s.calls "exo_1" (fun call => call.request.isSome) ≤ 13 := by
  have hsome : ((outboxWorkers false).run {} resumed).map (·.reclaims) = some ["exo_1"] := rfl
  obtain ⟨s, hrun, hreclaims⟩ := Option.map_eq_some_iff.mp hsome
  have hbound := (dispatches_bounded hrun).1 "exo_1"
  rw [hreclaims] at hbound
  exact ⟨s, hrun, hreclaims, hbound⟩

theorem resumed_once : ∃ s, (outboxWorkers false).run {} resumed = some s ∧
    callsOn s.calls "exo_1" (fun call => call.request.isSome) = 1 ∧
      callsOn s.calls "exo_1" (fun call => call.returned) ≤ 1 := by
  have hmeets : (outboxWorkers false).Meets Orderly {} resumed :=
    @Machine.meets_of_check _ _ (outboxWorkers false) orderly _ _ rfl
  have hsome : callsAfter resumed = some 1 := rfl
  obtain ⟨s, hrun, hcount⟩ := Option.map_eq_some_iff.mp hsome
  exact ⟨s, hrun, hcount, receipt_once hmeets hrun "exo_1"⟩

end Payments

end BrainCore.Execution
