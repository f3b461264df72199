import BrainCore.Execution.Lifecycle
import BrainCore.Execution.Outbox.Worker

/-!
# How dispatched intents end

A row of the outbox is settled, and failed, only once its intent is, and an
executed intent has exactly one execution, under the key and on the rail of a
row of its own, whatever workers stop, are late or do a row twice.
-/

namespace BrainCore.Execution

open BrainCore.Foundation BrainCore.Gate BrainCore.Ledger BrainCore.Policy

/-! ## The transactions alone -/

section Transactions

variable {db next : Database} {id : String} {now : Instant} {recordsSpend moved : Bool}

/-- The tables of the hand-off are left alone. -/
structure SameMoney (db next : Database) : Prop where
  intents : next.intents = db.intents
  outbox : next.outbox = db.outbox
  executions : next.executions = db.executions

theorem SameMoney.trans {middle : Database} (h : SameMoney db middle) (h' : SameMoney middle next) :
    SameMoney db next :=
  ⟨h'.intents.trans h.intents, h'.outbox.trans h.outbox, h'.executions.trans h.executions⟩

theorem insertExecution_alone {row : ExecutionRow} {u : Unit}
    (h : (insertExecution row).runAlone database db = .ok (next, u)) :
    db.executions.accepts row = true ∧ next = { db with executions := db.executions.put row } := by
  obtain ⟨new, hrun, rfl⟩ := Program.runAlone_execute.mp h
  unfold Executions.insertExecution at hrun
  split at hrun
  · cases hrun
  · rename_i other haccepts
    split at haccepts
    · rename_i hok
      cases haccepts
      cases hrun
      exact ⟨hok, rfl⟩
    · cases haccepts

theorem setExecutionReceipt_alone {receipt : Json} {row : ExecutionRow} {u : Unit}
    (hrow : db.executions.find? id = some row)
    (h : (setExecutionReceipt id receipt).runAlone database db = .ok (next, u)) :
    next = { db with executions := db.executions.put { row with railReceipt := receipt } } := by
  obtain ⟨new, hrun, rfl⟩ := Program.runAlone_execute.mp h
  rw [Executions.setExecutionReceipt, hrow] at hrun
  cases hrun
  rfl

theorem transitionExecution_alone {source target : ExecutionState} {row : ExecutionRow} {u : Unit}
    (hrow : db.executions.find? id = some row)
    (h : (transitionExecution id source target now).runAlone database db = .ok (next, u)) :
    next = { db with executions := db.executions.put { row with
      status := target
      completedAt :=
        if target = .completed ∨ target = .failed then some now else row.completedAt } } := by
  obtain ⟨new, hrun, rfl⟩ := Program.runAlone_execute.mp h
  unfold Executions.transitionExecution at hrun
  rw [hrow] at hrun
  by_cases hvalid : isValidExecutionTransition source target = true
  · rw [if_neg (fun h => h hvalid)] at hrun
    dsimp only at hrun
    by_cases hstatus : row.status = source
    · rw [if_pos hstatus] at hrun
      cases hrun
      rfl
    · rw [if_neg hstatus] at hrun
      cases hrun
  · rw [if_pos hvalid] at hrun
    cases hrun

theorem transition_alone {source target : PaymentIntentState} {result : Option PaymentIntentRow}
    (h : (LedgerPaymentIntents.transition id source target now).runAlone database db =
      .ok (next, result)) :
    result = none ∨ ∃ row, db.intents.find? id = some row ∧ row.status = source ∧
      next = { db with intents := db.intents.put (PaymentIntents.withStatus target now row) } := by
  obtain ⟨new, hrun, rfl⟩ := Program.runAlone_execute.mp h
  split at hrun
  · cases hrun
    exact .inl rfl
  · rename_i row hrow
    cases hrun
    obtain ⟨old, hold, hstatus, rfl⟩ := PaymentIntents.transitioned_eq_some hrow
    exact .inr ⟨old, hold, hstatus, rfl⟩

theorem requireMoved_alone {result : Option PaymentIntentRow} {message : String} {u : Unit}
    (h : (requireMoved result message).runAlone database db = .ok (next, u)) :
    next = db ∧ result ≠ none := by
  cases result with
  | none => exact absurd h Program.not_runAlone_throw
  | some row => exact ⟨(Program.runAlone_pure.mp h).1, fun hnone => nomatch hnone⟩

theorem appendExecutionReceiptId_alone {executionId : String} {row : PaymentIntentRow} {u : Unit}
    (hrow : db.intents.find? id = some row)
    (h : (LedgerPaymentIntents.appendExecutionReceiptId id executionId now).runAlone database db =
      .ok (next, u)) :
    next = { db with
      intents := db.intents.put (PaymentIntents.withReceiptId executionId now row) } := by
  obtain ⟨new, hrun, rfl⟩ := Program.runAlone_execute.mp h
  rw [hrow] at hrun
  cases hrun
  rfl

theorem reservation_alone {reservationId : Option String} {target : ReservationStatus} {u : Unit}
    (h : (withReservation reservationId fun id => LedgerReservations.transition id target).runAlone
      database db = .ok (next, u)) : SameMoney db next := by
  cases reservationId with
  | none =>
      obtain ⟨rfl, -⟩ := Program.runAlone_pure.mp h
      exact ⟨rfl, rfl, rfl⟩
  | some id =>
      obtain ⟨new, hrun, rfl⟩ := Program.runAlone_execute.mp h
      split at hrun <;> cases hrun <;> exact ⟨rfl, rfl, rfl⟩

theorem incrementEach_alone {agentId currency : String} {amount : Numeric8} {windows : List String}
    {u : Unit} (h : (incrementEach agentId currency amount now windows).runAlone database db =
      .ok (next, u)) : SameMoney db next := by
  induction windows generalizing db with
  | nil =>
      obtain ⟨rfl, -⟩ := Program.runAlone_pure.mp h
      exact ⟨rfl, rfl, rfl⟩
  | cons window windows ih =>
      obtain ⟨middle, _, hfirst, hrest⟩ := Program.runAlone_bind.mp h
      obtain ⟨new, hrun, rfl⟩ := Program.runAlone_execute.mp hfirst
      refine SameMoney.trans ?_ (ih hrest)
      split at hrun
      · cases hrun
      · cases hrun
        exact ⟨rfl, rfl, rfl⟩

theorem recordAgentSpend_alone {agentId currency : String} {amount : Numeric8} {u : Unit}
    (h : (recordAgentSpend agentId amount currency now).runAlone database db = .ok (next, u)) :
    SameMoney db next := by
  obtain ⟨middle, active, hread, hrest⟩ := Program.runAlone_bind.mp h
  obtain ⟨rfl, -⟩ := Program.runAlone_select.mp hread
  cases active with
  | none =>
      obtain ⟨rfl, -⟩ := Program.runAlone_pure.mp hrest
      exact ⟨rfl, rfl, rfl⟩
  | some active => exact incrementEach_alone hrest

/-- The execution that a completed intent has. -/
def CompleteExecution.executionRow (args : CompleteExecution) (now : Instant) : ExecutionRow :=
  { id := args.executionId, proposalId := args.paymentIntentId, rail := args.rail
    railReceipt := args.railReceipt, status := .completed, idempotencyKey := args.idempotencyKey
    completedAt := some now }

/-- The intent was dispatching, and is executed with its one execution. -/
structure Completes (args : CompleteExecution) (now : Instant) (db next : Database) : Prop where
  intent : ∃ row, db.intents.find? args.paymentIntentId = some row ∧ row.status = .dispatching ∧
    next.intents.find? args.paymentIntentId = some (PaymentIntents.withReceiptId args.executionId
      now (PaymentIntents.withStatus .executed now row))
  others : ∀ id ≠ args.paymentIntentId, next.intents.find? id = db.intents.find? id
  outbox : next.outbox = db.outbox
  rail : args.rail ∈ Executions.allowedRails
  fresh : db.executions.find? args.executionId = none
  execution : next.executions.find? args.executionId = some (args.executionRow now)
  executions : ∀ id ≠ args.executionId, next.executions.find? id = db.executions.find? id

theorem settleExecuted_alone {args : CompleteExecution} {current : PaymentIntentRow} {u : Unit}
    (h : (settleExecuted recordsSpend args now current).runAlone database db = .ok (next, u)) :
    Completes args now db next := by
  obtain ⟨db₁, _, hinsert, h₁⟩ := Program.runAlone_bind.mp h
  obtain ⟨haccepts, rfl⟩ := insertExecution_alone hinsert
  obtain ⟨db₂, _, hreceipt, h₂⟩ := Program.runAlone_bind.mp h₁
  obtain rfl := setExecutionReceipt_alone (by rw [Table.find?_put, if_pos rfl]) hreceipt
  obtain ⟨db₃, _, hflight, h₃⟩ := Program.runAlone_bind.mp h₂
  obtain rfl := transitionExecution_alone (by rw [Table.find?_put, if_pos rfl]) hflight
  obtain ⟨db₄, _, hedge, h₄⟩ := Program.runAlone_bind.mp h₃
  obtain ⟨rfl, -⟩ := Program.runAlone_ofExcept.mp hedge
  obtain ⟨db₅, result, hmoved, h₅⟩ := Program.runAlone_bind.mp h₄
  obtain ⟨db₆, _, hrequire, h₆⟩ := Program.runAlone_bind.mp h₅
  obtain ⟨rfl, hsome⟩ := requireMoved_alone hrequire
  obtain ⟨row, hrow, hstatus, rfl⟩ := (transition_alone hmoved).resolve_left hsome
  obtain ⟨db₇, _, hcompleted, h₇⟩ := Program.runAlone_bind.mp h₆
  obtain rfl := transitionExecution_alone (by rw [Table.find?_put, if_pos rfl]) hcompleted
  obtain ⟨db₈, _, hreceiptId, h₈⟩ := Program.runAlone_bind.mp h₇
  have hid : row.id = args.paymentIntentId := Table.key_of_find? hrow
  have hexecuted : (db.intents.put (PaymentIntents.withStatus .executed now row)).find?
      args.paymentIntentId = some (PaymentIntents.withStatus .executed now row) := by
    rw [Table.find?_put]
    exact if_pos hid.symm
  obtain rfl := appendExecutionReceiptId_alone hexecuted hreceiptId
  obtain ⟨db₉, _, hreservation, h₉⟩ := Program.runAlone_bind.mp h₈
  have hspent : SameMoney db₉ next := by
    split at h₉
    · exact recordAgentSpend_alone h₉
    · obtain ⟨rfl, -⟩ := Program.runAlone_pure.mp h₉
      exact ⟨rfl, rfl, rfl⟩
  have hsame := (reservation_alone hreservation).trans hspent
  have hrail : args.rail ∈ Executions.allowedRails ∧
      db.executions.find? args.executionId = none := by
    simp only [Executions.accepts, Bool.and_eq_true, decide_eq_true_eq, Bool.not_eq_true',
      Option.isSome_eq_false_iff, Option.isNone_iff_eq_none] at haccepts
    exact haccepts.1
  constructor
  · refine ⟨row, hrow, hstatus, ?_⟩
    rw [hsame.intents, Table.find?_put]
    exact if_pos hid.symm
  · intro id hne
    rw [hsame.intents, Table.find?_put, if_neg (fun h => hne (h.trans hid)), Table.find?_put]
    exact if_neg fun h => hne (h.trans hid)
  · exact hsame.outbox
  · exact hrail.1
  · exact hrail.2
  · rw [hsame.executions, Table.find?_put]
    exact if_pos rfl
  · intro id hne
    rw [hsame.executions]
    simp only [Table.find?_put, if_neg hne]

/-- A completion finds the intent executed, or executes it. -/
theorem completeExecution_alone {args : CompleteExecution}
    (h : (completeExecution recordsSpend args now).runAlone database db = .ok (next, moved)) :
    (∃ row, db.intents.find? args.paymentIntentId = some row ∧ row.status = .executed ∧ next = db) ∨
      Completes args now db next := by
  obtain ⟨middle, current, hread, h⟩ := Program.runAlone_bind.mp h
  obtain ⟨rfl, rfl⟩ := Program.runAlone_select.mp hread
  split at h
  · exact absurd h Program.not_runAlone_throw
  · rename_i current hcurrent
    split at h
    · rename_i hexecuted
      obtain ⟨rfl, -⟩ := Program.runAlone_pure.mp h
      exact .inl ⟨current, hcurrent, hexecuted, rfl⟩
    split at h
    · exact absurd h Program.not_runAlone_throw
    split at h
    · exact absurd h Program.not_runAlone_throw
    · obtain ⟨last, _, hsettle, hpure⟩ := Program.runAlone_bind.mp h
      obtain ⟨rfl, -⟩ := Program.runAlone_pure.mp hpure
      exact .inr (settleExecuted_alone hsettle)

/-- The intent was dispatching, and has failed. -/
structure Fails (intentId : String) (now : Instant) (db next : Database) : Prop where
  intent : ∃ row, db.intents.find? intentId = some row ∧ row.status = .dispatching ∧
    next.intents.find? intentId = some (PaymentIntents.withStatus .failed now row)
  others : ∀ id ≠ intentId, next.intents.find? id = db.intents.find? id
  outbox : next.outbox = db.outbox
  executions : next.executions = db.executions

theorem failExecution_alone {args : FailExecution}
    (h : (failExecution args now).runAlone database db = .ok (next, moved)) :
    Fails args.paymentIntentId now db next := by
  obtain ⟨db₁, _, hedge, h₁⟩ := Program.runAlone_bind.mp h
  obtain ⟨rfl, -⟩ := Program.runAlone_ofExcept.mp hedge
  obtain ⟨db₂, result, hmoved, h₂⟩ := Program.runAlone_bind.mp h₁
  obtain ⟨db₃, _, hrequire, h₃⟩ := Program.runAlone_bind.mp h₂
  obtain ⟨rfl, hsome⟩ := requireMoved_alone hrequire
  obtain ⟨row, hrow, hstatus, rfl⟩ := (transition_alone hmoved).resolve_left hsome
  obtain ⟨db₄, _, hreservation, h₄⟩ := Program.runAlone_bind.mp h₃
  obtain ⟨rfl, -⟩ := Program.runAlone_pure.mp h₄
  have hsame := reservation_alone hreservation
  have hid : row.id = args.paymentIntentId := Table.key_of_find? hrow
  constructor
  · refine ⟨row, hrow, hstatus, ?_⟩
    rw [hsame.intents, Table.find?_put]
    exact if_pos hid.symm
  · intro id hne
    rw [hsame.intents, Table.find?_put]
    exact if_neg fun h => hne (h.trans hid)
  · exact hsame.outbox
  · exact hsame.executions

end Transactions

/-! ## The invariant -/

/-- The intent stands at this status. -/
def HasStatus (db : Database) (intentId : String) (status : PaymentIntentState) : Prop :=
  ∃ row, db.intents.find? intentId = some row ∧ row.status = status

theorem HasStatus.unique {db : Database} {intentId : String} {first second : PaymentIntentState}
    (h : HasStatus db intentId first) (h' : HasStatus db intentId second) : first = second := by
  obtain ⟨row, hrow, rfl⟩ := h
  obtain ⟨other, hother, rfl⟩ := h'
  rw [Option.some.inj (hrow.symm.trans hother)]

/-- The columns that stay as they are enqueued. -/
structure SameHandOff (first second : OutboxRow) : Prop where
  intent : second.paymentIntentId = first.paymentIntentId
  rail : second.rail = first.rail
  key : second.idempotencyKey = first.idempotencyKey
  payload : second.payload = first.payload

theorem SameHandOff.refl (row : OutboxRow) : SameHandOff row row := ⟨rfl, rfl, rfl, rfl⟩

theorem SameHandOff.trans {first second third : OutboxRow} (h : SameHandOff first second)
    (h' : SameHandOff second third) : SameHandOff first third :=
  ⟨h'.intent.trans h.intent, h'.rail.trans h.rail, h'.key.trans h.key, h'.payload.trans h.payload⟩

/-- The outbox has the row that was claimed. -/
def Claimed (db : Database) (row : OutboxRow) : Prop :=
  ∃ stored, db.outbox.find? row.id = some stored ∧ SameHandOff row stored

/-- What a call that is about to end a row knows of its intent. -/
def Known (db : Database) (call : RowCall) : Prop :=
  match call.phase with
  | .settled => HasStatus db call.row.paymentIntentId .executed
  | .failedIntent _ _ => HasStatus db call.row.paymentIntentId .failed
  | _ => True

/-- The execution is the only one of its intent, completed, under the key and on the rail of an
outbox row of the intent. -/
structure OnlyExecution (db : Database) (intentId : String) (execution : ExecutionRow) : Prop where
  stored : db.executions.find? execution.id = some execution
  intent : execution.proposalId = intentId
  completed : execution.status = .completed
  rail : execution.rail ∈ Executions.allowedRails
  handOff : ∃ id row, db.outbox.find? id = some row ∧ row.paymentIntentId = intentId ∧
    row.rail = execution.rail ∧ row.idempotencyKey = execution.idempotencyKey
  only : ∀ id other, db.executions.find? id = some other → other.proposalId = intentId →
    other = execution

structure WorkersSound (s : WorkerWorld) : Prop where
  settled : ∀ id row, s.db.outbox.find? id = some row → row.status = .settled →
    HasStatus s.db row.paymentIntentId .executed
  failed : ∀ id row, s.db.outbox.find? id = some row → row.status = .failed →
    HasStatus s.db row.paymentIntentId .failed
  claimed : ∀ call ∈ s.calls, Claimed s.db call.row
  known : ∀ call ∈ s.calls, Known s.db call
  executed : ∀ id, HasStatus s.db id .executed → ∃ execution, OnlyExecution s.db id execution
  executions : ∀ id execution, s.db.executions.find? id = some execution →
    HasStatus s.db execution.proposalId .executed

/-- What the status of a row says of its intent. -/
structure StatusTrue (db : Database) (row : OutboxRow) : Prop where
  settled : row.status = .settled → HasStatus db row.paymentIntentId .executed
  failed : row.status = .failed → HasStatus db row.paymentIntentId .failed

theorem StatusTrue.of_open {db : Database} {row : OutboxRow} (hsettled : row.status ≠ .settled)
    (hfailed : row.status ≠ .failed) : StatusTrue db row :=
  ⟨fun h => absurd h hsettled, fun h => absurd h hfailed⟩

theorem Known.congr {db next : Database} {call : RowCall}
    (h : Known db call) (hkept : ∀ status, isOutcome status = true →
      HasStatus db call.row.paymentIntentId status →
        HasStatus next call.row.paymentIntentId status) :
    Known next call := by
  unfold Known at h ⊢
  split at h
  · exact hkept _ rfl h
  · exact hkept _ rfl h
  · trivial

theorem outcome_of_edge {source target : PaymentIntentState} (h : isOutcome source = true)
    (hedge : isValidPaymentIntentTransition source target = true) : isOutcome target = true := by
  cases source <;> cases target <;>
    first | exact absurd h (by decide) | exact absurd hedge (by decide) | rfl

/-- Other components end no intent, and move none that has ended. -/
theorem outcomes_view {db : Database} {writes : List Write}
    (hwrites : ∀ w ∈ writes, othersWrite db w = true) (id : String) {status : PaymentIntentState}
    (houtcome : isOutcome status = true) :
    HasStatus (database.view db writes) id status ↔ HasStatus db id status := by
  unfold HasStatus
  rcases intents_cases db writes id with ⟨row, hmem, hid, hfind⟩ | hsame
  · have hallowed := hwrites _ hmem
    simp only [othersWrite, hid] at hallowed
    rw [hfind]
    cases hold : db.intents.find? id with
    | none =>
        rw [hold] at hallowed
        constructor
        · rintro ⟨_, ⟨⟩, rfl⟩
          rw [houtcome] at hallowed
          cases hallowed
        · rintro ⟨_, ⟨⟩, _⟩
    | some old =>
        rw [hold] at hallowed
        rcases (Bool.or_eq_true _ _).mp hallowed with hsame | hmoved
        · have hstatus := of_decide_eq_true hsame
          constructor
          · rintro ⟨_, ⟨⟩, rfl⟩
            exact ⟨old, rfl, hstatus.symm⟩
          · rintro ⟨_, ⟨⟩, rfl⟩
            exact ⟨row, rfl, hstatus⟩
        · obtain ⟨hedge, hopen⟩ := (Bool.and_eq_true _ _).mp hmoved
          rw [Bool.not_eq_true'] at hopen
          constructor
          · rintro ⟨_, ⟨⟩, rfl⟩
            cases houtcome.symm.trans hopen
          · rintro ⟨_, ⟨⟩, rfl⟩
            cases (outcome_of_edge houtcome hedge).symm.trans hopen
  · rw [hsame]

theorem Outbox.mem_picked {outbox : Outbox} {limit : Nat} {now : Instant} {skipped : List String}
    {row : OutboxRow} (h : row ∈ outbox.picked limit now skipped) :
    row ∈ outbox.rows ∧ Outbox.claimable now row = true := by
  have hsorted := (List.take_sublist _ _).subset h
  rw [List.mem_insertionSort, List.mem_filter, Bool.and_eq_true] at hsorted
  exact ⟨hsorted.1, hsorted.2.1⟩

theorem failedAttempt_open {db : Database} {error : String} {now : Instant} (row : OutboxRow) :
    StatusTrue db (Outbox.failedAttempt error now row) := by
  unfold Outbox.failedAttempt
  split <;> exact StatusTrue.of_open nofun nofun

/-! ### Calls that go on -/

namespace RowCall

variable (call : RowCall)

theorem rejected_row (error : DispatchError) : (call.rejected error).row = call.row := by
  unfold rejected
  split <;> rfl

theorem prepare_row {executionId : String} {blocked : Option String}
    {credentials : Except DispatchError (Option (List (String × Json)))} :
    (call.prepare executionId blocked credentials).row = call.row := by
  unfold prepare
  split
  · rfl
  split <;> first | rfl | exact call.rejected_row _

theorem receive_row (executionId : String) (receipt : List (String × Json)) :
    (call.receive executionId receipt).row = call.row := by
  unfold receive
  split <;> rfl

end RowCall

theorem known_thrown {db : Database} (call : RowCall) (message : String) :
    Known db { call with phase := call.thrown message } := by
  unfold Known RowCall.thrown
  cases call.phase <;> trivial

theorem known_rejected {db : Database} (call : RowCall) (error : DispatchError) :
    Known db (call.rejected error) := by
  unfold RowCall.rejected
  split <;> trivial

theorem known_prepare {db : Database} (call : RowCall) {executionId : String}
    {blocked : Option String} {credentials : Except DispatchError (Option (List (String × Json)))} :
    Known db (call.prepare executionId blocked credentials) := by
  unfold RowCall.prepare
  split
  · trivial
  split <;> first | trivial | exact known_rejected call _

theorem known_receive {db : Database} (call : RowCall) {executionId : String}
    {receipt : List (String × Json)} :
    Known db (call.receive executionId receipt) := by
  unfold RowCall.receive
  split <;> trivial

namespace WorkersSound

variable {s next : WorkerWorld} {call latest : RowCall} {i : Nat}

theorem initial : WorkersSound {} where
  settled _ _ hrow := nomatch hrow
  failed _ _ hrow := nomatch hrow
  claimed _ hmem := nomatch hmem
  known _ hmem := nomatch hmem
  executed _ h := by
    obtain ⟨row, hrow, -⟩ := h
    cases hrow
  executions _ _ hrow := nomatch hrow

/-- The calls go on. -/
theorem calls (h : WorkersSound s) {calls : List RowCall}
    (hcalls : ∀ call ∈ calls, Claimed s.db call.row ∧ Known s.db call) :
    WorkersSound { s with calls } where
  settled := h.settled
  failed := h.failed
  claimed call hmem := (hcalls call hmem).1
  known call hmem := (hcalls call hmem).2
  executed := h.executed
  executions := h.executions

theorem set (h : WorkersSound s) (hcall : s.calls[i]? = some call) (hrow : latest.row = call.row)
    (hknown : Known s.db latest) : WorkersSound { s with calls := s.calls.set i latest } := by
  refine h.calls fun other hmem => ?_
  obtain ⟨j, hother⟩ := List.getElem?_of_mem hmem
  rcases set_cases hcall hother with ⟨-, rfl⟩ | ⟨-, hold⟩
  · refine ⟨?_, hknown⟩
    rw [hrow]
    exact h.claimed call (List.mem_of_getElem? hcall)
  · exact ⟨h.claimed other (List.mem_of_getElem? hold), h.known other (List.mem_of_getElem? hold)⟩

/-- Rows of the outbox are updated. -/
theorem update (h : WorkersSound s) (p : OutboxRow → Bool) (assign : OutboxRow → OutboxRow)
    (keeps : ∀ row, (assign row).id = row.id) (hassign : ∀ row, SameHandOff row (assign row))
    (hstatus : ∀ row ∈ s.db.outbox.rows, p row = true → StatusTrue s.db (assign row)) :
    WorkersSound { s with
      db := { s.db with outbox := s.db.outbox.updateWhere p assign keeps } } := by
  have hrows : ∀ {id : String} {row : OutboxRow},
      (s.db.outbox.updateWhere p assign keeps).find? id = some row →
        StatusTrue s.db row := by
    intro id row hrow
    rw [Table.find?_updateWhere] at hrow
    obtain ⟨old, hold, rfl⟩ := Option.map_eq_some_iff.mp hrow
    split
    · rename_i hp
      exact hstatus old (Table.mem_of_find? hold) hp
    · exact ⟨h.settled id old hold, h.failed id old hold⟩
  have hkept : ∀ {id : String} {row : OutboxRow}, s.db.outbox.find? id = some row →
      ∃ stored, (s.db.outbox.updateWhere p assign keeps).find? id = some stored ∧
        SameHandOff row stored := by
    intro id row hrow
    rw [Table.find?_updateWhere, hrow]
    refine ⟨if p row = true then assign row else row, rfl, ?_⟩
    split
    · exact hassign row
    · exact SameHandOff.refl row
  constructor
  · exact fun id row hrow => (hrows hrow).settled
  · exact fun id row hrow => (hrows hrow).failed
  · intro call hmem
    obtain ⟨old, hold, hsame⟩ := h.claimed call hmem
    obtain ⟨stored, hstored, hsame'⟩ := hkept hold
    exact ⟨stored, hstored, hsame.trans hsame'⟩
  · exact fun call hmem => (h.known call hmem).congr fun _ _ => id
  · intro id hexecuted
    obtain ⟨execution, hstored, hintent, hcompleted, hrail, ⟨key, row, hrow, hof, hon, hunder⟩,
      honly⟩ := h.executed id hexecuted
    obtain ⟨stored, hfind, hsame⟩ := hkept hrow
    exact ⟨execution, hstored, hintent, hcompleted, hrail, ⟨key, stored, hfind,
      hsame.intent.trans hof, hsame.rail.trans hon, hsame.key.trans hunder⟩, honly⟩
  · exact h.executions

/-- An intent is moved out of `dispatching`, or other components commit. -/
theorem intents (h : WorkersSound s) {db : Database}
    (hkept : ∀ id status, isOutcome status = true → HasStatus s.db id status →
      HasStatus db id status)
    (houtbox : ∀ id row, s.db.outbox.find? id = some row → db.outbox.find? id = some row)
    (hnew : ∀ id row, db.outbox.find? id = some row →
      s.db.outbox.find? id = some row ∨ row.status = .pending)
    (hexecuted : ∀ id, HasStatus db id .executed → ∃ execution, OnlyExecution db id execution)
    (hexecutions : ∀ id execution, db.executions.find? id = some execution →
      HasStatus db execution.proposalId .executed) :
    WorkersSound { s with db } where
  settled id row hrow hstatus := by
    rcases hnew id row hrow with hold | hpending
    · exact hkept _ _ rfl (h.settled id row hold hstatus)
    · rw [hpending] at hstatus
      cases hstatus
  failed id row hrow hstatus := by
    rcases hnew id row hrow with hold | hpending
    · exact hkept _ _ rfl (h.failed id row hold hstatus)
    · rw [hpending] at hstatus
      cases hstatus
  claimed call hmem := by
    obtain ⟨stored, hstored, hsame⟩ := h.claimed call hmem
    exact ⟨stored, houtbox _ _ hstored, hsame⟩
  known call hmem := (h.known call hmem).congr fun status houtcome => hkept _ status houtcome
  executed := hexecuted
  executions := hexecutions

/-! ### The transactions of the payment-intent service -/

theorem completes (h : WorkersSound s) {db : Database} {executionId : String} {receipt : Json}
    {now : Instant} (hclaimed : Claimed s.db call.row)
    (hruns : Completes (call.completion executionId receipt) now s.db db) :
    WorkersSound { s with db } := by
  obtain ⟨⟨row, hrow, hdispatching, hmoved⟩, hothers, houtbox, hrail, hfresh, hnew, hkeptRows⟩ :=
    hruns
  have hopen : ∀ status, HasStatus s.db call.row.paymentIntentId status → status = .dispatching :=
    fun status hstatus => hstatus.unique ⟨row, hrow, hdispatching⟩
  have hstatus : ∀ id ≠ call.row.paymentIntentId, ∀ status, HasStatus db id status ↔
      HasStatus s.db id status := by
    intro id hne status
    unfold HasStatus
    rw [hothers id hne]
  have hdone : HasStatus db call.row.paymentIntentId .executed := ⟨_, hmoved, rfl⟩
  have hkept : ∀ id status, isOutcome status = true → HasStatus s.db id status →
      HasStatus db id status := by
    intro id status houtcome hold
    by_cases hid : id = call.row.paymentIntentId
    · subst hid
      rw [hopen status hold] at houtcome
      cases houtcome
    · exact (hstatus id hid status).mpr hold
  -- An execution of the intent would have it executed already.
  have hnone : ∀ id execution, s.db.executions.find? id = some execution →
      execution.proposalId ≠ call.row.paymentIntentId := by
    intro id execution hexecution hid
    have hexecuted := h.executions id execution hexecution
    rw [hid] at hexecuted
    cases hopen _ hexecuted
  refine h.intents hkept (fun id row hrow => houtbox ▸ hrow)
    (fun id row hrow => .inl (houtbox ▸ hrow)) ?_ ?_
  · intro id hexecuted
    by_cases hid : id = call.row.paymentIntentId
    · subst hid
      obtain ⟨stored, hstored, hsame⟩ := hclaimed
      refine ⟨(call.completion executionId receipt).executionRow now, hnew, rfl, rfl, hrail, ?_, ?_⟩
      · exact ⟨call.row.id, stored, houtbox ▸ hstored, hsame.intent, hsame.rail, hsame.key⟩
      · intro key other hother hof
        by_cases hkey : key = executionId
        · subst hkey
          exact (Option.some.inj (hnew.symm.trans hother)).symm
        · rw [hkeptRows key hkey] at hother
          exact absurd hof (hnone key other hother)
    · obtain ⟨execution, hstored, hintent, hcompleted, hon, ⟨key, row, hrow, hhandOff⟩, honly⟩ :=
        h.executed id ((hstatus id hid _).mp hexecuted)
      have hne : execution.id ≠ executionId := by
        intro heq
        rw [heq] at hstored
        cases hfresh.symm.trans hstored
      refine ⟨execution, (hkeptRows _ hne).trans hstored, hintent, hcompleted, hon,
        ⟨key, row, houtbox ▸ hrow, hhandOff⟩, ?_⟩
      intro key other hother hof
      by_cases hkey : key = executionId
      · subst hkey
        rw [← Option.some.inj (hnew.symm.trans hother)] at hof
        exact absurd hof.symm hid
      · rw [hkeptRows key hkey] at hother
        exact honly key other hother hof
  · intro id execution hexecution
    by_cases hkey : id = executionId
    · subst hkey
      rw [← Option.some.inj (hnew.symm.trans hexecution)]
      exact hdone
    · rw [hkeptRows id hkey] at hexecution
      exact hkept _ _ rfl (h.executions id execution hexecution)

theorem fails (h : WorkersSound s) {db : Database} {intentId : String} {now : Instant}
    (hruns : Fails intentId now s.db db) : WorkersSound { s with db } := by
  obtain ⟨⟨row, hrow, hdispatching, hmoved⟩, hothers, houtbox, hexecutions⟩ := hruns
  have hkept : ∀ id status, isOutcome status = true → HasStatus s.db id status →
      HasStatus db id status := by
    intro id status houtcome hold
    by_cases hid : id = intentId
    · subst hid
      rw [hold.unique ⟨row, hrow, hdispatching⟩] at houtcome
      cases houtcome
    · obtain ⟨other, hother, hstatus⟩ := hold
      exact ⟨other, (hothers id hid).trans hother, hstatus⟩
  refine h.intents hkept (fun id row hrow => houtbox ▸ hrow)
    (fun id row hrow => .inl (houtbox ▸ hrow)) ?_ ?_
  · rintro id ⟨other, hother, hexecuted⟩
    by_cases hid : id = intentId
    · subst hid
      rw [← Option.some.inj (hmoved.symm.trans hother)] at hexecuted
      cases hexecuted
    · obtain ⟨execution, hstored, hintent, hcompleted, hon, ⟨key, row, hrow, hhandOff⟩, honly⟩ :=
        h.executed id ⟨other, (hothers id hid).symm.trans hother, hexecuted⟩
      exact ⟨execution, hexecutions ▸ hstored, hintent, hcompleted, hon,
        ⟨key, row, houtbox ▸ hrow, hhandOff⟩,
        fun key other hother => honly key other (hexecutions ▸ hother)⟩
  · intro id execution hexecution
    exact hkept _ _ rfl (h.executions id execution (hexecutions ▸ hexecution))

/-! ### Other components -/

theorem commit (h : WorkersSound s) {writes : List Write}
    (hwrites : ∀ w ∈ writes, othersWrite s.db w = true) :
    WorkersSound { s with db := database.view s.db writes } := by
  have hexecutions : (database.view s.db writes).executions = s.db.executions := by
    apply view_of_skip Database.executions
    intro w hw db
    cases w with
    | execution row => cases hwrites _ hw
    | intent | outbox | reservation | account | balance | counter | decision | «facts» | policy =>
        rfl
  have hkept : ∀ id status, isOutcome status = true →
      (HasStatus (database.view s.db writes) id status ↔ HasStatus s.db id status) :=
    fun id status houtcome => outcomes_view hwrites id houtcome
  have houtbox : ∀ id row, s.db.outbox.find? id = some row →
      (database.view s.db writes).outbox.find? id = some row := by
    intro id row hrow
    rcases outbox_cases s.db writes id with ⟨other, hmem, hid, -⟩ | hsame
    · have hallowed := ((Bool.and_eq_true _ _).mp (hwrites _ hmem)).2
      rw [hid, hrow] at hallowed
      cases hallowed
    · exact hsame.trans hrow
  refine h.intents (fun id status houtcome => (hkept id status houtcome).mpr) houtbox ?_ ?_ ?_
  · intro id row hrow
    rcases outbox_cases s.db writes id with ⟨other, hmem, hid, hfind⟩ | hsame
    · have hallowed := ((Bool.and_eq_true _ _).mp (hwrites _ hmem)).1
      obtain rfl := Option.some.inj (hfind.symm.trans hrow)
      simp only [OutboxRow.isFresh, Bool.and_eq_true, decide_eq_true_eq] at hallowed
      exact .inr hallowed.1.1.1.1
    · exact .inl (hsame.symm.trans hrow)
  · intro id hexecuted
    obtain ⟨execution, hstored, hintent, hcompleted, hon, ⟨key, row, hrow, hhandOff⟩, honly⟩ :=
      h.executed id ((hkept id _ rfl).mp hexecuted)
    refine ⟨execution, hexecutions ▸ hstored, hintent, hcompleted, hon,
      ⟨key, row, houtbox key row hrow, hhandOff⟩, ?_⟩
    rw [hexecutions]
    exact honly
  · intro id execution hexecution
    rw [hexecutions] at hexecution
    exact (hkept _ _ rfl).mpr (h.executions id execution hexecution)

/-! ### The statements of the outbox -/

theorem marked (h : WorkersSound s) (hcall : s.calls[i]? = some call)
    {assign : OutboxRow → OutboxRow} {keeps : ∀ row, (assign row).id = row.id}
    (hassign : ∀ row, SameHandOff row (assign row))
    (hstatus : ∀ row ∈ s.db.outbox.rows, row.id = call.row.id → StatusTrue s.db (assign row))
    (hrow : latest.row = call.row) (hknown : ∀ db, Known db latest) :
    WorkersSound (s.advanced i
      ({ s.db with outbox := s.db.outbox.update call.row.id assign keeps }, latest)) :=
  (h.update (fun row => row.id = call.row.id) assign keeps hassign fun row hmem hid =>
    hstatus row hmem (of_decide_eq_true hid)).set hcall hrow (hknown _)

/-- What a call knows of its intent holds of the row it marks. -/
theorem statusTrue (h : WorkersSound s) (hmem : call ∈ s.calls) {row : OutboxRow}
    (hrow : row ∈ s.db.outbox.rows) (hid : row.id = call.row.id) {status : PaymentIntentState}
    (hknown : HasStatus s.db call.row.paymentIntentId status) :
    HasStatus s.db row.paymentIntentId status := by
  obtain ⟨stored, hstored, hsame⟩ := h.claimed call hmem
  have hfind := Table.find?_key hrow
  rw [hid] at hfind
  obtain rfl := Option.some.inj (hstored.symm.trans hfind)
  rw [hsame.intent]
  exact hknown

theorem mark (h : WorkersSound s) (hcall : s.calls[i]? = some call) {now : Instant}
    {outcome : Database × RowCall} (hmark : call.mark s.db now = some outcome) :
    WorkersSound (s.advanced i outcome) := by
  have hmem := List.mem_of_getElem? hcall
  have hknown := h.known call hmem
  have hopen : ∀ {row : OutboxRow}, row.status ≠ .settled → row.status ≠ .failed →
      StatusTrue s.db row := StatusTrue.of_open
  unfold RowCall.mark at hmark
  unfold Known at hknown
  split at hmark
  · obtain rfl := Option.some.inj hmark
    exact h.marked hcall (fun row => ⟨rfl, rfl, rfl, rfl⟩)
      (fun row _ _ => hopen (fun h => by cases h) fun h => by cases h) rfl fun _ => trivial
  · rename_i hphase
    obtain rfl := Option.some.inj hmark
    rw [hphase] at hknown
    exact h.marked hcall (fun row => ⟨rfl, rfl, rfl, rfl⟩)
      (fun row hrow hid => ⟨fun _ => h.statusTrue hmem hrow hid hknown, fun h => by cases h⟩) rfl
      fun _ => trivial
  · rename_i reason afterId hphase
    obtain rfl := Option.some.inj hmark
    rw [hphase] at hknown
    exact h.marked hcall (fun row => ⟨rfl, rfl, rfl, rfl⟩)
      (fun row hrow hid => ⟨fun h => (by cases h), fun _ => h.statusTrue hmem hrow hid hknown⟩) rfl
      fun _ => trivial
  · obtain rfl := Option.some.inj hmark
    unfold Outbox.markFailed
    split
    · exact h.set hcall rfl trivial
    · exact h.marked hcall (fun row => ⟨rfl, rfl, rfl, rfl⟩) (fun row _ _ => failedAttempt_open row)
        rfl fun _ => trivial
  · obtain rfl := Option.some.inj hmark
    unfold Outbox.markReconciling
    split
    · exact h.set hcall rfl trivial
    · exact h.marked hcall (fun row => ⟨rfl, rfl, rfl, rfl⟩)
        (fun row _ _ => hopen (fun h => by cases h) fun h => by cases h) rfl fun _ => trivial
  · cases hmark

theorem reclaim (h : WorkersSound s) (staleSeconds : Nat) (now : Instant) (skipped : List String)
    (reclaims : List String) :
    WorkersSound { s with
      db := { s.db with outbox := (s.db.outbox.reclaimStale staleSeconds now skipped).1 }
      reclaims } := by
  have hupdated := h.update
    (fun row => Outbox.isStale staleSeconds now row && !skipped.contains row.id)
    Outbox.reclaimed (fun _ => rfl) (fun _ => ⟨rfl, rfl, rfl, rfl⟩)
    fun _ _ _ => StatusTrue.of_open (fun h => by cases h) fun h => by cases h
  exact ⟨hupdated.settled, hupdated.failed, hupdated.claimed, hupdated.known, hupdated.executed,
    hupdated.executions⟩

theorem claim (h : WorkersSound s) (workerId : String) (limit : Nat) (now : Instant)
    (skipped : List String) :
    WorkersSound { s with
      db := { s.db with outbox := (s.db.outbox.claimNext workerId limit now skipped).1 }
      calls := s.calls ++
        (s.db.outbox.claimNext workerId limit now skipped).2.map (RowCall.start workerId) } := by
  have hupdated := h.update
    (fun row => row.id ∈ (s.db.outbox.picked limit now skipped).map (·.id))
    (Outbox.claimed workerId now) (fun _ => rfl) (fun _ => ⟨rfl, rfl, rfl, rfl⟩)
    fun _ _ _ => StatusTrue.of_open (fun h => by cases h) fun h => by cases h
  refine hupdated.calls fun call hmem => ?_
  rcases List.mem_append.mp hmem with hold | hnew
  · exact ⟨hupdated.claimed call hold, hupdated.known call hold⟩
  · obtain ⟨row, hrow, rfl⟩ := List.mem_map.mp hnew
    obtain ⟨old, hpicked, rfl⟩ := List.mem_map.mp hrow
    refine ⟨⟨Outbox.claimed workerId now old, ?_, SameHandOff.refl _⟩, trivial⟩
    have hfind := Table.find?_key (Outbox.mem_picked hpicked).1
    have hupdate := Table.find?_updateWhere s.db.outbox
      (fun row => row.id ∈ (s.db.outbox.picked limit now skipped).map (·.id))
      (Outbox.claimed workerId now) (fun _ => rfl) old.id
    refine hupdate.trans ?_
    rw [hfind, Option.map_some, if_pos (decide_eq_true (List.mem_map_of_mem hpicked))]

/-! ### Every step -/

/-- The transaction of a call has committed. -/
theorem committed (h : WorkersSound s) (hmem : call ∈ s.calls) {recordsSpend moved : Bool}
    {now : Instant} {body : Transact Bool} {db : Database}
    (hbody : call.transaction recordsSpend now = some body)
    (halone : body.runAlone database s.db = .ok (db, moved)) :
    WorkersSound { s with db } ∧ Known db { call with phase := call.committed } := by
  unfold RowCall.transaction at hbody
  split at hbody
  · rename_i executionId receipt hphase
    obtain rfl := Option.some.inj hbody
    unfold RowCall.committed Known
    rw [hphase]
    rcases completeExecution_alone halone with ⟨row, hrow, hexecuted, rfl⟩ | hcompletes
    · exact ⟨h, row, hrow, hexecuted⟩
    · obtain ⟨row, -, -, hmoved⟩ := hcompletes.intent
      exact ⟨h.completes (h.claimed call hmem) hcompletes, _, hmoved, rfl⟩
  · rename_i reason afterId hphase
    obtain rfl := Option.some.inj hbody
    unfold RowCall.committed Known
    rw [hphase]
    have hfails := failExecution_alone halone
    obtain ⟨row, -, -, hmoved⟩ := hfails.intent
    exact ⟨h.fails hfails, _, hmoved, rfl⟩
  · cases hbody

theorem transact (h : WorkersSound s) (hcall : s.calls[i]? = some call) {recordsSpend : Bool}
    {now : Instant} {lost : Option String} {outcome : Database × RowCall}
    (hrun : call.transact recordsSpend s.db now lost = some outcome) :
    WorkersSound (s.advanced i outcome) := by
  unfold RowCall.transact at hrun
  split at hrun
  · cases hrun
  · rename_i body hbody
    cases halone : body.runAlone database s.db with
    | error error =>
        rw [halone] at hrun
        obtain rfl := Option.some.inj hrun
        exact h.set hcall rfl (known_thrown call _)
    | ok result =>
        obtain ⟨db, moved⟩ := result
        obtain ⟨hsound, hknown⟩ := h.committed (List.mem_of_getElem? hcall) hbody halone
        rw [halone] at hrun
        cases lost with
        | none =>
            obtain rfl := Option.some.inj hrun
            exact hsound.set hcall rfl hknown
        | some message =>
            obtain rfl := Option.some.inj hrun
            exact hsound.set hcall rfl (known_thrown call message)

theorem advance (h : WorkersSound s) (hcall : s.calls[i]? = some call) {recordsSpend : Bool}
    {step : RowStep} {outcome : Database × RowCall}
    (hstep : call.advance recordsSpend s.db step = some outcome) :
    WorkersSound (s.advanced i outcome) := by
  cases step with
  | prepare executionId blocked credentials =>
      simp only [RowCall.advance] at hstep
      split at hstep
      · obtain rfl := Option.some.inj hstep
        exact h.set hcall call.prepare_row (known_prepare call)
      · cases hstep
  | railAnswers answer =>
      simp only [RowCall.advance] at hstep
      split at hstep
      · obtain rfl := Option.some.inj hstep
        exact h.set hcall (call.rejected_row _) (known_rejected call _)
      · obtain rfl := Option.some.inj hstep
        exact h.set hcall (call.receive_row _ _) (known_receive call)
      · cases hstep
  | emit eventId =>
      simp only [RowCall.advance] at hstep
      split at hstep
      · obtain rfl := Option.some.inj hstep
        exact h.set hcall rfl trivial
      · obtain rfl := Option.some.inj hstep
        exact h.set hcall rfl trivial
      · cases hstep
  | transact now lost => exact h.transact hcall hstep
  | refuse message =>
      obtain ⟨body, hbody, rfl⟩ := Option.map_eq_some_iff.mp hstep
      exact h.set hcall rfl (known_thrown call message)
  | mark now => exact h.mark hcall hstep
  | stop =>
      simp only [RowCall.advance] at hstep
      split at hstep
      · obtain rfl := Option.some.inj hstep
        exact h.set hcall rfl trivial
      · cases hstep

theorem step (h : WorkersSound s) {recordsSpend : Bool} {label : WorkerLabel}
    (hstep : s.step recordsSpend label = some next) : WorkersSound next := by
  cases label with
  | reclaim staleSeconds now skipped =>
      obtain rfl := Option.some.inj hstep
      exact h.reclaim staleSeconds now skipped _
  | claim workerId limit now skipped =>
      obtain rfl := Option.some.inj hstep
      exact h.claim workerId limit now skipped
  | advance i step =>
      simp only [WorkerWorld.step, Option.bind_eq_bind, Option.bind_eq_some_iff] at hstep
      obtain ⟨call, hcall, outcome, hadvance, hnext⟩ := hstep
      obtain rfl := Option.some.inj hnext
      exact h.advance hcall hadvance
  | commit writes =>
      simp only [WorkerWorld.step] at hstep
      split at hstep
      · rename_i hwrites
        obtain rfl := Option.some.inj hstep
        exact h.commit (List.all_eq_true.mp hwrites)
      · cases hstep

end WorkersSound

/-- In every run, a row is settled only when its intent is executed and failed only when it has
failed, and an intent has exactly one execution once it is executed, and none before. -/
theorem settled_executed {recordsSpend : Bool} {labels : List WorkerLabel} {s : WorkerWorld}
    (hrun : (outboxWorkers recordsSpend).run {} labels = some s) :
    (∀ id row, s.db.outbox.find? id = some row →
      (row.status = .settled → HasStatus s.db row.paymentIntentId .executed) ∧
      (row.status = .failed → HasStatus s.db row.paymentIntentId .failed)) ∧
    (∀ id, HasStatus s.db id .executed → ∃ execution, OnlyExecution s.db id execution) ∧
    ∀ id execution, s.db.executions.find? id = some execution →
      HasStatus s.db execution.proposalId .executed := by
  have hsound := Machine.invariant_of_run (outboxWorkers recordsSpend)
    (fun _ _ _ h hstep => WorkersSound.step h hstep) WorkersSound.initial hrun
  exact ⟨fun id row hrow => ⟨hsound.settled id row hrow, hsound.failed id row hrow⟩,
    hsound.executed, hsound.executions⟩

/-- An intent whose rows name a rail that the executions do not admit is never executed, and its
rows are never settled. -/
theorem never_executed {recordsSpend : Bool} {labels : List WorkerLabel} {s : WorkerWorld}
    (hrun : (outboxWorkers recordsSpend).run {} labels = some s) {intentId : String}
    (hrails : ∀ id row, s.db.outbox.find? id = some row → row.paymentIntentId = intentId →
      row.rail ∉ Executions.allowedRails) :
    ¬HasStatus s.db intentId .executed ∧
      ∀ id row, s.db.outbox.find? id = some row → row.paymentIntentId = intentId →
        row.status ≠ .settled := by
  have hsound := Machine.invariant_of_run (outboxWorkers recordsSpend)
    (fun _ _ _ h hstep => WorkersSound.step h hstep) WorkersSound.initial hrun
  have hnever : ¬HasStatus s.db intentId .executed := by
    intro hexecuted
    obtain ⟨execution, honly⟩ := hsound.executed intentId hexecuted
    obtain ⟨id, row, hrow, hof, hrail, -⟩ := honly.handOff
    exact hrails id row hrow hof (hrail ▸ honly.rail)
  refine ⟨hnever, fun id row hrow hof hsettled => hnever ?_⟩
  rw [← hof]
  exact hsound.settled id row hrow hsettled

section Payments

theorem five_inRange : (500000000 : Int).natAbs < 10 ^ 28 := by decide

theorem five_pos : 0 < (⟨500000000, five_inRange⟩ : Numeric8).scaled := by decide

def payment : PaymentIntentRow where
  id := "pi_1"
  ownerId := "tnt_1"
  createdByAgentId := none
  actionType := .achOutbound
  sourceAccountId := "acct_1"
  destinationCounterpartyId := "cp_1"
  amount := ⟨500000000, five_inRange⟩
  currency := "EUR"
  status := .approved
  policyDecisionId := some "pd_1"
  updatedAt := 0
  positive := five_pos

def handedOver (rail kind : String) : OutboxRow where
  id := "exo_1"
  paymentIntentId := "pi_1"
  rail := rail
  idempotencyKey := "pi:pi_1:pd_1"
  payload := [("kind", .str kind)]
  auditBeforeId := "evt_1"
  reservationId := none
  createdAt := 0

/-- The intent is handed to the outbox, and its rail is called. -/
def dispatched (rail kind : String) (receipt : List (String × Json)) : List WorkerLabel :=
  [.commit [.intent payment],
    .commit [.intent { payment with status := .dispatching }, .outbox (handedOver rail kind)],
    .claim "worker_1" 10 1000 [],
    .advance 0 (.prepare "exec_1" none (.ok none)),
    .advance 0 (.railAnswers (.ok receipt)),
    .advance 0 (.emit "evt_2"),
    .advance 0 (.mark 2000),
    .advance 0 (.transact 3000 none),
    .advance 0 (.mark 4000)]

/-- The rails and the statuses of the rows, after a run. -/
def rowsAfter (labels : List WorkerLabel) : Option (List (String × OutboxStatus)) :=
  ((outboxWorkers false).run {} labels).map fun s => s.db.outbox.rows.map fun row =>
    (row.rail, row.status)

theorem exists_of_rowsAfter (labels : List WorkerLabel) {rail : String} {status : OutboxStatus}
    (h : rowsAfter labels = some [(rail, status)]) :
    ∃ s row, (outboxWorkers false).run {} labels = some s ∧ s.db.outbox.rows = [row] ∧
      row.rail = rail ∧ row.status = status := by
  obtain ⟨s, hrun, hrows⟩ := Option.map_eq_some_iff.mp h
  obtain ⟨row, hrow, hpair⟩ := List.map_eq_singleton_iff.mp hrows
  cases hpair
  exact ⟨s, row, hrun, hrow, rfl, rfl⟩

theorem transfer_executed : ∃ s row,
    (outboxWorkers false).run {} (dispatched "bank_ach" "ach_outbound" [("ach_trace", .str "T1")]) =
      some s ∧ s.db.outbox.rows = [row] ∧ row.status = .settled ∧
        HasStatus s.db row.paymentIntentId .executed := by
  obtain ⟨s, row, hrun, hrows, -, hstatus⟩ := exists_of_rowsAfter
    (dispatched "bank_ach" "ach_outbound" [("ach_trace", .str "T1")]) rfl
  have hrow : row ∈ s.db.outbox.rows := hrows ▸ List.mem_singleton_self row
  exact ⟨s, row, hrun, hrows, hstatus,
    ((settled_executed hrun).1 row.id row (Table.find?_key hrow)).1 hstatus⟩

/-- The rail has paid, and the intent stays where it is. -/
theorem settlement_never_executed : ∃ s row,
    (outboxWorkers false).run {} (dispatched "x402_base" "x402_settle" [("tx_hash", .str "0x01")]) =
      some s ∧ s.db.outbox.rows = [row] ∧ row.status = .pending ∧
        ¬HasStatus s.db "pi_1" .executed := by
  obtain ⟨s, row, hrun, hrows, hrail, hstatus⟩ := exists_of_rowsAfter
    (dispatched "x402_base" "x402_settle" [("tx_hash", .str "0x01")]) rfl
  refine ⟨s, row, hrun, hrows, hstatus, (never_executed hrun fun id other hother _ => ?_).1⟩
  have hmem := Table.mem_of_find? hother
  rw [hrows, List.mem_singleton] at hmem
  rw [hmem, hrail]
  decide

end Payments

end BrainCore.Execution
