import BrainCore.Execution.Lifecycle

/-!
# The transactions keep the lifecycle

Each transaction of the payment-intent service, started on any database and
interleaved with any others, ends in a commit that the lifecycle permits.
-/

namespace BrainCore.Execution

open BrainCore.Foundation BrainCore.Gate BrainCore.Ledger BrainCore.Policy

/-! ## Statements beside the lifecycle -/

/-- A row the lifecycle does not look at. -/
def IsQuiet : Write → Prop
  | .intent _ | .outbox _ | .decision _ => False
  | _ => True

/-- More rows of that kind leave the fact as it is. -/
def QuietClosed (fact : Database → List Write → Prop) : Prop :=
  ∀ db own new, fact db own → (∀ w ∈ new, IsQuiet w) → fact db (own ++ new)

/-- A program that writes only such rows. -/
def Harmless {α : Type} (program : Transact α) : Prop :=
  ∀ fact, lifecycle.Stable fact → QuietClosed fact → lifecycle.Triple fact program fun _ => fact

namespace Harmless

variable {α β : Type}

theorem pure (value : α) : Harmless (Pure.pure value : Transact α) :=
  fun _ _ _ => Discipline.Triple.done fun _ _ _ => id

theorem throw (error : ServiceError) : Harmless (Program.throw error : Transact α) :=
  fun _ _ _ => Discipline.Triple.throw error

theorem bind {program : Transact α} {rest : α → Transact β} (h : Harmless program)
    (hrest : ∀ value, Harmless (rest value)) : Harmless (program >>= rest) :=
  fun fact hstable hclosed =>
    Discipline.Triple.bind (h fact hstable hclosed) fun value => hrest value fact hstable hclosed

theorem execute {run : Database → Except ServiceError (List Write × α)}
    (h : ∀ db new value, run db = .ok (new, value) → ∀ w ∈ new, IsQuiet w) :
    Harmless (Program.execute run) := by
  intro fact hstable hclosed
  apply Discipline.Triple.execute fun _ => hstable
  intro db own new value _ hfact hrun
  exact hclosed db own new hfact (h _ new value hrun)

theorem select (read : Database → α) : Harmless (Program.select read) := by
  apply execute
  intro db new value hrun w hw
  cases hrun
  cases hw

end Harmless

theorem harmless_ofExcept {α : Type} (result : Except ServiceError α) :
    Harmless (Program.ofExcept result) := by
  cases result with
  | ok value => exact Harmless.pure value
  | error error => exact Harmless.throw error

/-- A statement whose only write, if any, is of such a row. -/
theorem isQuiet_singleton {w : Write} (h : IsQuiet w) : ∀ v ∈ [w], IsQuiet v := by
  intro v hv
  rw [List.mem_singleton.mp hv]
  exact h

theorem harmless_insertExecution (row : ExecutionRow) : Harmless (insertExecution row) := by
  apply Harmless.execute
  intro db new value hrun
  split at hrun
  · cases hrun
  · cases hrun
    exact isQuiet_singleton trivial

theorem harmless_setExecutionReceipt (id : String) (receipt : Json) :
    Harmless (setExecutionReceipt id receipt) := by
  apply Harmless.execute
  intro db new value hrun
  split at hrun
  · cases hrun
    exact fun _ hw => nomatch hw
  · cases hrun
    exact isQuiet_singleton trivial

theorem harmless_transitionExecution (id : String) (source target : ExecutionState)
    (now : Instant) : Harmless (transitionExecution id source target now) := by
  apply Harmless.execute
  intro db new value hrun
  split at hrun
  · cases hrun
  · cases hrun
    exact isQuiet_singleton trivial

theorem harmless_lockAccount (accountId : String) :
    Harmless (LedgerReservations.lockAccount accountId) := by
  apply Harmless.execute
  intro db new value hrun
  split at hrun
  · cases hrun
    exact fun _ hw => nomatch hw
  · cases hrun
    exact isQuiet_singleton trivial

theorem harmless_lockLatestBalance (accountId : String) :
    Harmless (LedgerReservations.lockLatestBalance accountId) := by
  apply Harmless.execute
  intro db new value hrun
  split at hrun
  · cases hrun
    exact fun _ hw => nomatch hw
  · cases hrun
    exact isQuiet_singleton trivial

theorem harmless_insertReservation (row : ReservationRow) :
    Harmless (LedgerReservations.insertReservation row) := by
  apply Harmless.execute
  intro db new value hrun
  split at hrun
  · cases hrun
  · cases hrun
    exact isQuiet_singleton trivial

theorem harmless_reservationTransition (id : String) (target : ReservationStatus) :
    Harmless (LedgerReservations.transition id target) := by
  apply Harmless.execute
  intro db new value hrun
  split at hrun
  · cases hrun
    exact fun _ hw => nomatch hw
  · cases hrun
    exact isQuiet_singleton trivial

theorem harmless_reserveIfAvailable (input : ReservationRow) :
    Harmless (LedgerReservations.reserveIfAvailable input) := by
  apply Harmless.bind (harmless_lockAccount _)
  intro account
  cases account with
  | none => exact Harmless.pure _
  | some account =>
      dsimp only
      split
      · exact Harmless.pure _
      apply Harmless.bind (harmless_lockLatestBalance _)
      intro latest
      split
      · exact Harmless.pure _
      split
      · exact Harmless.pure _
      apply Harmless.bind (Harmless.select _)
      intro reserved
      split
      · exact Harmless.throw _
      · exact Harmless.pure _
      · exact Harmless.bind (harmless_insertReservation _) fun row => Harmless.pure _

theorem harmless_incrementEach (agentId currency : String) (amount : Numeric8) (now : Instant)
    (windows : List String) : Harmless (incrementEach agentId currency amount now windows) := by
  induction windows with
  | nil => exact Harmless.pure ()
  | cons window rest ih =>
      apply Harmless.bind _ fun _ => ih
      apply Harmless.execute
      intro db new value hrun
      split at hrun
      · cases hrun
      · cases hrun
        exact isQuiet_singleton trivial

theorem harmless_recordAgentSpend (agentId currency : String) (amount : Numeric8)
    (now : Instant) : Harmless (recordAgentSpend agentId amount currency now) := by
  apply Harmless.bind (Harmless.select _)
  intro active
  cases active with
  | none => exact Harmless.pure ()
  | some active => exact harmless_incrementEach _ _ _ _ _

theorem harmless_withReservation {settle : String → Transact Unit}
    (h : ∀ id, Harmless (settle id)) (reservationId : Option String) :
    Harmless (withReservation reservationId settle) := by
  cases reservationId with
  | none => exact Harmless.pure ()
  | some id => exact h id

theorem harmless_requireMoved (moved : Option PaymentIntentRow) (message : String) :
    Harmless (requireMoved moved message) := by
  cases moved with
  | none => exact Harmless.throw _
  | some row => exact Harmless.pure ()

theorem HandOff.harmless_reserve (handOff : HandOff) : Harmless handOff.reserve := by
  unfold HandOff.reserve
  split
  · apply Harmless.bind (harmless_reserveIfAvailable _)
    intro result
    cases result with
    | error refusal => exact Harmless.throw _
    | ok row => exact Harmless.pure _
  · exact Harmless.pure none

/-! ## Transactions that move intents -/

/-- The intents that are written have moved, and none to `dispatching`. -/
def MovedOnly (db : Database) (own : List Write) : Prop :=
  ∀ w ∈ own, IsQuiet w ∨ ∃ row old, w = .intent row ∧ db.intents.find? row.id = some old ∧
    Moves old row ∧ (row.status = .dispatching → old.status = .dispatching)

/-- Nothing of the lifecycle is written yet. -/
def QuietSoFar (_ : Database) (own : List Write) : Prop := ∀ w ∈ own, IsQuiet w

theorem movedOnly_stable : lifecycle.Stable MovedOnly := by
  intro db own theirs _ h _ hfree w hw
  rcases h w hw with hquiet | ⟨row, old, rfl, hold, hrest⟩
  · exact .inl hquiet
  · exact .inr ⟨row, old, rfl, (intent_of_free hfree hw).trans hold, hrest⟩

theorem quietSoFar_stable : lifecycle.Stable QuietSoFar := Discipline.stable_own _

theorem movedOnly_closed : QuietClosed MovedOnly := by
  intro db own new h hnew w hw
  rcases List.mem_append.mp hw with hw | hw
  · exact h w hw
  · exact .inl (hnew w hw)

theorem quietSoFar_closed : QuietClosed QuietSoFar := by
  intro db own new h hnew w hw
  rcases List.mem_append.mp hw with hw | hw
  · exact h w hw
  · exact hnew w hw

theorem movedOnly_nil (db : Database) : MovedOnly db [] := fun _ hw => nomatch hw

theorem QuietSoFar.movedOnly {db : Database} {own : List Write} (h : QuietSoFar db own) :
    MovedOnly db own := fun w hw => .inl (h w hw)

theorem MovedOnly.append {db : Database} {own new : List Write} (h : MovedOnly db own)
    (hnew : MovedOnly db new) : MovedOnly db (own ++ new) := by
  intro w hw
  rcases List.mem_append.mp hw with hw | hw
  · exact h w hw
  · exact hnew w hw

theorem allowed_of_quiet {db after : Database} {w : Write} (h : IsQuiet w) : Allowed db after w := by
  cases w with
  | intent | outbox | decision => exact h.elim
  | execution | reservation | account | balance | counter | «facts» | policy => trivial

theorem MovedOnly.mayCommit {db : Database} {own : List Write} (h : MovedOnly db own) :
    MayCommit db own := by
  intro w hw
  rcases h w hw with hquiet | ⟨row, old, rfl, hold, hmoves, hstatus⟩
  · exact allowed_of_quiet hquiet
  · exact .inr ⟨old, hold, hmoves, fun hdispatching => .inl (hstatus hdispatching)⟩

theorem view_intents_of_quiet {db : Database} {own : List Write} (h : QuietSoFar db own) :
    (database.view db own).intents = db.intents := by
  apply view_of_skip Database.intents
  intro w hw db'
  cases w with
  | intent row => exact (h _ hw).elim
  | outbox | execution | reservation | account | balance | counter | decision | «facts» | policy => rfl

/-- A row that the transaction sees has moved from the committed one, or is it. -/
theorem MovedOnly.seen {db : Database} {own : List Write} (h : MovedOnly db own) {id : String}
    {row : PaymentIntentRow} (hrow : (database.view db own).intents.find? id = some row) :
    ∃ old, db.intents.find? id = some old ∧ Moves old row ∧
      (row.status = .dispatching → old.status = .dispatching) := by
  rcases intents_cases db own id with ⟨other, hother, hid, hfind⟩ | hsame
  · obtain rfl := Option.some.inj (hrow.symm.trans hfind)
    rcases h _ hother with hquiet | ⟨moved, old, heq, hold, hmoves, hstatus⟩
    · exact hquiet.elim
    · cases heq
      exact ⟨old, hid ▸ hold, hmoves, hstatus⟩
  · exact ⟨row, hsame ▸ hrow, ⟨rfl, .inl rfl⟩, fun h => h⟩

theorem moves_withStatus {row : PaymentIntentRow} {target : PaymentIntentState} (now : Instant)
    (hedge : isValidPaymentIntentTransition row.status target = true)
    (hsource : row.status ≠ .executed) : Moves row (PaymentIntents.withStatus target now row) :=
  ⟨rfl, .inr ⟨hedge, hsource⟩⟩

/-- A conditional transition along an edge, before which the transaction wrote no intent. -/
theorem triple_transition {id : String} {source target : PaymentIntentState} (now : Instant)
    (hedge : isValidPaymentIntentTransition source target = true) (hsource : source ≠ .executed)
    (htarget : target ≠ .dispatching) :
    lifecycle.Triple QuietSoFar (LedgerPaymentIntents.transition id source target now)
      fun _ => MovedOnly := by
  apply Discipline.Triple.execute fun _ => movedOnly_stable
  intro db own new value _ hquiet hrun
  rw [view_intents_of_quiet hquiet] at hrun
  apply hquiet.movedOnly.append
  split at hrun
  · cases hrun
    exact movedOnly_nil db
  · rename_i row hrow
    cases hrun
    obtain ⟨old, hold, hstatus, rfl⟩ := PaymentIntents.transitioned_eq_some hrow
    intro w hw
    rw [List.mem_singleton.mp hw]
    subst hstatus
    refine .inr ⟨_, old, rfl, ?_, moves_withStatus now hedge hsource, fun h => absurd h htarget⟩
    exact (congrArg _ (Table.key_of_find? hold)).trans hold

/-- The commit of a transaction that only moves intents. -/
theorem commits_of_moved {α : Type} {body : Transact α} {know : Database → Prop}
    (h : lifecycle.Triple (fun _ own => own = []) body fun _ => MovedOnly) :
    lifecycle.Commits know body fun _ _ => True := by
  apply Discipline.Triple.mono (Discipline.Triple.weaken h _)
  · exact fun _ db own _ hmoved => ⟨hmoved.mayCommit, trivial⟩
  · rintro db own - ⟨-, hown⟩
    exact hown

/-- A transaction starts with nothing written. -/
theorem triple_of_quiet {α : Type} {body : Transact α}
    (h : lifecycle.Triple QuietSoFar body fun _ => MovedOnly) :
    lifecycle.Triple (fun _ own => own = []) body fun _ => MovedOnly := by
  apply Discipline.Triple.weaken h
  rintro db own - rfl
  exact fun _ hw => nomatch hw

/-- An assignment to a row that keeps its status and its decision. -/
theorem MovedOnly.reassigned {db : Database} {own : List Write} (h : MovedOnly db own)
    {id : String} {row next : PaymentIntentRow}
    (hrow : (database.view db own).intents.find? id = some row) (hid : next.id = row.id)
    (hstatus : next.status = row.status)
    (hdecision : next.policyDecisionId = row.policyDecisionId) : MovedOnly db [.intent next] := by
  obtain ⟨old, hold, hmoves, hdispatching⟩ := h.seen hrow
  intro w hw
  rw [List.mem_singleton.mp hw]
  refine .inr ⟨next, old, rfl, ?_, ⟨hdecision.trans hmoves.decision, hstatus ▸ hmoves.edge⟩,
    hstatus ▸ hdispatching⟩
  rw [hid, Table.key_of_find? hrow]
  exact hold

theorem triple_appendApprovalId (id approvalId : String) (now : Instant) :
    lifecycle.Triple QuietSoFar (LedgerPaymentIntents.appendApprovalId id approvalId now)
      fun _ => MovedOnly := by
  apply Discipline.Triple.execute fun _ => movedOnly_stable
  intro db own new value _ hquiet hrun
  apply hquiet.movedOnly.append
  split at hrun
  · cases hrun
    exact movedOnly_nil db
  · rename_i row hrow
    split at hrun
    · cases hrun
      exact movedOnly_nil db
    · cases hrun
      exact hquiet.movedOnly.reassigned hrow rfl rfl rfl

theorem triple_appendExecutionReceiptId (id executionId : String) (now : Instant) :
    lifecycle.Triple MovedOnly (LedgerPaymentIntents.appendExecutionReceiptId id executionId now)
      fun _ => MovedOnly := by
  apply Discipline.Triple.execute fun _ => movedOnly_stable
  intro db own new value _ hmoved hrun
  apply hmoved.append
  split at hrun
  · cases hrun
    exact movedOnly_nil db
  · rename_i row hrow
    cases hrun
    exact hmoved.reassigned hrow rfl rfl rfl

/-! ## The bulk pause -/

/-- The intents that are written are paused ones that were approved. -/
def PausedOnly (db : Database) (own : List Write) : Prop :=
  ∀ w ∈ own, ∃ row old, w = .intent row ∧ row.status = .paused ∧
    db.intents.find? row.id = some old ∧ Moves old row

theorem pausedOnly_stable : lifecycle.Stable PausedOnly := by
  intro db own theirs _ h _ hfree w hw
  obtain ⟨row, old, rfl, hstatus, hold, hmoves⟩ := h w hw
  exact ⟨row, old, rfl, hstatus, (intent_of_free hfree hw).trans hold, hmoves⟩

theorem PausedOnly.movedOnly {db : Database} {own : List Write} (h : PausedOnly db own) :
    MovedOnly db own := by
  intro w hw
  obtain ⟨row, old, rfl, hstatus, hold, hmoves⟩ := h w hw
  exact .inr ⟨row, old, rfl, hold, hmoves, fun hdispatching => by simp [hstatus] at hdispatching⟩

/-- An approved row that the transaction sees is the committed one. -/
theorem PausedOnly.approved {db : Database} {own : List Write} (h : PausedOnly db own)
    {id : String} {row : PaymentIntentRow}
    (hrow : (database.view db own).intents.find? id = some row) (happroved : row.status = .approved) :
    db.intents.find? id = some row := by
  rcases intents_cases db own id with ⟨other, hother, -, hfind⟩ | hsame
  · obtain rfl := Option.some.inj (hrow.symm.trans hfind)
    obtain ⟨paused, old, heq, hstatus, -⟩ := h _ hother
    cases heq
    simp [happroved] at hstatus
  · exact hsame ▸ hrow

theorem triple_pauseEach (agentId : String) (now : Instant) (ids paused : List String) :
    lifecycle.Triple PausedOnly (LedgerPaymentIntents.pauseEach agentId now ids paused)
      fun _ => PausedOnly := by
  induction ids generalizing paused with
  | nil => exact Discipline.Triple.done fun _ _ _ => id
  | cons id rest ih =>
      refine Discipline.Triple.bind
        (Discipline.Triple.execute (fun _ => pausedOnly_stable) ?_) fun moved => ih _
      intro db own new value _ hpaused hrun w hw
      rcases List.mem_append.mp hw with hw | hw
      · exact hpaused w hw
      · split at hrun
        · cases hrun
          cases hw
        · rename_i row hrow
          obtain ⟨old, hold, hstatus, rfl⟩ := PaymentIntents.transitioned_eq_some hrow
          split at hrun
          · cases hrun
            rw [List.mem_singleton.mp hw]
            refine ⟨_, old, rfl, rfl, ?_, moves_withStatus now (by rw [hstatus]; rfl) ?_⟩
            · exact (congrArg _ (Table.key_of_find? hold)).trans (hpaused.approved hold hstatus)
            · rw [hstatus]
              intro hsame
              cases hsame
          · cases hrun
            cases hw

theorem triple_pauseApprovedByAgent (agentId : String) (now : Instant) :
    lifecycle.Triple (fun _ own => own = [])
      (LedgerPaymentIntents.pauseApprovedByAgent agentId now) fun _ => MovedOnly := by
  refine Discipline.Triple.bind
    (Discipline.Triple.select (fun _ => Discipline.stable_own fun own => own = []) ?_) fun ids => ?_
  · exact fun _ _ _ => id
  · refine Discipline.Triple.mono (Discipline.Triple.weaken (triple_pauseEach agentId now ids []) ?_)
      fun _ _ _ _ => PausedOnly.movedOnly
    rintro db own - rfl w hw
    cases hw

/-! ## Settling -/

theorem triple_settleExecuted (recordsSpend : Bool) (args : CompleteExecution) (now : Instant)
    (current : PaymentIntentRow) :
    lifecycle.Triple QuietSoFar (settleExecuted recordsSpend args now current)
      fun _ => MovedOnly := by
  have hquiet : ∀ {α : Type} {program : Transact α}, Harmless program →
      lifecycle.Triple QuietSoFar program fun _ => QuietSoFar := fun h =>
    h QuietSoFar quietSoFar_stable quietSoFar_closed
  have hmoved : ∀ {α : Type} {program : Transact α}, Harmless program →
      lifecycle.Triple MovedOnly program fun _ => MovedOnly := fun h =>
    h MovedOnly movedOnly_stable movedOnly_closed
  refine Discipline.Triple.bind (hquiet (harmless_insertExecution _)) fun _ => ?_
  refine Discipline.Triple.bind (hquiet (harmless_setExecutionReceipt _ _)) fun _ => ?_
  refine Discipline.Triple.bind (hquiet (harmless_transitionExecution _ _ _ _)) fun _ => ?_
  refine Discipline.Triple.bind (hquiet (harmless_ofExcept _)) fun _ => ?_
  refine Discipline.Triple.bind (triple_transition now rfl nofun nofun) fun executed => ?_
  refine Discipline.Triple.bind (hmoved (harmless_requireMoved _ _)) fun _ => ?_
  refine Discipline.Triple.bind (hmoved (harmless_transitionExecution _ _ _ _)) fun _ => ?_
  refine Discipline.Triple.bind (triple_appendExecutionReceiptId _ _ _) fun _ => ?_
  refine Discipline.Triple.bind (hmoved (harmless_withReservation
    (fun id => harmless_reservationTransition id .consumed) _)) fun _ => ?_
  split
  · exact hmoved (harmless_recordAgentSpend _ _ _ _)
  · exact Discipline.Triple.done fun _ _ _ => id

theorem triple_completeExecution (recordsSpend : Bool) (args : CompleteExecution)
    (now : Instant) :
    lifecycle.Triple QuietSoFar (completeExecution recordsSpend args now) fun _ => MovedOnly := by
  have hdone : ∀ moved : Bool, lifecycle.Triple QuietSoFar (pure moved : Transact Bool)
      fun _ => MovedOnly := fun moved => Discipline.Triple.done fun _ _ _ => QuietSoFar.movedOnly
  refine Discipline.Triple.bind
    (Harmless.select _ QuietSoFar quietSoFar_stable quietSoFar_closed) fun current => ?_
  cases current with
  | none => exact Discipline.Triple.throw _
  | some current =>
      dsimp only
      split
      · exact hdone false
      split
      · exact Discipline.Triple.throw _
      split
      · exact Discipline.Triple.throw _
      · exact Discipline.Triple.bind (triple_settleExecuted _ _ _ _) fun _ =>
          Discipline.Triple.done fun _ _ _ => id

theorem triple_failExecution (args : FailExecution) (now : Instant) :
    lifecycle.Triple QuietSoFar (failExecution args now) fun _ => MovedOnly := by
  refine Discipline.Triple.bind
    (harmless_ofExcept _ QuietSoFar quietSoFar_stable quietSoFar_closed) fun _ => ?_
  refine Discipline.Triple.bind (triple_transition now rfl nofun nofun) fun failed => ?_
  refine Discipline.Triple.bind
    (harmless_requireMoved _ _ MovedOnly movedOnly_stable movedOnly_closed) fun _ => ?_
  refine Discipline.Triple.bind (harmless_withReservation
    (fun id => harmless_reservationTransition id .released) _ MovedOnly movedOnly_stable
      movedOnly_closed) fun _ => ?_
  exact Discipline.Triple.done fun _ _ _ => id

end BrainCore.Execution
