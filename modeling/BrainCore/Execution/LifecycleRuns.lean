import BrainCore.Execution.HandOffs
import BrainCore.Gate.HumanApproval

/-!
# The lifecycle of every run

Every operation of the payment-intent service keeps to the lifecycle, and so
does every run of any number of calls beside the other components.
-/

namespace BrainCore.Execution

open BrainCore.Foundation BrainCore.Gate BrainCore.Ledger BrainCore.Policy

/-! ## Scripts that keep to the lifecycle -/

/-- Each of its transactions is permitted. -/
def Safe {α : Type} (script : PaymentScript α) : Prop :=
  lifecycle.Sound (fun _ => True) script fun _ _ => True

namespace Safe

variable {α β : Type}

theorem pure (value : α) : Safe (Pure.pure value) := by
  change lifecycle.SoundAs _ _ _ _
  exact Discipline.Sound.pure fun _ _ _ => trivial

theorem throw (error : ServiceError) : Safe (Script.throw error : PaymentScript α) := by
  change lifecycle.SoundAs _ _ _ _
  exact Discipline.Sound.throw error

theorem bind {script : PaymentScript α} {rest : α → PaymentScript β} (h : Safe script)
    (hrest : ∀ value, Safe (rest value)) : Safe (script >>= rest) :=
  Discipline.Sound.bind h hrest

theorem ofExcept (result : Except ServiceError α) : Safe (Script.ofExcept result) := by
  change lifecycle.SoundAs _ _ _ _
  exact Discipline.Sound.ofExcept fun _ _ _ _ _ => trivial

theorem ask (answer : Environment → Except ServiceError α) : Safe (Script.ask answer) :=
  Discipline.Sound.ask answer

theorem callOut (act : Environment → Except ServiceError α × List AuditAction) :
    Safe (Script.callOut act) := Discipline.Sound.callOut act

theorem tryCatch {script : PaymentScript α} {handle : ServiceError → PaymentScript α}
    (h : Safe script) (hhandle : ∀ error, Safe (handle error)) : Safe (script.tryCatch handle) :=
  Discipline.Sound.tryCatch Discipline.lasting_true h hhandle

/-- A transaction that moves intents but hands none off. -/
theorem transact {body : Transact α}
    (h : lifecycle.Triple (fun _ own => own = []) body fun _ => MovedOnly) :
    Safe (.transact body) :=
  Discipline.Sound.transact Discipline.lasting_true (fun _ => Discipline.lasting_true)
    (commits_of_moved h)

theorem harmless {body : Transact α} (h : Harmless body) : Safe (.transact body) := by
  apply transact
  apply triple_of_quiet
  apply Discipline.Triple.mono (h QuietSoFar quietSoFar_stable quietSoFar_closed)
  exact fun _ _ _ _ => QuietSoFar.movedOnly

theorem select (read : Database → α) : Safe (.transact (.select read)) :=
  harmless (Harmless.select read)

/-- What lasts is known to the end. -/
theorem keeping {fact : Database → Prop} (hfact : lifecycle.Lasting fact)
    {script : PaymentScript α} (h : Safe script) :
    lifecycle.Sound fact script fun _ => fact := by
  have hframe := Discipline.Sound.frame hfact h
  apply Discipline.Sound.mono (Discipline.Sound.weaken hframe fun _ _ hknown => ⟨hknown, trivial⟩)
  exact fun _ _ _ => And.left

end Safe

theorem safe_emit (action subjectId : String) : Safe (emit action subjectId) := Safe.callOut _

theorem safe_here {α : Type} (read : Environment → α) : Safe (here read) := Safe.ask _

theorem safe_invalidState {α : Type} (message : String) :
    Safe (invalidState message : PaymentScript α) := Safe.throw _

theorem safe_requireIntent (id : String) : Safe (requireIntent id) := by
  apply Safe.bind (Safe.select _)
  rintro (_ | row)
  · exact Safe.throw _
  · exact Safe.pure _

theorem safe_requireUpdated (updated : Option PaymentIntentRow) (message : String) :
    Safe (requireUpdated updated message) := by
  cases updated with
  | none => exact Safe.throw _
  | some row => exact Safe.pure row

/-! ## The policy service and the gate -/

theorem sound_insertPolicyDecision (row : PolicyDecisionRow) :
    lifecycle.Sound (fun _ => True) (.transact (insertPolicyDecision row) : PaymentScript Unit)
      fun _ db => IsRecorded db row.id :=
  Discipline.Sound.transact Discipline.lasting_true (fun _ => isRecorded_lasting _)
    (commits_decision row)

theorem sound_evaluatePolicy (intent : GatePaymentIntent) :
    lifecycle.Sound (fun _ => True) (evaluatePolicy intent)
      fun decision db => IsRecorded db decision.id := by
  refine Discipline.Sound.bind (Safe.select _) fun active => ?_
  refine Discipline.Sound.bind (Safe.select _) fun counters => ?_
  refine Discipline.Sound.bind (Safe.ask _) fun decision => ?_
  refine Discipline.Sound.bind (sound_insertPolicyDecision _) fun _ => ?_
  refine Discipline.Sound.bind (Safe.keeping (isRecorded_lasting _) (safe_emit _ _)) fun _ => ?_
  exact Discipline.Sound.pure fun _ _ h => h

theorem safe_evaluatePolicy (intent : GatePaymentIntent) : Safe (evaluatePolicy intent) :=
  Discipline.Sound.mono (sound_evaluatePolicy intent) fun _ _ _ _ => trivial

/-- The decision of a gate that passed is recorded. -/
def GateRecorded (result : GateResult) (db : Database) : Prop :=
  ∀ gate, result = .success gate → IsRecorded db gate.policyDecisionId

theorem sound_recordGate (intentId : String) (result : GateResult) :
    lifecycle.Sound (fun _ => True) (recordGate intentId result) GateRecorded := by
  cases result with
  | failure refused =>
      apply Discipline.Sound.pure
      intro db _ _ gate heq
      cases heq
  | success gate =>
      refine Discipline.Sound.bind (sound_insertPolicyDecision _) fun _ => ?_
      apply Discipline.Sound.pure
      intro db _ hrecorded other heq
      cases heq
      exact hrecorded

theorem sound_runGate (ctx : ServiceCallContext) (principal : GatePrincipal)
    (intent : GatePaymentIntent) :
    lifecycle.Sound (fun _ => True) (runGate ctx principal intent) GateRecorded := by
  refine Discipline.Sound.bind (Safe.select _) fun active => ?_
  refine Discipline.Sound.bind (Safe.select _) fun counters => ?_
  refine Discipline.Sound.bind (Safe.select _) fun reserved => ?_
  refine Discipline.Sound.bind (Safe.select _) fun intents => ?_
  refine Discipline.Sound.bind (Safe.select _) fun known => ?_
  refine Discipline.Sound.bind (Safe.callOut _) fun result => ?_
  exact sound_recordGate intent.id result

/-! ## Create -/

theorem safe_assertSourceAccountExists (input : CreatePaymentIntentInput) :
    Safe (assertSourceAccountExists input) := by
  apply Safe.bind (Safe.ask _)
  rintro (_ | account)
  · exact Safe.throw _
  · exact Safe.pure _

theorem safe_resolveEffectiveConfidence (input : CreatePaymentIntentInput) :
    Safe (resolveEffectiveConfidence input) := by
  apply Safe.bind (safe_here _)
  intro resolve
  split
  · apply Safe.bind (Safe.ofExcept _)
    rintro (_ | obligation)
    · exact Safe.throw _
    · exact Safe.pure _
  · exact Safe.pure _

theorem safe_assertObligationDirectionPayable (input : CreatePaymentIntentInput) :
    Safe (assertObligationDirectionPayable input) := by
  apply Safe.bind (safe_here _)
  intro resolve
  split
  · apply Safe.bind (Safe.ofExcept _)
    intro direction
    split
    · exact Safe.pure _
    · exact Safe.throw _
  · exact Safe.pure _

theorem safe_findProposed (dedupKey : Option String) : Safe (findProposed dedupKey) := by
  cases dedupKey with
  | none => exact Safe.pure _
  | some key => exact Safe.select _

theorem isInitial_initialStatus (decision : GatePolicyDecision) (requiresApprovalFloor : Bool) :
    IsInitial (initialStatus decision requiresApprovalFloor) := by
  unfold initialStatus
  split
  · exact .inl rfl
  · split
    · exact .inr (.inl rfl)
    · exact .inr (.inr rfl)

theorem keyPart_newPaymentIntentId (ulid : Ulid) : KeyPart (newPaymentIntentId ulid) := by
  intro hmem
  simp only [newPaymentIntentId, brainId, String.toList_append, String.toList_ofList,
    List.mem_append] at hmem
  rcases hmem with (hkind | hbar) | hulid
  · exact absurd hkind (by decide)
  · exact absurd hbar (by decide)
  · exact absurd (ulid.alphabet _ hulid) (by decide)

theorem newIntentRow_ok {ctx : ServiceCallContext} {input : CreatePaymentIntentInput} {id : String}
    {now : Instant} {confidence : Rat} {status : PaymentIntentState} {decision : String}
    {row : PaymentIntentRow}
    (h : newIntentRow ctx input id now confidence status decision = .ok row) :
    row.id = id ∧ row.status = status ∧ row.policyDecisionId = some decision := by
  unfold newIntentRow at h
  split at h
  · cases h
  · split at h
    · cases h
      exact ⟨rfl, rfl, rfl⟩
    · cases h

theorem sound_insertProposal {row : PaymentIntentRow} {decision : String}
    (hnamed : KeyPart row.id) (hinitial : IsInitial row.status)
    (hdecision : row.policyDecisionId = some decision) :
    lifecycle.Sound (fun db => IsRecorded db decision) (insertProposal row) fun _ _ => True := by
  have hlasting := isRecorded_lasting decision
  have hinsert : lifecycle.Sound (fun db => IsRecorded db decision)
      (.transact (LedgerPaymentIntents.insert row) : PaymentScript PaymentIntentRow)
      fun _ _ => True :=
    Discipline.Sound.transact hlasting (fun _ => Discipline.lasting_true)
      (commits_insert hnamed hinitial hdecision)
  apply Discipline.Sound.tryCatch hlasting
  · exact Discipline.Sound.bind hinsert fun inserted => Safe.pure _
  · intro error
    refine Discipline.Sound.weaken ?_ fun _ _ _ => trivial
    change Safe (if _ then _ else _)
    split
    · apply Safe.bind (safe_findProposed _)
      rintro (_ | existing)
      · exact Safe.throw _
      · exact Safe.pure _
    · apply Safe.bind (Safe.pure none)
      rintro (_ | existing)
      · exact Safe.throw _
      · exact Safe.pure _

theorem safe_propose (ctx : ServiceCallContext) (input : CreatePaymentIntentInput) :
    Safe (propose ctx input) := by
  refine Safe.bind (safe_assertSourceAccountExists input) fun _ => ?_
  refine Safe.bind (safe_resolveEffectiveConfidence input) fun effective => ?_
  refine Safe.bind (safe_assertObligationDirectionPayable input) fun _ => ?_
  refine Discipline.Sound.bind (sound_evaluatePolicy _) fun decision => ?_
  have hlasting := isRecorded_lasting decision.id
  refine Discipline.Sound.bind (Safe.keeping hlasting (safe_here _)) fun fiatFloor => ?_
  refine Discipline.Sound.bind (Safe.keeping hlasting (safe_here id)) fun env => ?_
  refine Discipline.Sound.bind (Discipline.Sound.ofExcept fun row hrow db _ hrecorded =>
    And.intro (newIntentRow_ok hrow) hrecorded) fun row => ?_
  apply Discipline.Sound.assume
  rintro ⟨hid, hstatus, hdecision⟩
  have hinserted := sound_insertProposal (hid ▸ keyPart_newPaymentIntentId env.ulid)
    (hstatus ▸ isInitial_initialStatus _ _) hdecision
  apply Discipline.Sound.bind hinserted
  rintro (row | existing)
  · refine Safe.bind (safe_emit _ _) fun _ => ?_
    split
    · exact Safe.bind (safe_emit _ _) fun _ => Safe.pure row
    · exact Safe.pure row
  · exact Safe.pure existing

theorem safe_create (ctx : ServiceCallContext) (input : CreatePaymentIntentInput) :
    Safe (create ctx input) := by
  refine Safe.bind (Safe.ofExcept _) fun _ => ?_
  split
  · exact Safe.throw _
  · apply Safe.bind (safe_findProposed _)
    rintro (_ | existing)
    · exact safe_propose ctx input
    · exact Safe.pure existing

/-! ## Approve, reject and cancel -/

theorem safe_authorize (id : String) (intent : PaymentIntentRow) : Safe (authorize id intent) := by
  refine Safe.bind (Safe.ask _) fun actor => ?_
  refine Safe.bind (Safe.ask _) fun member => ?_
  refine Safe.bind (Safe.ask _) fun approvers => ?_
  refine Safe.bind (safe_evaluatePolicy _) fun fresh => ?_
  refine Safe.bind (Safe.ask _) fun counterparty => ?_
  refine Safe.bind (Safe.ask _) fun payeeEmail => ?_
  dsimp only
  split
  · exact Safe.bind (safe_emit _ _) fun _ => Safe.throw _
  · exact Safe.pure _

/-- Nothing leads out of `executed` to a status a call asks for. -/
theorem source_of_edge {source target : PaymentIntentState}
    (h : isValidPaymentIntentTransition source target = true) (hfailed : target ≠ .failed) :
    source ≠ .executed := by
  rintro rfl
  cases target with
  | failed => exact hfailed rfl
  | proposed | pendingApproval | awaitingSecondApproval | approved | paused | rejected
  | dispatching | executed | cancelled => cases h

theorem assertPaymentIntentTransition_ok {source target : PaymentIntentState} {result : Unit}
    (h : assertPaymentIntentTransition source target = .ok result) :
    isValidPaymentIntentTransition source target = true := by
  unfold assertPaymentIntentTransition at h
  split at h
  · assumption
  · cases h

/-- A transition that was asserted. -/
theorem safe_asserted {α : Type} {source target : PaymentIntentState}
    {rest : Unit → PaymentScript α}
    (h : isValidPaymentIntentTransition source target = true → Safe (rest ())) :
    Safe (Script.ofExcept (assertPaymentIntentTransition source target) >>= rest) := by
  cases hasserted : assertPaymentIntentTransition source target with
  | error error => exact Safe.throw error
  | ok result => exact h (assertPaymentIntentTransition_ok hasserted)

theorem safe_moveIntent (id : String) {source target : PaymentIntentState} (message : String)
    (hedge : isValidPaymentIntentTransition source target = true) (hsource : source ≠ .executed)
    (htarget : target ≠ .dispatching) : Safe (moveIntent id source target message) := by
  refine Safe.bind (safe_here _) fun now => ?_
  refine Safe.bind (Safe.transact (triple_of_quiet (triple_transition now hedge hsource htarget)))
    fun updated => ?_
  exact safe_requireUpdated updated message

/-- The same inside its transaction. -/
theorem triple_asserted (id : String) {source target : PaymentIntentState} (now : Instant)
    (hfailed : target ≠ .failed) (htarget : target ≠ .dispatching) :
    lifecycle.Triple (fun _ own => own = [])
      (do
        .ofExcept (assertPaymentIntentTransition source target)
        LedgerPaymentIntents.transition id source target now) fun _ => MovedOnly := by
  cases hasserted : assertPaymentIntentTransition source target with
  | error error =>
      have hthrow : lifecycle.Triple (fun _ own => own = []) (Program.throw error : Transact Unit)
          fun _ _ _ => False := Discipline.Triple.throw error
      exact Discipline.Triple.bind hthrow fun _ => Discipline.Triple.of_false fun _ _ => not_false
  | ok result =>
      have hedge := assertPaymentIntentTransition_ok hasserted
      exact triple_of_quiet (triple_transition now hedge (source_of_edge hedge hfailed) htarget)

theorem safe_approveOpen (id : String) (intent : PaymentIntentRow) :
    Safe (approveOpen id intent) := by
  refine Safe.bind (safe_authorize id intent) fun granted => ?_
  refine Safe.bind (Safe.ask _) fun approvalId => ?_
  refine Safe.bind (safe_here _) fun now => ?_
  refine Safe.bind (Safe.transact (triple_of_quiet (triple_appendApprovalId _ _ _))) fun _ => ?_
  refine Safe.bind (safe_emit _ _) fun _ => ?_
  refine Safe.bind (safe_here _) fun now => ?_
  refine Safe.bind (Safe.transact (triple_asserted _ _ ?_ ?_)) fun updated => ?_
  · split <;> intro hsame <;> cases hsame
  · split <;> intro hsame <;> cases hsame
  · refine Safe.bind (safe_requireUpdated _ _) fun row => ?_
    exact Safe.bind (safe_emit _ _) fun _ => Safe.pure row

theorem safe_approve (id : String) : Safe (approve id) := by
  refine Safe.bind (safe_requireIntent id) fun intent => ?_
  split
  · exact safe_invalidState _
  · apply Safe.tryCatch (safe_approveOpen id intent)
    intro error
    split
    · exact Safe.bind (safe_emit _ _) fun _ => Safe.throw _
    · exact Safe.throw _

theorem safe_reject (id : String) : Safe (reject id) := by
  refine Safe.bind (safe_requireIntent id) fun intent => ?_
  split
  · exact safe_invalidState _
  · apply safe_asserted
    intro hedge
    refine Safe.bind (safe_emit _ _) fun _ => ?_
    refine Safe.bind (safe_moveIntent id _ hedge (source_of_edge hedge nofun) nofun) fun row => ?_
    exact Safe.bind (safe_emit _ _) fun _ => Safe.pure row

theorem safe_cancel (id : String) : Safe (cancel id) := by
  refine Safe.bind (safe_requireIntent id) fun intent => ?_
  split
  · exact safe_invalidState _
  · apply safe_asserted
    intro hedge
    refine Safe.bind (safe_moveIntent id _ hedge (source_of_edge hedge nofun) nofun) fun row => ?_
    exact Safe.bind (safe_emit _ _) fun _ => Safe.pure row

/-! ## The kill-switch -/

theorem safe_pause (id : String) : Safe (pause id) := by
  refine Safe.bind (safe_requireIntent id) fun intent => ?_
  split
  · exact safe_invalidState _
  · apply safe_asserted
    intro hedge
    refine Safe.bind (safe_moveIntent id _ hedge nofun nofun) fun row => ?_
    exact Safe.bind (safe_emit _ _) fun _ => Safe.pure row

theorem safe_resume (ctx : ServiceCallContext) (id : String) : Safe (resume ctx id) := by
  refine Safe.bind (safe_requireIntent id) fun intent => ?_
  split
  · exact safe_invalidState _
  refine Safe.bind (Safe.ask _) fun principal => ?_
  refine Safe.bind (Discipline.Sound.mono (sound_runGate ctx principal _) fun _ _ _ _ => trivial) fun gate => ?_
  cases gate with
  | failure refused => exact Safe.bind (safe_emit _ _) fun _ => Safe.throw _
  | success gate =>
      apply safe_asserted
      intro hedge
      refine Safe.bind (safe_moveIntent id _ hedge nofun nofun) fun row => ?_
      exact Safe.bind (safe_emit _ _) fun _ => Safe.pure row

theorem safe_pauseByAgent (agentId : String) : Safe (pauseByAgent agentId) := by
  refine Safe.bind (safe_here _) fun now => ?_
  refine Safe.bind (Safe.transact (triple_pauseApprovedByAgent agentId now)) fun paused => ?_
  exact Safe.bind (safe_emit _ _) fun _ => Safe.pure paused

/-! ## Execute and settle -/

theorem safe_resolveOnchain (intent : PaymentIntentRow) : Safe (resolveOnchain intent) := by
  refine Safe.bind (safe_here _) fun resolve => ?_
  split
  · exact Safe.ofExcept _
  · exact Safe.pure none

theorem sound_handOffIntent (ctx : ServiceCallContext) (principal : GatePrincipal)
    (intent : PaymentIntentRow) (gate : GateSuccess) :
    lifecycle.Sound (fun db => IsRecorded db gate.policyDecisionId)
      (handOffIntent ctx principal intent gate) fun _ _ => True := by
  have hlasting := isRecorded_lasting gate.policyDecisionId
  refine Discipline.Sound.bind (Safe.keeping hlasting (Safe.ofExcept _)) fun rail => ?_
  refine Discipline.Sound.bind (Safe.keeping hlasting (safe_resolveOnchain intent)) fun onchain => ?_
  refine Discipline.Sound.bind (Safe.keeping hlasting (safe_here _)) fun reservationId => ?_
  refine Discipline.Sound.bind (Safe.keeping hlasting (safe_here _)) fun outboxId => ?_
  refine Discipline.Sound.bind (Safe.keeping hlasting (safe_here _)) fun now => ?_
  have hcommits := HandOff.commits
    { tenantId := ctx.tenantId, intent, gate, rail, payload := dispatchPayload intent onchain
      principalId := principal.id, reservationId, outboxId, now }
  refine Discipline.Sound.bind (Discipline.Sound.transact hlasting
    (fun _ => Discipline.lasting_true) hcommits) fun handed => ?_
  cases handed with
  | error status => exact Safe.bind (safe_emit _ _) fun _ => safe_invalidState _
  | ok outboxId => exact Safe.bind (safe_emit _ _) fun _ => Safe.pure _

theorem safe_execute (ctx : ServiceCallContext) (id : String) : Safe (execute ctx id) := by
  refine Safe.bind (safe_requireIntent id) fun intent => ?_
  split
  · exact safe_invalidState _
  refine Safe.bind (Safe.ask _) fun principal => ?_
  refine Discipline.Sound.bind (sound_runGate ctx principal _) fun gate => ?_
  cases gate with
  | failure refused =>
      exact Discipline.Sound.weaken (Safe.bind (safe_emit _ _) fun _ => Safe.throw _)
        fun _ _ _ => trivial
  | success gate =>
      exact Discipline.Sound.weaken (sound_handOffIntent ctx principal intent gate)
        fun _ _ h => h gate rfl

theorem safe_settle {body : Instant → Transact Bool} (action id : String)
    (h : ∀ now, lifecycle.Triple QuietSoFar (body now) fun _ => MovedOnly) :
    Safe (settle body action id) := by
  refine Safe.bind (safe_here _) fun now => ?_
  refine Safe.bind (Safe.transact (triple_of_quiet (h now))) fun emitted => ?_
  split
  · exact Safe.bind (safe_emit _ _) fun _ => Safe.pure ()
  · exact Safe.pure ()

/-! ## Every run -/

theorem safe_returning {α : Type} (result : α → ServiceResult) {script : PaymentScript α}
    (h : Safe script) : Safe (returning result script) := Safe.bind h fun _ => Safe.pure _

theorem safe_serviceScript (recordsSpend : Bool) (call : ServiceCall) :
    Safe (serviceScript recordsSpend call) := by
  cases call with
  | create ctx input => exact safe_returning _ (safe_create ctx input)
  | approve id => exact safe_returning _ (safe_approve id)
  | reject id => exact safe_returning _ (safe_reject id)
  | cancel id => exact safe_returning _ (safe_cancel id)
  | pause id => exact safe_returning _ (safe_pause id)
  | pauseByAgent agentId => exact safe_returning _ (safe_pauseByAgent agentId)
  | resume ctx id => exact safe_returning _ (safe_resume ctx id)
  | execute ctx id => exact safe_returning _ (safe_execute ctx id)
  | completeExecution args =>
      exact safe_returning _ (safe_settle _ _ fun now => triple_completeExecution _ args now)
  | failExecution args =>
      exact safe_returning _ (safe_settle _ _ fun now => triple_failExecution args now)

theorem mayCommit_of_othersMay {db : Database} {writes : List Write} (h : Accounted db)
    (hmay : othersMay db writes = true) : MayCommit db writes := by
  intro w hw
  have hthis := List.all_eq_true.mp hmay w hw
  cases w with
  | outbox row =>
      obtain ⟨old, hold, hsame⟩ := (Option.any_eq_true _ _).mp hthis
      simp only [Bool.and_eq_true, decide_eq_true_eq] at hsame
      obtain ⟨hintent, hkey⟩ := hsame
      obtain ⟨hnamed, -, -, decision, hdecided, hrecorded⟩ := h.keyed row.id old hold
      refine ⟨⟨hintent ▸ hnamed, decision, ?_, hrecorded⟩, fun other hother => ?_⟩
      · rw [← hkey, ← hintent]
        exact hdecided
      · obtain rfl := Option.some.inj (hother.symm.trans hold)
        exact ⟨hintent, hkey⟩
  | intent | decision => cases hthis
  | execution | reservation | account | balance | counter | «facts» | policy => trivial

/-- From tables without intents and outbox rows, whatever else they hold: every step of every run
changes the intents as the lifecycle says. -/
theorem lawful_of_run (recordsSpend : Bool) {db : Database} (hintents : db.intents = Table.empty)
    (houtbox : db.outbox = Table.empty) {labels : List ServiceLabel} {label : ServiceLabel}
    {s next : ServiceWorld}
    (hrun : (paymentIntentService recordsSpend).run { committed := db } labels = some s)
    (hstep : (paymentIntentService recordsSpend).step s label = some next) :
    LawfulChange s.committed next.committed := by
  have hstart : Accounted db := by
    constructor
    · intro id row hrow
      rw [hintents] at hrow
      cases hrow
    · intro id row hrow
      rw [hintents] at hrow
      cases hrow
    · intro id row hrow
      rw [houtbox] at hrow
      cases hrow
    · intro id row hrow
      rw [hintents] at hrow
      cases hrow
  have hothers : ∀ db writes, Accounted db → othersMay db writes = true → MayCommit db writes :=
    fun _ _ h hmay => mayCommit_of_othersMay h hmay
  have hscripts : ∀ call : ServiceCall,
      ∃ post, lifecycle.Sound (fun _ => True) (serviceScript recordsSpend call) post :=
    fun call => ⟨_, safe_serviceScript recordsSpend call⟩
  have hbefore := Discipline.Disciplined.of_run (d := lifecycle) Write.clash_symm hothers hstart
    (fun call _ => hscripts call) hrun
  obtain ⟨-, hsame | ⟨writes, hcommit, hview⟩⟩ :=
    hbefore.step Write.clash_symm hothers (fun call _ => hscripts call) hstep
  · rw [hsame]
    exact .refl _
  · rw [hview]
    exact hbefore.invariant.lawful hcommit

/-! ## A run -/

theorem blankUlid_alphabet : ∀ c ∈ ([] : List Char), c ∈ ulidAlphabet := by
  intro c hc
  cases hc

def plainEnvironment : Environment where
  now := 0
  ulid := ⟨[], blankUlid_alphabet⟩
  audit := .ok "evt_1"
  resolvePrincipal := .ok ⟨"agent_1", .agent, ["payment_intent:execute"]⟩
  gate := plainDependencies "USD"
  sha256Intent := fun intent => intent.id
  resolveActor := .ok "user_1"
  findMemberById := fun _ => .ok none
  approvers := .ok []
  resolveApprovalPayeeEmail := .ok none
  sign := .ok "apr_1"

/-- Every action executes by itself. -/
def autoPolicy : PolicyDocument where
  version := 1
  rules := [{ id := "r", appliesTo := [.any], «when» := {}, execute := .auto }]

def plainProposal : CreatePaymentIntentInput where
  actionType := .erpWriteback
  sourceAccountId := "acct_1"
  destinationCounterpartyId := "cp_1"
  amount := "10"
  currency := "USD"

def plainTables : Database := { activePolicy := some ⟨"pol_1", 1, autoPolicy⟩ }

/-- A proposal up to the commit of its row. -/
def proposedLabels : List ServiceLabel :=
  .begin (.create ⟨"tnt_1", "user_1", none⟩ plainProposal) ::
    List.replicate 18 (.advance 0 plainEnvironment)

def proposedWorld : ServiceWorld :=
  ((paymentIntentService true).run { committed := plainTables } proposedLabels).getD
    { committed := plainTables }

def insertedWorld : ServiceWorld :=
  ((paymentIntentService true).step proposedWorld (.advance 0 plainEnvironment)).getD
    { committed := plainTables }

theorem lawful_of_proposed :
    insertedWorld.committed.intents.rows.map (·.status) = [.approved] ∧
      LawfulChange proposedWorld.committed insertedWorld.committed := by
  have hrun : (paymentIntentService true).run { committed := plainTables } proposedLabels =
      some proposedWorld := rfl
  have hstep : (paymentIntentService true).step proposedWorld (.advance 0 plainEnvironment) =
      some insertedWorld := rfl
  exact ⟨rfl, lawful_of_run true rfl rfl hrun hstep⟩

end BrainCore.Execution
