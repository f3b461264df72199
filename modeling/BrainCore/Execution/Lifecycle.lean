import BrainCore.Execution.PaymentIntentService

/-!
# What a commit does to the intents

A commit of the service moves intents along the edges of the state machine,
enters `dispatching` with an outbox row, and records a policy decision with
each intent that is created.  These are conditions on the rows it writes, so
that they stay as they are while other calls commit.
-/

namespace BrainCore.Execution

open BrainCore.Foundation BrainCore.Gate BrainCore.Ledger BrainCore.Policy

/-! ## The tables after some writes -/

theorem view_cons (db : Database) (w : Write) (writes : List Write) :
    database.view db (w :: writes) = database.view (w.apply db) writes := rfl

/-- Writes that are not of a table leave it as it is. -/
theorem view_of_skip {α : Type} (table : Database → α) {writes : List Write}
    (hskip : ∀ w ∈ writes, ∀ db, table (w.apply db) = table db) (db : Database) :
    table (database.view db writes) = table db := by
  induction writes generalizing db with
  | nil => rfl
  | cons w rest ih =>
      rw [view_cons, ih fun w hw => hskip w (List.mem_cons_of_mem _ hw)]
      exact hskip w List.mem_cons_self db

/-- A key of a table holds one of the rows written for it, or what it held before. -/
theorem view_cases {ρ : Type} {key : ρ → String} (table : Database → Table key)
    (wrap : ρ → Write) (hwrap : ∀ row db, table ((wrap row).apply db) = (table db).put row)
    {writes : List Write}
    (hskip : ∀ w ∈ writes, (∃ row, w = wrap row) ∨ ∀ db, table (w.apply db) = table db)
    (db : Database) (k : String) :
    (∃ row, wrap row ∈ writes ∧ key row = k ∧
      (table (database.view db writes)).find? k = some row) ∨
    (table (database.view db writes)).find? k = (table db).find? k := by
  induction writes generalizing db with
  | nil => exact .inr rfl
  | cons w rest ih =>
      rw [view_cons]
      rcases ih (fun w hw => hskip w (List.mem_cons_of_mem _ hw)) (w.apply db) with
        ⟨row, hmem, hkey, hfind⟩ | hsame
      · exact .inl ⟨row, List.mem_cons_of_mem _ hmem, hkey, hfind⟩
      · rw [hsame]
        rcases hskip w List.mem_cons_self with ⟨row, rfl⟩ | hother
        · rw [hwrap, Table.find?_put]
          by_cases hk : k = key row
          · exact .inl ⟨row, List.mem_cons_self, hk.symm, if_pos hk⟩
          · exact .inr (if_neg hk)
        · rw [hother]
          exact .inr rfl

theorem intents_cases (db : Database) (writes : List Write) (id : String) :
    (∃ row, .intent row ∈ writes ∧ row.id = id ∧
      (database.view db writes).intents.find? id = some row) ∨
    (database.view db writes).intents.find? id = db.intents.find? id := by
  apply view_cases Database.intents Write.intent (fun _ _ => rfl)
  intro w _
  cases w with
  | intent row => exact .inl ⟨row, rfl⟩
  | outbox | execution | reservation | account | balance | counter | decision | «facts» | policy =>
      exact .inr fun _ => rfl

theorem outbox_cases (db : Database) (writes : List Write) (id : String) :
    (∃ row, .outbox row ∈ writes ∧ row.id = id ∧
      (database.view db writes).outbox.find? id = some row) ∨
    (database.view db writes).outbox.find? id = db.outbox.find? id := by
  apply view_cases Database.outbox Write.outbox (fun _ _ => rfl)
  intro w _
  cases w with
  | outbox row => exact .inl ⟨row, rfl⟩
  | intent | execution | reservation | account | balance | counter | decision | «facts» | policy =>
      exact .inr fun _ => rfl

theorem decisions_cases (db : Database) (writes : List Write) (id : String) :
    (∃ row, .decision row ∈ writes ∧ row.id = id ∧
      (database.view db writes).decisions.find? id = some row) ∨
    (database.view db writes).decisions.find? id = db.decisions.find? id := by
  apply view_cases Database.decisions Write.decision (fun _ _ => rfl)
  intro w _
  cases w with
  | decision row => exact .inl ⟨row, rfl⟩
  | intent | outbox | execution | reservation | account | balance | counter | «facts» | policy =>
      exact .inr fun _ => rfl

/-- Writes that do not clash with a row leave its key alone. -/
theorem intent_of_free {db : Database} {own theirs : List Write} {row : PaymentIntentRow}
    (hfree : Free database theirs own) (hmem : .intent row ∈ own) :
    (database.view db theirs).intents.find? row.id = db.intents.find? row.id := by
  rcases intents_cases db theirs row.id with ⟨other, hother, hid, -⟩ | hsame
  · have hclash := hfree _ hother _ hmem
    simp [database, Write.clash, hid] at hclash
  · exact hsame

theorem outbox_of_free {db : Database} {own theirs : List Write} {row : OutboxRow}
    (hfree : Free database theirs own) (hmem : .outbox row ∈ own) :
    (database.view db theirs).outbox.find? row.id = db.outbox.find? row.id := by
  rcases outbox_cases db theirs row.id with ⟨other, hother, hid, -⟩ | hsame
  · have hclash := hfree _ hother _ hmem
    simp [database, Write.clash, hid] at hclash
  · exact hsame

/-! ## What holds between commits -/

/-- The policy decision is recorded. -/
def IsRecorded (db : Database) (id : String) : Prop := ∃ row, db.decisions.find? id = some row

/-- An outbox row of the intent, under the key of a recorded decision. -/
structure HandedOver (db : Database) (row : OutboxRow) (intentId : String) : Prop where
  stored : db.outbox.find? row.id = some row
  intent : row.paymentIntentId = intentId
  decided : ∃ decision, row.idempotencyKey = handOffKey intentId decision ∧ IsRecorded db decision

/-- The intent was handed to the outbox. -/
def HandedOff (db : Database) (intentId : String) : Prop := ∃ row, HandedOver db row intentId

/-- A part of an idempotency key: it has no colon. -/
def KeyPart (id : String) : Prop := ':' ∉ id.toList

/-- Every intent has a recorded decision, every outbox row the key of its intent, and an intent
that was dispatched has an outbox row. -/
structure Accounted (db : Database) : Prop where
  named : ∀ id row, db.intents.find? id = some row → KeyPart id
  decided : ∀ id row, db.intents.find? id = some row →
    ∃ decision, row.policyDecisionId = some decision ∧ IsRecorded db decision
  keyed : ∀ id row, db.outbox.find? id = some row →
    KeyPart row.paymentIntentId ∧ HandedOver db row row.paymentIntentId
  handed : ∀ id row, db.intents.find? id = some row →
    row.status = .dispatching ∨ row.status = .executed → HandedOff db id

/-! ## What a commit may write -/

/-- The statuses nothing leads out of. -/
def IsTerminal (status : PaymentIntentState) : Prop :=
  status = .executed ∨ status = .rejected ∨ status = .failed ∨ status = .cancelled

/-- The intent keeps its decision and its status, or moves along an edge. -/
structure Moves (old row : PaymentIntentRow) : Prop where
  decision : row.policyDecisionId = old.policyDecisionId
  edge : row.status = old.status ∨
    isValidPaymentIntentTransition old.status row.status = true ∧ old.status ≠ .executed

/-- A status an intent is created in. -/
def IsInitial (status : PaymentIntentState) : Prop :=
  status = .rejected ∨ status = .approved ∨ status = .pendingApproval

/-- The intent is new. -/
structure Born (db : Database) (row : PaymentIntentRow) : Prop where
  fresh : db.intents.find? row.id = none
  named : KeyPart row.id
  initial : IsInitial row.status
  decided : ∃ decision, row.policyDecisionId = some decision ∧ IsRecorded db decision

/-- The outbox row has the key of its intent. -/
structure Keyed (db : Database) (row : OutboxRow) : Prop where
  named : KeyPart row.paymentIntentId
  decided : ∃ decision, row.idempotencyKey = handOffKey row.paymentIntentId decision ∧
    IsRecorded db decision

/-- What may be written to a row, on the database before the commit and on the one after it. -/
def Allowed (before after : Database) : Write → Prop
  | .intent row =>
      Born before row ∨ ∃ old, before.intents.find? row.id = some old ∧ Moves old row ∧
        (row.status = .dispatching → old.status = .dispatching ∨ HandedOff after row.id)
  | .outbox row =>
      Keyed before row ∧ ∀ old, before.outbox.find? row.id = some old →
        old.paymentIntentId = row.paymentIntentId ∧ old.idempotencyKey = row.idempotencyKey
  | _ => True

def MayCommit (db : Database) (writes : List Write) : Prop :=
  ∀ w ∈ writes, Allowed db (database.view db writes) w

/-! ## What lasts -/

theorem IsRecorded.view {db : Database} {id : String} (h : IsRecorded db id)
    (writes : List Write) : IsRecorded (database.view db writes) id := by
  obtain ⟨row, hrow⟩ := h
  rcases decisions_cases db writes id with ⟨other, -, -, hfind⟩ | hsame
  · exact ⟨other, hfind⟩
  · exact ⟨row, hsame.trans hrow⟩

theorem Keyed.view {db : Database} {row : OutboxRow} (h : Keyed db row) (writes : List Write) :
    Keyed (database.view db writes) row := by
  obtain ⟨hnamed, decision, hkey, hrecorded⟩ := h
  exact ⟨hnamed, decision, hkey, hrecorded.view writes⟩

theorem HandedOff.view {db : Database} {writes : List Write} {intentId : String}
    (h : HandedOff db intentId) (hcommit : MayCommit db writes) :
    HandedOff (database.view db writes) intentId := by
  obtain ⟨row, hstored, hintent, decision, hkey, hrecorded⟩ := h
  rcases outbox_cases db writes row.id with ⟨other, hother, hid, hfind⟩ | hsame
  · obtain ⟨-, hkept⟩ := hcommit _ hother
    rw [hid] at hkept
    obtain ⟨hintent', hkey'⟩ := hkept row hstored
    refine ⟨other, hid ▸ hfind, hintent'.symm.trans hintent, decision, ?_, hrecorded.view writes⟩
    exact hkey'.symm.trans hkey
  · exact ⟨row, hsame.trans hstored, hintent, decision, hkey, hrecorded.view writes⟩

/-- The row an intent has after the commit: a new one, or one it moved to. -/
theorem MayCommit.intent {db : Database} {writes : List Write} (hcommit : MayCommit db writes)
    {id : String} {row : PaymentIntentRow}
    (hrow : (database.view db writes).intents.find? id = some row) :
    Born db row ∨ ∃ old, db.intents.find? id = some old ∧ Moves old row ∧
      (row.status = .dispatching →
        old.status = .dispatching ∨ HandedOff (database.view db writes) id) := by
  have hid := Table.key_of_find? hrow
  rcases intents_cases db writes id with ⟨other, hother, -, hfind⟩ | hsame
  · obtain rfl := Option.some.inj (hrow.symm.trans hfind)
    have hallowed := hcommit _ hother
    rw [Allowed, hid] at hallowed
    exact hallowed
  · exact .inr ⟨row, hsame ▸ hrow, ⟨rfl, .inl rfl⟩, .inl⟩

/-- Nothing but the hand-over leads to `executed`. -/
theorem dispatching_of_executed {source : PaymentIntentState}
    (h : isValidPaymentIntentTransition source .executed = true) : source = .dispatching := by
  cases source with
  | dispatching => rfl
  | proposed | pendingApproval | awaitingSecondApproval | approved | paused | rejected | executed
  | failed | cancelled => cases h

/-- What holds between commits is kept by what may be committed. -/
theorem Accounted.view {db : Database} {writes : List Write} (h : Accounted db)
    (hcommit : MayCommit db writes) : Accounted (database.view db writes) := by
  constructor
  · intro id row hrow
    rcases hcommit.intent hrow with hborn | ⟨old, hold, -⟩
    · exact Table.key_of_find? hrow ▸ hborn.named
    · exact h.named id old hold
  · intro id row hrow
    rcases hcommit.intent hrow with hborn | ⟨old, hold, hmoves, -⟩
    · obtain ⟨decision, hdecision, hrecorded⟩ := hborn.decided
      exact ⟨decision, hdecision, hrecorded.view writes⟩
    · obtain ⟨decision, hdecision, hrecorded⟩ := h.decided id old hold
      exact ⟨decision, hmoves.decision.trans hdecision, hrecorded.view writes⟩
  · intro id row hrow
    have hid := Table.key_of_find? hrow
    have hkeyed : Keyed (database.view db writes) row := by
      rcases outbox_cases db writes id with ⟨other, hother, -, hfind⟩ | hsame
      · obtain rfl := Option.some.inj (hrow.symm.trans hfind)
        exact (hcommit _ hother).1.view writes
      · obtain ⟨hnamed, -, -, hdecided⟩ := h.keyed id row (hsame ▸ hrow)
        exact Keyed.view ⟨hnamed, hdecided⟩ writes
    exact ⟨hkeyed.named, hid ▸ hrow, rfl, hkeyed.decided⟩
  · intro id row hrow hstatus
    rcases hcommit.intent hrow with hborn | ⟨old, hold, hmoves, hdispatch⟩
    · rcases hborn.initial with hinitial | hinitial | hinitial <;> simp [hinitial] at hstatus
    · have hfrom : old.status = .dispatching ∨ old.status = .executed ∨
          row.status = .dispatching := by
        rcases hstatus with hdispatching | hexecuted
        · exact .inr (.inr hdispatching)
        · rcases hmoves.edge with hsame | ⟨hedge, -⟩
          · exact .inr (.inl (hsame.symm.trans hexecuted))
          · rw [hexecuted] at hedge
            exact .inl (dispatching_of_executed hedge)
      rcases hfrom with hold' | hold' | hnew
      · exact (h.handed id old hold (.inl hold')).view hcommit
      · exact (h.handed id old hold (.inr hold')).view hcommit
      · rcases hdispatch hnew with hold' | hhanded
        · exact (h.handed id old hold (.inl hold')).view hcommit
        · exact hhanded

/-- The discipline of the service. -/
def lifecycle : Discipline database where
  invariant := Accounted
  permits := MayCommit
  keeps _ _ h hcommit := h.view hcommit

/-! ## What a permitted commit does -/

/-- A step from one committed database to the next: no intent is lost, each status that changes
does so along an edge and out of no terminal status, an intent becomes executed out of
`dispatching` with an outbox row and a recorded decision, and a new intent starts at the start. -/
structure LawfulChange (before after : Database) : Prop where
  kept : ∀ id old, before.intents.find? id = some old → ∃ row, after.intents.find? id = some row
  edge : ∀ id old row, before.intents.find? id = some old → after.intents.find? id = some row →
    row.status ≠ old.status → isValidPaymentIntentTransition old.status row.status = true
  terminal : ∀ id old row, before.intents.find? id = some old →
    after.intents.find? id = some row → IsTerminal old.status → row.status = old.status
  executed : ∀ id old row, before.intents.find? id = some old →
    after.intents.find? id = some row → row.status = .executed → old.status ≠ .executed →
      old.status = .dispatching ∧ HandedOff after id ∧
        ∃ decision, row.policyDecisionId = some decision ∧ IsRecorded after decision
  born : ∀ id row, before.intents.find? id = none → after.intents.find? id = some row →
    IsInitial row.status

theorem LawfulChange.refl (db : Database) : LawfulChange db db := by
  have hsame : ∀ {id : String} {old row : PaymentIntentRow}, db.intents.find? id = some old →
      db.intents.find? id = some row → row = old := fun hold hrow =>
    Option.some.inj (hrow.symm.trans hold)
  constructor
  · exact fun id old hold => ⟨old, hold⟩
  · intro id old row hold hrow hne
    exact absurd (congrArg _ (hsame hold hrow)) hne
  · intro id old row hold hrow _
    rw [hsame hold hrow]
  · intro id old row hold hrow hexecuted hne
    rw [hsame hold hrow] at hexecuted
    exact absurd hexecuted hne
  · intro id row hnone hrow
    rw [hnone] at hrow
    cases hrow

theorem Accounted.lawful {db : Database} {writes : List Write} (h : Accounted db)
    (hcommit : MayCommit db writes) : LawfulChange db (database.view db writes) := by
  have hafter := h.view hcommit
  have hmoves : ∀ {id : String} {old row : PaymentIntentRow}, db.intents.find? id = some old →
      (database.view db writes).intents.find? id = some row → Moves old row := by
    intro id old row hold hrow
    rcases hcommit.intent hrow with hborn | ⟨old', hold', hmoves, -⟩
    · have hfresh := hborn.fresh
      rw [Table.key_of_find? hrow, hold] at hfresh
      cases hfresh
    · obtain rfl := Option.some.inj (hold.symm.trans hold')
      exact hmoves
  constructor
  · intro id old hold
    rcases intents_cases db writes id with ⟨row, -, -, hfind⟩ | hsame
    · exact ⟨row, hfind⟩
    · exact ⟨old, hsame.trans hold⟩
  · intro id old row hold hrow hne
    rcases (hmoves hold hrow).edge with hsame | ⟨hedge, -⟩
    · exact absurd hsame hne
    · exact hedge
  · intro id old row hold hrow hterminal
    rcases (hmoves hold hrow).edge with hsame | ⟨hedge, hne⟩
    · exact hsame
    · rcases hterminal with hstatus | hstatus | hstatus | hstatus
      · exact absurd hstatus hne
      all_goals
        rw [hstatus] at hedge
        cases hedge
  · intro id old row hold hrow hexecuted hne
    have hmove := hmoves hold hrow
    rcases hmove.edge with hsame | ⟨hedge, -⟩
    · exact absurd (hsame.symm.trans hexecuted) hne
    · rw [hexecuted] at hedge
      exact ⟨dispatching_of_executed hedge, hafter.handed id row hrow (.inr hexecuted),
        hafter.decided id row hrow⟩
  · intro id row hnone hrow
    rcases hcommit.intent hrow with hborn | ⟨old, hold, -⟩
    · exact hborn.initial
    · rw [hnone] at hold
      cases hold

end BrainCore.Execution
