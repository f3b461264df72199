import BrainCore.Audit.VerifyContentHash
import BrainCore.Deletion.AuditOutbox

/-!
# Deliveries that are not refused

An event that is written for a row is found again by every later delivery of
the row under the same actor, so a row is delivered once and never refused as
long as nobody else writes an event under its key.
-/

namespace BrainCore.Deletion

open BrainCore.Foundation BrainCore.Audit

variable {sha256 : List Char → String} {hashtext : String → Int} {isEventKey : String → Bool}
  {s next : OutboxWorld} {i j k : Nat} {call : PublishCall} {phase : PublishPhase}
  {row : AuditOutboxRow} {event : AuditEventRow} {db : AuditDatabase} {key : String}

/-! ## The log -/

/-- The event was written for this intent, in the name of some worker. -/
def Written (sha256 : List Char → String) (intent : AuditIntent) (event : AuditEventRow) : Prop :=
  ∃ workerId id createdAt prev,
    auditEventRow sha256 (normalizeAuditEventInput (intent.outboxRowToEvent workerId)) id createdAt
      prev = .ok event

theorem Written.tenant_eq {intent : AuditIntent} (h : Written sha256 intent event) :
    event.tenantId = intent.tenantId := by
  obtain ⟨_, _, _, _, hrow⟩ := h
  exact (auditEventRow_fields hrow).1

theorem Written.key_eq {intent : AuditIntent} (h : Written sha256 intent event) :
    event.idempotencyKey = some intent.eventKey := by
  obtain ⟨_, _, _, _, hrow⟩ := h
  exact auditEventRow_key hrow

/-- A later delivery under the same actor finds the event. -/
theorem Written.emit {intent : AuditIntent} {workerId id createdAt : String}
    (h : Written sha256 intent event)
    (hfind : (db.events.find? fun other =>
      other.tenantId = intent.tenantId ∧ other.idempotencyKey = some intent.eventKey) = some event)
    (hactor : intent.actor = none → event.actor = workerId) :
    emitAlone sha256 hashtext ⟨intent.outboxRowToEvent workerId, id, createdAt⟩ db =
      .ok (db, event) := by
  obtain ⟨writer, id', createdAt', prev, hrow⟩ := h
  have hsame : intent.outboxRowToEvent writer = intent.outboxRowToEvent workerId := by
    unfold AuditIntent.outboxRowToEvent
    cases hname : intent.actor with
    | some actor => rfl
    | none =>
        have hwriter : event.actor = intent.actor.getD writer := (auditEventRow_fields hrow).2.1
        rw [hname, hactor hname] at hwriter
        rw [hwriter]
        rfl
  rw [hsame] at hrow
  exact emit_of_written rfl hfind hrow

theorem hasKey_append {tenantId : String} (h : (db.appended event).HasKey tenantId key) :
    db.HasKey tenantId key ∨ event.tenantId = tenantId ∧ event.idempotencyKey = some key := by
  obtain ⟨other, hmem, hother⟩ := h
  rcases List.mem_append.mp hmem with hold | hnew
  · exact .inl ⟨other, hold, hother⟩
  · rw [List.mem_singleton.mp hnew] at hother
    exact .inr hother

/-! ## The invariant -/

/-- What a publish transaction knows of the row it has locked. -/
def Locked (s : OutboxWorld) : PublishPhase → Prop
  | .claimed k row => s.rows[k]? = some row ∧ row.status = .pending
  | .delivered k _ => ∃ row, s.rows[k]? = some row ∧ row.status = .pending
  | .failed k row => s.rows[k]? = some row ∧ row.status = .pending ∧
      (s.audit.HasKey row.tenantId row.eventKey → k ∈ s.unanswered)
  | .ended => True

structure OutboxSound (sha256 : List Char → String) (isEventKey : String → Bool) (s : OutboxWorld) :
    Prop where
  keys : (s.rows.map fun row => row.eventKey).Nodup
  ours : ∀ row ∈ s.rows, isEventKey row.eventKey = true
  unique : s.audit.UniqueEvents
  written : ∀ event ∈ s.audit.events, ∀ key, event.idempotencyKey = some key →
    isEventKey key = true → ∃ row ∈ s.rows, row.eventKey = key ∧ Written sha256 row.toAuditIntent event
  lone : ∀ (i j : Nat) (call other : PublishCall) (k : Nat), s.calls[i]? = some call →
    s.calls[j]? = some other → call.phase.held = some k → other.phase.held = some k → i = j
  locked : ∀ (i : Nat) (call : PublishCall), s.calls[i]? = some call → Locked s call.phase
  refused : s.refused = []
  exhausted : ∀ (k : Nat) (row : AuditOutboxRow), s.rows[k]? = some row → row.status = .exhausted →
    s.audit.HasKey row.tenantId row.eventKey → k ∈ s.unanswered

theorem Locked.pending (h : Locked s phase) (hheld : phase.held = some k) :
    ∃ row, s.rows[k]? = some row ∧ row.status = .pending := by
  cases phase with
  | claimed k' row =>
      cases hheld
      exact ⟨row, h⟩
  | delivered k' event =>
      cases hheld
      exact h
  | failed k' row =>
      cases hheld
      exact ⟨row, h.1, h.2.1⟩
  | ended => cases hheld

namespace OutboxSound

/-- A row is where its key is. -/
theorem place_eq (h : OutboxSound sha256 isEventKey s) {other : AuditOutboxRow}
    (hrow : s.rows[k]? = some row) (hother : s.rows[j]? = some other)
    (hkey : row.eventKey = other.eventKey) : k = j := by
  obtain ⟨hlt, -⟩ := List.getElem?_eq_some_iff.mp hrow
  have hlength : k < (s.rows.map fun row => row.eventKey).length := by
    rw [List.length_map]
    exact hlt
  refine (List.getElem?_inj hlength h.keys).mp ?_
  rw [List.getElem?_map, List.getElem?_map, hrow, hother, Option.map_some, Option.map_some, hkey]

/-- One call goes on, holding the row it holds or none. -/
theorem setPhase (h : OutboxSound sha256 isEventKey s) (hcall : s.calls[i]? = some call)
    (hlocked : Locked s phase) (hheld : ∀ k, phase.held = some k → call.phase.held = some k) :
    OutboxSound sha256 isEventKey (s.setPhase i call phase) where
  keys := h.keys
  ours := h.ours
  unique := h.unique
  written := h.written
  lone j₁ j₂ first second k hfirst hsecond hk hk' := by
    rcases set_cases hcall hfirst with ⟨hfirst', rfl⟩ | ⟨-, hfirst⟩
    · rcases set_cases hcall hsecond with ⟨hsecond', -⟩ | ⟨-, hsecond⟩
      · exact hfirst'.trans hsecond'.symm
      · exact hfirst'.trans (h.lone i j₂ call second k hcall hsecond (hheld k hk) hk')
    · rcases set_cases hcall hsecond with ⟨hsecond', rfl⟩ | ⟨-, hsecond⟩
      · exact (h.lone j₁ i first call k hfirst hcall hk (hheld k hk')).trans hsecond'.symm
      · exact h.lone _ _ first second k hfirst hsecond hk hk'
  locked j last hlast := by
    rcases set_cases hcall hlast with ⟨-, rfl⟩ | ⟨-, hlast⟩
    · exact hlocked
    · exact h.locked j last hlast
  refused := h.refused
  exhausted := h.exhausted

/-- A delivery got no answer. -/
theorem unanswer (h : OutboxSound sha256 isEventKey s) (k : Nat) :
    OutboxSound sha256 isEventKey { s with unanswered := s.unanswered ++ [k] } where
  keys := h.keys
  ours := h.ours
  unique := h.unique
  written := h.written
  lone := h.lone
  locked i call hcall := by
    have hlocked := h.locked i call hcall
    generalize call.phase = phase at hlocked
    cases phase with
    | failed k' row => exact ⟨hlocked.1, hlocked.2.1, fun hkey =>
        List.mem_append_left _ (hlocked.2.2 hkey)⟩
    | claimed k' row => exact hlocked
    | delivered k' event => exact hlocked
    | ended => trivial
  refused := h.refused
  exhausted k row hrow hstatus hkey := List.mem_append_left _ (h.exhausted k row hrow hstatus hkey)

/-- Rows are rewritten: their intents stay, and locked rows stay as they are. -/
theorem rewrite (h : OutboxSound sha256 isEventKey s) {rows : List AuditOutboxRow}
    (hintents : rows.map (·.toAuditIntent) = s.rows.map (·.toAuditIntent))
    (hheld : ∀ (i : Nat) (call : PublishCall) (k : Nat), s.calls[i]? = some call →
      call.phase.held = some k → rows[k]? = s.rows[k]?)
    (hexhausted : ∀ (k : Nat) (row : AuditOutboxRow), rows[k]? = some row → row.status = .exhausted →
      s.audit.HasKey row.tenantId row.eventKey → k ∈ s.unanswered) :
    OutboxSound sha256 isEventKey { s with rows } where
  keys := by
    have hkeys : rows.map (fun row => row.eventKey) = s.rows.map fun row => row.eventKey := by
      have hmap := congrArg (List.map AuditIntent.eventKey) hintents
      rwa [List.map_map, List.map_map] at hmap
    change (rows.map fun row => row.eventKey).Nodup
    rw [hkeys]
    exact h.keys
  ours row hmem := by
    have hintent : row.toAuditIntent ∈ s.rows.map (·.toAuditIntent) :=
      hintents ▸ List.mem_map_of_mem hmem
    obtain ⟨old, hold, hsame⟩ := List.mem_map.mp hintent
    rw [← hsame]
    exact h.ours old hold
  unique := h.unique
  written event hevent key hkey hours := by
    obtain ⟨old, hold, hname, hwritten⟩ := h.written event hevent key hkey hours
    have hintent : old.toAuditIntent ∈ rows.map (·.toAuditIntent) :=
      hintents ▸ List.mem_map_of_mem hold
    obtain ⟨row, hmem, hsame⟩ := List.mem_map.mp hintent
    refine ⟨row, hmem, ?_, ?_⟩
    · rw [hsame]
      exact hname
    · rw [hsame]
      exact hwritten
  lone := h.lone
  locked i call hcall := by
    have hlocked := h.locked i call hcall
    have hplace := hheld i call
    generalize call.phase = phase at hlocked hplace
    cases phase with
    | claimed k row =>
        refine ⟨?_, hlocked.2⟩
        rw [hplace k hcall rfl]
        exact hlocked.1
    | delivered k event =>
        obtain ⟨row, hrow, hpending⟩ := hlocked
        refine ⟨row, ?_, hpending⟩
        rw [hplace k hcall rfl]
        exact hrow
    | failed k row =>
        refine ⟨?_, hlocked.2⟩
        rw [hplace k hcall rfl]
        exact hlocked.1
    | ended => trivial
  refused := h.refused
  exhausted := hexhausted

/-- An event is appended that concerns no row, or the row of a delivery under way. -/
theorem append (h : OutboxSound sha256 isEventKey s)
    (hunique : (s.audit.appended event).UniqueEvents)
    (hwritten : ∀ key, event.idempotencyKey = some key → isEventKey key = true →
      ∃ row ∈ s.rows, row.eventKey = key ∧ Written sha256 row.toAuditIntent event)
    (hquiet : ∀ (k : Nat) (row : AuditOutboxRow), s.rows[k]? = some row →
      event.idempotencyKey = some row.eventKey → row.status ≠ .exhausted ∧
        ∀ (i : Nat) (call : PublishCall) (other : AuditOutboxRow), s.calls[i]? = some call →
          call.phase ≠ .failed k other) :
    OutboxSound sha256 isEventKey { s with audit := s.audit.appended event } where
  keys := h.keys
  ours := h.ours
  unique := hunique
  written other hmem key hkey hours := by
    rcases List.mem_append.mp hmem with hold | hnew
    · exact h.written other hold key hkey hours
    · rw [List.mem_singleton.mp hnew] at hkey ⊢
      exact hwritten key hkey hours
  lone := h.lone
  locked i call hcall := by
    have hlocked := h.locked i call hcall
    have hfailed := fun k row other hrow hkey => (hquiet k row hrow hkey).2 i call other hcall
    generalize call.phase = phase at hlocked hfailed
    cases phase with
    | failed k row =>
        obtain ⟨hrow, hpending, hunanswered⟩ := hlocked
        refine ⟨hrow, hpending, fun hkey => ?_⟩
        rcases hasKey_append hkey with hold | ⟨-, hnew⟩
        · exact hunanswered hold
        · exact absurd rfl (hfailed k row row hrow hnew)
    | claimed k row => exact hlocked
    | delivered k other => exact hlocked
    | ended => trivial
  refused := h.refused
  exhausted k row hrow hstatus hkey := by
    rcases hasKey_append hkey with hold | ⟨-, hnew⟩
    · exact h.exhausted k row hrow hstatus hold
    · exact absurd hstatus (hquiet k row hrow hnew).1

/-! ### Enqueueing -/

theorem insertIntent (h : OutboxSound sha256 isEventKey s) {intent : AuditIntent}
    (hours : isEventKey intent.eventKey = true) :
    OutboxSound sha256 isEventKey { s with rows := Deletion.insertIntent s.rows intent } := by
  unfold Deletion.insertIntent
  split
  · exact h
  · rename_i hnew
    have hfresh : ∀ row ∈ s.rows, row.eventKey ≠ intent.eventKey := by
      intro row hmem hkey
      exact hnew (List.any_eq_true.mpr ⟨row, hmem, decide_eq_true hkey⟩)
    have hplace : ∀ {k : Nat} {row : AuditOutboxRow}, s.rows[k]? = some row →
        (s.rows ++ [{ toAuditIntent := intent }])[k]? = some row := fun hrow => snoc_other hrow
    constructor
    · dsimp only
      rw [List.map_append, List.nodup_append]
      refine ⟨h.keys, List.nodup_singleton _, fun name hname last hlast => ?_⟩
      obtain ⟨row, hmem, rfl⟩ := List.mem_map.mp hname
      rw [List.mem_singleton.mp hlast]
      exact hfresh row hmem
    · intro row hmem
      rcases List.mem_append.mp hmem with hold | hlast
      · exact h.ours row hold
      · rw [List.mem_singleton.mp hlast]
        exact hours
    · exact h.unique
    · intro event hevent key hkey hevents
      obtain ⟨row, hmem, hwritten⟩ := h.written event hevent key hkey hevents
      exact ⟨row, List.mem_append_left _ hmem, hwritten⟩
    · exact h.lone
    · intro i call hcall
      have hlocked := h.locked i call hcall
      generalize call.phase = phase at hlocked
      cases phase with
      | claimed k row => exact ⟨hplace hlocked.1, hlocked.2⟩
      | delivered k event =>
          obtain ⟨row, hrow, hpending⟩ := hlocked
          exact ⟨row, hplace hrow, hpending⟩
      | failed k row => exact ⟨hplace hlocked.1, hlocked.2⟩
      | ended => trivial
    · exact h.refused
    · intro k row hrow hstatus hkey
      rcases snoc_cases hrow with ⟨-, rfl⟩ | hold
      · cases hstatus
      · exact h.exhausted k row hold hstatus hkey

theorem insertIntents (h : OutboxSound sha256 isEventKey s) {intents : List AuditIntent}
    (hours : ∀ intent ∈ intents, isEventKey intent.eventKey = true) :
    OutboxSound sha256 isEventKey { s with rows := intents.foldl Deletion.insertIntent s.rows } := by
  induction intents generalizing s with
  | nil => exact h
  | cons intent intents ih =>
      obtain ⟨hfirst, hrest⟩ := List.forall_mem_cons.mp hours
      exact ih (h.insertIntent hfirst) hrest

end OutboxSound

theorem intent_eventKey {input : AuditOutboxInput} {intent : AuditIntent}
    (h : input.intent = some intent) : intent.eventKey = input.eventKey := by
  unfold AuditOutboxInput.intent at h
  split at h
  · cases h
    rfl
  · cases h

/-- The intents of inputs with event keys have event keys. -/
theorem ours_of_intents {inputs : List AuditOutboxInput} {intents : List AuditIntent}
    (hours : inputs.all (·.ours isEventKey) = true)
    (h : inputs.mapM AuditOutboxInput.intent = some intents) :
    ∀ intent ∈ intents, isEventKey intent.eventKey = true := by
  induction inputs generalizing intents with
  | nil =>
      cases h
      exact fun _ hmem => nomatch hmem
  | cons input inputs ih =>
      rw [List.all_cons, Bool.and_eq_true] at hours
      rw [List.mapM_cons] at h
      obtain ⟨intent, hintent, h⟩ := Option.bind_eq_some_iff.mp h
      obtain ⟨rest, hrest, h⟩ := Option.bind_eq_some_iff.mp h
      cases h
      refine List.forall_mem_cons.mpr ⟨?_, ih hours.2 hrest⟩
      rw [intent_eventKey hintent]
      exact hours.1

namespace OutboxSound

theorem enqueue (h : OutboxSound sha256 isEventKey s) {inputs : List AuditOutboxInput}
    {rows : List AuditOutboxRow} (hours : inputs.all (·.ours isEventKey) = true)
    (henqueue : enqueueAuditOutbox s.rows inputs = some rows) :
    OutboxSound sha256 isEventKey { s with rows } := by
  obtain ⟨intents, hintents, rfl⟩ := Option.map_eq_some_iff.mp henqueue
  exact h.insertIntents (ours_of_intents hours hintents)

/-! ### Emits -/

/-- What an emit may leave behind. -/
theorem emit (h : OutboxSound sha256 isEventKey s) {emitting : EmitCall} {audit : AuditDatabase}
    (hemit : emitAlone sha256 hashtext emitting s.audit = .ok (audit, event))
    (hwritten : ∀ key, emitting.event.idempotencyKey = some key → isEventKey key = true →
      ∃ row ∈ s.rows, row.eventKey = key ∧ ∃ workerId,
        emitting.event = row.outboxRowToEvent workerId)
    (hquiet : ∀ (k : Nat) (row : AuditOutboxRow), s.rows[k]? = some row →
      emitting.event.idempotencyKey = some row.eventKey → row.status ≠ .exhausted ∧
        ∀ (i : Nat) (call : PublishCall) (other : AuditOutboxRow), s.calls[i]? = some call →
          call.phase ≠ .failed k other) :
    OutboxSound sha256 isEventKey { s with audit } := by
  have hunique := h.unique.emit hemit
  rcases emit_alone hemit with rfl | happends
  · exact h
  · have hname := auditEventRow_key happends.stored
    rw [happends.next] at hunique ⊢
    refine h.append hunique (fun key hkey hours => ?_) fun k row hrow hkey => ?_
    · obtain ⟨row, hmem, hrow, workerId, hevent⟩ := hwritten key (hname.symm.trans hkey) hours
      refine ⟨row, hmem, hrow, workerId, emitting.id, emitting.createdAt, event.prevEventHash, ?_⟩
      rw [← hevent]
      exact happends.stored
    · exact hquiet k row hrow (hname.symm.trans hkey)

/-- An emit of another component. -/
theorem logged (h : OutboxSound sha256 isEventKey s) {emitting : EmitCall}
    (hother : emitting.event.idempotencyKey.any isEventKey = false) :
    OutboxSound sha256 isEventKey (s.logged sha256 hashtext emitting) := by
  have hforeign : ∀ key, emitting.event.idempotencyKey = some key → isEventKey key ≠ true := by
    intro key hkey hours
    rw [hkey, Option.any_some, hours] at hother
    cases hother
  unfold OutboxWorld.logged
  split
  · exact h
  · rename_i audit event hemit
    refine h.emit hemit (fun key hkey hours => absurd hours (hforeign key hkey))
      fun k row hrow hkey => ?_
    exact absurd (h.ours row (List.mem_of_getElem? hrow)) (hforeign row.eventKey hkey)

/-- The event of a row that is in the log was written for it. -/
theorem found (h : OutboxSound sha256 isEventKey s) (hrow : s.rows[k]? = some row)
    (hkey : s.audit.HasKey row.tenantId row.eventKey) : ∃ event ∈ s.audit.events,
      event.tenantId = row.tenantId ∧ event.idempotencyKey = some row.eventKey ∧
      (s.audit.events.find? fun other =>
        other.tenantId = row.tenantId ∧ other.idempotencyKey = some row.eventKey) = some event ∧
      Written sha256 row.toAuditIntent event := by
  obtain ⟨hit, hmem, hhit⟩ := hkey
  have hsome : (s.audit.events.find? fun other =>
      other.tenantId = row.tenantId ∧ other.idempotencyKey = some row.eventKey).isSome := by
    rw [List.find?_isSome]
    exact ⟨hit, hmem, decide_eq_true hhit⟩
  obtain ⟨event, hfind⟩ := Option.isSome_iff_exists.mp hsome
  have hevent := List.find?_some hfind
  rw [decide_eq_true_eq] at hevent
  have hlogged := List.mem_of_find?_eq_some hfind
  have hours := h.ours row (List.mem_of_getElem? hrow)
  obtain ⟨other, hother, hname, hwritten⟩ := h.written event hlogged row.eventKey hevent.2 hours
  obtain ⟨j, hj⟩ := List.mem_iff_getElem?.mp hother
  obtain rfl := h.place_eq hj hrow hname
  rw [hrow] at hj
  cases hj
  exact ⟨event, hlogged, hevent.1, hevent.2, hfind, hwritten⟩

end OutboxSound

/-! ## Steps -/

/-- The steps on which deliveries rely: the deletion service writes no event under the key of a row,
and a row without an actor whose event is in the log is delivered by the worker that wrote it. -/
def Careful (s : OutboxWorld) : OutboxLabel → Prop
  | .emitBestEffort j _ _ ending => ending = .unreached ∨ ∀ event rest,
      s.deletions[j]? = some (event :: rest) →
        ∃ key, event.idempotencyKey = some key ∧ s.audit.HasKey event.tenantId key
  | .deliver i _ _ _ => ∀ call k row, s.calls[i]? = some call → call.phase = .claimed k row →
      row.actor = none → ∀ event ∈ s.audit.events, event.tenantId = row.tenantId →
        event.idempotencyKey = some row.eventKey → event.actor = call.workerId
  | _ => True

namespace OutboxSound

theorem emitBestEffort (h : OutboxSound sha256 isEventKey s) {events : List AuditEventInput}
    {id createdAt : String} {ending : EmitEnd} (hevents : s.deletions[j]? = some events)
    (hcareful : Careful s (.emitBestEffort j id createdAt ending))
    (hstep : s.emitBestEffort sha256 hashtext j events id createdAt ending = some next) :
    OutboxSound sha256 isEventKey next := by
  unfold OutboxWorld.emitBestEffort at hstep
  cases events with
  | nil => cases hstep
  | cons event rest =>
      have hrest : OutboxSound sha256 isEventKey { s with deletions := s.deletions.set j rest } :=
        ⟨h.keys, h.ours, h.unique, h.written, h.lone, h.locked, h.refused, h.exhausted⟩
      have hlogged : ending ≠ .unreached → OutboxSound sha256 isEventKey
          (OutboxWorld.logged sha256 hashtext { s with deletions := s.deletions.set j rest }
            ⟨event, id, createdAt⟩) := by
        intro hreached
        obtain ⟨key, hname, hkey⟩ := hcareful.resolve_left hreached event rest hevents
        unfold OutboxWorld.logged
        split
        · exact hrest
        · rename_i audit last hemit
          rw [eq_of_hasKey hname hkey hemit]
          exact hrest
      cases ending with
      | unreached =>
          cases hstep
          exact hrest
      | answered =>
          cases hstep
          exact hlogged nofun
      | lost =>
          cases hstep
          exact hlogged nofun

theorem claim (h : OutboxSound sha256 isEventKey s) {workerId : String} {maxAttempts : Nat}
    (hstep : s.claim workerId maxAttempts k = some next) : OutboxSound sha256 isEventKey next := by
  unfold OutboxWorld.claim at hstep
  obtain ⟨row, hrow, hstep⟩ := Option.bind_eq_some_iff.mp hstep
  split at hstep
  · rename_i hclaim
    obtain ⟨hpending, -, hfree⟩ := hclaim
    cases hstep
    have hnone : ∀ {j : Nat} {other : PublishCall}, s.calls[j]? = some other →
        other.phase.held ≠ some k := fun hother =>
      of_decide_eq_true (List.all_eq_true.mp hfree _ (List.mem_of_getElem? hother))
    refine ⟨h.keys, h.ours, h.unique, h.written, ?_, ?_, h.refused, h.exhausted⟩
    · intro i j first second k' hfirst hsecond hheld hheld'
      rcases snoc_cases hfirst with ⟨hi, rfl⟩ | hfirst
      · rcases snoc_cases hsecond with ⟨hj, -⟩ | hsecond
        · exact hi.trans hj.symm
        · cases hheld
          exact absurd hheld' (hnone hsecond)
      · rcases snoc_cases hsecond with ⟨-, rfl⟩ | hsecond
        · cases hheld'
          exact absurd hheld (hnone hfirst)
        · exact h.lone i j first second k' hfirst hsecond hheld hheld'
    · intro i call hcall
      rcases snoc_cases hcall with ⟨-, rfl⟩ | hcall
      · exact ⟨hrow, hpending⟩
      · exact h.locked i call hcall
  · cases hstep

/-- A delivery that fails at the emitter is of a row whose event is not in the log. -/
theorem not_hasKey (h : OutboxSound sha256 isEventKey s) (hcall : s.calls[i]? = some call)
    (hphase : call.phase = .claimed k row) {id createdAt : String} {ending : EmitEnd}
    (hcareful : Careful s (.deliver i id createdAt ending)) {error : EmitError}
    (herror : emitAlone sha256 hashtext ⟨row.outboxRowToEvent call.workerId, id, createdAt⟩ s.audit =
      .error error) : ¬s.audit.HasKey row.tenantId row.eventKey := by
  intro hkey
  have hlocked := h.locked i call hcall
  rw [hphase] at hlocked
  obtain ⟨event, hmem, htenant, hname, hfind, hwritten⟩ := h.found hlocked.1 hkey
  have hactor : row.actor = none → event.actor = call.workerId := fun hnone =>
    hcareful call k row hcall hphase hnone event hmem htenant hname
  rw [hwritten.emit hfind hactor] at herror
  cases herror

/-- A conflict of keys is refused only to a row whose event is in the log. -/
theorem not_isConflict {error : EmitError} {intent : AuditIntent} {workerId id createdAt : String}
    (hkey : ¬db.HasKey intent.tenantId intent.eventKey)
    (herror : emitAlone sha256 hashtext ⟨intent.outboxRowToEvent workerId, id, createdAt⟩ db =
      .error error) : isConflict error = false := by
  cases error with
  | auditIdempotencyConflict tenantId key =>
      obtain ⟨name, hname, hhas⟩ := hasKey_of_conflict herror
      cases hname
      exact absurd hhas hkey
  | typeError e => rfl
  | notNullViolation column => rfl
  | uniqueViolation index => rfl
  | checkViolation message => rfl
  | auditHashVersionUnsupported version tenantId key => rfl
  | auditChainHeadUnavailable tenantId => rfl

/-- The log after the event of a locked row is emitted. -/
theorem delivered (h : OutboxSound sha256 isEventKey s) (hcall : s.calls[i]? = some call)
    (hphase : call.phase = .claimed k row) {id createdAt : String} {audit : AuditDatabase}
    (hemit : emitAlone sha256 hashtext ⟨row.outboxRowToEvent call.workerId, id, createdAt⟩ s.audit =
      .ok (audit, event)) : OutboxSound sha256 isEventKey { s with audit } := by
  have hlocked := h.locked i call hcall
  rw [hphase] at hlocked
  obtain ⟨hrow, hpending⟩ := hlocked
  refine h.emit hemit (fun key hkey _ => ?_) fun k' other hother hkey => ?_
  · cases hkey
    exact ⟨row, List.mem_of_getElem? hrow, rfl, call.workerId, rfl⟩
  · have hname : row.eventKey = other.eventKey := Option.some.inj hkey
    obtain rfl := h.place_eq hrow hother hname
    rw [hrow] at hother
    cases hother
    refine ⟨fun hexhausted => ?_, fun j last read hlast hfailed => ?_⟩
    · rw [hpending] at hexhausted
      cases hexhausted
    · have hsame := h.lone i j call last k hcall hlast (by rw [hphase]; rfl) (by rw [hfailed]; rfl)
      rw [← hsame, hcall] at hlast
      cases hlast
      rw [hphase] at hfailed
      cases hfailed

theorem deliver (h : OutboxSound sha256 isEventKey s) (hcall : s.calls[i]? = some call)
    {id createdAt : String} {ending : EmitEnd}
    (hcareful : Careful s (.deliver i id createdAt ending))
    (hstep : s.deliver sha256 hashtext i call id createdAt ending = some next) :
    OutboxSound sha256 isEventKey next := by
  unfold OutboxWorld.deliver at hstep
  cases hphase : call.phase with
  | delivered k event => simp [hphase] at hstep
  | failed k row => simp [hphase] at hstep
  | ended => simp [hphase] at hstep
  | claimed k row =>
      rw [hphase] at hstep
      have hlocked := h.locked i call hcall
      rw [hphase] at hlocked
      have hheld : call.phase.held = some k := by rw [hphase]; rfl
      have hkeep : ∀ k', some k = some k' → call.phase.held = some k' := fun k' hk => hheld.trans hk
      have hanswer : ∀ {audit : AuditDatabase} {event : AuditEventRow},
          emitAlone sha256 hashtext ⟨row.outboxRowToEvent call.workerId, id, createdAt⟩ s.audit =
            .ok (audit, event) →
          OutboxSound sha256 isEventKey { s.setPhase i call (.delivered k event) with audit } ∧
            OutboxSound sha256 isEventKey { s.setPhase i call (.failed k row) with
              audit, unanswered := s.unanswered ++ [k] } := by
        intro audit event hemit
        have hlogged := h.delivered hcall hphase hemit
        refine ⟨hlogged.setPhase hcall ⟨row, hlocked⟩ hkeep, ?_⟩
        exact (hlogged.unanswer k).setPhase hcall
          ⟨hlocked.1, hlocked.2, fun _ => List.mem_append_right _ List.mem_cons_self⟩ hkeep
      have hrefuse : ∀ {error : EmitError},
          emitAlone sha256 hashtext ⟨row.outboxRowToEvent call.workerId, id, createdAt⟩ s.audit =
            .error error →
          OutboxSound sha256 isEventKey { s.setPhase i call (.failed k row) with
            refused := if isConflict error then s.refused ++ [k] else s.refused } := by
        intro error herror
        have hkey := h.not_hasKey hcall hphase hcareful herror
        rw [not_isConflict hkey herror]
        exact h.setPhase hcall ⟨hlocked.1, hlocked.2, fun hhas => absurd hhas hkey⟩ hkeep
      dsimp only at hstep
      cases ending with
      | unreached =>
          cases hstep
          exact (h.unanswer k).setPhase hcall
            ⟨hlocked.1, hlocked.2, fun _ => List.mem_append_right _ List.mem_cons_self⟩ hkeep
      | answered =>
          dsimp only at hstep
          split at hstep
          · rename_i error herror
            cases hstep
            exact hrefuse herror
          · rename_i audit event hemit
            cases hstep
            exact (hanswer hemit).1
      | lost =>
          dsimp only at hstep
          split at hstep
          · rename_i error herror
            cases hstep
            exact hrefuse herror
          · rename_i audit event hemit
            cases hstep
            exact (hanswer hemit).2

/-- A transaction writes the row it has locked and ends. -/
theorem finish (h : OutboxSound sha256 isEventKey s) (hcall : s.calls[i]? = some call)
    (hheld : call.phase.held = some k) {f : AuditOutboxRow → AuditOutboxRow}
    (hintent : ∀ row, (f row).toAuditIntent = row.toAuditIntent)
    (hexhausted : ∀ row, s.rows[k]? = some row → (f row).status = .exhausted →
      s.audit.HasKey row.tenantId row.eventKey → k ∈ s.unanswered) :
    OutboxSound sha256 isEventKey
      { s.setPhase i call .ended with rows := s.rows.modify k f } := by
  have hended : OutboxSound sha256 isEventKey (s.setPhase i call .ended) :=
    h.setPhase hcall trivial nofun
  refine hended.rewrite ?_ ?_ ?_
  · refine List.ext_getElem? fun m => ?_
    rw [List.getElem?_map, List.getElem?_map, List.getElem?_modify]
    change _ = Option.map _ s.rows[m]?
    cases s.rows[m]? with
    | none => rfl
    | some row =>
        split
        · exact congrArg some (hintent row)
        · rfl
  · intro j other k' hother hheld'
    rcases set_cases hcall hother with ⟨-, rfl⟩ | ⟨hne, hother⟩
    · cases hheld'
    · have hplace : k ≠ k' := by
        rintro rfl
        exact hne (h.lone j i other call k hother hcall hheld' hheld)
      exact List.getElem?_modify_ne f s.rows hplace
  · intro m row hrow hstatus hkey
    rw [List.getElem?_modify] at hrow
    obtain ⟨old, hold, rfl⟩ := Option.map_eq_some_iff.mp hrow
    by_cases hplace : k = m
    · subst hplace
      rw [if_pos rfl] at hstatus hkey
      rw [hintent] at hkey
      exact hexhausted old hold hstatus hkey
    · rw [if_neg hplace] at hstatus hkey
      exact h.exhausted m old hold hstatus hkey

theorem markPublished (h : OutboxSound sha256 isEventKey s) (hcall : s.calls[i]? = some call)
    (hstep : s.markPublished i call = some next) : OutboxSound sha256 isEventKey next := by
  unfold OutboxWorld.markPublished at hstep
  cases hphase : call.phase with
  | delivered k event =>
      rw [hphase] at hstep
      cases hstep
      exact h.finish hcall (by rw [hphase]; rfl) (fun _ => rfl) fun _ _ hstatus => nomatch hstatus
  | claimed k row => simp [hphase] at hstep
  | failed k row => simp [hphase] at hstep
  | ended => simp [hphase] at hstep

theorem markFailed (h : OutboxSound sha256 isEventKey s) (hcall : s.calls[i]? = some call)
    (hstep : s.markFailed i call = some next) : OutboxSound sha256 isEventKey next := by
  unfold OutboxWorld.markFailed at hstep
  cases hphase : call.phase with
  | failed k read =>
      rw [hphase] at hstep
      cases hstep
      have hlocked := h.locked i call hcall
      rw [hphase] at hlocked
      refine h.finish hcall (by rw [hphase]; rfl) (fun row => ?_) fun row hrow _ hkey => ?_
      · split <;> rfl
      · rw [hlocked.1] at hrow
        cases hrow
        exact hlocked.2.2 hkey
  | claimed k row => simp [hphase] at hstep
  | delivered k event => simp [hphase] at hstep
  | ended => simp [hphase] at hstep

theorem requeue (h : OutboxSound sha256 isEventKey s) (ks : List Nat) :
    OutboxSound sha256 isEventKey { s with rows := s.requeued ks } := by
  have hplace : ∀ m, (s.requeued ks)[m]? = s.rows[m]?.map fun row =>
      if m ∈ ks ∧ row.status = .exhausted then { row with status := .pending, attempts := 0 }
      else row := fun m => List.getElem?_mapIdx
  refine h.rewrite ?_ ?_ ?_
  · refine List.ext_getElem? fun m => ?_
    rw [List.getElem?_map, List.getElem?_map, hplace]
    cases s.rows[m]? with
    | none => rfl
    | some row =>
        rw [Option.map_some, Option.map_some, Option.map_some]
        split <;> rfl
  · intro i call k hcall hheld
    obtain ⟨row, hrow, hpending⟩ := (h.locked i call hcall).pending hheld
    rw [hplace, hrow, Option.map_some, if_neg]
    rintro ⟨-, hexhausted⟩
    rw [hpending] at hexhausted
    cases hexhausted
  · intro m row hrow hstatus hkey
    rw [hplace] at hrow
    obtain ⟨old, hold, rfl⟩ := Option.map_eq_some_iff.mp hrow
    split at hstatus
    · cases hstatus
    · rename_i hnone
      rw [if_neg hnone] at hkey
      exact h.exhausted m old hold hstatus hkey

theorem step (h : OutboxSound sha256 isEventKey s) {label : OutboxLabel}
    (hcareful : Careful s label)
    (hstep : s.step sha256 hashtext isEventKey label = some next) :
    OutboxSound sha256 isEventKey next := by
  cases label with
  | transition inputs =>
      rw [OutboxWorld.step] at hstep
      split at hstep
      · rename_i hours
        obtain ⟨rows, hrows, rfl⟩ := Option.map_eq_some_iff.mp hstep
        exact h.enqueue hours hrows
      · cases hstep
  | deleteTenant deletion =>
      rw [OutboxWorld.step] at hstep
      split at hstep
      · rename_i hours
        obtain ⟨rows, hrows, rfl⟩ := Option.map_eq_some_iff.mp hstep
        have henqueued := h.enqueue hours hrows
        exact ⟨henqueued.keys, henqueued.ours, henqueued.unique, henqueued.written, henqueued.lone,
          henqueued.locked, henqueued.refused, henqueued.exhausted⟩
      · cases hstep
  | emitBestEffort j id createdAt ending =>
      obtain ⟨events, hevents, hstep⟩ := Option.bind_eq_some_iff.mp hstep
      exact h.emitBestEffort hevents hcareful hstep
  | serviceStops j =>
      cases hstep
      exact ⟨h.keys, h.ours, h.unique, h.written, h.lone, h.locked, h.refused, h.exhausted⟩
  | claim workerId maxAttempts k => exact h.claim hstep
  | deliver i id createdAt ending =>
      obtain ⟨call, hcall, hstep⟩ := Option.bind_eq_some_iff.mp hstep
      exact h.deliver hcall hcareful hstep
  | markPublished i =>
      obtain ⟨call, hcall, hstep⟩ := Option.bind_eq_some_iff.mp hstep
      exact h.markPublished hcall hstep
  | markFailed i =>
      obtain ⟨call, hcall, hstep⟩ := Option.bind_eq_some_iff.mp hstep
      exact h.markFailed hcall hstep
  | rollback i =>
      obtain ⟨call, hcall, hstep⟩ := Option.bind_eq_some_iff.mp hstep
      cases hstep
      exact h.setPhase hcall trivial nofun
  | replay ks inputs =>
      rw [OutboxWorld.step] at hstep
      split at hstep
      · rename_i hours
        obtain ⟨rows, hrows, rfl⟩ := Option.map_eq_some_iff.mp hstep
        exact (h.requeue ks).enqueue hours hrows
      · cases hstep
  | otherEmit emitting =>
      rw [OutboxWorld.step] at hstep
      split at hstep
      · cases hstep
      · rename_i hother
        cases hstep
        exact h.logged (eq_false_of_ne_true hother)

end OutboxSound

/-! ## Every run -/

/-- What the outbox promises: a key has one event, no delivery is refused, and a row with an event
is exhausted only after a delivery of it has got no answer. -/
structure Delivered (isEventKey : String → Bool) (s : OutboxWorld) : Prop where
  once : ∀ key, isEventKey key = true →
    (s.audit.events.countP fun event => event.idempotencyKey = some key) ≤ 1
  unrefused : s.refused = []
  published : ∀ (k : Nat) (row : AuditOutboxRow), s.rows[k]? = some row →
    s.audit.HasKey row.tenantId row.eventKey → row.status = .exhausted → k ∈ s.unanswered

/-- What holds of at most one member of a list is counted at most once. -/
theorem countP_le_one {α : Type} {p : α → Bool} {items : List α}
    (h : items.Pairwise fun first second => p first = true → p second = true → False) :
    items.countP p ≤ 1 := by
  induction h with
  | nil => exact Nat.zero_le _
  | @cons first rest hfirst _ ih =>
      rw [List.countP_cons]
      split
      · rename_i hp
        have hnone : rest.countP p = 0 :=
          List.countP_eq_zero.mpr fun second hmem hsecond => hfirst second hmem hp hsecond
        rw [hnone]
      · exact ih

namespace OutboxSound

theorem once (h : OutboxSound sha256 isEventKey s) (hours : isEventKey key = true) :
    (s.audit.events.countP fun event => event.idempotencyKey = some key) ≤ 1 := by
  refine countP_le_one (h.unique.imp_of_mem fun {first second} hfirst hsecond hnone hkey hkey' => ?_)
  rw [decide_eq_true_eq] at hkey hkey'
  obtain ⟨row, hrow, hname, hwritten⟩ := h.written first hfirst key hkey hours
  obtain ⟨other, hother, hname', hwritten'⟩ := h.written second hsecond key hkey' hours
  obtain ⟨k, hk⟩ := List.mem_iff_getElem?.mp hrow
  obtain ⟨j, hj⟩ := List.mem_iff_getElem?.mp hother
  obtain rfl := h.place_eq hk hj (hname.trans hname'.symm)
  rw [hk] at hj
  cases hj
  obtain ⟨-, hclash⟩ := uniqueClash_eq_none.mp hnone
  obtain ⟨-, hdiffer, -⟩ := hclash (hwritten.tenant_eq.trans hwritten'.tenant_eq.symm)
  exact hdiffer (by rw [hkey]; rfl) (hkey.trans hkey'.symm)

theorem delivered_of_sound (h : OutboxSound sha256 isEventKey s) : Delivered isEventKey s :=
  ⟨fun _ => h.once, h.refused, fun k row hrow hkey hstatus => h.exhausted k row hrow hstatus hkey⟩

end OutboxSound

theorem sound_start : OutboxSound sha256 isEventKey {} where
  keys := List.nodup_nil
  ours _ hmem := nomatch hmem
  unique := List.Pairwise.nil
  written _ hmem := nomatch hmem
  lone _ _ _ _ _ hcall := nomatch hcall
  locked _ _ hcall := nomatch hcall
  refused := rfl
  exhausted _ _ hrow := nomatch hrow

/-- In every run whose steps are careful, audit intents are delivered without conflict. -/
theorem delivered_of_meets {labels : List OutboxLabel}
    (hmeets : (outboxMachine sha256 hashtext isEventKey).Meets Careful {} labels)
    (hrun : (outboxMachine sha256 hashtext isEventKey).run {} labels = some s) :
    Delivered isEventKey s :=
  ((outboxMachine sha256 hashtext isEventKey).invariant_of_meets
    (fun _ _ _ hcareful h hstep => h.step hcareful hstep) sound_start hmeets hrun).delivered_of_sound

/-! ## Deliveries that are made again -/

/-- A check of a step that is enough for it to be careful. -/
def carefulStep (s : OutboxWorld) : OutboxLabel → Bool
  | .emitBestEffort _ _ _ .unreached => true
  | .emitBestEffort _ _ _ _ => false
  | .deliver i _ _ _ => s.calls[i]?.all fun call => match call.phase with
      | .claimed _ row => row.actor.isSome || s.audit.events.all fun event =>
          event.idempotencyKey ≠ some row.eventKey || event.actor = call.workerId
      | _ => true
  | _ => true

theorem careful_of_check {label : OutboxLabel} (h : carefulStep s label = true) :
    Careful s label := by
  cases label with
  | emitBestEffort j id createdAt ending =>
      cases ending with
      | unreached => exact .inl rfl
      | answered => cases h
      | lost => cases h
  | deliver i id createdAt ending =>
      intro call k row hcall hphase hnone event hmem _ hname
      rw [carefulStep, hcall, Option.all_some, hphase] at h
      dsimp only at h
      rw [hnone, Option.isSome_none, Bool.false_or] at h
      have hevent := List.all_eq_true.mp h event hmem
      rw [Bool.or_eq_true, decide_eq_true_eq, decide_eq_true_eq] at hevent
      exact hevent.resolve_left (not_not.mpr hname)
  | transition inputs => trivial
  | deleteTenant deletion => trivial
  | serviceStops j => trivial
  | claim workerId maxAttempts k => trivial
  | markPublished i => trivial
  | markFailed i => trivial
  | rollback i => trivial
  | replay ks inputs => trivial
  | otherEmit emitting => trivial

def hashes : List Char → String := String.ofList

/-- The end of the purge of another tenant. -/
def purgeCompleted : AuditOutboxInput where
  jobId := some "tbp_2"
  tenantId := "tnt_2"
  action := "tenant_blob.purge_completed"
  payload := object [("deleted", count 4)]
  eventKey := "tbp_2:tenant_blob.purge_completed:0"

def noon : String := "2026-06-07T12:00:00.000Z"

/-- A worker crashes with the row it has claimed, and another one delivers it. -/
def deliversAgain : List OutboxLabel :=
  [.transition [purgeCompleted], .claim "worker_1" MAX_OUTBOX_PUBLISH_ATTEMPTS 0, .rollback 0,
    .claim "worker_2" MAX_OUTBOX_PUBLISH_ATTEMPTS 0, .deliver 1 "evt_1" noon .answered,
    .markPublished 1]

theorem deliversAgain_delivered : ∃ final,
    (outboxMachine hashes (fun _ => 0) fun _ => true).run {} deliversAgain = some final ∧
      (final.rows.map fun row => row.status) = [.published] ∧
      Delivered (fun _ => true) final := by
  have hstatuses : ((outboxMachine hashes (fun _ => 0) fun _ => true).run {} deliversAgain).map
      (fun final => final.rows.map fun row => row.status) = some [.published] := by
    decide +kernel
  have hchecked : (outboxMachine hashes (fun _ => 0) fun _ => true).check carefulStep {}
      deliversAgain = true := by
    decide +kernel
  have hmeets : (outboxMachine hashes (fun _ => 0) fun _ => true).Meets Careful {} deliversAgain :=
    Machine.Meets.mono _ (fun _ _ => careful_of_check) (Machine.meets_of_check _ hchecked)
  cases hrun : (outboxMachine hashes (fun _ => 0) fun _ => true).run {} deliversAgain with
  | none =>
      rw [hrun] at hstatuses
      cases hstatuses
  | some final =>
      rw [hrun] at hstatuses
      exact ⟨final, rfl, Option.some.inj hstatuses, delivered_of_meets hmeets hrun⟩

end BrainCore.Deletion
