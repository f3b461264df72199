import BrainCore.Audit.ChainLinearity

/-!
# One event for a key

What an emit with an idempotency key leaves in the log, and when it is refused:
only an event of the same key stands in its way.
-/

namespace BrainCore.Audit

open BrainCore.Foundation
open BrainCore.Foundation.Program

variable {sha256 : List Char → String} {hashtext : String → Int} {call : EmitCall}
  {db next : AuditDatabase} {row : AuditEventRow} {key : String}

/-- The event of a tenant and a key. -/
def AuditDatabase.HasKey (db : AuditDatabase) (tenantId key : String) : Prop :=
  ∃ row ∈ db.events, row.tenantId = tenantId ∧ row.idempotencyKey = some key

theorem auditEventRow_key {event : AuditEventInput} {id createdAt : String} {prev : Option String}
    (h : auditEventRow sha256 event id createdAt prev = .ok row) :
    row.idempotencyKey = event.idempotencyKey := by
  unfold auditEventRow at h
  obtain ⟨_, _, h⟩ := bind_ok.mp h
  obtain ⟨_, _, h⟩ := bind_ok.mp h
  obtain ⟨_, _, h⟩ := bind_ok.mp h
  obtain ⟨_, _, h⟩ := bind_ok.mp h
  cases h
  rfl

/-- What an emit leaves: the log as it was with an event of the key, or the log with one more. -/
inductive Emitted (call : EmitCall) (db next : AuditDatabase) (row : AuditEventRow) : Prop where
  | found (same : next = db) (stored : row ∈ db.events)
      (tenant : row.tenantId = call.event.tenantId)
      (key : row.idempotencyKey = call.event.idempotencyKey) : Emitted call db next row
  | appended (events : next.events = db.events ++ [row])
      (tenant : row.tenantId = call.event.tenantId)
      (key : row.idempotencyKey = call.event.idempotencyKey) : Emitted call db next row

theorem Appends.emitted (h : Appends sha256 call.normalized db next row) :
    Emitted call db next row := by
  refine .appended ?_ h.tenant (auditEventRow_key h.stored)
  rw [h.next]
  rfl

theorem emitted_of_emit (h : (emit sha256 hashtext call).runAlone auditStore db = .ok (next, row)) :
    Emitted call db next row := by
  obtain ⟨_, _, hlock, hrest⟩ := (runAlone_statement auditStore).mp h
  cases hlock
  change (emitLookUp sha256 call.normalized).runAlone auditStore db = .ok (next, row) at hrest
  unfold emitLookUp at hrest
  split at hrest
  · exact (ensureHead_alone hrest).emitted
  · rename_i key hkey
    obtain ⟨new, found, hfound, hrest⟩ := (runAlone_statement auditStore).mp hrest
    obtain ⟨rfl, hsearch⟩ := findEmitted_ok hfound
    cases found with
    | none => exact (ensureHead_alone hrest).emitted
    | some hit =>
        cases hrest
        have hhit := List.find?_some hsearch.symm
        rw [decide_eq_true_eq] at hhit
        exact .found rfl (List.mem_of_find?_eq_some hsearch.symm) hhit.1 (hhit.2.trans hkey.symm)

namespace Emitted

/-- The event is in the log afterwards. -/
theorem mem (h : Emitted call db next row) : row ∈ next.events := by
  cases h with
  | found hsame hstored => exact hsame ▸ hstored
  | appended hevents =>
      rw [hevents]
      exact List.mem_append_right _ List.mem_cons_self

/-- What was in the log stays. -/
theorem kept (h : Emitted call db next row) {other : AuditEventRow} (hmem : other ∈ db.events) :
    other ∈ next.events := by
  cases h with
  | found hsame => exact hsame ▸ hmem
  | appended hevents =>
      rw [hevents]
      exact List.mem_append_left _ hmem

theorem tenant_eq (h : Emitted call db next row) : row.tenantId = call.event.tenantId := by
  cases h with
  | found _ _ htenant _ => exact htenant
  | appended _ htenant _ => exact htenant

theorem key_eq (h : Emitted call db next row) : row.idempotencyKey = call.event.idempotencyKey := by
  cases h with
  | found _ _ _ hkey => exact hkey
  | appended _ _ hkey => exact hkey

theorem mem_or_new (h : Emitted call db next row) {other : AuditEventRow}
    (hmem : other ∈ next.events) : other ∈ db.events ∨ other = row := by
  cases h with
  | found hsame => exact .inl (hsame ▸ hmem)
  | appended hevents =>
      rw [hevents, List.mem_append, List.mem_singleton] at hmem
      exact hmem

end Emitted

/-! ## Refusals -/

/-- An error that is no conflict of keys. -/
def EmitError.Plain : EmitError → Prop
  | .auditIdempotencyConflict _ _ => False
  | .typeError _ | .notNullViolation _ | .uniqueViolation _ | .checkViolation _
  | .auditHashVersionUnsupported _ _ _ | .auditChainHeadUnavailable _ => True

/-- Every error of a result is plain. -/
def PlainErrors {α : Type} (result : Except EmitError α) : Prop :=
  ∀ error, result = .error error → error.Plain

theorem PlainErrors.bind {α β : Type} {result : Except EmitError α} {rest : α → Except EmitError β}
    (h : PlainErrors result) (hrest : ∀ value, PlainErrors (rest value)) :
    PlainErrors (result >>= rest) := by
  intro error herror
  cases result with
  | error other =>
      cases herror
      exact h error rfl
  | ok value => exact hrest value error herror

theorem plainErrors_ok {α : Type} (value : α) : PlainErrors (.ok value) := by
  intro error herror
  cases herror

theorem plainErrors_jsonColumn (data : JsData) : PlainErrors (jsonColumn data) := by
  intro error herror
  unfold jsonColumn at herror
  split at herror
  · cases herror
  · cases herror
    trivial

theorem plainErrors_requiredColumn (column : String) (data : JsData) :
    PlainErrors (requiredColumn column data) := by
  refine (plainErrors_jsonColumn data).bind fun value => ?_
  intro error herror
  cases value with
  | none =>
      cases herror
      trivial
  | some value => cases herror

theorem plainErrors_auditEventRow (event : AuditEventInput) (id createdAt : String)
    (prev : Option String) : PlainErrors (auditEventRow sha256 event id createdAt prev) := by
  refine (plainErrors_requiredColumn _ _).bind fun inputs => ?_
  refine (plainErrors_requiredColumn _ _).bind fun outputs => ?_
  refine (plainErrors_jsonColumn _).bind fun beforeState => ?_
  refine (plainErrors_jsonColumn _).bind fun afterState => ?_
  exact plainErrors_ok _

theorem plainErrors_insertAuditEvent (db : AuditDatabase) (row : AuditEventRow) :
    PlainErrors (insertAuditEvent db row) := by
  intro error herror
  unfold insertAuditEvent at herror
  split at herror
  · cases herror
    trivial
  · unfold advanceAuditChainHead initialHead at herror
    split at herror
    · split at herror
      · cases herror
      · cases herror
        trivial
    · dsimp only at herror
      split at herror
      · split at herror
        · cases herror
          trivial
        · cases herror
      · split at herror
        · cases herror
          trivial
        · cases herror

/-- A program that runs alone fails where its first statement or the rest of it does. -/
theorem plainErrors_statement {α : Type}
    {run : AuditDatabase → Except EmitError (List AuditWrite × α)} {rest : α → EmitProgram}
    {db : AuditDatabase} (h : PlainErrors (run db))
    (hrest : ∀ new value, run db = .ok (new, value) →
      PlainErrors ((rest value).runAlone auditStore (auditStore.view db new))) :
    PlainErrors ((Program.statement run rest).runAlone auditStore db) := by
  intro error herror
  rw [runAlone] at herror
  split at herror
  · rename_i other hother
    cases herror
    exact h error hother
  · rename_i new value hvalue
    exact hrest new value hvalue error herror

theorem plainErrors_ensureHead (db : AuditDatabase) :
    PlainErrors ((emitEnsureHead sha256 call).runAlone auditStore db) := by
  refine plainErrors_statement ?_ fun new value hhead => ?_
  · intro error herror
    split at herror <;> cases herror
  · refine plainErrors_statement ?_ fun read head hread => ?_
    · intro error herror
      split at herror
      · cases herror
        trivial
      · cases herror
    · refine plainErrors_statement ?_ fun inserted row hrow => plainErrors_ok _
      exact (plainErrors_auditEventRow _ _ _ _).bind fun row => plainErrors_insertAuditEvent _ row

/-- An emit is refused for its key only by an event of the key. -/
theorem hasKey_of_conflict {tenantId : String}
    (h : (emit sha256 hashtext call).runAlone auditStore db =
      .error (.auditIdempotencyConflict tenantId key)) :
    ∃ name, call.event.idempotencyKey = some name ∧ db.HasKey call.event.tenantId name := by
  change (emitLookUp sha256 call.normalized).runAlone auditStore db = _ at h
  unfold emitLookUp at h
  split at h
  · exact (plainErrors_ensureHead db _ h).elim
  · rename_i name hname
    refine ⟨name, hname, ?_⟩
    cases hfind : db.events.find? fun row =>
        row.tenantId = call.normalized.event.tenantId ∧ row.idempotencyKey = some name with
    | some hit =>
        have hhit := List.find?_some hfind
        rw [decide_eq_true_eq] at hhit
        exact ⟨hit, List.mem_of_find?_eq_some hfind, hhit.1, hhit.2⟩
    | none =>
        have hfound : findEmitted sha256 call.normalized name db = .ok ([], none) := by
          unfold findEmitted
          rw [hfind]
        rw [runAlone, hfound] at h
        exact (plainErrors_ensureHead _ _ h).elim

/-- An emit is refused when the first event of its key was written for another. -/
theorem refused_of_conflicts {hit : AuditEventRow} (hname : call.event.idempotencyKey = some key)
    (hfind : (db.events.find? fun row =>
      row.tenantId = call.event.tenantId ∧ row.idempotencyKey = some key) = some hit)
    (hconflict : conflicts sha256 call.normalized.event key hit = .ok true) :
    (emit sha256 hashtext call).runAlone auditStore db =
      .error (.auditIdempotencyConflict call.event.tenantId key) := by
  have hfirst : (db.events.find? fun row =>
      row.tenantId = call.normalized.event.tenantId ∧ row.idempotencyKey = some key) = some hit :=
    hfind
  have hfound : findEmitted sha256 call.normalized key db =
      .error (.auditIdempotencyConflict call.event.tenantId key) := by
    unfold findEmitted
    rw [hfirst]
    dsimp only
    rw [hconflict]
    rfl
  obtain ⟨rest, hrest⟩ : ∃ rest, emitLookUp sha256 call.normalized =
      .statement (findEmitted sha256 call.normalized key) rest := by
    have hkey : call.normalized.event.idempotencyKey = some key := hname
    unfold emitLookUp
    rw [hkey]
    exact ⟨_, rfl⟩
  change (emitLookUp sha256 call.normalized).runAlone auditStore db = _
  rw [hrest, runAlone, hfound]

/-! ## Emits again -/

/-- The row that is written for an event. -/
theorem auditEventRow_fields {event : AuditEventInput} {id createdAt : String}
    {prev : Option String} (h : auditEventRow sha256 event id createdAt prev = .ok row) :
    row.tenantId = event.tenantId ∧ row.actor = event.actor ∧
      row.hashSchemaVersion = AUDIT_HASH_SCHEMA_VERSION ∧
      row.eventHash = hashEvent sha256
        { event, id := row.id, createdAt := row.createdAt, prevEventHash := row.prevEventHash } := by
  unfold auditEventRow at h
  obtain ⟨_, _, h⟩ := bind_ok.mp h
  obtain ⟨_, _, h⟩ := bind_ok.mp h
  obtain ⟨_, _, h⟩ := bind_ok.mp h
  obtain ⟨_, _, h⟩ := bind_ok.mp h
  cases h
  exact ⟨rfl, rfl, rfl, rfl⟩

/-- No index has two events. -/
def AuditDatabase.UniqueEvents (db : AuditDatabase) : Prop :=
  db.events.Pairwise fun event other => uniqueClash event other = none

theorem AuditDatabase.UniqueEvents.emit (h : db.UniqueEvents)
    (hemit : (emit sha256 hashtext call).runAlone auditStore db = .ok (next, row)) :
    next.UniqueEvents := by
  rcases emit_alone hemit with rfl | happends
  · exact h
  · rw [happends.next]
    refine List.pairwise_append.mpr ⟨h, List.pairwise_singleton _ _, fun other hother last hlast => ?_⟩
    rw [List.mem_singleton.mp hlast]
    exact uniqueClash_symm (happends.unique other hother)

/-- An emit changes nothing when there is an event of its key. -/
theorem eq_of_hasKey (hname : call.event.idempotencyKey = some key)
    (hkey : db.HasKey call.event.tenantId key)
    (h : (emit sha256 hashtext call).runAlone auditStore db = .ok (next, row)) : next = db := by
  rcases emit_alone h with hsame | happends
  · exact hsame
  · obtain ⟨hit, hmem, htenant, hhit⟩ := hkey
    have hrow : row.idempotencyKey = some key := (auditEventRow_key happends.stored).trans hname
    obtain ⟨-, hclash⟩ := uniqueClash_eq_none.mp (happends.unique hit hmem)
    obtain ⟨-, hother, -⟩ := hclash (happends.tenant.trans htenant.symm)
    exact absurd (hrow.trans hhit.symm) (hother (by rw [hrow]; rfl))

/-- An emit for an event that is in the log returns it. -/
theorem emit_of_written {hit : AuditEventRow} (hname : call.event.idempotencyKey = some key)
    (hfind : (db.events.find? fun row =>
      row.tenantId = call.event.tenantId ∧ row.idempotencyKey = some key) = some hit)
    {id createdAt : String} {prev : Option String}
    (hwritten : auditEventRow sha256 call.normalized.event id createdAt prev = .ok hit) :
    (emit sha256 hashtext call).runAlone auditStore db = .ok (db, hit) := by
  obtain ⟨-, -, hversion, hhash⟩ := auditEventRow_fields hwritten
  have hsame : conflicts sha256 call.normalized.event key hit = .ok false := by
    rw [conflicts, if_pos hversion]
    exact congrArg Except.ok (bne_eq_false_iff_eq.mpr hhash.symm)
  have hfound : findEmitted sha256 call.normalized key db = .ok ([], some hit) := by
    have hfirst : (db.events.find? fun row =>
        row.tenantId = call.normalized.event.tenantId ∧ row.idempotencyKey = some key) = some hit :=
      hfind
    unfold findEmitted
    rw [hfirst]
    dsimp only
    rw [hsame]
    rfl
  have hkey : call.normalized.event.idempotencyKey = some key := hname
  change (emitLookUp sha256 call.normalized).runAlone auditStore db = _
  unfold emitLookUp
  rw [hkey]
  dsimp only
  rw [runAlone, hfound]
  rfl

end BrainCore.Audit
