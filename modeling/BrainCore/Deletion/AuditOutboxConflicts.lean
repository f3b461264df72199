import BrainCore.Deletion.AuditOutboxSafety

/-!
# Deliveries that are refused

The deletion service emits its events without the key that the outbox adds to
their inputs.  An event that it has written first stands in the way of the row:
whoever delivers the row afterwards is refused, in every run.
-/

namespace BrainCore.Deletion

open BrainCore.Foundation BrainCore.Audit

variable {sha256 : List Char → String} {hashtext : String → Int} {isEventKey : String → Bool}
  {s next : OutboxWorld} {i j k : Nat} {call : PublishCall} {phase : PublishPhase}
  {row : AuditOutboxRow} {event : AuditEventRow} {db : AuditDatabase} {key : String}

/-- An event of the same key with other inputs or another actor stands in the way. -/
theorem refused_of_differs (hsha : Function.Injective sha256) {emitting : EmitCall}
    {stored : AuditEventInput} {id createdAt : String} {prev : Option String}
    (hname : emitting.event.idempotencyKey = some key)
    (hfind : (db.events.find? fun other =>
      other.tenantId = emitting.event.tenantId ∧ other.idempotencyKey = some key) = some event)
    (hstored : auditEventRow sha256 stored id createdAt prev = .ok event)
    (hdiffers : stored.inputs.value.stableJsonValue ≠ emitting.event.inputs.value.stableJsonValue) :
    emitAlone sha256 hashtext emitting db =
      .error (.auditIdempotencyConflict emitting.event.tenantId key) := by
  obtain ⟨-, -, hversion, hhash⟩ := auditEventRow_fields hstored
  refine refused_of_conflicts hname hfind ?_
  rw [conflicts, if_pos hversion, hhash]
  refine congrArg Except.ok (bne_iff_ne.mpr fun hsame => hdiffers ?_)
  exact (values_of_canonicalize (hsha hsame)).1.symm

/-- Objects of one stable form have the same names. -/
theorem mem_of_stable {members others : List (String × JsValue)} {name : String}
    (h : (JsValue.obj members).stableJsonValue = (JsValue.obj others).stableJsonValue)
    (hmem : name ∈ members.map Prod.fst) (hproto : name ≠ JsValue.protoName) :
    name ∈ others.map Prod.fst := by
  have hsorted : sortNames (JsValue.stableMembers members) =
      sortNames (JsValue.stableMembers others) := Json.obj.inj h
  have hnames : (JsValue.stableMembers members).Perm (JsValue.stableMembers others) :=
    (sortNames_perm _).symm.trans ((List.Perm.of_eq hsorted).trans (sortNames_perm _))
  refine (JsValue.stableMembers_names others).subset ((hnames.map Prod.fst).mem_iff.mp ?_)
  clear h hsorted hnames
  induction members with
  | nil => cases hmem
  | cons member rest ih =>
      obtain ⟨first, value⟩ := member
      rw [JsValue.stableMembers]
      rcases List.mem_cons.mp hmem with hfirst | hrest
      · subst hfirst
        rw [if_neg hproto]
        exact List.mem_cons_self
      · split
        · exact ih hrest
        · exact List.mem_cons_of_mem _ (ih hrest)

/-- The event of a row names the key of the row, and that of the service does not. -/
theorem requestInputs_differ (deletion : TenantDeletion) (intent : AuditIntent) :
    deletion.requestInputs.value.stableJsonValue ≠ intent.eventInputs.value.stableJsonValue := by
  intro hsame
  have hnamed : ∀ before : List (String × JsData), "event_key" ∈
      (assign before ("event_key", text intent.eventKey)).map fun member => member.1 := by
    intro before
    unfold assign
    rw [List.map_append]
    exact List.mem_append_right _ List.mem_cons_self
  have hmem : "event_key" ∈ [("tenant_id", JsValue.str deletion.targetTenantId),
      ("requested_by", JsValue.str deletion.actor)].map Prod.fst := by
    refine mem_of_stable hsame.symm ?_ (by decide)
    rw [List.map_map, List.foldl_append]
    exact hnamed _
  simp at hmem

theorem emitted_inputs {deletion : TenantDeletion} {emitted : AuditEventInput}
    (h : emitted ∈ deletion.emitted) : emitted.inputs = deletion.requestInputs := by
  unfold TenantDeletion.emitted at h
  rcases List.mem_cons.mp h with rfl | h
  · rfl
  · split at h
    · cases h
    · rw [List.mem_singleton.mp h]

/-! ## What a step can do -/

/-- The rows keep their places and their intents, and are published only where it is allowed. -/
structure KeepsRows (mayPublish : Nat → Prop) (rows next : List AuditOutboxRow) : Prop where
  kept : ∀ (k : Nat) (row : AuditOutboxRow), rows[k]? = some row → ∃ last, next[k]? = some last ∧
    last.toAuditIntent = row.toAuditIntent ∧
      (last.status = .published → row.status = .published ∨ mayPublish k)
  fresh : ∀ (k : Nat) (row : AuditOutboxRow), rows[k]? = none → next[k]? = some row →
    row.status = .published → mayPublish k

namespace KeepsRows

variable {mayPublish : Nat → Prop} {rows between after : List AuditOutboxRow}

theorem refl (rows : List AuditOutboxRow) : KeepsRows mayPublish rows rows where
  kept k row hrow := ⟨row, hrow, rfl, .inl⟩
  fresh k row hnone hrow := by
    rw [hnone] at hrow
    cases hrow

theorem trans (h : KeepsRows mayPublish rows between) (hafter : KeepsRows mayPublish between after) :
    KeepsRows mayPublish rows after where
  kept k row hrow := by
    obtain ⟨middle, hmiddle, hintent, hstatus⟩ := h.kept k row hrow
    obtain ⟨last, hlast, hsame, hend⟩ := hafter.kept k middle hmiddle
    exact ⟨last, hlast, hsame.trans hintent, fun hpublished => (hend hpublished).elim hstatus .inr⟩
  fresh k row hnone hrow hpublished := by
    cases hmiddle : between[k]? with
    | none => exact hafter.fresh k row hmiddle hrow hpublished
    | some middle =>
        obtain ⟨last, hlast, -, hend⟩ := hafter.kept k middle hmiddle
        rw [hrow] at hlast
        cases hlast
        exact (hend hpublished).elim (h.fresh k middle hnone hmiddle) id

theorem insertIntent (rows : List AuditOutboxRow) (intent : AuditIntent) :
    KeepsRows mayPublish rows (Deletion.insertIntent rows intent) := by
  unfold Deletion.insertIntent
  split
  · exact refl rows
  · refine ⟨fun k row hrow => ⟨row, snoc_other hrow, rfl, .inl⟩, fun k row hnone hrow hpublished => ?_⟩
    rcases snoc_cases hrow with ⟨-, rfl⟩ | hold
    · cases hpublished
    · rw [hnone] at hold
      cases hold

theorem enqueue {inputs : List AuditOutboxInput} (h : enqueueAuditOutbox rows inputs = some after) :
    KeepsRows mayPublish rows after := by
  obtain ⟨intents, -, rfl⟩ := Option.map_eq_some_iff.mp h
  clear h
  induction intents generalizing rows with
  | nil => exact refl rows
  | cons intent intents ih => exact (insertIntent rows intent).trans ih

/-- Each row is rewritten where it is. -/
theorem rewrite (hlength : after.length = rows.length)
    (h : ∀ (k : Nat) (row : AuditOutboxRow), rows[k]? = some row → ∃ last, after[k]? = some last ∧
      last.toAuditIntent = row.toAuditIntent ∧
        (last.status = .published → row.status = .published ∨ mayPublish k)) :
    KeepsRows mayPublish rows after where
  kept := h
  fresh k row hnone hrow := by
    rw [List.getElem?_eq_none_iff, ← hlength, ← List.getElem?_eq_none_iff, hrow] at hnone
    cases hnone

theorem modify {f : AuditOutboxRow → AuditOutboxRow}
    (hintent : ∀ row, (f row).toAuditIntent = row.toAuditIntent)
    (hstatus : ∀ row, (f row).status = .published → row.status = .published ∨ mayPublish j) :
    KeepsRows mayPublish rows (rows.modify j f) := by
  refine rewrite (List.length_modify f rows j) fun k row hrow => ?_
  by_cases hplace : j = k
  · subst hplace
    refine ⟨f row, ?_, hintent row, hstatus row⟩
    rw [List.getElem?_modify_eq, hrow]
    rfl
  · exact ⟨row, (List.getElem?_modify_ne f rows hplace).trans hrow, rfl, .inl⟩

theorem requeue (s : OutboxWorld) (ks : List Nat) : KeepsRows mayPublish s.rows (s.requeued ks) := by
  refine rewrite List.length_mapIdx fun k row hrow => ?_
  refine ⟨_, List.getElem?_mapIdx.trans (congrArg (Option.map _) hrow), ?_⟩
  dsimp only
  split
  · exact ⟨rfl, nofun⟩
  · exact ⟨rfl, .inl⟩

end KeepsRows

/-- Some delivery of the row at this place has been answered. -/
def Delivering (s : OutboxWorld) (k : Nat) : Prop :=
  ∃ call ∈ s.calls, ∃ event, call.phase = .delivered k event

/-- A phase that a call can be in after a step: one that some call was in, or one that claims a row
or ends a delivery. -/
inductive Reaches (sha256 : List Char → String) (hashtext : String → Int) (s t : OutboxWorld) :
    PublishPhase → Prop where
  | kept {call : PublishCall} {phase : PublishPhase} : call ∈ s.calls → call.phase = phase →
      Reaches sha256 hashtext s t phase
  | claimed {k : Nat} {row : AuditOutboxRow} : s.rows[k]? = some row →
      Reaches sha256 hashtext s t (.claimed k row)
  | delivered {call : PublishCall} {k : Nat} {row : AuditOutboxRow} {id createdAt : String}
      {event : AuditEventRow} : call ∈ s.calls → call.phase = .claimed k row →
      emitAlone sha256 hashtext ⟨row.outboxRowToEvent call.workerId, id, createdAt⟩ s.audit =
        .ok (t.audit, event) → Reaches sha256 hashtext s t (.delivered k event)
  | failed {k : Nat} {row : AuditOutboxRow} : Reaches sha256 hashtext s t (.failed k row)
  | ended : Reaches sha256 hashtext s t .ended

/-- What every step keeps, and what it may do. -/
structure Evolves (sha256 : List Char → String) (hashtext : String → Int) (s t : OutboxWorld) :
    Prop where
  rows : KeepsRows (Delivering s) s.rows t.rows
  log : ∃ more, t.audit.events = s.audit.events ++ more
  calls : ∀ call ∈ t.calls, Reaches sha256 hashtext s t call.phase
  deletions : ∀ events ∈ t.deletions, ∀ event ∈ events,
    (∃ old ∈ s.deletions, event ∈ old) ∨ ∃ deletion : TenantDeletion, event ∈ deletion.emitted

/-- Fewer events are left to emit. -/
theorem queued_of_set {events rest : List AuditEventInput} (hevents : s.deletions[j]? = some events)
    (hrest : rest ⊆ events) : ∀ later ∈ s.deletions.set j rest, ∀ event ∈ later,
      ∃ old ∈ s.deletions, event ∈ old := by
  intro later hlater event hmem
  rcases List.mem_or_eq_of_mem_set hlater with hold | rfl
  · exact ⟨later, hold, hmem⟩
  · exact ⟨events, List.mem_of_getElem? hevents, hrest hmem⟩

/-- A step that leaves the log and the calls alone. -/
theorem evolves_of_rows {t : OutboxWorld} (hrows : KeepsRows (Delivering s) s.rows t.rows)
    (haudit : t.audit = s.audit) (hcalls : t.calls = s.calls)
    (hdeletions : t.deletions = s.deletions) : Evolves sha256 hashtext s t where
  rows := hrows
  log := ⟨[], by rw [haudit, List.append_nil]⟩
  calls _ hmem := .kept (hcalls ▸ hmem) rfl
  deletions events hevents _ hmem := .inl ⟨events, hdeletions ▸ hevents, hmem⟩

/-- A step of one call. -/
theorem evolves_of_phase {t : OutboxWorld} (hrows : KeepsRows (Delivering s) s.rows t.rows)
    (hlog : ∃ more, t.audit.events = s.audit.events ++ more)
    (hcalls : t.calls = (s.setPhase i call phase).calls) (hdeletions : t.deletions = s.deletions)
    (hphase : Reaches sha256 hashtext s t phase) :
    Evolves sha256 hashtext s t where
  rows := hrows
  log := hlog
  calls other hmem := by
    rw [hcalls] at hmem
    rcases List.mem_or_eq_of_mem_set hmem with hold | rfl
    · exact .kept hold rfl
    · exact hphase
  deletions events hevents _ hmem := .inl ⟨events, hdeletions ▸ hevents, hmem⟩

theorem log_of_emit {emitting : EmitCall} {audit : AuditDatabase}
    (hemit : emitAlone sha256 hashtext emitting db = .ok (audit, event)) :
    ∃ more, audit.events = db.events ++ more := by
  rcases emit_alone hemit with rfl | happends
  · exact ⟨[], (List.append_nil _).symm⟩
  · exact ⟨[event], by rw [happends.next]; rfl⟩

theorem evolves_of_logged (emitting : EmitCall) {deletions : List (List AuditEventInput)}
    (hdeletions : ∀ events ∈ deletions, ∀ event ∈ events, ∃ old ∈ s.deletions, event ∈ old) :
    Evolves sha256 hashtext s (OutboxWorld.logged sha256 hashtext { s with deletions } emitting) := by
  unfold OutboxWorld.logged
  split
  · exact ⟨.refl _, ⟨[], (List.append_nil _).symm⟩, fun call hmem => .kept hmem rfl,
      fun events hevents event hmem => .inl (hdeletions events hevents event hmem)⟩
  · rename_i audit event hemit
    exact ⟨.refl _, log_of_emit hemit, fun call hmem => .kept hmem rfl,
      fun events hevents event hmem => .inl (hdeletions events hevents event hmem)⟩

theorem evolves_of_emitBestEffort {events : List AuditEventInput} {id createdAt : String}
    {ending : EmitEnd} (hevents : s.deletions[j]? = some events)
    (hstep : s.emitBestEffort sha256 hashtext j events id createdAt ending = some next) :
    Evolves sha256 hashtext s next := by
  unfold OutboxWorld.emitBestEffort at hstep
  cases events with
  | nil => cases hstep
  | cons first rest =>
      have hqueued := queued_of_set hevents (List.subset_cons_self first rest)
      cases ending with
      | unreached =>
          cases hstep
          exact ⟨.refl _, ⟨[], (List.append_nil _).symm⟩, fun call hmem => .kept hmem rfl,
            fun events hevents event hmem => .inl (hqueued events hevents event hmem)⟩
      | answered =>
          cases hstep
          exact evolves_of_logged _ hqueued
      | lost =>
          cases hstep
          exact evolves_of_logged _ hqueued

theorem evolves_of_claim {workerId : String} {maxAttempts : Nat}
    (hstep : s.claim workerId maxAttempts k = some next) : Evolves sha256 hashtext s next := by
  unfold OutboxWorld.claim at hstep
  obtain ⟨row, hrow, hstep⟩ := Option.bind_eq_some_iff.mp hstep
  split at hstep
  · cases hstep
    refine ⟨.refl _, ⟨[], (List.append_nil _).symm⟩, fun call hmem => ?_,
      fun events hevents _ hmem => .inl ⟨events, hevents, hmem⟩⟩
    rcases List.mem_append.mp hmem with hold | hlast
    · exact .kept hold rfl
    · rw [List.mem_singleton.mp hlast]
      exact .claimed hrow
  · cases hstep

theorem evolves_of_deliver (hcall : s.calls[i]? = some call) {id createdAt : String}
    {ending : EmitEnd} (hstep : s.deliver sha256 hashtext i call id createdAt ending = some next) :
    Evolves sha256 hashtext s next := by
  have hsame : ∃ more, s.audit.events = s.audit.events ++ more := ⟨[], (List.append_nil _).symm⟩
  unfold OutboxWorld.deliver at hstep
  cases hphase : call.phase with
  | delivered k' last => simp [hphase] at hstep
  | failed k' row => simp [hphase] at hstep
  | ended => simp [hphase] at hstep
  | claimed k' row =>
      rw [hphase] at hstep
      dsimp only at hstep
      cases ending with
      | unreached =>
          cases hstep
          exact evolves_of_phase (.refl _) hsame rfl rfl .failed
      | answered =>
          dsimp only at hstep
          split at hstep
          · cases hstep
            exact evolves_of_phase (.refl _) hsame rfl rfl .failed
          · rename_i audit event hemit
            cases hstep
            exact evolves_of_phase (.refl _) (log_of_emit hemit) rfl rfl
              (.delivered (List.mem_of_getElem? hcall) hphase hemit)
      | lost =>
          dsimp only at hstep
          split at hstep
          · cases hstep
            exact evolves_of_phase (.refl _) hsame rfl rfl .failed
          · rename_i audit event hemit
            cases hstep
            exact evolves_of_phase (.refl _) (log_of_emit hemit) rfl rfl .failed

theorem evolves_of_markPublished (hcall : s.calls[i]? = some call)
    (hstep : s.markPublished i call = some next) : Evolves sha256 hashtext s next := by
  unfold OutboxWorld.markPublished at hstep
  cases hphase : call.phase with
  | delivered k' event =>
      rw [hphase] at hstep
      cases hstep
      refine evolves_of_phase (KeepsRows.modify (fun _ => rfl) fun row _ => .inr ?_)
        ⟨[], (List.append_nil _).symm⟩ rfl rfl .ended
      exact ⟨call, List.mem_of_getElem? hcall, event, hphase⟩
  | claimed k' row => simp [hphase] at hstep
  | failed k' row => simp [hphase] at hstep
  | ended => simp [hphase] at hstep

theorem evolves_of_markFailed (hstep : s.markFailed i call = some next) :
    Evolves sha256 hashtext s next := by
  unfold OutboxWorld.markFailed at hstep
  cases hphase : call.phase with
  | failed k' read =>
      rw [hphase] at hstep
      cases hstep
      refine evolves_of_phase (KeepsRows.modify (fun row => ?_) fun row hpublished => ?_)
        ⟨[], (List.append_nil _).symm⟩ rfl rfl .ended
      · split <;> rfl
      · split at hpublished
        · cases hpublished
        · exact .inl hpublished
  | claimed k' row => simp [hphase] at hstep
  | delivered k' event => simp [hphase] at hstep
  | ended => simp [hphase] at hstep

theorem evolves_of_step {label : OutboxLabel}
    (hstep : s.step sha256 hashtext isEventKey label = some next) :
    Evolves sha256 hashtext s next := by
  cases label with
  | transition inputs =>
      rw [OutboxWorld.step] at hstep
      split at hstep
      · obtain ⟨rows, hrows, rfl⟩ := Option.map_eq_some_iff.mp hstep
        exact evolves_of_rows (.enqueue hrows) rfl rfl rfl
      · cases hstep
  | deleteTenant deletion =>
      rw [OutboxWorld.step] at hstep
      split at hstep
      · obtain ⟨rows, hrows, rfl⟩ := Option.map_eq_some_iff.mp hstep
        refine ⟨.enqueue hrows, ⟨[], (List.append_nil _).symm⟩, fun call hmem => .kept hmem rfl,
          fun events hevents event hmem => ?_⟩
        rcases List.mem_append.mp hevents with hold | hlast
        · exact .inl ⟨events, hold, hmem⟩
        · rw [List.mem_singleton.mp hlast] at hmem
          exact .inr ⟨deletion, hmem⟩
      · cases hstep
  | emitBestEffort j id createdAt ending =>
      obtain ⟨events, hevents, hstep⟩ := Option.bind_eq_some_iff.mp hstep
      exact evolves_of_emitBestEffort hevents hstep
  | serviceStops j =>
      cases hstep
      refine ⟨.refl _, ⟨[], (List.append_nil _).symm⟩, fun call hmem => .kept hmem rfl,
        fun events hevents event hmem => ?_⟩
      rcases List.mem_or_eq_of_mem_set hevents with hold | rfl
      · exact .inl ⟨events, hold, hmem⟩
      · cases hmem
  | claim workerId maxAttempts k => exact evolves_of_claim hstep
  | deliver i id createdAt ending =>
      obtain ⟨call, hcall, hstep⟩ := Option.bind_eq_some_iff.mp hstep
      exact evolves_of_deliver hcall hstep
  | markPublished i =>
      obtain ⟨call, hcall, hstep⟩ := Option.bind_eq_some_iff.mp hstep
      exact evolves_of_markPublished hcall hstep
  | markFailed i =>
      obtain ⟨call, -, hstep⟩ := Option.bind_eq_some_iff.mp hstep
      exact evolves_of_markFailed hstep
  | rollback i =>
      obtain ⟨call, -, hstep⟩ := Option.bind_eq_some_iff.mp hstep
      cases hstep
      exact evolves_of_phase (.refl _) ⟨[], (List.append_nil _).symm⟩ rfl rfl .ended
  | replay ks inputs =>
      rw [OutboxWorld.step] at hstep
      split at hstep
      · obtain ⟨rows, hrows, rfl⟩ := Option.map_eq_some_iff.mp hstep
        exact evolves_of_rows ((KeepsRows.requeue s ks).trans (.enqueue hrows)) rfl rfl rfl
      · cases hstep
  | otherEmit emitting =>
      rw [OutboxWorld.step] at hstep
      split at hstep
      · cases hstep
      · cases hstep
        exact evolves_of_logged emitting fun events hevents _ hmem => ⟨events, hevents, hmem⟩

/-! ## Published rows have events -/

/-- A row that is published, or whose delivery is answered, has an event under its key, and a
claimed row is the row of its place. -/
structure Backed (s : OutboxWorld) : Prop where
  published : ∀ (k : Nat) (row : AuditOutboxRow), s.rows[k]? = some row → row.status = .published →
    s.audit.HasKey row.tenantId row.eventKey
  delivered : ∀ k, Delivering s k → ∃ row, s.rows[k]? = some row ∧
    s.audit.HasKey row.tenantId row.eventKey
  claimed : ∀ call ∈ s.calls, ∀ k row, call.phase = .claimed k row → ∃ last, s.rows[k]? = some last ∧
    last.toAuditIntent = row.toAuditIntent
  queued : ∀ events ∈ s.deletions, ∀ event ∈ events,
    ∃ deletion : TenantDeletion, event ∈ deletion.emitted

namespace Evolves

variable {t : OutboxWorld}

theorem hasKey (h : Evolves sha256 hashtext s t) {tenantId : String}
    (hkey : s.audit.HasKey tenantId key) : t.audit.HasKey tenantId key := by
  obtain ⟨event, hmem, hevent⟩ := hkey
  obtain ⟨more, hmore⟩ := h.log
  rw [AuditDatabase.HasKey, hmore]
  exact ⟨event, List.mem_append_left _ hmem, hevent⟩

/-- The row of a place keeps what holds of its intent. -/
theorem row_at (h : Evolves sha256 hashtext s t) (hrow : s.rows[k]? = some row) :
    ∃ last, t.rows[k]? = some last ∧ last.toAuditIntent = row.toAuditIntent := by
  obtain ⟨last, hlast, hintent, -⟩ := h.rows.kept k row hrow
  exact ⟨last, hlast, hintent⟩

end Evolves

theorem Backed.evolves {t : OutboxWorld} (h : Backed s) (hnext : Evolves sha256 hashtext s t) :
    Backed t where
  published k row hrow hpublished := by
    cases hold : s.rows[k]? with
    | none =>
        obtain ⟨old, hsome, -⟩ := h.delivered k (hnext.rows.fresh k row hold hrow hpublished)
        rw [hold] at hsome
        cases hsome
    | some old =>
        obtain ⟨last, hlast, hintent, hstatus⟩ := hnext.rows.kept k old hold
        rw [hrow] at hlast
        cases hlast
        rw [hintent]
        rcases hstatus hpublished with hbefore | hdelivering
        · exact hnext.hasKey (h.published k old hold hbefore)
        · obtain ⟨other, hother, hkey⟩ := h.delivered k hdelivering
          rw [hold] at hother
          cases hother
          exact hnext.hasKey hkey
  delivered k hdelivering := by
    obtain ⟨call, hmem, event, hphase⟩ := hdelivering
    have hreaches := hnext.calls call hmem
    rw [hphase] at hreaches
    cases hreaches with
    | kept hold hsame =>
        obtain ⟨row, hrow, hkey⟩ := h.delivered k ⟨_, hold, event, hsame⟩
        obtain ⟨last, hlast, hintent⟩ := hnext.row_at hrow
        refine ⟨last, hlast, ?_⟩
        rw [hintent]
        exact hnext.hasKey hkey
    | @delivered old _ row id createdAt _ hold hclaimed hemit =>
        obtain ⟨claimed, hclaim, hsame⟩ := h.claimed old hold k row hclaimed
        obtain ⟨last, hlast, hintent⟩ := hnext.row_at hclaim
        have hemitted := emitted_of_emit hemit
        refine ⟨last, hlast, event, hemitted.mem, ?_⟩
        rw [hintent, hsame]
        exact ⟨hemitted.tenant_eq, hemitted.key_eq⟩
  claimed call hmem k row hphase := by
    have hreaches := hnext.calls call hmem
    rw [hphase] at hreaches
    cases hreaches with
    | kept hold hsame =>
        obtain ⟨old, hrow, hintent⟩ := h.claimed _ hold k row hsame
        obtain ⟨last, hlast, hkept⟩ := hnext.row_at hrow
        exact ⟨last, hlast, hkept.trans hintent⟩
    | claimed hrow => exact hnext.row_at hrow
  queued events hevents event hmem := by
    rcases hnext.deletions events hevents event hmem with ⟨old, hold, hevent⟩ | hnew
    · exact h.queued old hold event hevent
    · exact hnew

theorem backed_start : Backed {} where
  published _ _ hrow := nomatch hrow
  delivered := by
    rintro k ⟨call, hmem, -⟩
    cases hmem
  claimed _ hmem := nomatch hmem
  queued _ hmem := nomatch hmem

/-! ## A row in whose way an event stands -/

/-- The event that is found under the key of a row was written from other inputs than a delivery
of the row has, and the row has not been delivered. -/
structure Blocked (sha256 : List Char → String) (k : Nat) (intent : AuditIntent)
    (event : AuditEventRow) (s : OutboxWorld) : Prop where
  row : ∃ row, s.rows[k]? = some row ∧ row.toAuditIntent = intent ∧ row.status ≠ .published
  found : (s.audit.events.find? fun other =>
    other.tenantId = intent.tenantId ∧ other.idempotencyKey = some intent.eventKey) = some event
  differs : ∃ stored id createdAt prev, auditEventRow sha256 stored id createdAt prev = .ok event ∧
    stored.inputs.value.stableJsonValue ≠ intent.eventInputs.value.stableJsonValue
  claims : ∀ call ∈ s.calls, ∀ row, call.phase = .claimed k row → row.toAuditIntent = intent
  undelivered : ¬Delivering s k

namespace Blocked

variable {intent : AuditIntent}

/-- A delivery is refused, whoever makes it. -/
theorem refuses (hsha : Function.Injective sha256) (h : Blocked sha256 k intent event s)
    (workerId id createdAt : String) :
    emitAlone sha256 hashtext ⟨intent.outboxRowToEvent workerId, id, createdAt⟩ s.audit =
      .error (.auditIdempotencyConflict intent.tenantId intent.eventKey) := by
  obtain ⟨stored, id', createdAt', prev, hstored, hdiffers⟩ := h.differs
  exact @refused_of_differs sha256 hashtext event s.audit intent.eventKey hsha
    ⟨intent.outboxRowToEvent workerId, id, createdAt⟩ _ _ _ _ rfl h.found hstored hdiffers

theorem evolves {t : OutboxWorld} (hsha : Function.Injective sha256)
    (h : Blocked sha256 k intent event s) (hnext : Evolves sha256 hashtext s t) :
    Blocked sha256 k intent event t where
  row := by
    obtain ⟨row, hrow, hintent, hstatus⟩ := h.row
    obtain ⟨last, hlast, hsame, hpublished⟩ := hnext.rows.kept k row hrow
    exact ⟨last, hlast, hsame.trans hintent, fun hend =>
      (hpublished hend).elim hstatus h.undelivered⟩
  found := by
    obtain ⟨more, hmore⟩ := hnext.log
    rw [hmore, List.find?_append, h.found, Option.some_or]
  differs := h.differs
  claims call hmem row hphase := by
    have hreaches := hnext.calls call hmem
    rw [hphase] at hreaches
    cases hreaches with
    | kept hold hsame => exact h.claims _ hold row hsame
    | claimed hrow =>
        obtain ⟨old, hold, hintent, -⟩ := h.row
        rw [hrow] at hold
        cases hold
        exact hintent
  undelivered := by
    rintro ⟨call, hmem, last, hphase⟩
    have hreaches := hnext.calls call hmem
    rw [hphase] at hreaches
    cases hreaches with
    | kept hold hsame => exact h.undelivered ⟨_, hold, last, hsame⟩
    | @delivered old _ row id createdAt _ hold hclaimed hemit =>
        rw [h.claims old hold row hclaimed, h.refuses hsha] at hemit
        cases hemit

end Blocked

/-- The deletion service has written the event under the key of a row. -/
theorem blocked_of_emitted {deletion : TenantDeletion} {emitted : AuditEventInput}
    {id createdAt : String} {audit : AuditDatabase} (h : Backed s) (hrow : s.rows[k]? = some row)
    (hfirst : ¬s.audit.HasKey row.tenantId row.eventKey) (hemitted : emitted ∈ deletion.emitted)
    (hemit : emitAlone sha256 hashtext ⟨emitted, id, createdAt⟩ s.audit = .ok (audit, event))
    (hwritten : audit.HasKey row.tenantId row.eventKey) :
    Blocked sha256 k row.toAuditIntent event { s with audit } := by
  rcases emit_alone hemit with rfl | happends
  · exact absurd hwritten hfirst
  obtain ⟨last, hmem, hlast⟩ := hwritten
  rw [happends.next] at hmem ⊢
  have hnew : last = event := by
    rcases List.mem_append.mp hmem with hold | hnew
    · exact absurd ⟨last, hold, hlast⟩ hfirst
    · exact List.mem_singleton.mp hnew
  subst hnew
  refine ⟨⟨row, hrow, rfl, fun hpublished => hfirst (h.published k row hrow hpublished)⟩, ?_, ?_, ?_, ?_⟩
  · have hnone : (s.audit.events.find? fun other =>
        other.tenantId = row.tenantId ∧ other.idempotencyKey = some row.eventKey) = none := by
      rw [List.find?_eq_none]
      exact fun other hother hkey => hfirst ⟨other, hother, of_decide_eq_true hkey⟩
    change ((s.audit.events ++ [last]).find? _) = _
    rw [List.find?_append, hnone, Option.none_or, List.find?_cons_of_pos]
    exact decide_eq_true hlast
  · refine ⟨_, _, _, _, happends.stored, ?_⟩
    change emitted.inputs.value.stableJsonValue ≠ _
    rw [emitted_inputs hemitted]
    exact requestInputs_differ deletion row.toAuditIntent
  · intro call hcall claimed hphase
    obtain ⟨old, hold, hintent⟩ := h.claimed call hcall k claimed hphase
    rw [hrow] at hold
    cases hold
    exact hintent.symm
  · intro hdelivering
    obtain ⟨old, hold, hkey⟩ := h.delivered k hdelivering
    rw [hrow] at hold
    cases hold
    exact hfirst hkey

/-- Once the deletion service has written an event under the key of a row, the row is never
published: every delivery of it, by any worker, is refused as a conflict. -/
theorem never_published_of_emitted (hsha : Function.Injective sha256)
    {before after : List OutboxLabel} {final : OutboxWorld} {id createdAt : String} {ending : EmitEnd}
    (hbefore : (outboxMachine sha256 hashtext isEventKey).run {} before = some s)
    (hrow : s.rows[k]? = some row) (hfirst : ¬s.audit.HasKey row.tenantId row.eventKey)
    (hemit : s.step sha256 hashtext isEventKey (.emitBestEffort j id createdAt ending) = some next)
    (hwritten : next.audit.HasKey row.tenantId row.eventKey)
    (hafter : (outboxMachine sha256 hashtext isEventKey).run next after = some final) :
    (∃ last, final.rows[k]? = some last ∧ last.status ≠ .published) ∧
      ∀ workerId id createdAt,
        emitAlone sha256 hashtext ⟨row.outboxRowToEvent workerId, id, createdAt⟩ final.audit =
          .error (.auditIdempotencyConflict row.tenantId row.eventKey) := by
  have hbacked : Backed s := (outboxMachine sha256 hashtext isEventKey).invariant_of_run
    (fun _ _ _ h hstep => h.evolves (evolves_of_step hstep)) backed_start hbefore
  obtain ⟨event, hblocked⟩ : ∃ event, Blocked sha256 k row.toAuditIntent event next := by
    obtain ⟨events, hevents, hemit⟩ := Option.bind_eq_some_iff.mp hemit
    unfold OutboxWorld.emitBestEffort at hemit
    cases events with
    | nil => cases hemit
    | cons emitted rest =>
        obtain ⟨deletion, hemitted⟩ := hbacked.queued _ (List.mem_of_getElem? hevents) emitted
          List.mem_cons_self
        have hlogged : ∀ {t : OutboxWorld}, t = OutboxWorld.logged sha256 hashtext
            { s with deletions := s.deletions.set j rest } ⟨emitted, id, createdAt⟩ →
            t.audit.HasKey row.tenantId row.eventKey →
              ∃ event, Blocked sha256 k row.toAuditIntent event t := by
          rintro t rfl hkey
          unfold OutboxWorld.logged at hkey ⊢
          split at hkey
          · exact absurd hkey hfirst
          · rename_i audit event halone
            obtain ⟨hrow', hfound, hdiffers, hclaims, hundelivered⟩ :=
              blocked_of_emitted hbacked hrow hfirst hemitted halone hkey
            exact ⟨event, hrow', hfound, hdiffers, hclaims, hundelivered⟩
        cases ending with
        | unreached =>
            cases hemit
            exact absurd hwritten hfirst
        | answered => exact hlogged (Option.some.inj hemit).symm hwritten
        | lost => exact hlogged (Option.some.inj hemit).symm hwritten
  have hlast : Blocked sha256 k row.toAuditIntent event final :=
    (outboxMachine sha256 hashtext isEventKey).invariant_of_run
      (fun _ _ _ h hstep => h.evolves hsha (evolves_of_step hstep)) hblocked hafter
  obtain ⟨last, hfinal, -, hstatus⟩ := hlast.row
  exact ⟨⟨last, hfinal, hstatus⟩, hlast.refuses hsha⟩

theorem hashes_injective : Function.Injective hashes := fun _ _ => String.ofList_injective

def deletion : TenantDeletion where
  targetTenantId := "tnt_1"
  actor := "usr_1"
  deletedRows := [("members", 2)]
  totalRows := 3
  blobUrisPendingPurge := []
  blobPurgeJobId := none
  retentionSubjectId := "sub_1"
  retentionReceiptId := "rcp_1"

def morning : String := "2026-06-07T08:00:00.000Z"

/-- The world once the tenant is deleted. -/
def deletedTenant : OutboxWorld :=
  ((outboxMachine hashes (fun _ => 0) fun _ => true).run {} [.deleteTenant deletion]).getD {}

theorem deletion_never_published : ∃ next final row,
    (outboxMachine hashes (fun _ => 0) fun _ => true).run {} [.deleteTenant deletion] =
      some deletedTenant ∧
    deletedTenant.step hashes (fun _ => 0) (fun _ => true)
      (.emitBestEffort 0 "evt_1" morning .answered) = some next ∧
    (outboxMachine hashes (fun _ => 0) fun _ => true).run next
      [.claim "worker_1" MAX_OUTBOX_PUBLISH_ATTEMPTS 0] = some final ∧
    deletedTenant.rows[0]? = some row ∧ row.eventKey = "tnt_1:tenant.deleted" ∧
    emitAlone hashes (fun _ => 0) ⟨row.outboxRowToEvent "worker_1", "evt_2", noon⟩ final.audit =
      .error (.auditIdempotencyConflict "tnt_1" "tnt_1:tenant.deleted") := by
  obtain ⟨next, hemit⟩ : ∃ next, deletedTenant.step hashes (fun _ => 0) (fun _ => true)
      (.emitBestEffort 0 "evt_1" morning .answered) = some next := ⟨_, rfl⟩
  have hwritten : next.audit.HasKey "tnt_1" "tnt_1:tenant.deleted" := by
    cases hemit
    exact ⟨_, List.mem_cons_self, rfl, rfl⟩
  obtain ⟨final, hafter⟩ : ∃ final, (outboxMachine hashes (fun _ => 0) fun _ => true).run next
      [.claim "worker_1" MAX_OUTBOX_PUBLISH_ATTEMPTS 0] = some final := by
    cases hemit
    exact ⟨_, rfl⟩
  have hfirst : ¬deletedTenant.audit.HasKey "tnt_1" "tnt_1:tenant.deleted" := by
    rintro ⟨event, hmem, -⟩
    cases hmem
  obtain ⟨row, hrow, htenant, hkey⟩ : ∃ row, deletedTenant.rows[0]? = some row ∧
      row.tenantId = "tnt_1" ∧ row.eventKey = "tnt_1:tenant.deleted" := ⟨_, rfl, rfl, rfl⟩
  have hbefore : (outboxMachine hashes (fun _ => 0) fun _ => true).run {} [.deleteTenant deletion] =
      some deletedTenant := rfl
  rw [← htenant, ← hkey] at hwritten hfirst
  rw [← htenant, ← hkey]
  exact ⟨next, final, row, hbefore, hemit, hafter, hrow, rfl,
    (never_published_of_emitted hashes_injective hbefore hrow hfirst hemit hwritten hafter).2
      "worker_1" "evt_2" noon⟩

end BrainCore.Deletion
