import BrainCore.Audit.Emitter

/-!
# Emits do not see each other

The lock of a tenant keeps the emits of the tenant apart, and an emit reads
nothing of other tenants but the identifiers of their events.
-/

namespace BrainCore.Audit

open BrainCore.Foundation
open BrainCore.Foundation.Program

/-! ## Reading under the writes of others -/

/-- The event that a write inserts. -/
def AuditWrite.event? : AuditWrite → Option AuditEventRow
  | .event row => some row
  | _ => none

theorem view_events (db : AuditDatabase) (writes : List AuditWrite) :
    (auditStore.view db writes).events = db.events ++ writes.filterMap AuditWrite.event? := by
  induction writes generalizing db with
  | nil => exact (List.append_nil _).symm
  | cons w writes ih =>
      change (auditStore.view (db.write w) writes).events = _
      rw [ih]
      cases w with
      | lock key => rfl
      | event row => exact List.append_assoc _ _ _
      | head tenantId head => rfl

/-- A head depends on what the database and the writes say about its tenant. -/
theorem view_heads {db other : AuditDatabase} {tenantId : String} (writes : List AuditWrite)
    (h : db.heads tenantId = other.heads tenantId) :
    (auditStore.view db writes).heads tenantId = (auditStore.view other writes).heads tenantId := by
  induction writes generalizing db other with
  | nil => exact h
  | cons w writes ih =>
      refine @ih (db.write w) (other.write w) ?_
      cases w with
      | lock key => exact h
      | event row => exact h
      | head tenantId' head =>
          change Function.update db.heads tenantId' (some head) tenantId =
            Function.update other.heads tenantId' (some head) tenantId
          by_cases hsame : tenantId = tenantId'
          · rw [hsame, Function.update_self, Function.update_self]
          · rw [Function.update_of_ne hsame, Function.update_of_ne hsame, h]

/-- A write of one tenant's chain. -/
def AuditWrite.OfTenant (hashtext : String → Int) (tenantId : String) : AuditWrite → Prop
  | .lock key => key = hashtext tenantId
  | .event row => row.tenantId = tenantId
  | .head other _ => other = tenantId

variable {hashtext : String → Int} {tenantId other : String} {db : AuditDatabase}

theorem view_heads_of_other {writes : List AuditWrite} (hne : tenantId ≠ other)
    (h : ∀ w ∈ writes, w.OfTenant hashtext other) :
    (auditStore.view db writes).heads tenantId = db.heads tenantId := by
  induction writes generalizing db with
  | nil => rfl
  | cons w writes ih =>
      obtain ⟨hw, hwrites⟩ := List.forall_mem_cons.mp h
      change (auditStore.view (db.write w) writes).heads tenantId = _
      rw [ih hwrites]
      cases w with
      | lock key => rfl
      | event row => rfl
      | head tenantId' head =>
          obtain rfl : tenantId' = other := hw
          exact Function.update_of_ne hne ..

theorem event_of_other {writes : List AuditWrite} (h : ∀ w ∈ writes, w.OfTenant hashtext other)
    {row : AuditEventRow} (hmem : row ∈ writes.filterMap AuditWrite.event?) :
    row.tenantId = other ∧ AuditWrite.event row ∈ writes := by
  obtain ⟨w, hw, hrow⟩ := List.mem_filterMap.mp hmem
  cases w with
  | event row' =>
      obtain rfl := Option.some.inj hrow
      exact ⟨h _ hw, hw⟩
  | lock key => cases hrow
  | head tenantId' head => cases hrow

/-! ## The points of an emit -/

section Points

variable (sha256 : List Char → String) (hashtext : String → Int) (call : EmitCall)

/-- The call as `emit` goes on with it. -/
def EmitCall.normalized : EmitCall := { call with event := normalizeAuditEventInput call.event }

def EmitCall.lock : AuditWrite := .lock (hashtext call.event.tenantId)

/-- Where an emit can be, and what it has written. -/
inductive EmitPoint : EmitProgram → List AuditWrite → Prop where
  | start : EmitPoint (emit sha256 hashtext call) []
  | locked : EmitPoint (emitLookUp sha256 call.normalized) [call.lock hashtext]
  | found (hit : AuditEventRow) : EmitPoint (.done hit) [call.lock hashtext]
  | missed : EmitPoint (emitEnsureHead sha256 call.normalized) [call.lock hashtext]
  | ensured (heads : List AuditWrite)
      (empty : ∀ w ∈ heads, w = .head call.event.tenantId {}) :
      EmitPoint (emitReadHead sha256 call.normalized) (call.lock hashtext :: heads)
  | headRead (prev : Option String) (heads : List AuditWrite)
      (empty : ∀ w ∈ heads, w = .head call.event.tenantId {}) :
      EmitPoint (emitInsert sha256 call.normalized prev) (call.lock hashtext :: heads)
  | inserted (row : AuditEventRow) (head : AuditChainHead) (heads : List AuditWrite)
      (empty : ∀ w ∈ heads, w = .head call.event.tenantId {})
      (tenant : row.tenantId = call.event.tenantId) :
      EmitPoint (.done row)
        (call.lock hashtext :: heads ++ [.event row, .head call.event.tenantId head])

end Points

variable {sha256 : List Char → String} {call : EmitCall}

theorem auditEventRow_tenant {event : AuditEventInput} {id createdAt : String}
    {prev : Option String} {row : AuditEventRow}
    (h : auditEventRow sha256 event id createdAt prev = .ok row) :
    row.tenantId = event.tenantId ∧ row.prevEventHash = prev := by
  unfold auditEventRow at h
  obtain ⟨_, _, h⟩ := bind_ok.mp h
  obtain ⟨_, _, h⟩ := bind_ok.mp h
  obtain ⟨_, _, h⟩ := bind_ok.mp h
  obtain ⟨_, _, h⟩ := bind_ok.mp h
  cases h
  exact ⟨rfl, rfl⟩

theorem insertAuditEvent_ok {row row' : AuditEventRow} {new : List AuditWrite}
    (h : insertAuditEvent db row = .ok (new, row')) :
    row' = row ∧ db.events.findSome? (uniqueClash row) = none ∧
      ∃ head, advanceAuditChainHead db row = .ok head ∧
        new = [.event row, .head row.tenantId head] := by
  unfold insertAuditEvent at h
  split at h
  · cases h
  · rename_i hunique
    obtain ⟨head, hhead, heq⟩ := map_ok.mp h
    cases heq
    exact ⟨rfl, hunique, head, hhead, rfl⟩

/-- The next point, by the statement that was run. -/
theorem emitPoint_ensureHead {α : Type}
    {run : AuditDatabase → Except EmitError (List AuditWrite × α)} {next : α → EmitProgram}
    {new : List AuditWrite} {value : α}
    (hrest : Program.statement run next = emitEnsureHead sha256 call.normalized)
    (hresult : run db = .ok (new, value)) :
    EmitPoint sha256 hashtext call (next value) ([call.lock hashtext] ++ new) := by
  cases hrest
  dsimp only at hresult
  cases hhead : db.heads call.normalized.event.tenantId with
  | none =>
      rw [hhead] at hresult
      cases hresult
      exact .ensured _ fun w hw => List.mem_singleton.mp hw
  | some head =>
      rw [hhead] at hresult
      cases hresult
      exact .ensured [] fun w hw => (nomatch hw)

theorem findEmitted_ok {key : String} {new : List AuditWrite} {found : Option AuditEventRow}
    (h : findEmitted sha256 call key db = .ok (new, found)) :
    new = [] ∧ found = db.events.find? fun row =>
      row.tenantId = call.event.tenantId ∧ row.idempotencyKey = some key := by
  unfold findEmitted at h
  split at h
  · rename_i hnone
    cases h
    exact ⟨rfl, hnone.symm⟩
  · rename_i hit hsome
    obtain ⟨conflict, _, h⟩ := bind_ok.mp h
    split at h
    · cases h
    · cases h
      exact ⟨rfl, hsome.symm⟩

theorem emitPoint_of_passes {rest : EmitProgram} {writes : List AuditWrite}
    (h : Passes auditStore (emit sha256 hashtext call) db rest writes) :
    EmitPoint sha256 hashtext call rest writes := by
  induction h with
  | start => exact .start
  | statement run next writes new value _ hresult ih =>
      generalize hrest : Program.statement run next = rest at ih
      cases ih with
      | start =>
          cases hrest
          cases hresult
          exact .locked
      | found hit => cases hrest
      | inserted row head heads empty tenant => cases hrest
      | missed => exact emitPoint_ensureHead hrest hresult
      | locked =>
          unfold emitLookUp at hrest
          split at hrest
          · exact emitPoint_ensureHead hrest hresult
          · cases hrest
            obtain ⟨rfl, -⟩ := findEmitted_ok hresult
            cases value with
            | none => exact .missed
            | some hit => exact .found hit
      | ensured heads empty =>
          cases hrest
          dsimp only at hresult
          split at hresult
          · cases hresult
          · cases hresult
            rw [List.append_nil]
            exact .headRead _ heads empty
      | headRead prev heads empty =>
          cases hrest
          obtain ⟨row, hrow, hinsert⟩ := bind_ok.mp hresult
          obtain ⟨rfl, -, head, -, rfl⟩ := insertAuditEvent_ok hinsert
          have htenant : value.tenantId = call.event.tenantId := (auditEventRow_tenant hrow).1
          rw [htenant]
          exact .inserted value head heads empty htenant

/-! ## Other tenants -/

/-- An emit writes for its tenant, and nothing without the lock. -/
theorem EmitPoint.ofTenant {rest : EmitProgram} {writes : List AuditWrite}
    (h : EmitPoint sha256 hashtext call rest writes) :
    (∀ w ∈ writes, w.OfTenant hashtext call.event.tenantId) ∧
      (writes = [] ∨ call.lock hashtext ∈ writes) := by
  have hempty : ∀ heads : List AuditWrite, (∀ w ∈ heads, w = .head call.event.tenantId {}) →
      ∀ w ∈ heads, w.OfTenant hashtext call.event.tenantId := by
    intro heads hheads w hw
    rw [hheads w hw]
    rfl
  have hlock : (call.lock hashtext).OfTenant hashtext call.event.tenantId := rfl
  cases h with
  | start => exact ⟨fun _ hmem => (nomatch hmem), .inl rfl⟩
  | locked => exact ⟨List.forall_mem_singleton.mpr hlock, .inr List.mem_cons_self⟩
  | found hit => exact ⟨List.forall_mem_singleton.mpr hlock, .inr List.mem_cons_self⟩
  | missed => exact ⟨List.forall_mem_singleton.mpr hlock, .inr List.mem_cons_self⟩
  | ensured heads empty =>
      exact ⟨List.forall_mem_cons.mpr ⟨hlock, hempty heads empty⟩, .inr List.mem_cons_self⟩
  | headRead prev heads empty =>
      exact ⟨List.forall_mem_cons.mpr ⟨hlock, hempty heads empty⟩, .inr List.mem_cons_self⟩
  | inserted row head heads empty tenant =>
      refine ⟨?_, .inr List.mem_cons_self⟩
      intro w hw
      rcases List.mem_append.mp hw with hw | hw
      · rcases List.mem_cons.mp hw with rfl | hw
        · exact hlock
        · exact hempty heads empty w hw
      · rcases List.mem_cons.mp hw with rfl | hw
        · exact tenant
        · obtain rfl := List.mem_singleton.mp hw
          rfl

/-- Writes of another tenant's emit, as far as they are free of the lock of this one. -/
structure Foreign (hashtext : String → Int) (tenantId : String) (writes : List AuditWrite) :
    Prop where
  heads : ∀ db : AuditDatabase, (auditStore.view db writes).heads tenantId = db.heads tenantId
  events : ∀ row ∈ writes.filterMap AuditWrite.event?, row.tenantId ≠ tenantId

theorem foreign_of_free {call' : EmitCall} {db' : AuditDatabase} {rest' : EmitProgram}
    {writes writes' : List AuditWrite}
    (hlock : call.lock hashtext ∈ writes)
    (h' : Passes auditStore (emit sha256 hashtext call') db' rest' writes')
    (hfree : Free auditStore writes writes') : Foreign hashtext call.event.tenantId writes' := by
  obtain ⟨htenant, hwrites⟩ := (emitPoint_of_passes h').ofTenant
  rcases hwrites with rfl | hlock'
  · exact ⟨fun _ => rfl, fun _ hmem => (nomatch hmem)⟩
  · have hclash := hfree _ hlock _ hlock'
    have hne : call.event.tenantId ≠ call'.event.tenantId := by
      intro hsame
      change decide (hashtext _ = hashtext _) = false at hclash
      exact absurd (congrArg hashtext hsame) (of_decide_eq_false hclash)
    refine ⟨fun db => view_heads_of_other hne htenant, fun row hrow hsame => hne ?_⟩
    exact hsame.symm.trans (event_of_other htenant hrow).1

/-- Reading one tenant's events does not see those of another. -/
theorem Foreign.find? {writes writes' : List AuditWrite} (h : Foreign hashtext tenantId writes')
    {p : AuditEventRow → Bool} (hp : ∀ row, p row = true → row.tenantId = tenantId) :
    (auditStore.view (auditStore.view db writes') writes).events.find? p =
      (auditStore.view db writes).events.find? p := by
  have hnone : (writes'.filterMap AuditWrite.event?).find? p = none := by
    rw [List.find?_eq_none]
    exact fun row hmem hrow => h.events row hmem (hp row hrow)
  rw [view_events, view_events, view_events, List.find?_append, List.find?_append,
    List.find?_append, hnone, Option.or_none]

theorem Foreign.ofTenant {writes writes' : List AuditWrite}
    (h : Foreign hashtext tenantId writes') :
    (auditStore.view (auditStore.view db writes') writes).ofTenant tenantId =
      (auditStore.view db writes).ofTenant tenantId := by
  have hnone : (writes'.filterMap AuditWrite.event?).filter
      (fun row => decide (row.tenantId = tenantId)) = [] := by
    rw [List.filter_eq_nil_iff]
    exact fun row hmem hrow => h.events row hmem (of_decide_eq_true hrow)
  unfold AuditDatabase.ofTenant
  rw [view_events, view_events, view_events, List.filter_append, List.filter_append,
    List.filter_append, hnone, List.append_nil]

theorem Foreign.view_heads {writes writes' : List AuditWrite}
    (h : Foreign hashtext tenantId writes') :
    (auditStore.view (auditStore.view db writes') writes).heads tenantId =
      (auditStore.view db writes).heads tenantId :=
  Audit.view_heads writes (h.heads db)

/-- An insert that clashes with nothing of the others goes as before. -/
theorem Foreign.insert {writes writes' new : List AuditWrite} {row row' : AuditEventRow}
    (h : Foreign hashtext row.tenantId writes') (hfree : Free auditStore new writes')
    (hinsert : insertAuditEvent (auditStore.view db writes) row = .ok (new, row')) :
    insertAuditEvent (auditStore.view (auditStore.view db writes') writes) row = .ok (new, row') := by
  obtain ⟨rfl, hunique, head, hhead, rfl⟩ := insertAuditEvent_ok hinsert
  have hunique' : (auditStore.view (auditStore.view db writes') writes).events.findSome?
      (uniqueClash row') = none := by
    rw [view_events, List.findSome?_eq_none_iff] at hunique
    rw [view_events, view_events, List.findSome?_eq_none_iff]
    intro other hmem
    rcases List.mem_append.mp hmem with hmem | hmem
    · rcases List.mem_append.mp hmem with hmem | hmem
      · exact hunique other (List.mem_append_left _ hmem)
      · obtain ⟨w, hw, hrow⟩ := List.mem_filterMap.mp hmem
        have hclash := hfree _ List.mem_cons_self w hw
        cases w with
        | event row =>
            obtain rfl := Option.some.inj hrow
            exact Option.not_isSome_iff_eq_none.mp (Bool.eq_false_iff.mp hclash)
        | lock key => cases hrow
        | head tenantId head => cases hrow
    · exact hunique other (List.mem_append_right _ hmem)
  have hadvance : advanceAuditChainHead (auditStore.view (auditStore.view db writes') writes) row' =
      .ok head := by
    unfold advanceAuditChainHead at hhead ⊢
    rw [h.view_heads, h.ofTenant]
    exact hhead
  unfold insertAuditEvent
  rw [hunique', hadvance]
  rfl

/-! ## Stability -/

theorem ensureHead_stable {α : Type}
    {run : AuditDatabase → Except EmitError (List AuditWrite × α)} {next : α → EmitProgram}
    {writes writes' : List AuditWrite}
    (hrest : Program.statement run next = emitEnsureHead sha256 call.normalized)
    (h : Foreign hashtext call.event.tenantId writes') :
    run (auditStore.view (auditStore.view db writes') writes) = run (auditStore.view db writes) := by
  cases hrest
  dsimp only
  rw [show call.normalized.event.tenantId = call.event.tenantId from rfl, h.view_heads]

/-- A statement of an emit reads and writes the same after the commit of another. -/
theorem EmitPoint.run_stable {α : Type}
    {run : AuditDatabase → Except EmitError (List AuditWrite × α)} {next : α → EmitProgram}
    {writes writes' new : List AuditWrite} {value : α}
    (hpoint : EmitPoint sha256 hashtext call (.statement run next) writes)
    (hforeign : writes ≠ [] → Foreign hashtext call.event.tenantId writes')
    (hfree : Free auditStore new writes')
    (hresult : run (auditStore.view db writes) = .ok (new, value)) :
    run (auditStore.view (auditStore.view db writes') writes) = .ok (new, value) := by
  generalize hrest : Program.statement run next = rest at hpoint
  cases hpoint with
  | start =>
      cases hrest
      exact hresult
  | found hit => cases hrest
  | inserted row head heads empty tenant => cases hrest
  | missed =>
      rw [ensureHead_stable hrest (hforeign (List.cons_ne_nil _ _))]
      exact hresult
  | locked =>
      have h := hforeign (List.cons_ne_nil _ _)
      unfold emitLookUp at hrest
      split at hrest
      · rw [ensureHead_stable hrest h]
        exact hresult
      · cases hrest
        unfold findEmitted at hresult ⊢
        rw [h.find?]
        · exact hresult
        · intro row hrow
          exact (of_decide_eq_true hrow).1
  | ensured heads empty =>
      cases hrest
      have h := hforeign (List.cons_ne_nil _ _)
      dsimp only at hresult ⊢
      rw [show call.normalized.event.tenantId = call.event.tenantId from rfl] at hresult ⊢
      rw [h.view_heads]
      exact hresult
  | headRead prev heads empty =>
      cases hrest
      have h := hforeign (List.cons_ne_nil _ _)
      obtain ⟨row, hrow, hinsert⟩ := bind_ok.mp hresult
      have htenant : row.tenantId = call.event.tenantId := (auditEventRow_tenant hrow).1
      rw [← htenant] at h
      exact bind_ok.mpr ⟨row, hrow, h.insert hfree hinsert⟩

theorem emit_stable : Stable auditStore (emit sha256 hashtext) := by
  intro call call' db db' rest rest' writes writes' h h'
  induction h with
  | start => exact fun _ => .start
  | statement run next writes new value before hresult ih =>
      intro hfree
      have hold : Free auditStore writes writes' := fun w hw => hfree w (List.mem_append_left _ hw)
      have hnew : Free auditStore new writes' := fun w hw => hfree w (List.mem_append_right _ hw)
      have hpoint := emitPoint_of_passes before
      refine .statement run next writes new value (ih hold) ?_
      refine hpoint.run_stable (fun hsome => ?_) hnew hresult
      exact foreign_of_free (hpoint.ofTenant.2.resolve_left hsome) h' hold

/-- Two rows are in no unique index together. -/
theorem uniqueClash_eq_none {row other : AuditEventRow} : uniqueClash row other = none ↔
    row.id ≠ other.id ∧ (row.tenantId = other.tenantId →
      row.eventHash ≠ other.eventHash ∧
      (row.idempotencyKey.isSome → row.idempotencyKey ≠ other.idempotencyKey) ∧
      row.prevEventHash ≠ other.prevEventHash) := by
  unfold uniqueClash
  constructor
  · intro h
    split at h <;> grind
  · rintro ⟨hid, hrest⟩
    rw [if_neg hid]
    split
    · rfl
    · rename_i htenant
      obtain ⟨hhash, hkey, hprev⟩ := hrest (not_not.mp htenant)
      rw [if_neg hhash, if_neg (fun h => hkey h.1 h.2), if_neg hprev]

theorem uniqueClash_symm {row other : AuditEventRow} (h : uniqueClash row other = none) :
    uniqueClash other row = none := by
  obtain ⟨hid, hrest⟩ := uniqueClash_eq_none.mp h
  refine uniqueClash_eq_none.mpr ⟨hid.symm, fun htenant => ?_⟩
  obtain ⟨hhash, hkey, hprev⟩ := hrest htenant.symm
  refine ⟨hhash.symm, fun hsome heq => ?_, hprev.symm⟩
  exact hkey (heq ▸ hsome) heq.symm

theorem auditClash_symm (w w' : AuditWrite) : auditClash w w' = auditClash w' w := by
  cases w with
  | lock key =>
      cases w' with
      | lock key' => exact decide_eq_decide.mpr eq_comm
      | event row => rfl
      | head tenantId head => rfl
  | event row =>
      cases w' with
      | lock key => rfl
      | event row' =>
          rw [auditClash, auditClash, Bool.eq_iff_iff, ← not_iff_not, Option.not_isSome_iff_eq_none,
            Option.not_isSome_iff_eq_none]
          exact ⟨uniqueClash_symm, uniqueClash_symm⟩
      | head tenantId head => rfl
  | head tenantId head =>
      cases w' with
      | lock key => rfl
      | event row => rfl
      | head tenantId' head' => exact decide_eq_decide.mpr eq_comm

end BrainCore.Audit
