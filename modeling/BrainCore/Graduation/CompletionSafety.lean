import BrainCore.Foundation.Parties
import BrainCore.Graduation.OneDestination

/-!
# One destination, for its initiator, on the record

All calls that succeed name the destination the request has reserved, and a
destination is there only for a request found clear.  A session goes to the member
who initiated the request while the destination's member is active, and every key is
recorded, in the runs in which each provisioning and each signing is made for that
member and no call breaks off between issuing a key and recording it.
-/

namespace BrainCore.Graduation

open Foundation

variable {s next : GraduationWorld} {i : Nat} {call : Call} {reservation : Reservation}

/-! ## What is claimed -/

/-- An audit event names the key. -/
def KeyRecorded (audit : List AuditEvent) (credentialId : String) : Prop :=
  ∃ event ∈ audit, event.action = "auth.agent_api_key.issued" ∧
    ∃ agentCreated tenantId agentId expiresAt,
      event.details = .agentApiKeyIssued agentCreated tenantId agentId credentialId expiresAt

def IssuedSession.ForInitiator (session : IssuedSession) : Prop :=
  session.initiatedByMemberId = some session.actorMemberId ∧ session.memberActive = true

structure Graduated (s : GraduationWorld) : Prop where
  /-- All calls that succeed name the same destination. -/
  oneDestination : ∃ tenantId memberId, ∀ done ∈ s.completions, done.Names tenantId memberId
  /-- A destination has a reservation that found the request clear. -/
  approved : ∀ t ∈ s.destination.tenants, ∃ a ∈ s.approvals,
    a.destinationTenantId = t.id ∧ a.Clear
  /-- A session is issued for the initiator and while the destination's member is active. -/
  forInitiator : ∀ session ∈ s.sessions, session.ForInitiator
  /-- A key is recorded, or the call that has issued it is about to record it. -/
  recorded : ∀ key ∈ s.destination.keys, KeyRecorded s.audit key.id ∨
    ∃ call ∈ s.calls, call.stage.pendingKey = some key.id

/-! ## What the runs have to meet -/

/-- The caller initiated the request, and the member of the destination is active. -/
def GraduationWorld.Entitled (s : GraduationWorld) (call : Call) (d : DestinationRows)
    (reservation : Reservation) : Prop :=
  s.source.request.map GraduationRequest.initiatedByMemberId = some call.actorMemberId ∧
    d.activeMember reservation.destinationTenantId reservation.destinationMemberId = true

/-- The condition on the step of a call. -/
def GraduationWorld.OrderlyCall (s : GraduationWorld) (call : Call) : GraduationLabel → Prop
  | .provision _ _ => ∀ reservation seen, call.stage = .provisioning reservation seen →
      s.Entitled call (insertBootstrapAdminMember reservation s.destination) reservation
  | .sign _ => ∀ reservation p lineage, call.stage = .finalized reservation p lineage →
      s.Entitled call s.destination reservation
  | .emit _ k => ∀ reservation p lineage pending refused,
      call.stage = .auditing reservation p lineage pending refused →
      pending[k]? = some (keyIssuedEvent reservation p) →
      ∀ e ∈ s.audit, e.tenantId = reservation.destinationTenantId →
        e.idempotencyKey = (keyIssuedEvent reservation p).idempotencyKey →
        e = keyIssuedEvent reservation p
  | .emitFails _ k => ∀ reservation p lineage pending refused,
      call.stage = .auditing reservation p lineage pending refused →
      pending[k]? ≠ some (keyIssuedEvent reservation p)
  | .breakOff _ => call.stage.pendingKey = none
  | _ => True

/-- Sessions are issued for the initiator, and no call is lost between a key and its record. -/
def Orderly (s : GraduationWorld) (label : GraduationLabel) : Prop :=
  ∀ i call, label.of = some i → s.calls[i]? = some call → s.OrderlyCall call label

/-! ## Orderly steps keep sessions and keys on the record -/

/-- The key is recorded, or a call is about to record it. -/
def GraduationWorld.Accounted (s : GraduationWorld) (credentialId : String) : Prop :=
  KeyRecorded s.audit credentialId ∨ ∃ call ∈ s.calls, call.stage.pendingKey = some credentialId

structure OnRecord (s : GraduationWorld) : Prop where
  sessions : ∀ session ∈ s.sessions, session.ForInitiator
  keys : ∀ key ∈ s.destination.keys, s.Accounted key.id

theorem KeyRecorded.mono {audit later : List AuditEvent} {credentialId : String}
    (h : KeyRecorded audit credentialId) (kept : ∀ event ∈ audit, event ∈ later) :
    KeyRecorded later credentialId := by
  obtain ⟨event, hevent, hnames⟩ := h
  exact ⟨event, kept event hevent, hnames⟩

/-- What a step has to give for the record. -/
theorem OnRecord.advance (h : OnRecord s)
    (sessions : ∀ session ∈ next.sessions, session ∈ s.sessions ∨ session.ForInitiator)
    (keys : ∀ key ∈ next.destination.keys,
      (∃ old ∈ s.destination.keys, old.id = key.id) ∨ next.Accounted key.id)
    (audit : ∀ event ∈ s.audit, event ∈ next.audit)
    (calls : ∀ call ∈ s.calls, ∀ credentialId, call.stage.pendingKey = some credentialId →
      next.Accounted credentialId) : OnRecord next where
  sessions := fun session hsession => (sessions session hsession).elim (h.sessions session) id
  keys := fun key hkey => by
    obtain ⟨old, hold, hid⟩ | hnew := keys key hkey
    · rw [← hid]
      obtain hrecorded | ⟨call, hcall, hpending⟩ := h.keys old hold
      · exact .inl (hrecorded.mono audit)
      · exact calls call hcall _ hpending
    · exact hnew

/-- The pending keys of the other calls stay with them. -/
theorem accounted_of_settle {stage : Stage} (hcall : s.calls[i]? = some call)
    (hcalls : next.calls = s.calls.set i { call with stage := stage })
    (moved : ∀ credentialId, call.stage.pendingKey = some credentialId →
      KeyRecorded next.audit credentialId ∨ stage.pendingKey = some credentialId) :
    ∀ other ∈ s.calls, ∀ credentialId, other.stage.pendingKey = some credentialId →
      next.Accounted credentialId := by
  intro other hother credentialId hpending
  obtain ⟨j, hj⟩ := List.getElem?_of_mem hother
  by_cases hsame : j = i
  · subst hsame
    cases hcall.symm.trans hj
    obtain hrecorded | hpending := moved credentialId hpending
    · exact .inl hrecorded
    · refine .inr ⟨{ call with stage := stage }, ?_, hpending⟩
      rw [hcalls]
      exact List.mem_of_getElem? (set_self hj)
  · refine .inr ⟨other, ?_, hpending⟩
    rw [hcalls]
    exact List.mem_of_getElem? (set_other hsame hj)

theorem OnRecord.settle (h : OnRecord s) {stage : Stage} (hcall : s.calls[i]? = some call)
    (moved : ∀ credentialId, call.stage.pendingKey = some credentialId →
      KeyRecorded s.audit credentialId ∨ stage.pendingKey = some credentialId) :
    OnRecord (s.settle i call stage) :=
  h.advance (fun _ => .inl) (fun key hkey => .inl ⟨key, hkey, rfl⟩) (fun _ => id)
    (accounted_of_settle hcall rfl moved)

theorem activeMember_congr {d d' : DestinationRows} (h : d.members = d'.members)
    (tenantId id : String) : d.activeMember tenantId id = d'.activeMember tenantId id := by
  rw [DestinationRows.activeMember, DestinationRows.activeMember, DestinationRows.member,
    DestinationRows.member, h]

theorem provision_members (reservation : Reservation) (seen : ServiceSeen) (draws : Draws)
    (d : DestinationRows) :
    (Graduation.provision reservation seen draws d).members =
      (insertBootstrapAdminMember reservation d).members := by
  have hsame : ∀ tenantId id, (insertTenant reservation d).member tenantId id = d.member tenantId id := by
    intro tenantId id
    unfold insertTenant
    split <;> rfl
  have hmembers : (insertTenant reservation d).members = d.members := by
    unfold insertTenant
    split <;> rfl
  rw [Graduation.provision]
  simp only
  rw [insertBootstrapAdminMember, insertBootstrapAdminMember, hsame]
  split
  · exact hmembers
  · simp only [hmembers]

theorem change_keys {d : DestinationRows} {change : RowChange} {key : AgentApiKeyRow}
    (h : key ∈ (d.change change).keys) : ∃ old ∈ d.keys, old.id = key.id := by
  cases change with
  | endKey id =>
      obtain ⟨old, hold, rfl⟩ := List.mem_map.mp h
      refine ⟨old, hold, ?_⟩
      split <;> rfl
  | sourceMembers _ => exact ⟨key, h, rfl⟩
  | sourceTenant _ _ _ => exact ⟨key, h, rfl⟩
  | destinationMember _ _ _ _ => exact ⟨key, h, rfl⟩
  | destinationTenant _ _ _ _ _ => exact ⟨key, h, rfl⟩
  | agentState _ _ => exact ⟨key, h, rfl⟩

/-- The new keys of a provisioning are the one it has issued. -/
theorem provision_keys {seen : ServiceSeen} {draws : Draws} {d : DestinationRows}
    {key : AgentApiKeyRow} (h : key ∈ (Graduation.provision reservation seen draws d).keys) :
    key ∈ d.keys ∨ seen.credential = none ∧ key.id = draws.credentialId := by
  have hkept : ∀ d : DestinationRows, (insertBootstrapAdminMember reservation
      (insertTenant reservation d)).keys = d.keys := by
    intro d
    unfold insertBootstrapAdminMember insertTenant
    split <;> split <;> rfl
  rw [Graduation.provision] at h
  simp only [hkept] at h
  cases hseen : seen.credential with
  | some credential =>
      rw [hseen] at h
      exact .inl h
  | none =>
      rw [hseen] at h
      obtain hold | hnew := List.mem_append.mp h
      · exact .inl hold
      · cases List.mem_singleton.mp hnew
        exact .inr ⟨rfl, rfl⟩

/-- An emit that goes through leaves its event in the log. -/
theorem mem_emit {event : AuditEvent} {audit later : List AuditEvent}
    (h : Graduation.emit event audit = some later) :
    event ∈ later ∧ ∀ e ∈ audit, e ∈ later := by
  rw [Graduation.emit] at h
  split at h
  · cases h
    exact ⟨List.mem_append_right _ (List.mem_singleton.mpr rfl), fun e => List.mem_append_left _⟩
  · rename_i hit hfound
    split at h
    · rename_i hsame
      cases h
      exact ⟨hsame ▸ List.mem_of_find?_eq_some hfound, fun _ => id⟩
    · cases h

/-- An event whose key names no other event goes through. -/
theorem emit_ne_none {event : AuditEvent} {audit : List AuditEvent}
    (h : ∀ e ∈ audit, e.tenantId = event.tenantId → e.idempotencyKey = event.idempotencyKey →
      e = event) : Graduation.emit event audit ≠ none := by
  rw [Graduation.emit]
  split
  · exact fun hnone => by cases hnone
  · rename_i hit hfound
    have hkey := List.find?_some hfound
    rw [decide_eq_true_eq] at hkey
    rw [if_pos (h hit (List.mem_of_find?_eq_some hfound) hkey.1 hkey.2)]
    exact fun hnone => by cases hnone

theorem mem_eraseIdx_of_ne {α : Type} {events : List α} {event other : α} {k : Nat}
    (h : other ∈ events) (hk : events[k]? = some event) (hne : event ≠ other) :
    other ∈ events.eraseIdx k := by
  obtain ⟨j, hj⟩ := List.getElem?_of_mem h
  refine List.mem_eraseIdx_iff_getElem?.mpr ⟨j, fun hsame => ?_, hj⟩
  subst hsame
  exact hne (Option.some.inj (hk.symm.trans hj))

theorem keyRecorded_of_mem {p : Provisioned} {audit : List AuditEvent}
    (h : keyIssuedEvent reservation p ∈ audit) : KeyRecorded audit p.credentialId :=
  ⟨_, h, rfl, _, _, _, _, rfl⟩

theorem pendingKey_of_issued {reservation : Reservation} {p : Provisioned} {actorMemberId : String}
    {lineage : LineageRow} {credentialId : String}
    (h : (Stage.finalized reservation p lineage).pendingKey = some credentialId) :
    (Stage.auditing reservation p lineage (completionEvents actorMemberId reservation p)
      false).pendingKey = some credentialId := by
  simp only [Stage.pendingKey] at h ⊢
  split at h
  · rename_i hissued
    have hmem : keyIssuedEvent reservation p ∈ completionEvents actorMemberId reservation p := by
      rw [completionEvents, if_pos hissued]
      exact List.mem_append_right _ (List.mem_singleton.mpr rfl)
    rw [if_pos hmem, h]
  · cases h

/-- An orderly step of a call keeps sessions and keys on the record. -/
theorem OnRecord.callStep (h : OnRecord s) (holds : Completing s) {stage : Stage}
    (hcall : s.calls[i]? = some call) (hstage : call.stage = stage) {label : GraduationLabel}
    (orderly : s.OrderlyCall call label)
    (hstep : s.callStep i call label stage = some next) : OnRecord next := by
  have hquiet : stage.pendingKey = none → ∀ {P : String → Prop} credentialId,
      call.stage.pendingKey = some credentialId → P credentialId := by
    intro hnone P credentialId hpending
    rw [hstage, hnone] at hpending
    cases hpending
  unfold GraduationWorld.callStep at hstep
  split at hstep
  · -- reserve
    cases hstep
    unfold GraduationWorld.reserve
    split
    · exact h.settle hcall (hquiet rfl)
    · exact h.advance (fun _ => .inl) (fun key hkey => .inl ⟨key, hkey, rfl⟩) (fun _ => id)
        (accounted_of_settle hcall rfl (hquiet rfl))
  · -- look
    unfold GraduationWorld.look at hstep
    split at hstep
    · split at hstep
      · cases hstep
      · cases hstep
        exact h.settle hcall (hquiet rfl)
    · split at hstep <;> cases hstep <;> exact h.settle hcall (hquiet rfl)
  · -- provision
    rename_i draws reservation seen
    cases hstep
    refine h.advance (fun session hsession => ?_) (fun key hkey => ?_) (fun _ => id)
      (accounted_of_settle hcall rfl (hquiet rfl))
    · obtain hold | hnew := List.mem_append.mp hsession
      · exact .inl hold
      · cases List.mem_singleton.mp hnew
        obtain ⟨hinitiator, hactive⟩ := orderly reservation seen hstage
        refine .inr ⟨hinitiator, ?_⟩
        rw [← activeMember_congr (provision_members reservation seen draws s.destination)] at hactive
        exact hactive
    · obtain hold | ⟨hnone, hid⟩ := provision_keys hkey
      · exact .inl ⟨key, hold, rfl⟩
      · refine .inr (.inr ⟨{ call with
          stage := .provisioned reservation (provisioned seen draws) },
          List.mem_of_getElem? (set_self hcall), ?_⟩)
        have hissued : (provisioned seen draws).issuedNow = true := by
          rw [provisioned, hnone]
          rfl
        have hcredential : (provisioned seen draws).credentialId = draws.credentialId := by
          rw [provisioned, hnone]
          rfl
        rw [hid, ← hcredential]
        exact if_pos hissued
  · -- finalize
    rename_i lineageId reservation p
    have hbound := (holds.calls call (List.mem_of_getElem? hcall)).bound reservation (by
      rw [hstage]
      rfl)
    obtain ⟨row, after, hfinalize, -⟩ := finalize_sound lineageId holds.source hbound
    cases hstep
    rw [GraduationWorld.finalize, hfinalize]
    refine h.advance (fun _ => .inl) (fun key hkey => .inl ⟨key, hkey, rfl⟩) (fun _ => id)
      (accounted_of_settle hcall rfl fun credentialId hpending => .inr ?_)
    rw [hstage] at hpending
    exact hpending
  · -- sign
    rename_i reservation p lineage
    cases hstep
    refine h.advance (fun session hsession => ?_) (fun key hkey => .inl ⟨key, hkey, rfl⟩)
      (fun _ => id) (accounted_of_settle hcall rfl fun credentialId hpending => .inr ?_)
    · obtain hold | hnew := List.mem_append.mp hsession
      · exact .inl hold
      · cases List.mem_singleton.mp hnew
        exact .inr (orderly reservation p lineage hstage)
    · rw [hstage] at hpending
      exact pendingKey_of_issued hpending
  · -- emit
    rename_i k reservation p lineage pending refused
    obtain ⟨event, hevent, rfl⟩ := Option.map_eq_some_iff.mp hstep
    have hmoved : ∀ {audit : List AuditEvent} {rest : Stage},
        (event = keyIssuedEvent reservation p → event ∈ audit) →
        (keyIssuedEvent reservation p ∈ pending.eraseIdx k →
          rest.pendingKey = some p.credentialId) →
        ∀ credentialId, call.stage.pendingKey = some credentialId →
          KeyRecorded audit credentialId ∨ rest.pendingKey = some credentialId := by
      intro audit rest hrecorded hpending credentialId hkey
      rw [hstage, Stage.pendingKey] at hkey
      split at hkey
      · rename_i hmem
        cases hkey
        by_cases hsame : event = keyIssuedEvent reservation p
        · exact .inl (keyRecorded_of_mem (hsame ▸ hrecorded hsame))
        · exact .inr (hpending (mem_eraseIdx_of_ne hmem hevent hsame))
      · cases hkey
    unfold GraduationWorld.emit
    split
    · rename_i hrefused
      refine h.settle hcall (hmoved (fun hsame => ?_) fun hmem => if_pos hmem)
      subst hsame
      exact absurd hrefused (emit_ne_none fun e he htenant hkey =>
        orderly reservation p lineage pending refused hstage hevent e he htenant hkey)
    · rename_i audit hemit
      obtain ⟨hmem, hkept⟩ := mem_emit hemit
      unfold GraduationWorld.emitted
      split
      · rename_i hlast
        refine h.advance (fun _ => .inl) (fun key hkey => .inl ⟨key, hkey, rfl⟩) hkept
          (accounted_of_settle hcall rfl (hmoved (fun _ => hmem) fun hrest => ?_))
        rw [hlast.1] at hrest
        cases hrest
      · exact h.advance (fun _ => .inl) (fun key hkey => .inl ⟨key, hkey, rfl⟩) hkept
          (accounted_of_settle hcall rfl (hmoved (fun _ => hmem) fun hrest => if_pos hrest))
  · -- emitFails
    rename_i k reservation p lineage pending refused
    obtain ⟨event, hevent, rfl⟩ := Option.map_eq_some_iff.mp hstep
    refine h.settle hcall fun credentialId hpending => .inr ?_
    rw [hstage, Stage.pendingKey] at hpending
    split at hpending
    · rename_i hmem
      cases hpending
      refine if_pos (mem_eraseIdx_of_ne hmem hevent fun hsame => ?_)
      exact orderly reservation p lineage pending refused hstage (hsame ▸ hevent)
    · cases hpending
  · cases hstep
  · -- breakOff
    cases hstep
    refine h.settle hcall fun credentialId hpending => ?_
    rw [show call.stage.pendingKey = none from orderly] at hpending
    cases hpending
  · cases hstep

theorem OnRecord.step (h : OnRecord s) (holds : Completing s) {label : GraduationLabel}
    (orderly : Orderly s label) (hstep : graduationMachine.step s label = some next) :
    OnRecord next := by
  obtain ⟨actorMemberId, idempotencyKey, rfl, rfl⟩ | ⟨change, source, rfl, hverify, rfl⟩ |
    ⟨change, rfl, rfl⟩ | ⟨i, call, hof, hcall, hstep⟩ := step_cases hstep
  · exact h.advance (fun _ => .inl) (fun key hkey => .inl ⟨key, hkey, rfl⟩) (fun _ => id)
      fun call hcall credentialId hpending => .inr ⟨call, List.mem_append_left _ hcall, hpending⟩
  · exact h.advance (fun _ => .inl) (fun key hkey => .inl ⟨key, hkey, rfl⟩) (fun _ => id)
      fun call hcall credentialId hpending => .inr ⟨call, hcall, hpending⟩
  · exact h.advance (fun _ => .inl) (fun key hkey => .inl (change_keys hkey)) (fun _ => id)
      fun call hcall credentialId hpending => .inr ⟨call, hcall, hpending⟩
  · exact h.callStep holds hcall rfl (orderly i call hof hcall) hstep

/-! ## Every orderly run -/

theorem Unstarted.onRecord (h : Unstarted s) : OnRecord s where
  sessions := fun session hsession => by
    rw [h.sessions] at hsession
    cases hsession
  keys := fun key hkey => by
    rw [h.keys] at hkey
    cases hkey

/-- In a run whose steps are orderly the graduation is as claimed in every state reached. -/
theorem graduated_of_orderly {labels : List GraduationLabel} {first final : GraduationWorld}
    (unstarted : Unstarted first) (orderly : graduationMachine.Meets Orderly first labels)
    (hrun : graduationMachine.run first labels = some final) : Graduated final := by
  have hkeeps : graduationMachine.Keeps Orderly fun s => Completing s ∧ OnRecord s :=
    fun s label next hlabel holds hstep =>
      ⟨holds.1.step hstep, holds.2.step holds.1 hlabel hstep⟩
  obtain ⟨hcompleting, hrecord⟩ := graduationMachine.invariant_of_meets hkeeps
    ⟨unstarted.completing, unstarted.onRecord⟩ orderly hrun
  exact ⟨hcompleting.oneDestination, hcompleting.tenants, hrecord.sessions, hrecord.keys⟩

/-! ## A request of one of two admins -/

namespace Brightline

def evidence : Json :=
  .obj [("legalBusinessName", .str "Brightline Labs"), ("registrationCountry", .str "US"),
    ("companyRegistrationNumber", .null), ("website", .str "https://brightline.example/"),
    ("businessEmail", .str "owner@brightline.example")]

/-- The request was initiated by `user_a` and assessed clear. -/
def demo : GraduationWorld where
  source :=
    { tenant := ⟨"tnt_demo", some "ready_demo", some "synthetic_brightline_v1", some "demo"⟩
      members := [⟨"user_a", "a@brightline.example", "A", "admin", "active", true⟩,
        ⟨"user_b", "b@brightline.example", "B", "admin", "active", true⟩]
      request := some
        { id := "grad_1", initiatedByMemberId := "user_a", verificationPolicyVersion := "v1",
          status := .clear, evidence }
      assessments := [⟨"grad_1", "v1", .clear⟩] }

theorem unstarted : Unstarted demo where
  request := fun r hr => by
    cases hr
    exact ⟨(fun hsettled => by cases hsettled), rfl⟩
  calls := rfl
  completions := rfl
  sessions := rfl
  tenants := rfl
  keys := rfl

def draws : Draws := ⟨"hash", "family", "token", "agent_1", "agkey_1", "2027-01-01"⟩

/-- A completion up to its commit of the destination. -/
def provisionedBy (actorMemberId : String) : List GraduationLabel :=
  [.call actorMemberId "key", .reserve 0 "tnt_new" "user_new", .look 0, .provision 0 draws]

/-- The other admin's call is handed the session of the initiator's membership; and a call that
breaks off after its provisioning leaves a key no event records. -/
theorem wrong_admin_and_lost_key :
    (∃ final, graduationMachine.run demo (provisionedBy "user_b") = some final ∧
      ¬ Graduated final) ∧
    ∃ final, graduationMachine.run demo (provisionedBy "user_a" ++ [.breakOff 0]) = some final ∧
      ¬ Graduated final := by
  constructor
  · refine ⟨_, rfl, fun h => ?_⟩
    obtain ⟨hinitiator, -⟩ := h.forInitiator _ List.mem_cons_self
    revert hinitiator
    decide
  · refine ⟨_, rfl, fun h => ?_⟩
    obtain ⟨event, hevent, -⟩ | ⟨call, hcall, hpending⟩ := h.recorded _ List.mem_cons_self
    · cases hevent
    · cases List.mem_singleton.mp hcall
      cases hpending

/-- The initiator's own completion, to the record of its key. -/
def completed : List GraduationLabel :=
  provisionedBy "user_a" ++ [.finalize 0 "gvl_1", .sign 0, .emit 0 3]

theorem completed_orderly : graduationMachine.Meets Orderly demo completed := by
  refine ⟨(fun _ _ hof => by cases hof), fun _ h => ?_⟩
  cases h
  refine ⟨fun _ _ _ _ => trivial, fun _ h => ?_⟩
  cases h
  refine ⟨fun _ _ _ _ => trivial, fun _ h => ?_⟩
  cases h
  refine ⟨fun _ _ hof hcall reservation seen hstage => ?_, fun _ h => ?_⟩
  · cases hof
    cases hcall
    cases hstage
    exact ⟨rfl, rfl⟩
  cases h
  refine ⟨fun _ _ _ _ => trivial, fun _ h => ?_⟩
  cases h
  refine ⟨fun _ _ hof hcall reservation p lineage hstage => ?_, fun _ h => ?_⟩
  · cases hof
    cases hcall
    cases hstage
    exact ⟨rfl, rfl⟩
  cases h
  refine ⟨fun _ _ _ _ _ _ _ _ _ _ _ e he => ?_, fun _ _ => trivial⟩
  cases he

theorem completed_graduated :
    ∃ final, graduationMachine.run demo completed = some final ∧ Graduated final :=
  ⟨_, rfl, graduated_of_orderly unstarted completed_orderly rfl⟩

end Brightline

end BrainCore.Graduation
