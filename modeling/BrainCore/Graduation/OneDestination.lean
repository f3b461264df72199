import BrainCore.Graduation.HeldDestination

/-!
# One destination in every run

All completions of the source tenant's calls name the destination its request holds,
and a destination's row is there only for a reservation that found the request clear,
whatever the order of the steps and wherever calls break off.
-/

namespace BrainCore.Graduation

open Foundation

variable {s next : GraduationWorld} {i : Nat} {call : Call} {reservation : Reservation}

/-- The completion names the destination, in its lineage and in its session. -/
def Completion.Names (tenantId memberId : String) (done : Completion) : Prop :=
  done.lineage.destinationTenantId = tenantId ∧ done.lineage.destinationMemberId = memberId ∧
    done.sessionTenantId = tenantId ∧ done.sessionMemberId = memberId

/-- A call at this stage works on the destination the request holds. -/
structure StageSound (source : SourceRows) (stage : Stage) : Prop where
  bound : ∀ reservation, stage.reservation = some reservation →
    source.Bound reservation.requestId reservation.destinationTenantId
      reservation.destinationMemberId
  lineage : ∀ reservation row, stage.reservation = some reservation → stage.lineage = some row →
    row.destinationTenantId = reservation.destinationTenantId ∧
      row.destinationMemberId = reservation.destinationMemberId

/-- The completion names a destination that is held. -/
def HeldCompletion (source : SourceRows) (done : Completion) : Prop :=
  ∃ requestId tenantId memberId, source.Bound requestId tenantId memberId ∧
    done.Names tenantId memberId

def Reserved (approvals : List Approval) (tenantId : String) : Prop :=
  ∃ a ∈ approvals, a.destinationTenantId = tenantId ∧ a.Clear

structure Completing (s : GraduationWorld) : Prop where
  source : SourceSound s.source s.approvals
  calls : ∀ call ∈ s.calls, StageSound s.source call.stage
  completions : ∀ done ∈ s.completions, HeldCompletion s.source done
  tenants : ∀ t ∈ s.destination.tenants, Reserved s.approvals t.id

theorem StageSound.later {source after : SourceRows} {stage : Stage} (h : StageSound source stage)
    (later : source.Later after) : StageSound after stage :=
  ⟨fun reservation hreservation => later _ _ _ (h.bound reservation hreservation), h.lineage⟩

theorem stageSound_of_none {source : SourceRows} {stage : Stage} (h : stage.reservation = none) :
    StageSound source stage := by
  refine ⟨fun reservation hreservation => ?_, fun reservation _ hreservation => ?_⟩ <;>
  · rw [h] at hreservation
    cases hreservation

theorem HeldCompletion.later {source after : SourceRows} {done : Completion}
    (h : HeldCompletion source done) (later : source.Later after) : HeldCompletion after done := by
  obtain ⟨requestId, tenantId, memberId, hbound, hnames⟩ := h
  exact ⟨requestId, tenantId, memberId, later _ _ _ hbound, hnames⟩

/-- What a step has to give for the invariant: the rows it adds, and the call it moves. -/
theorem Completing.advance (h : Completing s) (source : SourceSound next.source next.approvals)
    (later : s.source.Later next.source)
    (calls : ∀ call ∈ next.calls, call ∈ s.calls ∨ StageSound next.source call.stage)
    (completions : ∀ done ∈ next.completions,
      done ∈ s.completions ∨ HeldCompletion next.source done)
    (approvals : ∀ a ∈ s.approvals, a ∈ next.approvals)
    (tenants : ∀ t ∈ next.destination.tenants,
      (∃ old ∈ s.destination.tenants, old.id = t.id) ∨ Reserved next.approvals t.id) :
    Completing next where
  source := source
  calls := fun call hcall => (calls call hcall).elim (fun hold => (h.calls call hold).later later) id
  completions := fun done hdone =>
    (completions done hdone).elim (fun hold => (h.completions done hold).later later) id
  tenants := fun t ht => by
    obtain ⟨old, hold, hid⟩ | hnew := tenants t ht
    · obtain ⟨a, ha, htenant, hclear⟩ := h.tenants old hold
      exact ⟨a, approvals a ha, htenant.trans hid, hclear⟩
    · exact hnew

/-- A call moves to a stage, and nothing else of the source changes. -/
theorem Completing.settle (h : Completing s) {stage : Stage} (hstage : StageSound s.source stage) :
    Completing (s.settle i call stage) := by
  refine h.advance h.source (later_of_request rfl) (fun other hother => ?_) (fun _ => .inl)
    (fun _ => id) fun t ht => .inl ⟨t, ht, rfl⟩
  obtain hold | rfl := List.mem_or_eq_of_mem_set hother
  · exact .inl hold
  · exact .inr hstage

theorem provision_tenants {seen : ServiceSeen} {draws : Draws} {d : DestinationRows} {t : TenantRow}
    (h : t ∈ (Graduation.provision reservation seen draws d).tenants) :
    t ∈ d.tenants ∨ t.id = reservation.destinationTenantId := by
  have hinserted : t ∈ (insertTenant reservation d).tenants := by
    rw [Graduation.provision] at h
    simp only at h
    rw [insertBootstrapAdminMember] at h
    split at h <;> exact h
  rw [insertTenant] at hinserted
  split at hinserted
  · exact .inl hinserted
  · obtain hold | hnew := List.mem_append.mp hinserted
    · exact .inl hold
    · cases List.mem_singleton.mp hnew
      exact .inr rfl

/-- A change of the destination's rows adds none. -/
theorem change_tenants {d : DestinationRows} {change : RowChange} {t : TenantRow}
    (h : t ∈ (d.change change).tenants) : ∃ old ∈ d.tenants, old.id = t.id := by
  cases change with
  | destinationTenant id kind sandbox dataProfile accessStage =>
      obtain ⟨old, hold, rfl⟩ := List.mem_map.mp h
      refine ⟨old, hold, ?_⟩
      split <;> rfl
  | sourceMembers _ => exact ⟨t, h, rfl⟩
  | sourceTenant _ _ _ => exact ⟨t, h, rfl⟩
  | destinationMember _ _ _ _ => exact ⟨t, h, rfl⟩
  | agentState _ _ => exact ⟨t, h, rfl⟩
  | endKey _ => exact ⟨t, h, rfl⟩

theorem change_request (source : SourceRows) (change : RowChange) :
    (source.change change).request = source.request := by
  cases change <;> rfl

theorem change_lineage (source : SourceRows) (change : RowChange) :
    (source.change change).lineage = source.lineage := by
  cases change <;> rfl

theorem stageSound_with {source : SourceRows} {stage : Stage}
    (hreservation : stage.reservation = some reservation)
    (hbound : source.Bound reservation.requestId reservation.destinationTenantId
      reservation.destinationMemberId)
    (hlineage : ∀ row, stage.lineage = some row →
      row.destinationTenantId = reservation.destinationTenantId ∧
        row.destinationMemberId = reservation.destinationMemberId) : StageSound source stage := by
  refine ⟨fun other hother => ?_, fun other row hother => ?_⟩ <;> cases hreservation.symm.trans hother
  · exact hbound
  · exact hlineage row

theorem no_lineage {P : LineageRow → Prop} : ∀ row, none = some row → P row := by
  intro row h
  cases h

/-- The step of a call keeps the destination. -/
theorem Completing.callStep (h : Completing s) {stage : Stage} (hcall : s.calls[i]? = some call)
    (hstage : call.stage = stage) {label : GraduationLabel}
    (hstep : s.callStep i call label stage = some next) : Completing next := by
  have hsound : StageSound s.source stage := hstage ▸ h.calls call (List.mem_of_getElem? hcall)
  unfold GraduationWorld.callStep at hstep
  split at hstep
  · -- reserve
    rename_i tenantId memberId
    cases hstep
    unfold GraduationWorld.reserve
    split
    · exact h.settle (stageSound_of_none rfl)
    · rename_i reservation source hreserve
      obtain ⟨hsource, hlater, hbound⟩ := reserve_sound h.source hreserve
      refine h.advance hsource hlater (fun other hother => ?_) (fun _ => .inl) (fun a ha => ?_)
        fun t ht => .inl ⟨t, ht, rfl⟩
      · obtain hold | rfl := List.mem_or_eq_of_mem_set hother
        · exact .inl hold
        · exact .inr (stageSound_with rfl hbound no_lineage)
      · exact s.approvals_kept reservation ha
  · -- look
    rename_i reservation
    have hbound := hsound.bound reservation rfl
    unfold GraduationWorld.look at hstep
    split at hstep
    · split at hstep
      · cases hstep
      · cases hstep
        exact h.settle (stageSound_with rfl hbound no_lineage)
    · split at hstep
      · cases hstep
        exact h.settle (stageSound_with rfl hbound no_lineage)
      · cases hstep
        exact h.settle (stageSound_of_none rfl)
  · -- provision
    rename_i draws reservation seen
    have hbound := hsound.bound reservation rfl
    cases hstep
    refine h.advance h.source (later_of_request rfl) (fun other hother => ?_) (fun _ => .inl)
      (fun _ => id) fun t ht => ?_
    · obtain hold | rfl := List.mem_or_eq_of_mem_set hother
      · exact .inl hold
      · exact .inr (stageSound_with rfl hbound no_lineage)
    · obtain hold | hnew := provision_tenants ht
      · exact .inl ⟨t, hold, rfl⟩
      · obtain ⟨a, ha, htenant, hclear⟩ := h.source.approvals _ _ _ hbound
        exact .inr ⟨a, ha, htenant.trans hnew.symm, hclear⟩
  · -- finalize
    rename_i lineageId reservation p
    have hbound := hsound.bound reservation rfl
    cases hstep
    obtain ⟨row, after, hfinalize, htenant, hmember, hsource, hlater⟩ :=
      finalize_sound lineageId h.source hbound
    rw [GraduationWorld.finalize, hfinalize]
    refine h.advance hsource hlater (fun other hother => ?_) (fun _ => .inl) (fun _ => id)
      fun t ht => .inl ⟨t, ht, rfl⟩
    obtain hold | rfl := List.mem_or_eq_of_mem_set hother
    · exact .inl hold
    · refine .inr (stageSound_with rfl (hlater _ _ _ hbound) fun other hrow => ?_)
      cases hrow
      exact ⟨htenant, hmember⟩
  · -- sign
    rename_i reservation p lineage
    cases hstep
    refine h.advance h.source (later_of_request rfl) (fun other hother => ?_) (fun _ => .inl)
      (fun _ => id) fun t ht => .inl ⟨t, ht, rfl⟩
    obtain hold | rfl := List.mem_or_eq_of_mem_set hother
    · exact .inl hold
    · exact .inr (stageSound_with rfl (hsound.bound reservation rfl)
        fun row hrow => hsound.lineage reservation row rfl hrow)
  · -- emit
    rename_i k reservation p lineage pending refused
    obtain ⟨event, -, rfl⟩ := Option.map_eq_some_iff.mp hstep
    have hauditing : ∀ rest refused, StageSound s.source (.auditing reservation p lineage rest refused) :=
      fun _ _ => stageSound_with rfl (hsound.bound reservation rfl)
        fun row hrow => hsound.lineage reservation row rfl hrow
    unfold GraduationWorld.emit
    split
    · exact h.settle (hauditing _ _)
    · unfold GraduationWorld.emitted
      split
      · refine h.advance h.source (later_of_request rfl) (fun other hother => ?_)
          (fun done hdone => ?_) (fun _ => id) fun t ht => .inl ⟨t, ht, rfl⟩
        · obtain hold | rfl := List.mem_or_eq_of_mem_set hother
          · exact .inl hold
          · exact .inr (stageSound_of_none rfl)
        · obtain hold | hnew := List.mem_append.mp hdone
          · exact .inl hold
          · cases List.mem_singleton.mp hnew
            obtain ⟨htenant, hmember⟩ := hsound.lineage reservation lineage rfl rfl
            exact .inr ⟨_, _, _, hsound.bound reservation rfl, htenant, hmember, rfl, rfl⟩
      · refine h.advance h.source (later_of_request rfl) (fun other hother => ?_) (fun _ => .inl)
          (fun _ => id) fun t ht => .inl ⟨t, ht, rfl⟩
        obtain hold | rfl := List.mem_or_eq_of_mem_set hother
        · exact .inl hold
        · exact .inr (hauditing _ _)
  · -- emitFails
    rename_i k reservation p lineage pending _
    obtain ⟨event, -, rfl⟩ := Option.map_eq_some_iff.mp hstep
    exact h.settle (stageSound_with rfl (hsound.bound reservation rfl)
      fun row hrow => hsound.lineage reservation row rfl hrow)
  · cases hstep
  · -- breakOff
    cases hstep
    exact h.settle (stageSound_of_none rfl)
  · cases hstep

/-- The steps of the machine: a call comes, other writers change rows, or a call goes on. -/
theorem step_cases {label : GraduationLabel} (hstep : graduationMachine.step s label = some next) :
    (∃ actorMemberId idempotencyKey, label = .call actorMemberId idempotencyKey ∧
      next = { s with calls := s.calls ++ [⟨actorMemberId, idempotencyKey, .started⟩] }) ∨
    (∃ change source, label = .verification change ∧ s.source.verify change = some source ∧
      next = { s with source := source }) ∨
    (∃ change, label = .rows change ∧
      next = { s with source := s.source.change change, destination := s.destination.change change }) ∨
    ∃ i call, label.of = some i ∧ s.calls[i]? = some call ∧
      s.callStep i call label call.stage = some next := by
  cases label with
  | call actorMemberId idempotencyKey =>
      cases hstep
      exact .inl ⟨_, _, rfl, rfl⟩
  | verification change =>
      obtain ⟨source, hsource, rfl⟩ := Option.map_eq_some_iff.mp hstep
      exact .inr (.inl ⟨_, _, rfl, hsource, rfl⟩)
  | rows change =>
      cases hstep
      exact .inr (.inr (.inl ⟨_, rfl, rfl⟩))
  | reserve | look | provision | finalize | sign | emit | emitFails | breakOff =>
      obtain ⟨call, hcall, hstep⟩ := Option.bind_eq_some_iff.mp hstep
      exact .inr (.inr (.inr ⟨_, call, rfl, hcall, hstep⟩))

theorem Completing.step (h : Completing s) {label : GraduationLabel}
    (hstep : graduationMachine.step s label = some next) : Completing next := by
  obtain ⟨actorMemberId, idempotencyKey, rfl, rfl⟩ | ⟨change, source, rfl, hverify, rfl⟩ |
    ⟨change, rfl, rfl⟩ | ⟨i, call, -, hcall, hstep⟩ := step_cases hstep
  · refine h.advance h.source (later_of_request rfl) (fun other hother => ?_) (fun _ => .inl)
      (fun _ => id) fun t ht => .inl ⟨t, ht, rfl⟩
    obtain hold | hnew := List.mem_append.mp hother
    · exact .inl hold
    · cases List.mem_singleton.mp hnew
      exact .inr (stageSound_of_none rfl)
  · obtain ⟨hsource, hlater⟩ := verify_sound h.source hverify
    exact h.advance hsource hlater (fun _ => .inl) (fun _ => .inl) (fun _ => id)
      fun t ht => .inl ⟨t, ht, rfl⟩
  · refine h.advance (h.source.of_same (change_request _ _) (change_lineage _ _))
      (later_of_request (change_request _ _)) (fun _ => .inl) (fun _ => .inl) (fun _ => id)
      fun t ht => .inl (change_tenants ht)
  · exact h.callStep hcall rfl hstep

/-! ## Every run -/

/-- Nothing has been completed, and no request is being completed. -/
structure Unstarted (s : GraduationWorld) : Prop where
  request : ∀ r, s.source.request = some r → ¬ r.Settled ∧ lineageOf s.source.lineage r.id = none
  calls : s.calls = []
  completions : s.completions = []
  sessions : s.sessions = []
  tenants : s.destination.tenants = []
  keys : s.destination.keys = []

theorem Unstarted.completing (h : Unstarted s) : Completing s where
  source :=
    { settled := fun r hr hsettled => absurd hsettled (h.request r hr).1
      lineage := fun r hr row hrow => by
        rw [(h.request r hr).2] at hrow
        cases hrow
      approvals := fun _ _ _ ⟨r, hr, _, hholds⟩ => absurd hholds.settled (h.request r hr).1 }
  calls := fun call hcall => by
    rw [h.calls] at hcall
    cases hcall
  completions := fun done hdone => by
    rw [h.completions] at hdone
    cases hdone
  tenants := fun t ht => by
    rw [h.tenants] at ht
    cases ht

/-- All completions name the destination that is held. -/
theorem Completing.oneDestination (h : Completing s) :
    ∃ tenantId memberId, ∀ done ∈ s.completions, done.Names tenantId memberId := by
  cases hdone : s.completions with
  | nil => exact ⟨"", "", fun done hmem => by cases hmem⟩
  | cons first rest =>
      obtain ⟨requestId, tenantId, memberId, hbound, -⟩ :=
        h.completions first (hdone ▸ List.mem_cons_self)
      refine ⟨tenantId, memberId, fun done hmem => ?_⟩
      obtain ⟨otherId, otherTenant, otherMember, hother, hnames⟩ :=
        h.completions done (hdone ▸ hmem)
      obtain ⟨-, rfl, rfl⟩ := bound_unique hbound hother
      exact hnames

end BrainCore.Graduation
