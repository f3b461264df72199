import BrainCore.Graduation.Completion

/-!
# The destination a request holds

From its first reservation a request holds one destination: verification leaves it
alone, a replayed reservation returns it, and the lineage names it.  It was found
clear when it was reserved.
-/

namespace BrainCore.Graduation

open Foundation

variable {s : GraduationWorld} {reservation : Reservation}

def Approval.Clear (a : Approval) : Prop := a.assessment = some .clear ∨ a.review = some .clear

def GraduationRequest.Settled (r : GraduationRequest) : Prop := r.status.settled = true

/-- The request has this destination reserved, and is being completed or has been. -/
structure Holds (r : GraduationRequest) (tenantId memberId : String) : Prop where
  settled : r.Settled
  tenant : r.reservedDestinationTenantId = some tenantId
  member : r.reservedDestinationMemberId = some memberId

def SourceRows.Bound (source : SourceRows) (requestId tenantId memberId : String) : Prop :=
  ∃ r, source.request = some r ∧ r.id = requestId ∧ Holds r tenantId memberId

/-- Whatever destination is held stays held, for the same request. -/
def SourceRows.Later (source after : SourceRows) : Prop :=
  ∀ requestId tenantId memberId, source.Bound requestId tenantId memberId →
    after.Bound requestId tenantId memberId

theorem later_of_request {source after : SourceRows} (h : after.request = source.request) :
    source.Later after := by
  rintro requestId tenantId memberId ⟨r, hr, hbound⟩
  exact ⟨r, h.trans hr, hbound⟩

/-- A held destination is the only one. -/
theorem bound_unique {source : SourceRows} {requestId otherId tenantId otherTenant memberId
    otherMember : String} (h : source.Bound requestId tenantId memberId)
    (hother : source.Bound otherId otherTenant otherMember) :
    requestId = otherId ∧ tenantId = otherTenant ∧ memberId = otherMember := by
  obtain ⟨r, hr, rfl, hholds⟩ := h
  obtain ⟨r', hr', rfl, hholds'⟩ := hother
  cases hr.symm.trans hr'
  refine ⟨rfl, ?_, ?_⟩
  · exact Option.some.inj (hholds.tenant.symm.trans hholds'.tenant)
  · exact Option.some.inj (hholds.member.symm.trans hholds'.member)

/-- The lineage and the approvals fit the request. -/
structure SourceSound (source : SourceRows) (approvals : List Approval) : Prop where
  settled : ∀ r, source.request = some r → r.Settled → ∃ tenantId memberId, Holds r tenantId memberId
  lineage : ∀ r, source.request = some r → ∀ row, lineageOf source.lineage r.id = some row →
    r.reservedDestinationTenantId = some row.destinationTenantId ∧
      r.reservedDestinationMemberId = some row.destinationMemberId
  approvals : ∀ requestId tenantId memberId, source.Bound requestId tenantId memberId →
    ∃ a ∈ approvals, a.destinationTenantId = tenantId ∧ a.Clear

theorem SourceSound.of_same {source after : SourceRows} {approvals : List Approval}
    (h : SourceSound source approvals) (hrequest : after.request = source.request)
    (hlineage : after.lineage = source.lineage) : SourceSound after approvals where
  settled := fun r hr => h.settled r (hrequest.symm.trans hr)
  lineage := fun r hr => by
    rw [hlineage]
    exact h.lineage r (hrequest.symm.trans hr)
  approvals := fun _ _ _ hbound => h.approvals _ _ _ (later_of_request hrequest.symm _ _ _ hbound)

/-- A change that keeps the request's identity and its reservation, and no settled status with it. -/
theorem SourceSound.of_unsettled {source after : SourceRows} {approvals : List Approval}
    {r r' : GraduationRequest} (h : SourceSound source approvals) (hr : source.request = some r)
    (hr' : after.request = some r') (hlineage : after.lineage = source.lineage)
    (hid : r'.id = r.id)
    (htenant : r'.reservedDestinationTenantId = r.reservedDestinationTenantId)
    (hmember : r'.reservedDestinationMemberId = r.reservedDestinationMemberId)
    (hold : ¬ r.Settled) (hnew : ¬ r'.Settled) :
    SourceSound after approvals ∧ source.Later after := by
  refine ⟨⟨fun other hother hsettled => ?_, fun other hother row hrow => ?_,
    fun requestId tenantId memberId hbound => ?_⟩, fun requestId tenantId memberId hbound => ?_⟩
  · cases hr'.symm.trans hother
    exact absurd hsettled hnew
  · cases hr'.symm.trans hother
    rw [htenant, hmember]
    rw [hid, hlineage] at hrow
    exact h.lineage r hr row hrow
  · obtain ⟨other, hother, -, hholds⟩ := hbound
    cases hr'.symm.trans hother
    exact absurd hholds.settled hnew
  · obtain ⟨other, hother, -, hholds⟩ := hbound
    cases hr.symm.trans hother
    exact absurd hholds.settled hold

theorem not_settled_of_evaluating {r : GraduationRequest} (h : r.status = .evaluating) :
    ¬ r.Settled := by
  rw [GraduationRequest.Settled, h]
  decide

theorem not_settled_outcome (outcome : Outcome) : outcome.status.settled = false := by
  cases outcome <;> rfl

/-- Verification does not touch a request that is being completed. -/
theorem verify_sound {source after : SourceRows} {approvals : List Approval}
    {change : VerificationChange} (h : SourceSound source approvals)
    (hverify : source.verify change = some after) :
    SourceSound after approvals ∧ source.Later after := by
  cases change with
  | start id initiatedByMemberId verificationPolicyVersion evidence =>
      rw [SourceRows.verify] at hverify
      split at hverify
      · rename_i hfree
        cases hverify
        have hnew : ∀ requestId tenantId memberId, ¬ source.Bound requestId tenantId memberId := by
          rintro requestId tenantId memberId ⟨r, hr, -, hholds⟩
          have hclosed : r.status.closed = true := by
            have hall := hfree.1
            rw [hr] at hall
            exact hall
          have hsettled := hholds.settled
          rw [GraduationRequest.Settled] at hsettled
          cases hstatus : r.status <;> rw [hstatus] at hclosed hsettled <;> cases hclosed <;>
            cases hsettled
        refine ⟨⟨fun r hr hsettled => ?_, fun r hr row hrow => ?_, fun _ _ _ hbound => ?_⟩,
          fun _ _ _ hbound => absurd hbound (hnew _ _ _)⟩
        · cases hr
          exact absurd hsettled (not_settled_of_evaluating rfl)
        · cases hr
          rw [show lineageOf source.lineage id = some row from hrow] at hfree
          cases hfree.2
        · obtain ⟨r, hr, -, hholds⟩ := hbound
          cases hr
          exact absurd hholds.settled (not_settled_of_evaluating rfl)
      · cases hverify
  | reassess verificationPolicyVersion =>
      obtain ⟨r, hr, hupdate⟩ := Option.bind_eq_some_iff.mp hverify
      split at hupdate
      · rename_i hcan
        cases hupdate
        refine h.of_unsettled hr rfl rfl rfl rfl rfl (fun hsettled => ?_)
          (not_settled_of_evaluating rfl)
        rw [GraduationRequest.Settled] at hsettled
        cases hstatus : r.status <;> rw [hstatus] at hcan hsettled <;> cases hcan <;> cases hsettled
      · cases hupdate
  | assess verificationPolicyVersion outcome =>
      obtain ⟨r, hr, rfl⟩ := Option.map_eq_some_iff.mp hverify
      by_cases hupdates : r.verificationPolicyVersion = verificationPolicyVersion ∧
          (r.status = .evaluating ∨ r.status = .verificationError)
      · refine h.of_unsettled hr (congrArg some (if_pos hupdates)) rfl rfl rfl rfl
          (fun hsettled => ?_) ?_
        · rw [GraduationRequest.Settled] at hsettled
          obtain hstatus | hstatus := hupdates.2 <;> rw [hstatus] at hsettled <;> cases hsettled
        · rw [GraduationRequest.Settled, not_settled_outcome]
          exact Bool.false_ne_true
      · refine ⟨h.of_same ?_ rfl, later_of_request ?_⟩ <;>
          exact (congrArg some (if_neg hupdates)).trans hr.symm
  | verificationError =>
      obtain ⟨r, hr, rfl⟩ := Option.map_eq_some_iff.mp hverify
      by_cases hupdates : r.status = .evaluating
      · refine h.of_unsettled hr (congrArg some (if_pos hupdates)) rfl rfl rfl rfl
          (not_settled_of_evaluating hupdates) fun hsettled => ?_
        cases hsettled
      · refine ⟨h.of_same ?_ rfl, later_of_request ?_⟩ <;>
          exact (congrArg some (if_neg hupdates)).trans hr.symm
  | review decision =>
      obtain ⟨r, hr, rfl⟩ := Option.map_eq_some_iff.mp hverify
      exact ⟨h.of_same rfl rfl, later_of_request rfl⟩
  | conclude status =>
      obtain ⟨r, hr, hupdate⟩ := Option.bind_eq_some_iff.mp hverify
      split at hupdate
      · cases hupdate
      · rename_i hneither
        cases hupdate
        exact h.of_unsettled hr rfl rfl rfl rfl rfl (fun hsettled => hneither (.inl hsettled))
          fun hsettled => hneither (.inr hsettled)

/-! ## The transactions -/

/-- What a reservation that goes through has checked and taken. -/
theorem reserve_ok {input : ReserveInput} {source after : SourceRows}
    (h : Graduation.reserve input source = .ok (reservation, after)) :
    ∃ r, source.request = some r ∧ reservation.requestId = r.id ∧
      (r.status = .graduated ∨ r.approved = true ∧
        (assessmentOutcome source.assessments r = some .clear ∨
          reviewDecision source.reviews r = some .clear)) ∧
      reservation.destinationTenantId =
        (((lineageOf source.lineage r.id).map LineageRow.destinationTenantId).or
          r.reservedDestinationTenantId).getD input.destinationTenantId ∧
      reservation.destinationMemberId =
        r.reservedDestinationMemberId.getD input.destinationMemberId ∧
      after = if r.status = .clear then
          { source with
            request := some (r.reserve reservation.destinationTenantId
              reservation.destinationMemberId input.idempotencyKey) }
        else source := by
  unfold Graduation.reserve at h
  split at h
  · rename_i r _ initiator hr _ _
    split at h
    · cases h
    · split at h
      · cases h
      · rename_i hstatus
        split at h
        · cases h
        · rename_i hclear
          simp only at h
          split at h
          · cases h
          · cases h
            refine ⟨r, hr, rfl, ?_, rfl, rfl, rfl⟩
            by_cases hgraduated : r.status = .graduated
            · exact .inl hgraduated
            · refine .inr ⟨?_, ?_⟩
              · simpa [hgraduated] using hstatus
              · simp only [ne_eq, hgraduated, not_false_eq_true, true_and, not_and_or, not_not] at hclear
                exact hclear
  · cases h

theorem GraduationWorld.approvals_kept (s : GraduationWorld) (reservation : Reservation)
    {a : Approval} (h : a ∈ s.approvals) : a ∈ s.approvals' reservation := by
  unfold GraduationWorld.approvals'
  cases s.source.request with
  | none => exact h
  | some r => by_cases hgraduated : r.status = .graduated <;> simp [hgraduated, h]

/-- A reservation is of the destination the request holds from then on. -/
theorem reserve_sound {input : ReserveInput} {after : SourceRows}
    (h : SourceSound s.source s.approvals)
    (hreserve : Graduation.reserve input s.source = .ok (reservation, after)) :
    SourceSound after (s.approvals' reservation) ∧ s.source.Later after ∧
      after.Bound reservation.requestId reservation.destinationTenantId
        reservation.destinationMemberId := by
  obtain ⟨r, hr, hid, hcleared, htenant, hmember, hafter⟩ := reserve_ok hreserve
  have hnew : r.status ≠ .graduated → ∃ a ∈ s.approvals' reservation,
      a.destinationTenantId = reservation.destinationTenantId ∧ a.Clear := by
    intro hstatus
    refine ⟨⟨reservation.destinationTenantId, assessmentOutcome s.source.assessments r,
      reviewDecision s.source.reviews r⟩, ?_, rfl, ?_⟩
    · rw [GraduationWorld.approvals', hr]
      simp [hstatus]
    · obtain hgraduated | ⟨-, hclear⟩ := hcleared
      · exact absurd hgraduated hstatus
      · exact hclear
  by_cases hstatus : r.status = .clear
  · -- The first reservation: nothing was held before.
    rw [if_pos hstatus] at hafter
    subst hafter
    have hold : ¬ r.Settled := by
      rw [GraduationRequest.Settled, hstatus]
      decide
    have hholds : Holds (r.reserve reservation.destinationTenantId reservation.destinationMemberId
        input.idempotencyKey) reservation.destinationTenantId reservation.destinationMemberId :=
      ⟨rfl, rfl, rfl⟩
    refine ⟨⟨fun other hother _ => ?_, fun other hother row hrow => ?_,
      fun requestId tenantId memberId hbound => ?_⟩, fun requestId tenantId memberId hbound => ?_,
      ⟨_, rfl, hid.symm, hholds⟩⟩
    · cases hother
      exact ⟨_, _, hholds⟩
    · cases hother
      have hrow : lineageOf s.source.lineage r.id = some row := hrow
      obtain ⟨hrowTenant, hrowMember⟩ := h.lineage r hr row hrow
      constructor
      · rw [hholds.tenant, htenant, hrow]
        rfl
      · rw [hholds.member, hmember, hrowMember]
        rfl
    · obtain ⟨other, hother, -, hother'⟩ := hbound
      cases hother
      cases hholds.tenant.symm.trans hother'.tenant
      exact hnew fun hgraduated => by rw [hgraduated] at hstatus; cases hstatus
    · obtain ⟨other, hother, -, hother'⟩ := hbound
      cases hr.symm.trans hother
      exact absurd hother'.settled hold
  · -- A replay: the request holds the destination already.
    rw [if_neg hstatus] at hafter
    subst hafter
    have hsettled : r.Settled := by
      rw [GraduationRequest.Settled]
      obtain hgraduated | ⟨happroved, -⟩ := hcleared
      · rw [hgraduated]
        rfl
      · rw [GraduationRequest.approved] at happroved
        cases hcase : r.status <;> rw [hcase] at happroved <;>
          first | rfl | exact absurd hcase hstatus | cases happroved
    obtain ⟨tenantId, memberId, hholds⟩ := h.settled r hr hsettled
    have hsameMember : reservation.destinationMemberId = memberId := by
      rw [hmember, hholds.member]
      rfl
    have hsameTenant : reservation.destinationTenantId = tenantId := by
      rw [htenant]
      cases hrow : lineageOf s.source.lineage r.id with
      | none =>
          rw [hholds.tenant]
          rfl
      | some row => exact Option.some.inj ((h.lineage r hr row hrow).1.symm.trans hholds.tenant)
    have hbound : s.source.Bound reservation.requestId reservation.destinationTenantId
        reservation.destinationMemberId := by
      rw [hsameTenant, hsameMember]
      exact ⟨r, hr, hid.symm, hholds⟩
    refine ⟨⟨h.settled, h.lineage, fun requestId tenantId memberId hother => ?_⟩,
      later_of_request rfl, hbound⟩
    obtain ⟨a, ha, hclear⟩ := h.approvals _ _ _ hother
    exact ⟨a, s.approvals_kept reservation ha, hclear⟩

theorem lineageOf_insertLineage (reservation : Reservation) (id : String)
    (lineage : List LineageRow) :
    lineageOf (insertLineage reservation id lineage) reservation.requestId =
      some ((lineageOf lineage reservation.requestId).getD
        ⟨id, reservation.requestId, reservation.destinationTenantId,
          reservation.destinationMemberId, reservation.copiedFields⟩) := by
  unfold insertLineage
  cases hfound : lineageOf lineage reservation.requestId with
  | some row => exact hfound
  | none =>
      rw [lineageOf] at hfound ⊢
      rw [List.find?_append, hfound]
      simp

/-- The lineage of a bound reservation names its destination. -/
theorem finalize_sound {source : SourceRows} {approvals : List Approval} (id : String)
    (h : SourceSound source approvals)
    (hbound : source.Bound reservation.requestId reservation.destinationTenantId
      reservation.destinationMemberId) :
    ∃ row after, Graduation.finalize reservation id source = some (row, after) ∧
      row.destinationTenantId = reservation.destinationTenantId ∧
      row.destinationMemberId = reservation.destinationMemberId ∧
      SourceSound after approvals ∧ source.Later after := by
  obtain ⟨r, hr, hid, hholds⟩ := hbound
  have hrow := lineageOf_insertLineage reservation id source.lineage
  generalize hnamed : (lineageOf source.lineage reservation.requestId).getD
    ⟨id, reservation.requestId, reservation.destinationTenantId, reservation.destinationMemberId,
      reservation.copiedFields⟩ = row at hrow
  have hnames : row.destinationTenantId = reservation.destinationTenantId ∧
      row.destinationMemberId = reservation.destinationMemberId := by
    rw [← hnamed]
    cases hfound : lineageOf source.lineage reservation.requestId with
    | none => exact ⟨rfl, rfl⟩
    | some old =>
        obtain ⟨htenant, hmember⟩ := h.lineage r hr old (hid ▸ hfound)
        exact ⟨Option.some.inj (htenant.symm.trans hholds.tenant),
          Option.some.inj (hmember.symm.trans hholds.member)⟩
  have hgraduate : r.graduate reservation =
      { r with
        status := .graduated
        version := if r.status = .graduated then r.version else r.version + 1 } := by
    refine if_pos ⟨hid, hholds.tenant, ?_⟩
    have hsettled := hholds.settled
    rw [GraduationRequest.Settled, RequestStatus.settled, Bool.or_eq_true, decide_eq_true_eq,
      decide_eq_true_eq] at hsettled
    exact hsettled
  have hkeeps : ∀ tenantId memberId, Holds r tenantId memberId →
      Holds (r.graduate reservation) tenantId memberId := by
    intro tenantId memberId hold
    rw [hgraduate]
    exact ⟨rfl, hold.tenant, hold.member⟩
  have hafter : source.request.map (fun r => r.graduate reservation) =
      some (r.graduate reservation) := by
    rw [hr]
    rfl
  refine ⟨row, { source with
      lineage := insertLineage reservation id source.lineage
      request := source.request.map fun r => r.graduate reservation }, ?_, hnames.1, hnames.2,
    ⟨fun other hother _ => ?_, fun other hother old hold => ?_,
      fun requestId tenantId memberId hother => ?_⟩, fun requestId tenantId memberId hother => ?_⟩
  · rw [Graduation.finalize]
    simp only [hrow, hnames.1, ne_eq, not_true_eq_false, if_false]
  · cases hafter.symm.trans hother
    exact ⟨_, _, hkeeps _ _ hholds⟩
  · cases hafter.symm.trans hother
    have hsame : (r.graduate reservation).id = reservation.requestId := by
      rw [hgraduate]
      exact hid
    rw [hsame] at hold
    cases hrow.symm.trans hold
    have hkept := hkeeps _ _ hholds
    rw [hkept.tenant, hkept.member, hnames.1, hnames.2]
    exact ⟨rfl, rfl⟩
  · obtain ⟨other, hsome, hotherId, hotherHolds⟩ := hother
    cases hafter.symm.trans hsome
    have hkept := hkeeps _ _ hholds
    cases hkept.tenant.symm.trans hotherHolds.tenant
    cases hkept.member.symm.trans hotherHolds.member
    exact h.approvals r.id _ _ ⟨r, hr, rfl, hholds⟩
  · obtain ⟨other, hsome, hotherId, hotherHolds⟩ := hother
    cases hr.symm.trans hsome
    refine ⟨r.graduate reservation, hafter, ?_, hkeeps _ _ hotherHolds⟩
    rw [hgraduate]
    exact hotherId

end BrainCore.Graduation
