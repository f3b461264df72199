import BrainCore.Foundation.Parties
import BrainCore.Surfaces.ApprovalPipeline

/-!
# The approval pipeline under clicks and crashes

One terminal decision is claimed and execution is called only under it.  The rest
depends on three steps: a rejection must not mark an approval applied that nobody has
handed off, an approval must not be signed after a rejection, and a click on a claim
left unapplied must not stop at the audit log or short of the quorum.
-/

namespace BrainCore.Surfaces

open Foundation PipelineWorld

variable {s next : PipelineWorld} {i : Nat} {call : PipelineCall}

/-! ## What is claimed -/

/-- The decision is marked applied. -/
def PipelineWorld.applied (s : PipelineWorld) : Bool := s.row.any DecisionRecord.applied

structure PipelineSafe (s : PipelineWorld) : Prop where
  oneClaim : s.claims.length ≤ 1
  /-- Execution is called with the quorum met and an approval claimed. -/
  handoffs : ∀ handoff ∈ s.handoffs, handoff.quorumMet = true ∧ handoff.approvalClaimed = true
  /-- An approval marked applied has been handed off. -/
  handedOff : ∀ row, s.row = some row → row.decision = .approved → row.applied = true →
    s.handedOff = true
  /-- No signature is recorded after a rejection has been claimed. -/
  signatures : ∀ signature ∈ s.signatures, signature.afterRejection = false
  /-- A click on a claim left unapplied that comes to its end leaves it applied. -/
  resumed : ∀ call ∈ s.calls, call.resumes = true → call.stage.finished = true → s.applied = true

/-! ## The condition on the steps -/

/-- The audit log takes the event of the claim. -/
def PipelineWorld.Records (s : PipelineWorld) (call : PipelineCall) (record : DecisionRecord) : Prop :=
  append (s.decidedEvent call.click record) s.audit ≠ none

def PipelineWorld.KeepsCall (s : PipelineWorld) (call : PipelineCall) :
    PipelineLabel → PipelineStage → Prop
  | .mark _, .marking record _ => record.decision = .approved → s.handedOff = true
  | .sign _ quorumMet, .signing =>
      s.rejected = false ∧ (call.resumes = true → quorumMet = true ∨ s.applied = true)
  | .audit _, .anchoring record _ =>
      call.resumes = true → s.Records call record ∨ s.applied = true
  | .audit _, .approving =>
      call.resumes = true → s.Records call call.click.record ∨ s.applied = true
  | _, _ => True

/-- The step does not lose what the pipeline promises. -/
def KeepsPipeline (s : PipelineWorld) (label : PipelineLabel) : Prop :=
  ∀ i call, label.of = some i → s.calls[i]? = some call → s.KeepsCall call label call.stage

/-! ## What every run keeps -/

/-- The record is of the claim the row holds. -/
def DecisionRecord.Names (record row : DecisionRecord) : Prop :=
  row.decision = record.decision ∧ row.actorId = record.actorId ∧ row.decidedAt = record.decidedAt

/-- An approval before its claim. -/
def PipelineStage.ofApproval : PipelineStage → Bool
  | .approving | .signing | .claiming => true
  | .rejecting | .anchoring _ _ | .marking _ _ | .enqueueing _ _ | .done _ | .refused | .thrown => false

/-- What holds of a call at its stage. -/
structure CallSound (s : PipelineWorld) (call : PipelineCall) : Prop where
  click : call.stage.ofApproval = true → call.click.incoming.decision = .approved
  record : ∀ record, call.stage.record = some record → ∃ row, s.row = some row ∧ record.Names row
  approval : ∀ record outcome, call.stage = .enqueueing record outcome → record.decision = .approved
  quorum : call.stage = .claiming ∨ (∃ record outcome, call.stage = .enqueueing record outcome) →
    s.quorumMet = true
  resumes : call.resumes = true → s.row.isSome = true
  unsigned : call.resumes = true → call.stage = .claiming → s.rejected = true →
    ∃ signature ∈ s.signatures, signature.afterRejection = true

structure PipelineSound (s : PipelineWorld) : Prop where
  claims : s.claims.length = s.row.toList.length
  calls : ∀ call ∈ s.calls, CallSound s call

/-- The claim stays, and what has been signed stays signed. -/
structure Grows (s next : PipelineWorld) : Prop where
  row : ∀ row, s.row = some row → ∃ row', next.row = some row' ∧ row.Names row' ∧
    (row.applied = true → row'.applied = true)
  quorum : s.quorumMet = true → next.quorumMet = true
  signatures : ∀ signature ∈ s.signatures, signature ∈ next.signatures

theorem DecisionRecord.Names.refl (record : DecisionRecord) : record.Names record := ⟨rfl, rfl, rfl⟩

theorem DecisionRecord.Names.trans {record row row' : DecisionRecord} (h : record.Names row)
    (h' : row.Names row') : record.Names row' :=
  ⟨h'.1.trans h.1, h'.2.1.trans h.2.1, h'.2.2.trans h.2.2⟩

theorem grows_of_same (row : next.row = s.row) (quorum : next.quorumMet = s.quorumMet)
    (signatures : next.signatures = s.signatures) : Grows s next where
  row := fun found h => ⟨found, row.trans h, .refl found, id⟩
  quorum := fun h => quorum.trans h
  signatures := fun _ h => signatures ▸ h

theorem Grows.applied (h : Grows s next) (happlied : s.applied = true) : next.applied = true := by
  rw [PipelineWorld.applied, Option.any_eq_true] at happlied
  obtain ⟨row, hrow, hset⟩ := happlied
  obtain ⟨row', hrow', -, hkept⟩ := h.row row hrow
  rw [PipelineWorld.applied, hrow']
  exact hkept hset

theorem CallSound.grows (h : CallSound s call) (grows : Grows s next) : CallSound next call where
  click := h.click
  record := fun record hrecord => by
    obtain ⟨row, hrow, hnames⟩ := h.record record hrecord
    obtain ⟨row', hrow', hnames', -⟩ := grows.row row hrow
    exact ⟨row', hrow', hnames.trans hnames'⟩
  approval := h.approval
  quorum := fun hstage => grows.quorum (h.quorum hstage)
  resumes := fun hresumes => by
    obtain ⟨row, hrow⟩ := Option.isSome_iff_exists.mp (h.resumes hresumes)
    obtain ⟨row', hrow', -⟩ := grows.row row hrow
    rw [hrow']
    rfl
  unsigned := fun hresumes hstage hrejected => by
    obtain ⟨row, hrow⟩ := Option.isSome_iff_exists.mp (h.resumes hresumes)
    obtain ⟨row', hrow', hnames, -⟩ := grows.row row hrow
    rw [PipelineWorld.rejected, hrow'] at hrejected
    have hsame : s.rejected = true := by
      rw [PipelineWorld.rejected, hrow]
      exact decide_eq_true (hnames.1.symm.trans (of_decide_eq_true hrejected))
    obtain ⟨signature, hsignature, hafter⟩ := h.unsigned hresumes hstage hsame
    exact ⟨signature, grows.signatures signature hsignature, hafter⟩

/-- What a step has to give: the claim kept, and the call it moves. -/
theorem PipelineSound.advance (h : PipelineSound s) (grows : Grows s next)
    (claims : next.claims.length = next.row.toList.length)
    (calls : ∀ other ∈ next.calls, other ∈ s.calls ∨ CallSound next other) : PipelineSound next where
  claims := claims
  calls := fun other hother =>
    (calls other hother).elim (fun hold => (h.calls other hold).grows grows) id

/-- One call comes to another stage. -/
theorem PipelineSound.moves (h : PipelineSound s) (hcall : s.calls[i]? = some call)
    {stage : PipelineStage} (grows : Grows s next)
    (claims : next.claims.length = next.row.toList.length)
    (calls : next.calls = s.calls.set i { call with stage := stage })
    (moved : CallSound next call → CallSound next { call with stage := stage }) :
    PipelineSound next ∧ Grows s next := by
  refine ⟨h.advance grows claims fun other hother => ?_, grows⟩
  rw [calls] at hother
  obtain hold | rfl := List.mem_or_eq_of_mem_set hother
  · exact .inl hold
  · exact .inr (moved ((h.calls call (List.mem_of_getElem? hcall)).grows grows))

/-- A call that comes to a stage where it claims and hands off nothing. -/
theorem callSound_plain (h : CallSound next call) {stage : PipelineStage}
    (hclick : stage.ofApproval = true → call.click.incoming.decision = .approved)
    (hrecord : ∀ record, stage.record = some record → ∃ row, next.row = some row ∧ record.Names row)
    (hclaiming : stage ≠ .claiming) (henqueueing : ∀ record outcome, stage ≠ .enqueueing record outcome) :
    CallSound next { call with stage := stage } where
  click := hclick
  record := hrecord
  approval := fun record outcome hstage => absurd hstage (henqueueing record outcome)
  quorum := fun hstage => by
    obtain hsame | ⟨record, outcome, hsame⟩ := hstage
    · exact absurd hsame hclaiming
    · exact absurd hsame (henqueueing record outcome)
  resumes := h.resumes
  unsigned := fun _ hstage => absurd hstage hclaiming

theorem no_record {P : DecisionRecord → Prop} : ∀ record, none = some record → P record := by
  intro record h
  cases h

/-- A call that is over, or before its first write of a claim. -/
theorem callSound_bare (h : CallSound next call) {stage : PipelineStage}
    (hclick : stage.ofApproval = true → call.click.incoming.decision = .approved)
    (hrecord : stage.record = none) (hclaiming : stage ≠ .claiming) :
    CallSound next { call with stage := stage } := by
  refine callSound_plain h hclick (fun record hsome => ?_) hclaiming fun record outcome hsame => ?_
  · rw [hrecord] at hsome
    cases hsome
  · rw [hsame] at hrecord
    cases hrecord

/-- A call that is about to hand an approval off. -/
theorem callSound_enqueueing (h : CallSound next call) {record : DecisionRecord}
    {outcome : ApprovalOutcome} (happroved : record.decision = .approved)
    (hquorum : next.quorumMet = true) (hrow : ∃ row, next.row = some row ∧ record.Names row) :
    CallSound next { call with stage := .enqueueing record outcome } where
  click := fun hof => by cases hof
  record := fun other hother => by
    cases hother
    exact hrow
  approval := fun other _ hother => by
    cases hother
    exact happroved
  quorum := fun _ => hquorum
  resumes := h.resumes
  unsigned := fun _ hstage => by cases hstage

theorem markRow_names (record row : DecisionRecord) :
    row.Names (markRow record row) ∧ (row.applied = true → (markRow record row).applied = true) := by
  unfold markRow
  split
  · exact ⟨.refl row, fun _ => rfl⟩
  · exact ⟨.refl row, id⟩

theorem markRow_applied {record row : DecisionRecord} (h : record.Names row) :
    (markRow record row).applied = true := by
  have hfound : row.decision = record.decision ∧ row.actorId = record.actorId ∧
      row.decidedAt = record.decidedAt := h
  rw [markRow, if_pos hfound]

theorem grows_mark (s : PipelineWorld) (i : Nat) (call : PipelineCall) (record : DecisionRecord)
    (outcome : ApprovalOutcome) : Grows s (s.mark i call record outcome) where
  row := fun row hrow => by
    refine ⟨markRow record row, ?_, markRow_names record row⟩
    rw [mark, hrow]
    rfl
  quorum := id
  signatures := fun _ => id

theorem admit_incoming {incoming : IncomingDecision} {reads : ClickReads} {click : AdmittedClick}
    (h : admitClick incoming reads = .ok click) : click.incoming = incoming := by
  unfold admitClick at h
  split at h
  · cases h
  · split at h
    · cases h
    · split at h
      · cases h
      · split at h
        · cases h
        · split at h
          · cases h
          · cases h
            rfl

/-- The claim of a decision nobody has claimed. -/
theorem grows_claim (hrow : s.row = none) (stage : PipelineStage) (record : DecisionRecord) :
    Grows s { s.settle i call stage with
      row := some record
      claims := s.claims ++ [record] } where
  row := fun row hsome => by
    rw [hrow] at hsome
    cases hsome
  quorum := id
  signatures := fun _ => id

theorem PipelineSound.claimed (h : PipelineSound s) (hrow : s.row = none) (record : DecisionRecord) :
    (s.claims ++ [record]).length = (some record).toList.length := by
  rw [List.length_append, h.claims, hrow]
  rfl

/-- The step of a call keeps the claim, and what holds of the calls. -/
theorem PipelineSound.callStep (h : PipelineSound s) {stage : PipelineStage}
    (hcall : s.calls[i]? = some call) (hstage : call.stage = stage) {label : PipelineLabel}
    (hstep : s.callStep i call label stage = some next) : PipelineSound next ∧ Grows s next := by
  have hsound := h.calls call (List.mem_of_getElem? hcall)
  have hsame : ∀ stage, Grows s (s.settle i call stage) := fun _ => grows_of_same rfl rfl rfl
  have hbare : ∀ {stage : PipelineStage}, stage.ofApproval = false → stage.record = none →
      stage ≠ .claiming → PipelineSound (s.settle i call stage) ∧ Grows s (s.settle i call stage) :=
    fun hof hrecord hclaiming => h.moves hcall (hsame _) h.claims rfl fun hmoved =>
      callSound_bare hmoved (fun htrue => by rw [hof] at htrue; cases htrue) hrecord hclaiming
  unfold PipelineWorld.callStep at hstep
  split at hstep
  · -- claim of a rejection
    cases hstep
    unfold claimRejection claim
    cases hrow : s.row with
    | none =>
        refine h.moves hcall (grows_claim hrow _ _) (h.claimed hrow _) rfl fun hmoved =>
          callSound_plain hmoved (fun hof => by cases hof) (fun record hrecord => ?_)
            (fun hsame => by cases hsame) fun _ _ hsame => by cases hsame
        cases hrecord
        exact ⟨_, rfl, .refl _⟩
    | some row =>
        dsimp only
        split
        · exact hbare rfl rfl fun hsame => by cases hsame
        · refine h.moves hcall (hsame _) h.claims rfl fun hmoved =>
            callSound_plain hmoved (fun hof => by cases hof) (fun record hrecord => ?_)
              (fun hsame => by cases hsame) fun _ _ hsame => by cases hsame
          cases hrecord
          exact ⟨_, hrow, .refl _⟩
  · -- claim of an approval
    cases hstep
    unfold claimApproval claim
    have happroved := hsound.click (by rw [hstage]; rfl)
    have hquorum := hsound.quorum (.inl hstage)
    cases hrow : s.row with
    | none =>
        exact h.moves hcall (grows_claim hrow _ _) (h.claimed hrow _) rfl fun hmoved =>
          callSound_enqueueing hmoved happroved hquorum ⟨_, rfl, .refl _⟩
    | some row =>
        dsimp only
        split
        · rename_i htakes
          exact h.moves hcall (hsame _) h.claims rfl fun hmoved =>
            callSound_enqueueing hmoved htakes.1 hquorum ⟨_, hrow, .refl _⟩
        · exact hbare rfl rfl fun hsame => by cases hsame
  · -- the audit record of a claim
    rename_i record outcome
    cases hstep
    unfold PipelineWorld.record
    split
    · exact hbare rfl rfl fun hsame => by cases hsame
    · refine h.moves hcall (grows_of_same rfl rfl rfl) h.claims rfl fun hmoved =>
        callSound_plain hmoved (fun hof => by cases hof) (fun other hother => ?_)
          (fun hsame => by cases hsame) fun _ _ hsame => by cases hsame
      cases hother
      exact hsound.record record (by rw [hstage]; rfl)
  · -- the audit record of an approval
    cases hstep
    have happroved := hsound.click (by rw [hstage]; rfl)
    unfold PipelineWorld.record
    split
    · exact hbare rfl rfl fun hsame => by cases hsame
    · exact h.moves hcall (grows_of_same rfl rfl rfl) h.claims rfl fun hmoved =>
        callSound_bare hmoved (fun _ => happroved) rfl fun hsame => by cases hsame
  · -- the signature
    rename_i quorumMet
    cases hstep
    have happroved := hsound.click (by rw [hstage]; rfl)
    have hgrows : Grows s (s.sign i call quorumMet) :=
      ⟨fun row hrow => ⟨row, hrow, .refl row, id⟩, (fun hmet => by rw [sign, hmet]; rfl),
        fun _ => List.mem_append_left _⟩
    refine h.moves hcall hgrows h.claims rfl fun hmoved => ?_
    cases quorumMet with
    | false => exact callSound_bare hmoved (fun hof => by cases hof) rfl fun hsame => by cases hsame
    | true =>
        refine ⟨fun _ => happroved, no_record, fun _ _ hsame => (by cases hsame),
          fun _ => Bool.or_true _, hmoved.resumes, fun _ _ hrejected => ?_⟩
        exact ⟨_, List.mem_append_right _ (List.mem_singleton.mpr rfl), hrejected⟩
  · -- the handoff
    rename_i returns record outcome
    cases hstep
    have hgrows : Grows s (s.enqueue i call record outcome returns) := grows_of_same rfl rfl rfl
    refine h.moves hcall hgrows h.claims rfl fun hmoved => ?_
    cases returns with
    | false => exact callSound_bare hmoved (fun hof => by cases hof) rfl fun hsame => by cases hsame
    | true =>
        refine callSound_plain hmoved (fun hof => by cases hof)
          (fun other hother => ?_) (fun hsame => by cases hsame) fun _ _ hsame => by cases hsame
        cases hother
        exact hsound.record record (by rw [hstage]; rfl)
  · -- the mark
    rename_i record outcome
    cases hstep
    refine h.moves hcall (grows_mark s i call record outcome) ?_ rfl fun hmoved =>
      callSound_bare hmoved (fun hof => by cases hof) rfl fun hsame => by cases hsame
    rw [mark]
    change s.claims.length = _
    rw [h.claims]
    cases s.row <;> rfl
  · -- a throw
    split at hstep
    · cases hstep
    · cases hstep
      exact hbare rfl rfl fun hsame => by cases hsame
  · cases hstep

/-- A click comes, or a call goes on. -/
theorem pipelineStep_cases {label : PipelineLabel}
    (hstep : pipelineMachine.step s label = some next) :
    (∃ incoming reads, label = .click incoming reads ∧ next = s.start incoming reads) ∨
      ∃ i call, label.of = some i ∧ s.calls[i]? = some call ∧
        s.callStep i call label call.stage = some next := by
  cases label with
  | click incoming reads =>
      cases hstep
      exact .inl ⟨_, _, rfl, rfl⟩
  | claim | audit | sign | enqueue | mark | throws =>
      obtain ⟨call, hcall, hstep⟩ := Option.bind_eq_some_iff.mp hstep
      exact .inr ⟨_, call, rfl, hcall, hstep⟩

theorem interrupted_isSome (h : s.interrupted = true) : s.row.isSome = true := by
  rw [interrupted, Option.any_eq_true] at h
  obtain ⟨row, hrow, -⟩ := h
  rw [hrow]
  rfl

/-- A click that is let in brings one call, before its first write. -/
theorem start_cases (incoming : IncomingDecision) (reads : ClickReads) :
    s.start incoming reads = s ∨ ∃ call : PipelineCall,
      s.start incoming reads = { s with calls := s.calls ++ [call] } ∧ CallSound s call ∧
        call.stage.finished = false := by
  unfold PipelineWorld.start
  cases hadmit : admitClick incoming reads with
  | error _ => exact .inl rfl
  | ok click =>
      refine .inr ⟨_, rfl, ?_, ?_⟩
      · have hclick := admit_incoming hadmit
        cases hdecision : incoming.decision with
        | approved =>
            exact ⟨fun _ => hclick ▸ hdecision, no_record, fun _ _ hsame => (by cases hsame),
              fun hsame => (by obtain hsame | ⟨_, _, hsame⟩ := hsame <;> cases hsame),
              interrupted_isSome, fun _ hsame => by cases hsame⟩
        | rejected =>
            exact ⟨fun hof => (by cases hof), no_record, fun _ _ hsame => (by cases hsame),
              fun hsame => (by obtain hsame | ⟨_, _, hsame⟩ := hsame <;> cases hsame),
              interrupted_isSome, fun _ hsame => by cases hsame⟩
      · cases incoming.decision <;> rfl

theorem PipelineSound.step (h : PipelineSound s) {label : PipelineLabel}
    (hstep : pipelineMachine.step s label = some next) : PipelineSound next ∧ Grows s next := by
  obtain ⟨incoming, reads, -, rfl⟩ | ⟨i, call, -, hcall, hstep⟩ := pipelineStep_cases hstep
  · obtain hsame | ⟨call, hnext, hsound, -⟩ := start_cases (s := s) incoming reads
    · rw [hsame]
      exact ⟨h, grows_of_same rfl rfl rfl⟩
    · rw [hnext]
      have hgrows : Grows s { s with calls := s.calls ++ [call] } := grows_of_same rfl rfl rfl
      refine ⟨h.advance hgrows h.claims fun other hother => ?_, hgrows⟩
      obtain hold | hnew := List.mem_append.mp hother
      · exact .inl hold
      · rw [List.mem_singleton.mp hnew]
        exact .inr (hsound.grows hgrows)
  · exact h.callStep hcall rfl hstep

/-! ## What a step decides -/

/-- What a step has to give for the promises. -/
theorem PipelineSafe.advance (h : PipelineSafe s) (sound : PipelineSound next) (grows : Grows s next)
    (handoffs : ∀ handoff ∈ next.handoffs,
      handoff ∈ s.handoffs ∨ handoff.quorumMet = true ∧ handoff.approvalClaimed = true)
    (handedOff : ∀ row, next.row = some row → row.decision = .approved → row.applied = true →
      next.handedOff = true)
    (signatures : ∀ signature ∈ next.signatures,
      signature ∈ s.signatures ∨ signature.afterRejection = false)
    (calls : ∀ other ∈ next.calls, other ∈ s.calls ∨
      (other.resumes = true → other.stage.finished = true → next.applied = true)) :
    PipelineSafe next where
  oneClaim := by
    rw [sound.claims]
    exact Option.length_toList_le
  handoffs := fun handoff hhandoff => (handoffs handoff hhandoff).elim (h.handoffs handoff) id
  handedOff := handedOff
  signatures := fun signature hsignature =>
    (signatures signature hsignature).elim (h.signatures signature) id
  resumed := fun other hother hresumes hfinished => by
    obtain hold | hnew := calls other hother
    · exact grows.applied (h.resumed other hold hresumes hfinished)
    · exact hnew hresumes hfinished

/-- A step that signs, hands off and marks nothing keeps the promises if its call is not left short. -/
theorem PipelineSafe.moves (h : PipelineSafe s) (sound : PipelineSound next) (grows : Grows s next)
    {stage : PipelineStage} (calls : next.calls = s.calls.set i { call with stage := stage })
    (row : next.row = s.row ∨ ∀ row, next.row = some row → row.applied = false)
    (handoffs : next.handoffs = s.handoffs) (handedOff : next.handedOff = s.handedOff)
    (signatures : next.signatures = s.signatures)
    (done : call.resumes = true → stage.finished = true → next.applied = true) :
    PipelineSafe next := by
  refine h.advance sound grows (fun handoff hhandoff => .inl (handoffs ▸ hhandoff))
    (fun found hfound happroved happlied => ?_) (fun signature hsignature => .inl (signatures ▸ hsignature))
    fun other hother => ?_
  · rw [handedOff]
    obtain hsame | hnew := row
    · exact h.handedOff found (hsame ▸ hfound) happroved happlied
    · rw [hnew found hfound] at happlied
      cases happlied
  · rw [calls] at hother
    obtain hold | rfl := List.mem_or_eq_of_mem_set hother
    · exact .inl hold
    · exact .inr done

/-- In a safe state a call that has come to its end has not left its claim short. -/
theorem PipelineSafe.done (h : PipelineSafe next) (hcall : s.calls[i]? = some call)
    {stage : PipelineStage} (calls : next.calls = s.calls.set i { call with stage := stage })
    (hresumes : call.resumes = true) (hfinished : stage.finished = true) : next.applied = true := by
  refine h.resumed { call with stage := stage } ?_ hresumes hfinished
  rw [calls]
  exact List.mem_of_getElem? (set_self hcall)

/-- The audit record of a claim loses nothing unless the log refuses it to a click that resumes. -/
theorem record_decides (h : PipelineSafe s) (hcall : s.calls[i]? = some call)
    {record : DecisionRecord} {stage : PipelineStage} (hstage : stage.finished = false)
    (sound : PipelineSound (s.record i call record stage))
    (grows : Grows s (s.record i call record stage)) :
    PipelineSafe (s.record i call record stage) ↔
      (call.resumes = true → s.Records call record ∨ s.applied = true) := by
  unfold PipelineWorld.record at sound grows ⊢
  unfold Records
  cases happend : append (s.decidedEvent call.click record) s.audit with
  | none =>
      rw [happend] at sound grows
      constructor
      · intro hnext hresumes
        exact .inr (hnext.done hcall rfl hresumes rfl)
      · intro hguard
        refine h.moves sound grows rfl (.inl rfl) rfl rfl rfl fun hresumes _ => ?_
        exact (hguard hresumes).resolve_left fun hrecords => hrecords rfl
  | some audit =>
      rw [happend] at sound grows
      refine iff_of_true ?_ fun _ => .inl fun hnone => by cases hnone
      refine h.moves sound grows rfl (.inl rfl) rfl rfl rfl fun _ hfinished => ?_
      rw [hstage] at hfinished
      cases hfinished

theorem callStep_decides (holds : PipelineSound s) (h : PipelineSafe s) {stage : PipelineStage}
    (hcall : s.calls[i]? = some call) (hstage : call.stage = stage) {label : PipelineLabel}
    (hstep : s.callStep i call label stage = some next) :
    PipelineSafe next ↔ s.KeepsCall call label stage := by
  obtain ⟨sound, grows⟩ := holds.callStep hcall hstage hstep
  have hsound := holds.calls call (List.mem_of_getElem? hcall)
  unfold PipelineWorld.callStep at hstep
  split at hstep
  · -- claim of a rejection
    cases hstep
    refine iff_of_true ?_ trivial
    unfold claimRejection claim at sound grows ⊢
    cases hrow : s.row with
    | none =>
        rw [hrow] at sound grows
        refine h.moves sound grows rfl (.inr fun row hsome => ?_) rfl rfl rfl fun _ hfinished => ?_
        · cases hsome
          rfl
        · cases hfinished
    | some row =>
        rw [hrow] at sound grows
        refine h.moves sound grows rfl (.inl rfl) rfl rfl rfl fun _ hfinished => ?_
        by_cases happlied : row.applied = true
        · change s.row.any DecisionRecord.applied = true
          rw [hrow]
          exact happlied
        · beta_reduce at hfinished
          rw [if_neg happlied] at hfinished
          cases hfinished
  · -- claim of an approval
    cases hstep
    refine iff_of_true ?_ trivial
    unfold claimApproval claim at sound grows ⊢
    cases hrow : s.row with
    | none =>
        rw [hrow] at sound grows
        refine h.moves sound grows rfl (.inr fun row hsome => ?_) rfl rfl rfl fun _ hfinished => ?_
        · cases hsome
          rfl
        · cases hfinished
    | some row =>
        rw [hrow] at sound grows
        refine h.moves sound grows rfl (.inl rfl) rfl rfl rfl fun hresumes hfinished => ?_
        change s.row.any DecisionRecord.applied = true
        rw [hrow]
        by_cases happlied : row.applied = true
        · exact happlied
        · -- a rejection left unapplied was there when the call signed
          exfalso
          by_cases happroved : row.decision = .approved
          · beta_reduce at hfinished
            rw [if_pos ⟨happroved, Bool.eq_false_iff.mpr happlied⟩] at hfinished
            cases hfinished
          · have hrejected : s.rejected = true := by
              rw [PipelineWorld.rejected, hrow]
              cases hdecision : row.decision with
              | approved => exact absurd hdecision happroved
              | rejected => exact decide_eq_true hdecision
            obtain ⟨signature, hsignature, hafter⟩ := hsound.unsigned hresumes hstage hrejected
            rw [h.signatures signature hsignature] at hafter
            cases hafter
  · -- the audit record of a claim
    cases hstep
    exact record_decides h hcall rfl sound grows
  · -- the audit record of an approval
    cases hstep
    exact record_decides h hcall rfl sound grows
  · -- the signature
    rename_i quorumMet
    cases hstep
    constructor
    · intro hnext
      refine ⟨hnext.signatures ⟨call.click.actorId, s.rejected⟩
        (List.mem_append_right _ (List.mem_singleton.mpr rfl)), fun hresumes => ?_⟩
      cases quorumMet with
      | true => exact .inl rfl
      | false => exact .inr (hnext.done hcall rfl hresumes rfl)
    · rintro ⟨hrejected, hguard⟩
      refine h.advance sound grows (fun _ => .inl) h.handedOff (fun signature hsignature => ?_)
        fun other hother => ?_
      · obtain hold | hnew := List.mem_append.mp hsignature
        · exact .inl hold
        · rw [List.mem_singleton.mp hnew]
          exact .inr hrejected
      · obtain hold | rfl := List.mem_or_eq_of_mem_set hother
        · exact .inl hold
        · refine .inr fun hresumes hfinished => ?_
          cases quorumMet with
          | true => cases hfinished
          | false => exact (hguard hresumes).resolve_left fun hmet => by cases hmet
  · -- the handoff
    rename_i returns record outcome
    cases hstep
    refine iff_of_true ?_ trivial
    refine h.advance sound grows (fun handoff hhandoff => ?_) (fun row hrow happroved happlied => ?_)
      (fun _ => .inl) fun other hother => ?_
    · obtain hold | hnew := List.mem_append.mp hhandoff
      · exact .inl hold
      · rw [List.mem_singleton.mp hnew]
        obtain ⟨row, hrow, hnames⟩ := hsound.record record (by rw [hstage]; rfl)
        refine .inr ⟨hsound.quorum (.inr ⟨record, outcome, hstage⟩), ?_⟩
        change (s.row.any fun row => decide (row.decision = .approved)) = true
        rw [hrow]
        exact decide_eq_true (hnames.1.trans (hsound.approval record outcome hstage))
    · change (s.handedOff || returns) = true
      rw [h.handedOff row hrow happroved happlied]
      rfl
    · obtain hold | rfl := List.mem_or_eq_of_mem_set hother
      · exact .inl hold
      · refine .inr fun _ hfinished => ?_
        cases returns <;> cases hfinished
  · -- the mark
    rename_i record outcome
    cases hstep
    obtain ⟨row, hrow, hnames⟩ := hsound.record record (by rw [hstage]; rfl)
    have hnext : (s.mark i call record outcome).row = some (markRow record row) := by
      rw [mark, hrow]
      rfl
    have happlied : (s.mark i call record outcome).applied = true := by
      rw [PipelineWorld.applied, hnext]
      exact markRow_applied hnames
    constructor
    · intro hsafe happroved
      refine hsafe.handedOff _ hnext ?_ (markRow_applied hnames)
      exact (markRow_names record row).1.1.trans (hnames.1.trans happroved)
    · intro hguard
      refine h.advance sound grows (fun _ => .inl) (fun found hfound happroved _ => ?_)
        (fun _ => .inl) fun other hother => ?_
      · cases hnext.symm.trans hfound
        refine hguard (hnames.1.symm.trans ?_)
        exact (markRow_names record row).1.1.symm.trans happroved
      · obtain hold | rfl := List.mem_or_eq_of_mem_set hother
        · exact .inl hold
        · exact .inr fun _ _ => happlied
  · -- a throw
    split at hstep
    · cases hstep
    · cases hstep
      refine iff_of_true ?_ trivial
      exact h.moves sound grows rfl (.inl rfl) rfl rfl rfl fun _ hfinished => by cases hfinished
  · cases hstep

theorem step_decides {label : PipelineLabel} (holds : PipelineSound s) (h : PipelineSafe s)
    (hstep : pipelineMachine.step s label = some next) :
    PipelineSafe next ↔ KeepsPipeline s label := by
  obtain ⟨sound, grows⟩ := holds.step hstep
  obtain ⟨incoming, reads, rfl, rfl⟩ | ⟨i, call, hof, hcall, hstep⟩ := pipelineStep_cases hstep
  · refine iff_of_true ?_ fun i call hof => by cases hof
    obtain hsame | ⟨call, hnext, -, hstage⟩ := start_cases (s := s) incoming reads
    · rw [hsame]
      exact h
    · rw [hnext] at sound grows ⊢
      refine h.advance sound grows (fun _ => .inl) h.handedOff (fun _ => .inl) fun other hother => ?_
      obtain hold | hnew := List.mem_append.mp hother
      · exact .inl hold
      · rw [List.mem_singleton.mp hnew]
        refine .inr fun _ hfinished => ?_
        rw [hstage] at hfinished
        cases hfinished
  · refine (callStep_decides holds h hcall rfl hstep).trans ⟨fun hkeeps j other hj hother => ?_,
      fun hkeeps => hkeeps i call hof hcall⟩
    cases hof.symm.trans hj
    cases hcall.symm.trans hother
    exact hkeeps

/-! ## Every run -/

/-- No click has come yet. -/
structure Unclicked (s : PipelineWorld) : Prop where
  row : s.row = none
  calls : s.calls = []
  claims : s.claims = []
  signatures : s.signatures = []
  handoffs : s.handoffs = []

theorem Unclicked.sound (h : Unclicked s) : PipelineSound s where
  claims := by
    rw [h.claims, h.row]
    rfl
  calls := fun call hcall => by
    rw [h.calls] at hcall
    cases hcall

theorem Unclicked.safe (h : Unclicked s) : PipelineSafe s where
  oneClaim := by
    rw [h.claims]
    exact Nat.zero_le 1
  handoffs := fun handoff hhandoff => by
    rw [h.handoffs] at hhandoff
    cases hhandoff
  handedOff := fun row hrow => by
    rw [h.row] at hrow
    cases hrow
  signatures := fun signature hsignature => by
    rw [h.signatures] at hsignature
    cases hsignature
  resumed := fun call hcall => by
    rw [h.calls] at hcall
    cases hcall

namespace HalfApproved

def world : PipelineWorld := { tenantId := "tnt", proposalId := "prop" }

theorem unclicked : Unclicked world := ⟨rfl, rfl, rfl, rfl, rfl⟩

def clickOf (actorId : String) (decision : TerminalDecision) (decidedAt : String) : PipelineLabel :=
  .click ⟨.slack, actorId, decision, []⟩
    ⟨some ⟨"hash", false, true⟩, some actorId, ⟨true, none, some "approver"⟩, decidedAt⟩

/-- The first approver's claim, with the handoff never made. -/
def cutShort : List PipelineLabel :=
  [clickOf "ann" .approved "09:00", .audit 0, .sign 0 true, .claim 0, .throws 0]

/-- The approval that goes through. -/
def approved : List PipelineLabel :=
  [clickOf "ann" .approved "09:00", .audit 0, .sign 0 true, .claim 0, .enqueue 0 true, .mark 0]

end HalfApproved

end BrainCore.Surfaces
