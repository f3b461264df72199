import BrainCore.Surfaces.ApprovalSafety
import BrainCore.Surfaces.ShownProposals

/-!
# What was shown is what is executed

The hash an approval records is that of the row its click loaded.  It is the hash of
what the approver was shown while no save brings a hash of its own and no save in between
has put other content under the same key; and the target that is executed is bound by the
hash only while proposals that agree in what is hashed also name one target.
-/

namespace BrainCore.Surfaces

open Foundation PipelineWorld

/-! ## What a click has recorded -/

section Recorded

variable {s next : PipelineWorld} {i : Nat} {call : PipelineCall}

/-- An approval after its audit record, up to the handoff. -/
def PipelineStage.pastAudit : PipelineStage → Bool
  | .signing | .claiming | .enqueueing _ _ => true
  | .rejecting | .anchoring _ _ | .marking _ _ | .approving | .done _ | .refused | .thrown => false

/-- The event of an approval of this click. -/
def PipelineWorld.ownEvent (s : PipelineWorld) (call : PipelineCall) : DecidedEvent :=
  s.decidedEvent call.click call.click.record

/-- Approvals on their way to the handoff stand in the log. -/
def Recorded (s : PipelineWorld) : Prop :=
  ∀ call ∈ s.calls, call.stage.pastAudit = true → s.ownEvent call ∈ s.audit

/-- What a step of a call leaves: the log grows, and only the stage of the call changes. -/
structure Advances (s next : PipelineWorld) (i : Nat) (call : PipelineCall)
    (stage : PipelineStage) : Prop where
  calls : next.calls = s.calls.set i { call with stage := stage }
  tenantId : next.tenantId = s.tenantId
  proposalId : next.proposalId = s.proposalId
  audit : ∀ event ∈ s.audit, event ∈ next.audit
  past : stage.pastAudit = true → call.stage.pastAudit = true ∨ s.ownEvent call ∈ next.audit

theorem append_mem {event : DecidedEvent} {audit latest : List DecidedEvent}
    (h : append event audit = some latest) : event ∈ latest ∧ ∀ e ∈ audit, e ∈ latest := by
  unfold append at h
  split at h
  · cases h
    exact ⟨List.mem_append_right _ (List.mem_singleton.mpr rfl), fun _ => List.mem_append_left _⟩
  · rename_i hit hfound
    split at h
    · rename_i hsame
      cases h
      exact ⟨hsame ▸ List.mem_of_find?_eq_some hfound, fun _ => id⟩
    · cases h

theorem advances_settle {stage : PipelineStage}
    (past : stage.pastAudit = true → call.stage.pastAudit = true) :
    Advances s (s.settle i call stage) i call stage :=
  ⟨rfl, rfl, rfl, fun _ => id, fun hpast => .inl (past hpast)⟩

theorem advances_record {record : DecisionRecord} {stage : PipelineStage}
    (past : stage.pastAudit = true → record = call.click.record) :
    ∃ stage', Advances s (s.record i call record stage) i call stage' := by
  unfold PipelineWorld.record
  cases happend : append (s.decidedEvent call.click record) s.audit with
  | none => exact ⟨_, advances_settle fun hpast => by cases hpast⟩
  | some audit =>
      obtain ⟨hevent, hkept⟩ := append_mem happend
      refine ⟨stage, rfl, rfl, rfl, hkept, fun hpast => .inr ?_⟩
      rw [past hpast] at hevent
      exact hevent

theorem advances_claim {own : PipelineStage} {taken : DecisionRecord → PipelineStage}
    (past : call.stage.pastAudit = true ∨
      own.pastAudit = false ∧ ∀ row, (taken row).pastAudit = false) :
    ∃ stage', Advances s (s.claim i call own taken) i call stage' := by
  unfold PipelineWorld.claim
  cases s.row with
  | none =>
      refine ⟨own, rfl, rfl, rfl, fun _ => id, fun hpast => .inl ?_⟩
      exact past.resolve_right fun hnone => Bool.false_ne_true (hnone.1.symm.trans hpast)
  | some row =>
      refine ⟨taken row, advances_settle fun hpast => ?_⟩
      exact past.resolve_right fun hnone => Bool.false_ne_true ((hnone.2 row).symm.trans hpast)

theorem callStep_advances {stage : PipelineStage} (hstage : call.stage = stage)
    {label : PipelineLabel} (hstep : s.callStep i call label stage = some next) :
    ∃ stage', Advances s next i call stage' := by
  unfold PipelineWorld.callStep at hstep
  split at hstep
  · cases hstep
    refine advances_claim (.inr ⟨rfl, fun row => ?_⟩)
    split <;> rfl
  · cases hstep
    exact advances_claim (.inl (by rw [hstage]; rfl))
  · cases hstep
    exact advances_record fun hpast => by cases hpast
  · cases hstep
    exact advances_record fun _ => rfl
  · cases hstep
    refine ⟨_, rfl, rfl, rfl, fun _ => id, fun _ => .inl ?_⟩
    rw [hstage]
    rfl
  · rename_i returns record outcome
    cases hstep
    refine ⟨_, rfl, rfl, rfl, fun _ => id, fun hpast => ?_⟩
    cases returns <;> cases hpast
  · cases hstep
    exact ⟨_, rfl, rfl, rfl, fun _ => id, fun hpast => by cases hpast⟩
  · split at hstep
    · cases hstep
    · cases hstep
      exact ⟨_, advances_settle fun hpast => by cases hpast⟩
  · cases hstep

theorem Advances.ownEvent {stage : PipelineStage} (h : Advances s next i call stage)
    (other : PipelineCall) : next.ownEvent other = s.ownEvent other := by
  unfold PipelineWorld.ownEvent decidedEvent
  rw [h.tenantId, h.proposalId]

theorem Recorded.advances (h : Recorded s) {stage : PipelineStage}
    (hcall : s.calls[i]? = some call) (advances : Advances s next i call stage) :
    Recorded next := by
  intro other hother hpast
  rw [advances.ownEvent]
  rw [advances.calls] at hother
  obtain hold | rfl := List.mem_or_eq_of_mem_set hother
  · exact advances.audit _ (h other hold hpast)
  · refine (advances.past hpast).elim (fun hbefore => ?_) id
    exact advances.audit _ (h call (List.mem_of_getElem? hcall) hbefore)

/-- A click that is let in carries the hash it has read. -/
theorem admit_contentHash {incoming : IncomingDecision} {reads : ClickReads} {click : AdmittedClick}
    (h : admitClick incoming reads = .ok click) :
    ∃ proposal, reads.proposal = some proposal ∧ click.contentHash = proposal.contentHash := by
  unfold admitClick at h
  split at h
  · cases h
  · rename_i proposal hproposal
    refine ⟨proposal, hproposal, ?_⟩
    split at h
    · cases h
    · split at h
      · cases h
      · split at h
        · cases h
        · split at h
          · cases h
          · cases h
            rfl

/-- A click starts nothing, or one call that has recorded nothing yet. -/
theorem start_advances (incoming : IncomingDecision) (reads : ClickReads) :
    s.start incoming reads = s ∨ ∃ call proposal,
      s.start incoming reads = { s with calls := s.calls ++ [call] } ∧
        call.stage.pastAudit = false ∧ reads.proposal = some proposal ∧
          call.click.contentHash = proposal.contentHash := by
  unfold PipelineWorld.start
  cases hadmit : admitClick incoming reads with
  | error _ => exact .inl rfl
  | ok click =>
      obtain ⟨proposal, hproposal, hhash⟩ := admit_contentHash hadmit
      refine .inr ⟨_, proposal, rfl, ?_, hproposal, hhash⟩
      cases incoming.decision <;> rfl

theorem Recorded.start (h : Recorded s) (incoming : IncomingDecision) (reads : ClickReads) :
    Recorded (s.start incoming reads) := by
  obtain hsame | ⟨call, proposal, hnext, hpast, -⟩ := start_advances (s := s) incoming reads
  · rw [hsame]
    exact h
  · rw [hnext]
    intro other hother hpast'
    obtain hold | hnew := List.mem_append.mp hother
    · exact h other hold hpast'
    · rw [List.mem_singleton.mp hnew, hpast] at hpast'
      cases hpast'

theorem start_audit (incoming : IncomingDecision) (reads : ClickReads) :
    (s.start incoming reads).audit = s.audit := by
  obtain hsame | ⟨call, proposal, hnext, -⟩ := start_advances (s := s) incoming reads
  · rw [hsame]
  · rw [hnext]

end Recorded

/-! ## The promise -/

section Promise

variable {sha256 : List Char → String} {s next : SurfaceWorld}

/-- What an approver decides on. -/
structure SameSubject (p q : Proposal) : Prop where
  executionTarget : p.executionTarget = q.executionTarget
  amount : p.action.amount = q.action.amount
  payee : p.payee = q.payee
  policy : p.policy = q.policy

structure ShownSafe (sha256 : List Char → String) (s : SurfaceWorld) : Prop where
  /-- A stored content hash is the hash of the stored proposal. -/
  stored : ∀ key row, s.rows key = some row → row.contentHash = hashProposal sha256 row.proposal
  /-- So is the hash of every proposal saved or dispatched so far. -/
  carried : ∀ p ∈ s.known, p.contentHash = some (hashProposal sha256 p)
  /-- The event of an approval handed to execution holds the hash of what was shown. -/
  handoffs : ∀ handoff ∈ s.handoffs, handoff.event ∈ (s.pipelines handoff.key).audit ∧
    handoff.event.contentHash = hashProposal sha256 handoff.shown
  /-- A content hash stands for one target, one amount, one payee and one policy. -/
  bound : ∀ p ∈ s.known, ∀ q ∈ s.known, p.contentHash = q.contentHash → SameSubject p q

/-- The proposal comes without a content hash, or with its own. -/
def OwnHash (sha256 : List Char → String) (p : Proposal) : Prop :=
  ∀ hash, p.contentHash = some hash → hash ≠ "" → hash = hashProposal sha256 p

/-- What is known to agree with the proposal in all that is hashed names the same target. -/
def SurfaceWorld.SameTarget (s : SurfaceWorld) (p : Proposal) : Prop :=
  ∀ q ∈ s.known, Agrees p q → p.executionTarget = q.executionTarget

/-- The call loaded what the message of its click had shown. -/
def SurfaceWorld.LoadedAsShown (s : SurfaceWorld) (key : ProposalKey) : PipelineLabel → Prop
  | .enqueue i _ => ∀ load, s.loads key i = some load → Agrees load.loaded load.shown
  | _ => True

/-- The step does not part what is shown from what is executed. -/
def KeepsShown (sha256 : List Char → String) (s : SurfaceWorld) : SurfaceLabel → Prop
  | .save p => OwnHash sha256 p ∧ s.SameTarget p
  | .dispatch p expired _ => expired = false → s.SameTarget p
  | .click _ _ _ => True
  | .advance key label => s.LoadedAsShown key label

/-! ## What every run keeps -/

structure SurfaceSound (s : SurfaceWorld) : Prop where
  rows : ∀ key row, s.rows key = some row →
    row.proposal ∈ s.known ∧ row.proposal.contentHash = some row.contentHash
  pipelines : ∀ key, Recorded (s.pipelines key)
  /-- A call carries the hash of the proposal it loaded. -/
  loads : ∀ key i call, (s.pipelines key).calls[i]? = some call → ∃ load,
    s.loads key i = some load ∧ load.loaded ∈ s.known ∧
      load.loaded.contentHash = some call.click.contentHash
  handoffs : ∀ handoff ∈ s.handoffs, handoff.event ∈ (s.pipelines handoff.key).audit

/-- A save takes the proposal as it came, or hashes it. -/
theorem savedProposal_cases (sha256 : List Char → String) (p : Proposal) :
    savedProposal sha256 p = withContentHash sha256 p ∧ OwnHash sha256 p ∨
      savedProposal sha256 p = p ∧ ∃ hash, p.contentHash = some hash ∧ hash ≠ "" := by
  unfold savedProposal OwnHash
  cases p.contentHash with
  | none => exact .inl ⟨rfl, fun _ hsame => by cases hsame⟩
  | some hash =>
      dsimp only
      by_cases hempty : hash = ""
      · refine .inl ⟨if_pos hempty, fun other hother hne => ?_⟩
        cases hother
        exact absurd hempty hne
      · exact .inr ⟨if_neg hempty, hash, rfl, hempty⟩

theorem savedProposal_hash (sha256 : List Char → String) (p : Proposal) :
    hashProposal sha256 (savedProposal sha256 p) = hashProposal sha256 p ∧
      (savedProposal sha256 p).executionTarget = p.executionTarget := by
  obtain ⟨hsaved, -⟩ | ⟨hsaved, -⟩ := savedProposal_cases sha256 p <;> rw [hsaved]
  · exact ⟨rfl, rfl⟩
  · exact ⟨rfl, rfl⟩

theorem savedProposal_isSome (sha256 : List Char → String) (p : Proposal) :
    ∃ hash, (savedProposal sha256 p).contentHash = some hash := by
  obtain ⟨hsaved, -⟩ | ⟨hsaved, hash, hhash, -⟩ := savedProposal_cases sha256 p <;> rw [hsaved]
  · exact ⟨_, rfl⟩
  · exact ⟨hash, hhash⟩

/-- A saved proposal has its own hash exactly when none other came with it. -/
theorem savedProposal_own_iff (p : Proposal) :
    (savedProposal sha256 p).contentHash = some (hashProposal sha256 (savedProposal sha256 p)) ↔
      OwnHash sha256 p := by
  rw [(savedProposal_hash sha256 p).1]
  obtain ⟨hsaved, hown⟩ | ⟨hsaved, hash, hhash, hne⟩ := savedProposal_cases sha256 p <;>
    rw [hsaved]
  · exact iff_of_true rfl hown
  · rw [hhash]
    constructor
    · intro hsame other hother _
      rw [hhash] at hother
      rw [← Option.some.inj hother]
      exact Option.some.inj hsame
    · exact fun hown => congrArg some (hown hash hhash hne)

/-! ## Saves, clicks and calls keep it -/

theorem SurfaceSound.learn (h : SurfaceSound s) {p : Proposal}
    {rows : ProposalKey → Option ProposalRow} {deliveries : List Delivery}
    (hrows : ∀ key row, rows key = some row → s.rows key = some row ∨
      row.proposal = p ∧ p.contentHash = some row.contentHash) :
    SurfaceSound { s with rows := rows, deliveries := deliveries, known := s.known ++ [p] } where
  rows := fun key row hrow => by
    obtain hold | ⟨hproposal, hhash⟩ := hrows key row hrow
    · obtain ⟨hmem, hsame⟩ := h.rows key row hold
      exact ⟨List.mem_append_left _ hmem, hsame⟩
    · rw [hproposal]
      exact ⟨List.mem_append_right _ (List.mem_singleton.mpr rfl), hhash⟩
  pipelines := h.pipelines
  loads := fun key i call hcall => by
    obtain ⟨load, hload, hmem, hhash⟩ := h.loads key i call hcall
    exact ⟨load, hload, List.mem_append_left _ hmem, hhash⟩
  handoffs := h.handoffs

theorem SurfaceSound.save (h : SurfaceSound s) (p : Proposal) : SurfaceSound (s.save sha256 p) := by
  refine h.learn fun key row hrow => ?_
  beta_reduce at hrow
  split at hrow
  · cases hrow
    obtain ⟨hash, hhash⟩ := savedProposal_isSome sha256 p
    refine .inr ⟨rfl, ?_⟩
    rw [hhash]
    rfl
  · exact .inl hrow

theorem SurfaceSound.dispatch (h : SurfaceSound s) (sha256 : List Char → String) (p : Proposal)
    (expired : Bool) (reached : List DeliveryTarget) :
    SurfaceSound (s.dispatch sha256 p expired reached) := by
  unfold SurfaceWorld.dispatch
  cases expired with
  | true => exact h
  | false => exact h.learn fun key row hrow => .inl hrow

theorem load_known (h : SurfaceSound s) {key : ProposalKey} {p : Proposal}
    (hload : s.load key = some p) : p ∈ s.known ∧ ∃ hash, p.contentHash = some hash := by
  obtain ⟨row, hrow, rfl⟩ := Option.map_eq_some_iff.mp hload
  obtain ⟨hmem, hhash⟩ := h.rows key row hrow
  have hsame : { row.proposal with contentHash := some row.contentHash } = row.proposal := by
    rw [← hhash]
  rw [hsame]
  exact ⟨hmem, _, hhash⟩

theorem setPipeline_cases (key k : ProposalKey) (pipeline : PipelineWorld) :
    k = key ∧ s.setPipeline key pipeline k = pipeline ∨
      k ≠ key ∧ s.setPipeline key pipeline k = s.pipelines k := by
  by_cases hkey : k = key
  · exact .inl ⟨hkey, if_pos hkey⟩
  · exact .inr ⟨hkey, if_neg hkey⟩

theorem setPipeline_audit (key : ProposalKey) {pipeline : PipelineWorld}
    (hkept : ∀ event ∈ (s.pipelines key).audit, event ∈ pipeline.audit) (k : ProposalKey) :
    ∀ event ∈ (s.pipelines k).audit, event ∈ (s.setPipeline key pipeline k).audit := by
  obtain ⟨rfl, hset⟩ | ⟨-, hset⟩ := setPipeline_cases (s := s) key k pipeline <;> rw [hset]
  · exact hkept
  · exact fun _ => id

theorem SurfaceSound.click (h : SurfaceSound s) (shown : Proposal) (incoming : IncomingDecision)
    (answers : ClickAnswers) : SurfaceSound (s.click shown incoming answers) where
  rows := h.rows
  pipelines := fun key => by
    change Recorded (s.setPipeline _ _ key)
    obtain ⟨rfl, hset⟩ | ⟨-, hset⟩ := setPipeline_cases (s := s) shown.key key _ <;> rw [hset]
    · exact (h.pipelines _).start incoming _
    · exact h.pipelines key
  loads := fun key i call hcall => by
    change (s.setPipeline _ _ key).calls[i]? = some call at hcall
    have hloads : (s.click shown incoming answers).loads key i =
        if key = shown.key ∧ i = (s.pipelines shown.key).calls.length then
          (s.load shown.key).map fun loaded => ⟨shown, loaded⟩
        else s.loads key i := rfl
    rw [hloads]
    have hold : (s.pipelines key).calls[i]? = some call →
        ¬(key = shown.key ∧ i = (s.pipelines shown.key).calls.length) := by
      rintro hfound ⟨rfl, rfl⟩
      rw [List.getElem?_eq_none (Nat.le_refl _)] at hfound
      cases hfound
    obtain ⟨rfl, hset⟩ | ⟨-, hset⟩ := setPipeline_cases (s := s) shown.key key _ <;>
      rw [hset] at hcall
    · obtain hsame | ⟨latest, proposal, hnext, -, hread, hhash⟩ :=
        start_advances (s := s.pipelines shown.key) incoming (s.clickReads shown.key answers)
      · rw [hsame] at hcall
        rw [if_neg (hold hcall)]
        exact h.loads _ i call hcall
      · rw [hnext] at hcall
        obtain ⟨rfl, rfl⟩ | hfound := snoc_cases hcall
        · rw [if_pos ⟨rfl, rfl⟩]
          obtain ⟨loaded, hloaded, rfl⟩ := Option.map_eq_some_iff.mp hread
          obtain ⟨hmem, hash, hown⟩ := load_known h hloaded
          refine ⟨⟨shown, loaded⟩, by rw [hloaded]; rfl, hmem, ?_⟩
          rw [hhash]
          dsimp only
          rw [hown]
          rfl
        · rw [if_neg (hold hfound)]
          exact h.loads _ i call hfound
    · rw [if_neg (hold hcall)]
      exact h.loads key i call hcall
  handoffs := fun handoff hhandoff => by
    refine setPipeline_audit shown.key (fun event hevent => ?_) handoff.key _
      (h.handoffs handoff hhandoff)
    rw [start_audit]
    exact hevent

theorem callStep_enqueue {t u : PipelineWorld} {i j : Nat} {call : PipelineCall} {returns : Bool}
    {stage : PipelineStage} (h : t.callStep i call (.enqueue j returns) stage = some u) :
    stage.pastAudit = true := by
  cases stage with
  | enqueueing => rfl
  | rejecting | anchoring | marking | approving | signing | claiming | done | refused | thrown =>
      cases h

/-- A step of a call of the pipeline. -/
theorem advance_cases {key : ProposalKey} {label : PipelineLabel} (hof : label.of.isSome = true)
    (hstep : s.advance key label = some next) :
    ∃ i call stage pipeline, label.of = some i ∧ (s.pipelines key).calls[i]? = some call ∧
      (s.pipelines key).callStep i call label call.stage = some pipeline ∧
        Advances (s.pipelines key) pipeline i call stage ∧
          next = { s with
            pipelines := s.setPipeline key pipeline
            handoffs := s.handoffs ++ (s.handsOff key label).toList } := by
  obtain ⟨pipeline, hpipeline, rfl⟩ := Option.map_eq_some_iff.mp hstep
  obtain ⟨incoming, reads, rfl, -⟩ | ⟨i, call, hi, hcall, hcallStep⟩ := pipelineStep_cases hpipeline
  · cases hof
  · obtain ⟨stage, hadvances⟩ := callStep_advances rfl hcallStep
    exact ⟨i, call, stage, pipeline, hi, hcall, hcallStep, hadvances, rfl⟩

/-- What is handed off is what the call loaded, under the event it recorded. -/
theorem handsOff_cases {key : ProposalKey} {label : PipelineLabel} {handoff : ShownHandoff}
    (h : s.handsOff key label = some handoff) :
    ∃ i returns call load, label = .enqueue i returns ∧
      (s.pipelines key).calls[i]? = some call ∧ s.loads key i = some load ∧
        handoff = ⟨key, load.shown, load.loaded, (s.pipelines key).ownEvent call⟩ := by
  cases label with
  | enqueue i returns =>
      obtain ⟨call, hcall, hload⟩ := Option.bind_eq_some_iff.mp h
      obtain ⟨load, hfound, rfl⟩ := Option.map_eq_some_iff.mp hload
      exact ⟨i, returns, call, load, rfl, hcall, hfound, rfl⟩
  | click | claim | audit | sign | mark | throws => cases h

theorem handsOff_enqueue {key : ProposalKey} {i : Nat} {returns : Bool} {call : PipelineCall}
    {load : Load} (hcall : (s.pipelines key).calls[i]? = some call)
    (hload : s.loads key i = some load) : s.handsOff key (.enqueue i returns) =
      some ⟨key, load.shown, load.loaded, (s.pipelines key).ownEvent call⟩ :=
  Option.bind_eq_some_iff.mpr ⟨call, hcall, Option.map_eq_some_iff.mpr ⟨load, hload, rfl⟩⟩

theorem SurfaceSound.advance (h : SurfaceSound s) {key : ProposalKey} {label : PipelineLabel}
    (hof : label.of.isSome = true) (hstep : s.advance key label = some next) :
    SurfaceSound next := by
  obtain ⟨i, call, stage, pipeline, hi, hcall, hcallStep, hadvances, rfl⟩ :=
    advance_cases hof hstep
  refine ⟨h.rows, fun k => ?_, fun k j other hother => ?_, fun handoff hhandoff => ?_⟩
  · obtain ⟨rfl, hset⟩ | ⟨-, hset⟩ := setPipeline_cases (s := s) key k pipeline <;>
      dsimp only <;> rw [hset]
    · exact (h.pipelines k).advances hcall hadvances
    · exact h.pipelines k
  · change (s.setPipeline key pipeline k).calls[j]? = some other at hother
    obtain ⟨rfl, hset⟩ | ⟨-, hset⟩ := setPipeline_cases (s := s) key k pipeline <;>
      rw [hset] at hother
    · rw [hadvances.calls] at hother
      obtain ⟨rfl, rfl⟩ | ⟨-, hother⟩ := set_cases hcall hother
      · exact h.loads k j call hcall
      · exact h.loads k j other hother
    · exact h.loads k j other hother
  · refine setPipeline_audit key hadvances.audit handoff.key _ ?_
    obtain hold | hnew := List.mem_append.mp hhandoff
    · exact h.handoffs handoff hold
    · obtain ⟨j, returns, other, load, rfl, hother, -, rfl⟩ :=
        handsOff_cases (Option.mem_toList.mp hnew)
      cases hi
      cases hcall.symm.trans hother
      exact h.pipelines key call (List.mem_of_getElem? hcall) (callStep_enqueue hcallStep)

theorem SurfaceSound.step (h : SurfaceSound s) {label : SurfaceLabel}
    (hstep : (surfaceMachine sha256).step s label = some next) : SurfaceSound next := by
  cases label with
  | save p =>
      cases hstep
      exact h.save p
  | dispatch p expired reached =>
      cases hstep
      exact h.dispatch _ p expired reached
  | click message incoming answers =>
      obtain ⟨delivery, -, hclick⟩ := Option.bind_eq_some_iff.mp hstep
      split at hclick
      · cases hclick
        exact h.click delivery.proposal incoming answers
      · cases hclick
  | advance key label =>
      change (if label.of.isSome then s.advance key label else none) = some next at hstep
      split at hstep
      · rename_i hof
        exact h.advance hof hstep
      · cases hstep

/-! ## The promise is kept exactly under the condition -/

theorem ShownSafe.grows (h : ShownSafe sha256 s) (rows : next.rows = s.rows)
    (known : next.known = s.known)
    (handoffs : ∀ handoff ∈ next.handoffs, handoff ∈ s.handoffs ∨
      handoff.event.contentHash = hashProposal sha256 handoff.shown)
    (sound : SurfaceSound next) : ShownSafe sha256 next where
  stored := by
    rw [rows]
    exact h.stored
  carried := by
    rw [known]
    exact h.carried
  handoffs := fun handoff hhandoff => by
    refine ⟨sound.handoffs handoff hhandoff, ?_⟩
    exact (handoffs handoff hhandoff).elim (fun hold => (h.handoffs handoff hold).2) id
  bound := by
    rw [known]
    exact h.bound

/-- The stored hashes are among those the proposals carry. -/
theorem SurfaceSound.stored (h : SurfaceSound s)
    (carried : ∀ p ∈ s.known, p.contentHash = some (hashProposal sha256 p)) (key : ProposalKey)
    (row : ProposalRow) (hrow : s.rows key = some row) :
    row.contentHash = hashProposal sha256 row.proposal := by
  obtain ⟨hmem, hhash⟩ := h.rows key row hrow
  exact Option.some.inj (hhash.symm.trans (carried row.proposal hmem))

/-- With its own hash, a proposal shares a hash only with those it agrees with. -/
theorem same_hash_iff (hsha : Function.Injective sha256) {p q : Proposal}
    (hp : p.contentHash = some (hashProposal sha256 p))
    (hq : q.contentHash = some (hashProposal sha256 q)) :
    p.contentHash = q.contentHash ↔ Agrees p q := by
  rw [hp, hq, Option.some.injEq, hashProposal_eq_iff hsha]

theorem Agrees.subject {p q : Proposal} (h : Agrees p q)
    (target : p.executionTarget = q.executionTarget) : SameSubject p q :=
  ⟨target, h.amount, h.payee, h.policy⟩

theorem SameSubject.symm {p q : Proposal} (h : SameSubject p q) : SameSubject q p :=
  ⟨h.executionTarget.symm, h.amount.symm, h.payee.symm, h.policy.symm⟩

/-- One proposal more is known. -/
theorem learn_decides (hsha : Function.Injective sha256) (h : ShownSafe sha256 s) {p : Proposal}
    {rows : ProposalKey → Option ProposalRow} {deliveries : List Delivery}
    (sound : SurfaceSound
      { s with rows := rows, deliveries := deliveries, known := s.known ++ [p] }) :
    ShownSafe sha256 { s with rows := rows, deliveries := deliveries, known := s.known ++ [p] } ↔
      p.contentHash = some (hashProposal sha256 p) ∧ s.SameTarget p := by
  have hlatest : p ∈ s.known ++ [p] := List.mem_append_right _ (List.mem_singleton.mpr rfl)
  constructor
  · intro hnext
    have hown := hnext.carried p hlatest
    refine ⟨hown, fun q hq hagrees => ?_⟩
    have hsame := (same_hash_iff hsha hown (h.carried q hq)).mpr hagrees
    exact (hnext.bound p hlatest q (List.mem_append_left _ hq) hsame).executionTarget
  · rintro ⟨hown, htarget⟩
    have hcarried : ∀ q ∈ s.known ++ [p], q.contentHash = some (hashProposal sha256 q) := by
      intro q hq
      obtain hold | hnew := List.mem_append.mp hq
      · exact h.carried q hold
      · rw [List.mem_singleton.mp hnew]
        exact hown
    have hwith : ∀ q ∈ s.known, p.contentHash = q.contentHash → SameSubject p q := by
      intro q hq hsame
      have hagrees := (same_hash_iff hsha hown (h.carried q hq)).mp hsame
      exact hagrees.subject (htarget q hq hagrees)
    refine ⟨sound.stored hcarried, hcarried, h.handoffs, fun a ha b hb hsame => ?_⟩
    obtain ha | ha := List.mem_append.mp ha
    · obtain hb | hb := List.mem_append.mp hb
      · exact h.bound a ha b hb hsame
      · cases List.mem_singleton.mp hb
        exact (hwith a ha hsame.symm).symm
    · cases List.mem_singleton.mp ha
      obtain hb | hb := List.mem_append.mp hb
      · exact hwith b hb hsame
      · cases List.mem_singleton.mp hb
        exact ⟨rfl, rfl, rfl, rfl⟩

/-- The target of a proposal is compared by what is hashed of it. -/
theorem sameTarget_congr (hsha : Function.Injective sha256) {p q : Proposal}
    (hash : hashProposal sha256 p = hashProposal sha256 q)
    (target : p.executionTarget = q.executionTarget) : s.SameTarget p ↔ s.SameTarget q := by
  unfold SurfaceWorld.SameTarget
  refine forall₂_congr fun other _ => ?_
  rw [← hashProposal_eq_iff hsha, ← hashProposal_eq_iff hsha, hash, target]

theorem save_decides (hsha : Function.Injective sha256) (holds : SurfaceSound s)
    (h : ShownSafe sha256 s) (p : Proposal) :
    ShownSafe sha256 (s.save sha256 p) ↔ OwnHash sha256 p ∧ s.SameTarget p := by
  obtain ⟨hhash, htarget⟩ := savedProposal_hash sha256 p
  rw [← savedProposal_own_iff, ← sameTarget_congr hsha hhash htarget]
  exact learn_decides hsha h (holds.save p)

theorem dispatch_decides (hsha : Function.Injective sha256) (holds : SurfaceSound s)
    (h : ShownSafe sha256 s) (p : Proposal) (expired : Bool) (reached : List DeliveryTarget) :
    ShownSafe sha256 (s.dispatch sha256 p expired reached) ↔
      (expired = false → s.SameTarget p) := by
  have sound := holds.dispatch sha256 p expired reached
  unfold SurfaceWorld.dispatch at sound ⊢
  cases expired with
  | true => exact iff_of_true h fun hnever => by cases hnever
  | false =>
      have hcongr : s.SameTarget (withContentHash sha256 p) ↔ s.SameTarget p :=
        sameTarget_congr hsha rfl rfl
      refine (learn_decides hsha h sound).trans ⟨fun hboth _ => ?_, fun hguard => ⟨rfl, ?_⟩⟩
      · exact hcongr.mp hboth.2
      · exact hcongr.mpr (hguard rfl)

theorem advance_decides (hsha : Function.Injective sha256) (holds : SurfaceSound s)
    (h : ShownSafe sha256 s) {key : ProposalKey} {label : PipelineLabel}
    (hof : label.of.isSome = true) (hstep : s.advance key label = some next) :
    ShownSafe sha256 next ↔ s.LoadedAsShown key label := by
  have sound := holds.advance hof hstep
  obtain ⟨i, call, stage, pipeline, hi, hcall, -, -, rfl⟩ := advance_cases hof hstep
  constructor
  · intro hnext
    cases label with
    | enqueue j returns =>
        intro load hload
        cases hi
        obtain ⟨found, hfound, hmem, hhash⟩ := holds.loads key i call hcall
        cases hload.symm.trans hfound
        have hevent := hnext.handoffs
          ⟨key, load.shown, load.loaded, (s.pipelines key).ownEvent call⟩
          (List.mem_append_right _ (Option.mem_toList.mpr (handsOff_enqueue hcall hload)))
        have hloaded := Option.some.inj (hhash.symm.trans (h.carried load.loaded hmem))
        exact (hashProposal_eq_iff hsha).mp (hloaded.symm.trans hevent.2)
    | click | claim | audit | sign | mark | throws => trivial
  · intro hguard
    refine h.grows rfl rfl (fun handoff hhandoff => ?_) sound
    obtain hold | hnew := List.mem_append.mp hhandoff
    · exact .inl hold
    · obtain ⟨j, returns, other, load, rfl, hother, hload, rfl⟩ :=
        handsOff_cases (Option.mem_toList.mp hnew)
      obtain ⟨found, hfound, hmem, hhash⟩ := holds.loads key j other hother
      cases hload.symm.trans hfound
      have hloaded := Option.some.inj (hhash.symm.trans (h.carried load.loaded hmem))
      exact .inr (hloaded.trans ((hashProposal_eq_iff hsha).mpr (hguard load hload)))

theorem surfaceStep_decides (hsha : Function.Injective sha256) {label : SurfaceLabel}
    (holds : SurfaceSound s) (h : ShownSafe sha256 s)
    (hstep : (surfaceMachine sha256).step s label = some next) :
    ShownSafe sha256 next ↔ KeepsShown sha256 s label := by
  have sound := holds.step hstep
  cases label with
  | save p =>
      cases hstep
      exact save_decides hsha holds h p
  | dispatch p expired reached =>
      cases hstep
      exact dispatch_decides hsha holds h p expired reached
  | click message incoming answers =>
      refine iff_of_true ?_ trivial
      obtain ⟨delivery, -, hclick⟩ := Option.bind_eq_some_iff.mp hstep
      split at hclick
      · cases hclick
        exact h.grows rfl rfl (fun _ => .inl) sound
      · cases hclick
  | advance key label =>
      change (if label.of.isSome then s.advance key label else none) = some next at hstep
      split at hstep
      · rename_i hof
        exact advance_decides hsha holds h hof hstep
      · cases hstep

theorem fresh_sound : SurfaceSound {} where
  rows := fun _ _ hrow => by cases hrow
  pipelines := fun _ _ hcall => by cases hcall
  loads := fun _ _ _ hcall => by cases hcall
  handoffs := fun _ hhandoff => by cases hhandoff

theorem fresh_safe : ShownSafe sha256 {} where
  stored := fun _ _ hrow => by cases hrow
  carried := fun _ hp => by cases hp
  handoffs := fun _ hhandoff => by cases hhandoff
  bound := fun _ hp => by cases hp

/-- What was shown is what is executed throughout a run exactly when every save brings no
hash but its own, proposals that agree in what is hashed name one target, and every call
that hands off has loaded what the message of its click had shown. -/
theorem shown_is_executed_iff (hsha : Function.Injective sha256) {labels : List SurfaceLabel}
    {final : SurfaceWorld} (hrun : (surfaceMachine sha256).run {} labels = some final) :
    (surfaceMachine sha256).Always (ShownSafe sha256) {} labels ↔
      (surfaceMachine sha256).Meets (KeepsShown sha256) {} labels := by
  have hkeeps : ∀ state label next, SurfaceSound state →
      (surfaceMachine sha256).step state label = some next → SurfaceSound next :=
    fun _ _ _ holds hstep => holds.step hstep
  have hdecides : ∀ state label next, SurfaceSound state → ShownSafe sha256 state →
      (surfaceMachine sha256).step state label = some next →
        (ShownSafe sha256 next ↔ KeepsShown sha256 state label) :=
    fun _ _ _ holds h hstep => surfaceStep_decides hsha holds h hstep
  exact (surfaceMachine sha256).always_iff_meets_of hkeeps hdecides fresh_sound fresh_safe hrun

end Promise

/-! ## A proposal approved as shown, and two that are not -/

namespace DualTarget

def proposal (units : Int) (target : String) (contentHash : Option String) : Proposal where
  id := "prop_1"
  tenantId := "tnt_1"
  agent := .invoice
  title := "Duplicate invoice"
  claim := "Invoice 7 was paid before."
  action := { summary := "Release the payment.", handoff := "netsuite", amount := some ⟨"USD", units⟩ }
  executionTarget := some ⟨target⟩
  policy := { gates := ["AP-DUP-001"], approverRoles := ["ap_clerk"] }
  expiresAt := "2026-02-01T00:00:00Z"
  createdAt := "2026-01-01T00:00:00Z"
  contentHash := contentHash

def shown : Proposal := proposal 5000 "pi_A" none

def channel : DeliveryTarget := ⟨.slack, "C1"⟩

def decision : IncomingDecision := ⟨.slack, "U1", .approved, []⟩

def answers : ClickAnswers :=
  ⟨false, some "act_1", ⟨true, none, some "ap_clerk"⟩, "2026-01-02T00:00:00Z"⟩

/-- A click on the message, and its call up to the handoff. -/
def approval : List SurfaceLabel :=
  .click 0 decision answers ::
    [.audit 0, .sign 0 true, .claim 0, .enqueue 0 true].map (.advance shown.key)

def run (labels : List SurfaceLabel) : Option SurfaceWorld :=
  (surfaceMachine String.ofList).run {} labels

theorem ofList_injective : Function.Injective String.ofList := fun _ _ h => String.ofList_injective h

/-- The proposal is saved, shown and approved; in between `latest` is saved under its key. -/
def resaved (latest : List Proposal) : List SurfaceLabel :=
  [.save shown, .dispatch shown false [channel]] ++ latest.map .save ++ approval

/-- The proposal is saved with a hash that came with it. -/
def forged : List SurfaceLabel :=
  [.save (proposal 5000 "pi_A" (some "x")), .dispatch shown false [channel]] ++ approval

theorem approved_as_shown :
    (surfaceMachine String.ofList).Always (ShownSafe String.ofList) {} (resaved []) := by
  refine (shown_is_executed_iff ofList_injective rfl).mpr ?_
  refine ⟨⟨(fun _ hhash => by cases hhash), fun _ hq => by cases hq⟩, fun _ h => ?_⟩
  cases h
  refine ⟨fun _ q hq _ => ?_, fun _ h => ?_⟩
  · cases List.mem_singleton.mp hq
    rfl
  cases h
  refine ⟨trivial, fun _ h => ?_⟩
  cases h
  refine ⟨trivial, fun _ h => ?_⟩
  cases h
  refine ⟨trivial, fun _ h => ?_⟩
  cases h
  refine ⟨trivial, fun _ h => ?_⟩
  cases h
  refine ⟨fun load hload => ?_, fun _ _ => trivial⟩
  cases hload
  exact ⟨rfl, rfl, rfl, rfl, rfl, rfl, rfl, rfl, rfl, rfl, rfl, rfl, rfl⟩

theorem ofList_brace_ne (rest : List Char) : String.ofList ('{' :: rest) ≠ "x" := by
  intro h
  have hx : "x" = String.ofList ['x'] := rfl
  exact absurd (List.cons.inj (String.ofList_injective (h.trans hx))).1 (by decide)

/-- A save in between puts another target or another amount under what is approved, and a
hash that comes with a proposal is the one recorded. -/
theorem executed_otherwise :
    (∃ final handoff, run (resaved [proposal 5000 "pi_B" none]) = some final ∧
      final.handoffs = [handoff] ∧ handoff.shown.executionTarget = some ⟨"pi_A"⟩ ∧
        handoff.executed.executionTarget = some ⟨"pi_B"⟩ ∧ ¬ShownSafe String.ofList final) ∧
    (∃ final, run (resaved [proposal 900000 "pi_A" none]) = some final ∧
      ¬ShownSafe String.ofList final) ∧
    ∃ final, run forged = some final ∧ ¬ShownSafe String.ofList final := by
  refine ⟨⟨_, _, rfl, rfl, rfl, rfl, fun h => ?_⟩, ⟨_, rfl, fun h => ?_⟩, ⟨_, rfl, fun h => ?_⟩⟩
  · have hsame := h.bound _ (List.mem_cons_of_mem _ List.mem_cons_self) _
      (List.mem_cons_of_mem _ (List.mem_cons_of_mem _ List.mem_cons_self)) rfl
    exact absurd hsame.executionTarget (by decide)
  · have hevent := (h.handoffs _ List.mem_cons_self).2
    have hagrees := (hashProposal_eq_iff ofList_injective).mp hevent
    exact absurd hagrees.amount (by decide)
  · have hcarried : "x" = hashProposal String.ofList (proposal 5000 "pi_A" (some "x")) :=
      Option.some.inj (h.carried _ List.mem_cons_self)
    obtain ⟨rest, htext⟩ := Audit.stringifyFields_brace (proposal 5000 "pi_A" (some "x")).hashed
    rw [hashProposal, htext] at hcarried
    exact ofList_brace_ne rest hcarried.symm

end DualTarget

end BrainCore.Surfaces
