import BrainCore.AgentRouter.RunRoles
import Mathlib.Data.List.Induction

/-!
# One proposal for a key

However runs with one key interleave, at most one proposal is made for it.  A
run that returns has made its proposal or is recorded; one that stops in between
has taken its key all the same, and what comes after it is taken for a
duplicate.
-/

namespace BrainCore.AgentRouter

open BrainCore.Foundation Discipline

variable {deps : RouterDeps} {call : RunCall} {db : RunDb}

/-! ## The statements -/

theorem insertAgentRun_commits (row : AgentRunRow) :
    (runRoles.discipline call).CommitsAs (runRoles.share call) (fun _ => True)
      (insertAgentRun row) fun _ db => db.runs.find? row.id = some row := by
  refine CommitsAs.execute (fun _ db own => own = [.recorded row] ∧ db.runs.find? row.id = none)
    ?_ ?_ ?_
  · rintro _ db _ theirs _ ⟨rfl, hnone⟩ hpermits hfree
    refine ⟨rfl, ?_⟩
    cases (hpermits : RunCommit _ _ _) with
    | nothing => exact hnone
    | claimed => exact hnone
    | proposed => exact hnone
    | answered => exact hnone
    | recorded new hnew =>
        have hne := hfree (.recorded new) List.mem_cons_self (.recorded row) List.mem_cons_self
        change (db.runs.put new).find? row.id = none
        rw [Table.find?_put, if_neg, hnone]
        exact fun hid => of_decide_eq_false hne hid.symm
  · intro db new value _ _ hrun
    split at hrun
    · cases hrun
    · rename_i hnone
      cases hrun
      exact ⟨rfl, Option.not_isSome_iff_eq_none.mp hnone⟩
  · rintro _ db _ _ ⟨rfl, hnone⟩
    refine ⟨RunCommit.recorded row hnone, ?_⟩
    change (db.runs.put row).find? row.id = some row
    rw [Table.find?_put, if_pos rfl]

theorem insertProposal_commits {row : ProposalRow} (hrun : row.runId = call.runId)
    (hkey : row.key = call.key) :
    (runRoles.discipline call).CommitsAs (runRoles.share call) (Ready call)
      (insertProposal row) fun _ => Done call := by
  refine CommitsAs.execute (fun _ db own => own = [.proposed row] ∧ Ready call db) ?_ ?_ ?_
  · rintro _ db _ theirs hdb ⟨rfl, hready⟩ hpermits _
    exact ⟨rfl, ready_lasting call db theirs hdb hready hpermits⟩
  · rintro db _ _ _ hready ⟨⟩
    exact ⟨rfl, hready⟩
  · rintro _ db _ _ ⟨rfl, hready⟩
    refine ⟨RunCommit.proposed row (fun _ => hrun) ?_ ?_, ?_⟩
    · intro key hsame
      rw [hrun]
      exact (hready key (hkey ▸ hsame)).1
    · exact fun key hsame => (hready key (hkey ▸ hsame)).2
    · intro key hsame
      refine .proposed row (List.mem_append_right _ List.mem_cons_self) hrun ?_
      rw [hkey, hsame]

theorem recordAnswer_commits (result : AgentRunResult) :
    (runRoles.discipline call).CommitsAs (runRoles.share call) (Answerable call result)
      (recordAnswer ⟨call.runId, call.key, result.selectedAgentId, result.status⟩)
      fun _ _ => True := by
  refine CommitsAs.execute (fun _ db own =>
    own = [.answered ⟨call.runId, call.key, result.selectedAgentId, result.status⟩] ∧
      Answerable call result db) ?_ ?_ ?_
  · rintro _ db _ theirs hdb ⟨rfl, hanswer⟩ hpermits _
    exact ⟨rfl, answerable_lasting call result db theirs hdb hanswer hpermits⟩
  · rintro db _ _ _ hanswer ⟨⟩
    exact ⟨rfl, hanswer⟩
  · rintro _ db _ _ ⟨rfl, hanswer⟩
    exact ⟨RunCommit.answered _ hanswer, trivial⟩

/-- What a run knows of its key after it has asked for it. -/
def AskedFor (call : RunCall) (key : RunKey) (claim : ClaimResult) (db : RunDb) : Prop :=
  if claim.claimed = true then Claims db call.runId key ∧ db.proposalsFor key = []
  else ∃ runId, runId ≠ call.runId ∧ Claims db runId key

theorem askedFor_lasting (key : RunKey) (claim : ClaimResult) :
    (runRoles.discipline call).Lasting (AskedFor call key claim) := by
  intro db writes _ hasked (hrely : RunCommit _ _ _)
  unfold AskedFor at hasked ⊢
  split
  · rename_i hclaimed
    rw [if_pos hclaimed] at hasked
    exact ⟨hrely.claims hasked.1, hrely.proposalsFor (fun hne => hne rfl) hasked.1 hasked.2⟩
  · rename_i hclaimed
    rw [if_neg hclaimed] at hasked
    obtain ⟨runId, hne, hclaims⟩ := hasked
    exact ⟨runId, hne, hrely.claims hclaims⟩

/-- What the insert of the key has found. -/
def Inserted (call : RunCall) (key : RunKey) (inserted : Bool) (db : RunDb)
    (own : List RunWrite) : Prop :=
  if inserted = true then own = [.claimed ⟨key, call.runId⟩] ∧ db.claims.find? key = none
  else own = [] ∧ ∃ runId, runId ≠ call.runId ∧ Claims db runId key

theorem inserted_stable (key : RunKey) (inserted : Bool) :
    (runRoles.discipline call).Stable (Inserted call key inserted) := by
  intro db own theirs _ hinserted hpermits hfree
  have hrely : RunCommit (· ≠ call.runId) db theirs := hpermits
  unfold Inserted at hinserted ⊢
  split
  · rename_i hclaimed
    rw [if_pos hclaimed] at hinserted
    obtain ⟨rfl, hnone⟩ := hinserted
    refine ⟨rfl, ?_⟩
    cases hrely with
    | nothing => exact hnone
    | recorded => exact hnone
    | proposed => exact hnone
    | answered => exact hnone
    | claimed other runId hmine hother =>
        have hne := hfree (.claimed ⟨other, runId⟩) List.mem_cons_self
          (.claimed ⟨key, call.runId⟩) List.mem_cons_self
        change (db.claims.put ⟨other, runId⟩).find? key = none
        rw [Table.find?_put, if_neg, hnone]
        exact fun hkey => of_decide_eq_false hne hkey.symm
  · rename_i hclaimed
    rw [if_neg hclaimed] at hinserted
    obtain ⟨hown, runId, hne, hclaims⟩ := hinserted
    exact ⟨hown, runId, hne, hrely.claims hclaims⟩

theorem inserted_of_execute {key : RunKey} (hfirst : ∀ key, ¬Claims db call.runId key) :
    if (db.claims.find? key).isSome = true then Inserted call key false db []
    else Inserted call key true db [.claimed ⟨key, call.runId⟩] := by
  split
  · rename_i hsome
    obtain ⟨claim, hclaim⟩ := Option.isSome_iff_exists.mp hsome
    have hkey : claim.key = key := Table.key_of_find? hclaim
    subst hkey
    refine ⟨rfl, claim.runId, fun hsame => ?_, hclaim⟩
    refine hfirst claim.key ?_
    rw [← hsame]
    exact hclaim
  · rename_i hnone
    exact ⟨rfl, Option.not_isSome_iff_eq_none.mp hnone⟩

/-- At the end of its transaction a run has the key, or another run has it. -/
theorem askedFor_of_inserted {key : RunKey} {inserted : Bool} {own : List RunWrite}
    (hsound : RunSound db) (h : Inserted call key inserted db own) (runId : Option String) :
    RunCommit (· = call.runId) db own ∧
      AskedFor call key ⟨inserted, runId⟩ (runStore.view db own) := by
  cases inserted with
  | false =>
      obtain ⟨rfl, hother⟩ := h
      exact ⟨.nothing, hother⟩
  | true =>
      obtain ⟨rfl, hnone⟩ := h
      have hput : (db.claims.put ⟨key, call.runId⟩).find? key = some ⟨key, call.runId⟩ := by
        rw [Table.find?_put, if_pos rfl]
      refine ⟨.claimed key call.runId rfl hnone, hput, ?_⟩
      change db.proposalsFor key = []
      rw [RunDb.proposalsFor, List.filter_eq_nil_iff]
      intro row hrow hkey
      have hclaims := hsound.owned row hrow key (of_decide_eq_true hkey)
      rw [Claims, hnone] at hclaims
      cases hclaims

theorem claim_commits (key : RunKey) :
    (runRoles.discipline call).CommitsAs (runRoles.share call) (runRoles.start call)
      (claimEventIdempotencyKey key call.runId) (AskedFor call key) := by
  have hinsert : (runRoles.discipline call).Triple
      (fun db own => runRoles.start call db ∧ own = [])
      (Program.execute fun db : RunDb =>
        if (db.claims.find? key).isSome = true then
          (.ok ([], false) : Except RunError (List RunWrite × Bool))
        else .ok ([.claimed ⟨key, call.runId⟩], true)) (Inserted call key) := by
    refine Triple.execute (inserted_stable key) ?_
    rintro db own new inserted _ ⟨hfirst, rfl⟩ hrun
    have hinserted := @inserted_of_execute call db key hfirst
    change (if (db.claims.find? key).isSome = true then _ else _) = _ at hrun
    split at hrun
    · rename_i hsome
      cases hrun
      rwa [if_pos hsome] at hinserted
    · rename_i hnone
      cases hrun
      rwa [if_neg hnone] at hinserted
  refine Triple.bind hinsert fun inserted => ?_
  cases inserted with
  | true => exact Triple.done fun db own hdb h => askedFor_of_inserted hdb h _
  | false =>
      have hselect : (runRoles.discipline call).Triple (Inserted call key false)
          (Program.select fun db : RunDb => db.claims.find? key : RunTransact (Option KeyClaim))
          fun _ => Inserted call key false :=
        Triple.select (fun _ => inserted_stable key false) fun _ _ _ h => h
      refine Triple.bind hselect fun existing => ?_
      exact Triple.done fun db own hdb h => askedFor_of_inserted hdb h _

/-! ## The run -/

section Run

abbrev RunSoundAs (call : RunCall) {α : Type} (know : RunDb → Prop) (script : RunScript α)
    (post : α → RunDb → Prop) : Prop :=
  (runRoles.discipline call).SoundAs (runRoles.share call) know script post

/-- The row of a run has its id and its key. -/
structure RowOf (call : RunCall) (row : AgentRunRow) : Prop where
  id : row.id = call.runId
  tenant : row.tenantId = call.ctx.tenantId
  key : row.idempotencyKey = call.input.idempotencyKey
  status : row.status ≠ .duplicateSkipped

/-- The run has done what its key was taken for, and says so. -/
def Ended (call : RunCall) (result : AgentRunResult) (db : RunDb) : Prop :=
  result.status ≠ .duplicateSkipped ∧ Done call db

theorem Ended.answerable {result : AgentRunResult} (h : Ended call result db) :
    Answerable call result db where
  effective key hkey _ _ := h.2 key hkey
  duplicate _ _ hduplicate := absurd hduplicate h.1

theorem RowOf.done {row : AgentRunRow} (h : RowOf call row)
    (hstored : db.runs.find? row.id = some row) : Done call db := by
  intro key hkey
  obtain ⟨name, hname, rfl⟩ := Option.map_eq_some_iff.mp hkey
  exact .recorded row (h.id ▸ hstored) h.tenant (h.key.trans hname)

theorem recordRun_sound {row : AgentRunRow} (hrow : RowOf call row)
    (proposed : Option ProposeResult) :
    RunSoundAs call (fun _ => True) (RouterDeps.recordRun row proposed) (Ended call) := by
  have hinsert : RunSoundAs call (fun _ => True) (Script.transact (insertAgentRun row))
      fun _ => Done call := by
    refine Sound.transact lasting_true (fun _ => done_lasting call) ?_
    refine Triple.mono (insertAgentRun_commits row) fun _ db own _ h => ⟨h.1, ?_⟩
    exact hrow.done h.2
  exact Sound.bind hinsert fun _ => Sound.pure fun _ _ hdone => ⟨hrow.status, hdone⟩

theorem terminalRun_sound {row : AgentRunRow} (hrow : RowOf call row) :
    RunSoundAs call (fun _ => True) (RouterDeps.terminalRun row) (Ended call) := by
  refine Sound.bind (recordRun_sound hrow none) fun result => ?_
  change RunSoundAs call _ (if _ then _ else _) _
  split
  · exact Sound.bind (Sound.ask _) fun _ => Sound.pure fun _ _ h => h
  · exact Sound.pure fun _ _ h => h

theorem proposeAction_sound (request : ProposalRequest) :
    RunSoundAs call (Ready call) (RouterDeps.proposeAction call.runId call.key request)
      fun _ => Done call := by
  refine Sound.bind (Sound.callOut _) fun result => ?_
  have hinsert : RunSoundAs call (Ready call)
      (Script.transact (insertProposal ⟨call.runId, call.key, result, request⟩))
      fun _ => Done call :=
    Sound.transact (ready_lasting call) (fun _ => done_lasting call)
      (insertProposal_commits rfl rfl)
  refine Sound.bind hinsert fun _ => ?_
  exact Sound.bind (Sound.ask _) fun _ => Sound.pure fun _ _ h => h

theorem carryOut_sound (category agentId action routingDecisionId : String)
    (decision : RoutingDecision) (executionMode : ExecutionMode) (bundle : EvidenceBundle)
    {plan : RunPlan}
    (hstatus : ∀ status mode failureReason, plan = .terminal status mode failureReason →
      status ≠ .duplicateSkipped) :
    RunSoundAs call (Ready call) (deps.carryOut call category agentId action routingDecisionId
      decision executionMode bundle plan) (Ended call) := by
  cases plan with
  | terminal status mode failureReason =>
      exact Sound.weaken (terminalRun_sound ⟨rfl, rfl, rfl, hstatus _ _ _ rfl⟩)
        fun _ _ _ => trivial
  | shadowCompleted =>
      have hrow : AgentRunStatus.shadowCompleted ≠ .duplicateSkipped := by decide
      exact Sound.weaken (recordRun_sound ⟨rfl, rfl, rfl, hrow⟩ none) fun _ _ _ => trivial
  | propose proposed =>
      have hrow : AgentRunStatus.proposalCreated ≠ .duplicateSkipped := by decide
      refine Sound.bind (proposeAction_sound _) fun result => ?_
      exact Sound.weaken (recordRun_sound ⟨rfl, rfl, rfl, hrow⟩ _) fun _ _ _ => trivial

theorem runClaimed_sound (category agentId routingDecisionId : String)
    (decision : RoutingDecision) :
    RunSoundAs call (Ready call)
      (deps.runClaimed call category agentId routingDecisionId decision) (Ended call) := by
  have hended : ∀ status failureReason, status ≠ .duplicateSkipped →
      RunSoundAs call (Ready call)
        (RouterDeps.terminalRun
          { deps.runRow call category agentId routingDecisionId decision.confidence
              (decision.executionMode.getD .notifyOnly) status with
            failureReason := some failureReason }) (Ended call) :=
    fun status failureReason hstatus =>
      Sound.weaken (terminalRun_sound ⟨rfl, rfl, rfl, hstatus⟩) fun _ _ _ => trivial
  rw [RouterDeps.runClaimed]
  split
  · refine Sound.bind (Sound.ask _) fun resolution => ?_
    cases resolution with
    | missingAction reason => exact hended .missingAction reason (by decide)
    | resolved action source =>
        refine Sound.bind (Sound.ask _) fun bundle => ?_
        exact carryOut_sound category agentId action routingDecisionId decision _ bundle
          fun _ _ _ => deps.plan_status
  · exact hended .missingHandler _ (by decide)
  · exact hended .missingHandler _ (by decide)

theorem run_sound : RunSoundAs call (runRoles.start call) (deps.run call) (Answerable call) := by
  refine Sound.bind (Sound.ask _) fun category => ?_
  refine Sound.bind (Sound.ask _) fun decision => ?_
  refine Sound.bind (Sound.ask _) fun routingDecisionId => ?_
  split
  · refine Sound.pure fun db _ _ => ⟨fun _ _ hselected => absurd rfl hselected, ?_⟩
    intro key _ hstatus
    cases hpolicy : decision.policyStatus with
    | routed =>
        rw [hpolicy] at hstatus
        cases hstatus
    | unscoped =>
        rw [hpolicy] at hstatus
        cases hstatus
    | noMatch =>
        rw [hpolicy] at hstatus
        cases hstatus
  · rename_i agentId _
    have hclaimed : RunSoundAs call (Ready call)
        (deps.runClaimed call category agentId routingDecisionId decision) (Answerable call) :=
      Sound.mono (runClaimed_sound category agentId routingDecisionId decision)
        fun _ _ _ => Ended.answerable
    rw [RouterDeps.runSelected]
    split
    · rename_i hkey
      refine Sound.weaken hclaimed fun db _ _ key hsome => ?_
      rw [hkey] at hsome
      cases hsome
    · rename_i key hkey
      refine Sound.bind (Sound.transact (start_lasting call) (askedFor_lasting key)
        (claim_commits key)) fun claim => ?_
      split
      · rename_i htaken
        refine Sound.weaken hclaimed fun db _ hasked other hother => ?_
        rw [AskedFor, if_pos htaken] at hasked
        rw [hkey] at hother
        cases hother
        exact hasked
      · rename_i htaken
        refine Sound.pure fun db _ hasked => ⟨fun _ _ _ hstatus => absurd rfl hstatus, ?_⟩
        rw [AskedFor, if_neg htaken] at hasked
        intro other hother _
        rw [hkey] at hother
        cases hother
        exact hasked

theorem answerRun_sound :
    RunSoundAs call (runRoles.start call) (deps.answerRun call) fun _ _ => True := by
  refine Sound.bind run_sound fun result => ?_
  refine Sound.bind (Sound.transact (answerable_lasting call result) (fun _ => lasting_true)
    (recordAnswer_commits result)) fun _ => ?_
  exact Sound.pure fun _ _ _ => trivial

end Run

/-! ## Runs of the machine -/

/-- Before any run. -/
structure Unrun (db : RunDb) : Prop where
  claims : db.claims = Table.empty
  proposals : ∀ row ∈ db.proposals, row.key = none
  answers : db.answers = []

theorem Unrun.sound (h : Unrun db) : RunSound db where
  owned row hrow key hkey := by
    rw [h.proposals row hrow] at hkey
    cases hkey
  single key := by
    have hnone : db.proposalsFor key = [] := by
      rw [RunDb.proposalsFor, List.filter_eq_nil_iff]
      intro row hrow hkey
      rw [decide_eq_true_eq, h.proposals row hrow] at hkey
      cases hkey
    rw [hnone]
    exact Nat.zero_le 1
  answers answer hanswer := by
    rw [h.answers] at hanswer
    cases hanswer

theorem Unrun.start (h : Unrun db) (call : RunCall) : runRoles.start call db := by
  intro key hclaims
  rw [Claims, h.claims] at hclaims
  cases hclaims

/-- The run has answered its caller, with an agent selected and its key taken. -/
def Returned (db : RunDb) (runId : String) (key : RunKey) : Prop :=
  ∃ answer ∈ db.answers, answer.runId = runId ∧ answer.key = some key ∧
    answer.selectedAgentId ≠ none ∧ answer.status ≠ .duplicateSkipped

theorem RunSound.effective (h : RunSound db) {runId : String} {key : RunKey}
    (hreturned : Returned db runId key) : Effective db runId key := by
  obtain ⟨answer, hmem, rfl, hkey, hselected, hstatus⟩ := hreturned
  exact (h.answers answer hmem).effective key hkey hselected hstatus

/-- A call is answered that its run is a duplicate only when the run that has taken the key has
returned, or has come as far as its proposal or its record. -/
def FindsFinished (db : RunDb) (writes : List RunWrite) : Prop :=
  ∀ answer, .answered answer ∈ writes → answer.status = .duplicateSkipped →
    ∀ key, answer.key = some key →
      ∃ runId, Claims db runId key ∧ (Returned db runId key ∨ Effective db runId key)

/-- The duplicates that were answered are duplicates of runs that had an effect. -/
def Truthful (db : RunDb) : Prop :=
  ∀ answer ∈ db.answers, answer.status = .duplicateSkipped → ∀ key, answer.key = some key →
    ∃ runId, runId ≠ answer.runId ∧ Effective db runId key

theorem RunCommit.truthful {who : String → Prop} {own : List RunWrite}
    (hcommit : RunCommit who db own) (hsound : RunSound db) (hfinished : FindsFinished db own) (h : Truthful db) :
    Truthful (runStore.view db own) := by
  have hold : ∀ answer ∈ db.answers, answer.status = .duplicateSkipped → ∀ key,
      answer.key = some key →
        ∃ runId, runId ≠ answer.runId ∧ Effective (runStore.view db own) runId key := by
    intro answer hmem hstatus key hkey
    obtain ⟨runId, hne, heffective⟩ := h answer hmem hstatus key hkey
    exact ⟨runId, hne, hcommit.effective heffective⟩
  cases hcommit with
  | nothing => exact hold
  | claimed => exact hold
  | recorded => exact hold
  | proposed => exact hold
  | answered new hanswer =>
      intro answer hmem hstatus key hkey
      rcases List.mem_append.mp hmem with hmem | hnew
      · exact hold answer hmem hstatus key hkey
      · obtain rfl := List.mem_singleton.mp hnew
        obtain ⟨other, hne, hother⟩ := hanswer.duplicate key hkey hstatus
        obtain ⟨runId, hclaims, hends⟩ := hfinished answer List.mem_cons_self hstatus key hkey
        obtain rfl : runId = other := by simpa using hclaims.symm.trans hother
        have heffective : Effective db runId key :=
          hends.elim hsound.effective fun heffective => heffective
        exact ⟨runId, hne,
          RunCommit.effective (RunCommit.answered answer hanswer : RunCommit who db _) heffective⟩

theorem otherProposals_commit {who : String → Prop} {writes : List RunWrite}
    (h : otherProposals db writes = true) : RunCommit who db writes := by
  unfold otherProposals at h
  split at h
  · rename_i row
    have hkey := Option.isNone_iff_eq_none.mp h
    refine .proposed row ?_ ?_ ?_
    · rw [hkey]
      exact fun hsome => by cases hsome
    · rw [hkey]
      exact fun _ hsome => by cases hsome
    · rw [hkey]
      exact fun _ hsome => by cases hsome
  · cases h

section Runs

abbrev RunWorld := Calls RunDb RunWrite RunEnv ProposalRequest RunError AgentRunResult

abbrev RunLabel := CallLabel RunWrite RunEnv RunError RunCall

variable {labels : List RunLabel} {label : RunLabel} {s next : RunWorld}

/-- One step of the machine. -/
theorem run_commit_of_run (hdb : Unrun db)
    (hids : ((begunCalls labels).map RunCall.runId).Nodup)
    (hrun : (runMachine deps).run { committed := db } labels = some s)
    (hstep : (runMachine deps).step s label = some next) :
    RunSound s.committed ∧ RunCommit (fun _ => True) s.committed (s.committing label) ∧
      next.committed = runStore.view s.committed (s.committing label) := by
  have hfit : (begunCalls labels).Pairwise runRoles.Fit :=
    (List.pairwise_map.mp hids).imp runRoles_fit
  have hpermitted : ∀ db writes, RunSound db → otherProposals db writes = true →
      RunSound (runStore.view db writes) ∧ ∀ call, runRoles.rely call db writes := by
    intro db writes hsound hothers
    have hcommit : RunCommit (fun _ => True) db writes := otherProposals_commit hothers
    exact ⟨hsound.commit hcommit, fun call => otherProposals_commit hothers⟩
  obtain ⟨hsound, hview, hcommit⟩ := CallRoles.committing_of_run RunWrite.clash_symm hpermitted
    hdb.sound (fun call _ => hdb.start call) hfit (fun call _ => ⟨_, answerRun_sound⟩) hrun hstep
  refine ⟨hsound, ?_, hview⟩
  rcases hcommit with hnil | ⟨i, env, call, -, -, hmine⟩ | ⟨writes, -, hallowed⟩
  · rw [hnil]
    exact .nothing
  · exact RunCommit.mono hmine fun _ _ => trivial
  · exact otherProposals_commit hallowed

theorem nodup_of_concat (hids : ((begunCalls (labels ++ [label])).map RunCall.runId).Nodup) :
    ((begunCalls labels).map RunCall.runId).Nodup := by
  rw [begunCalls_append, List.map_append] at hids
  exact (List.nodup_append.mp hids).1

theorem sound_of_run (hdb : Unrun db) (hids : ((begunCalls labels).map RunCall.runId).Nodup)
    (hrun : (runMachine deps).run { committed := db } labels = some s) :
    RunSound s.committed := by
  induction labels using List.reverseRecOn generalizing s with
  | nil =>
      cases hrun
      exact hdb.sound
  | append_singleton labels label _ =>
      obtain ⟨middle, hbefore, hstep⟩ := Machine.run_concat_some _ hrun
      obtain ⟨hsound, hcommit, hview⟩ :=
        run_commit_of_run hdb (nodup_of_concat hids) hbefore hstep
      rw [hview]
      exact hsound.commit hcommit

theorem truthful_of_run (hdb : Unrun db) (hids : ((begunCalls labels).map RunCall.runId).Nodup)
    (hmeets : (runMachine deps).Meets
      (fun s label => FindsFinished s.committed (s.committing label)) { committed := db } labels)
    (hrun : (runMachine deps).run { committed := db } labels = some s) :
    Truthful s.committed := by
  induction labels using List.reverseRecOn generalizing s with
  | nil =>
      cases hrun
      intro answer hmem
      change answer ∈ db.answers at hmem
      rw [hdb.answers] at hmem
      cases hmem
  | append_singleton labels label ih =>
      obtain ⟨middle, hbefore, hstep⟩ := Machine.run_concat_some _ hrun
      have hfewer := nodup_of_concat hids
      have htruthful := ih hfewer hmeets.of_append hbefore
      have hfinished := (Machine.Meets.split _ hmeets hbefore).1
      obtain ⟨hsound, hcommit, hview⟩ := run_commit_of_run hdb hfewer hbefore hstep
      rw [hview]
      exact hcommit.truthful hsound hfinished htruthful

/-- In every run, at most one proposal is made for a key, and a run that has returned has made its
proposal or is recorded.  As long as no call finds a key taken by a run that has stopped short of
both, or has yet to come to them, every duplicate is one. -/
theorem key_makes_one_proposal (hdb : Unrun db)
    (hids : ((begunCalls labels).map RunCall.runId).Nodup)
    (hrun : (runMachine deps).run { committed := db } labels = some s) :
    (∀ key, (s.committed.proposalsFor key).length ≤ 1) ∧
      (∀ runId key, Returned s.committed runId key → Effective s.committed runId key) ∧
      ((runMachine deps).Meets
        (fun s label => FindsFinished s.committed (s.committing label)) { committed := db } labels →
          Truthful s.committed) := by
  have hsound := sound_of_run hdb hids hrun
  exact ⟨hsound.single, fun _ _ => hsound.effective,
    fun hmeets => truthful_of_run hdb hids hmeets hrun⟩

end Runs

/-! ## A run that is lost -/

namespace LostRun

def treasury : InternalAgentDefinition where
  agentKey := "treasury"
  defaultAction := some "propose_transfer"

def handler : InternalAgentHandler where
  actions := ["propose_transfer"]
  build _ := .error none

def treasuryDeps : RouterDeps where
  handlers _ := some handler
  definitions _ := some treasury
  isShadowed _ := true

def decision : RoutingDecision where
  selectedAgentId := some "treasury"
  policyStatus := .routed
  executionMode := some .propose
  reason := "matched"
  moded _ := rfl

/-- The collaborators, of which the evidence gatherer may be down. -/
def env (gathered : Except RunError EvidenceBundle) : RunEnv where
  getTenantCategory _ := .ok "business"
  route _ _ := .ok decision
  recordRoutingDecision := .ok "agrd_1"
  resolver := { classify := fun _ _ => .ok 0 }
  gather _ _ _ := gathered
  propose _ := .error ⟨"not asked"⟩
  delivered := .ok ()
  audit := .ok ()

def dayCall (runId : String) : RunCall where
  ctx := ⟨"tnt_1", "user_1"⟩
  input := { tenantId := "tnt_1", event := some "balance.low", idempotencyKey := some "day-1" }
  runId := runId

/-- The first run goes `steps` steps, and then the second one is answered. -/
def labels (gathered : Except RunError EvidenceBundle) (steps : Nat) : List RunLabel :=
  .begin (dayCall "agnr_1") :: List.replicate steps (.advance 0 (env gathered)) ++
    .begin (dayCall "agnr_2") :: List.replicate 10 (.advance 1 (env (.ok {})))

/-- The evidence of the first run cannot be gathered. -/
def lost : List RunLabel := labels (.error ⟨"ledger unavailable"⟩) 8

/-- The first run is recorded and answered. -/
def kept : List RunLabel := labels (.ok {}) 14

def worldAfter (labels : List RunLabel) : RunWorld :=
  ((runMachine treasuryDeps).run { committed := {} } labels).getD { committed := {} }

theorem unrun_start : Unrun {} where
  claims := rfl
  proposals row hrow := by cases hrow
  answers := rfl

/-- The second call is told that its run is a duplicate, of a run that has had no effect. -/
theorem duplicate_of_lost_run :
    (runMachine treasuryDeps).run { committed := {} } lost = some (worldAfter lost) ∧
      ¬Truthful (worldAfter lost).committed := by
  refine ⟨rfl, fun h => ?_⟩
  obtain ⟨runId, -, heffective⟩ := h
    ⟨"agnr_2", some ⟨"tnt_1", "day-1"⟩, some "treasury", .duplicateSkipped⟩
    List.mem_cons_self rfl ⟨"tnt_1", "day-1"⟩ rfl
  cases heffective with
  | proposed row hmade hmine hsame => cases hmade
  | recorded row hstored htenant hsame => cases hstored

/-- What `FindsFinished` asks of a step, computed: that the run of the key has returned. -/
def findsFinished (s : RunWorld) (label : RunLabel) : Bool :=
  (s.committing label).all fun w =>
    match w with
    | .answered answer => answer.status ≠ .duplicateSkipped || answer.key.all fun key =>
        (s.committed.claims.find? key).any fun claim => claim.key = key &&
          s.committed.answers.any fun other => other.runId = claim.runId && other.key = some key &&
            other.selectedAgentId.isSome && other.status ≠ .duplicateSkipped
    | .claimed _ | .recorded _ | .proposed _ => true

theorem findsFinished_of_check {s : RunWorld} {label : RunLabel}
    (h : findsFinished s label = true) : FindsFinished s.committed (s.committing label) := by
  intro answer hmem hstatus key hkey
  have hanswer := List.all_eq_true.mp h _ hmem
  simp only [hstatus, hkey, ne_eq, not_true_eq_false, decide_false, Bool.false_or, Option.all_some,
    Option.any_eq_true, Bool.and_eq_true, decide_eq_true_eq, List.any_eq_true,
    Option.isSome_iff_ne_none, decide_not, Bool.not_eq_true', decide_eq_false_iff_not] at hanswer
  obtain ⟨claim, hclaim, rfl, other, hother, ⟨⟨hrun, hsame⟩, hselected⟩, hreturned⟩ := hanswer
  exact ⟨claim.runId, hclaim, .inl ⟨other, hother, hrun, hsame, hselected, hreturned⟩⟩

theorem duplicate_of_kept_run :
    (runMachine treasuryDeps).run { committed := {} } kept = some (worldAfter kept) ∧
      Truthful (worldAfter kept).committed := by
  have hrun : (runMachine treasuryDeps).run { committed := {} } kept = some (worldAfter kept) := rfl
  have hcalls : begunCalls kept = [dayCall "agnr_1", dayCall "agnr_2"] := rfl
  have hids : ((begunCalls kept).map RunCall.runId).Nodup := by
    rw [hcalls]
    decide
  have hchecked : (runMachine treasuryDeps).check findsFinished { committed := {} } kept = true := rfl
  have hmeets := Machine.Meets.mono (runMachine treasuryDeps)
    (fun s label (h : findsFinished s label = true) => findsFinished_of_check h)
    (Machine.meets_of_check (runMachine treasuryDeps) hchecked)
  exact ⟨hrun, (key_makes_one_proposal unrun_start hids hrun).2.2 hmeets⟩

end LostRun

end BrainCore.AgentRouter
