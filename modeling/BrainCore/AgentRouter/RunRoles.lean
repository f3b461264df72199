import BrainCore.AgentRouter.RunService

/-!
# What a run commits

Only the run that has taken a key makes a proposal for it, and it takes the key
before.  Claims are never given back, so a run knows its key to be its own until
it ends.
-/

namespace BrainCore.AgentRouter

open BrainCore.Foundation

variable {db : RunDb} {own : List RunWrite} {who who' : String → Prop} {key : RunKey}
  {runId : String} {call : RunCall}

/-- The run has taken the key. -/
def Claims (db : RunDb) (runId : String) (key : RunKey) : Prop :=
  db.claims.find? key = some ⟨key, runId⟩

def RunDb.proposalsFor (db : RunDb) (key : RunKey) : List ProposalRow :=
  db.proposals.filter fun row => row.key = some key

/-- The run has created a proposal for the key, or its end is recorded. -/
inductive Effective (db : RunDb) (runId : String) (key : RunKey) : Prop where
  | proposed (row : ProposalRow) (made : row ∈ db.proposals) (mine : row.runId = runId)
      (same : row.key = some key) : Effective db runId key
  | recorded (row : AgentRunRow) (stored : db.runs.find? runId = some row)
      (tenant : row.tenantId = key.tenantId) (same : row.idempotencyKey = some key.key) :
      Effective db runId key

/-- What an answer may say. -/
structure AnswerSound (db : RunDb) (answer : RunAnswer) : Prop where
  effective : ∀ key, answer.key = some key → answer.selectedAgentId ≠ none →
    answer.status ≠ .duplicateSkipped → Effective db answer.runId key
  duplicate : ∀ key, answer.key = some key → answer.status = .duplicateSkipped →
    ∃ runId, runId ≠ answer.runId ∧ Claims db runId key

structure RunSound (db : RunDb) : Prop where
  owned : ∀ row ∈ db.proposals, ∀ key, row.key = some key → Claims db row.runId key
  single : ∀ key, (db.proposalsFor key).length ≤ 1
  answers : ∀ answer ∈ db.answers, AnswerSound db answer

/-- A commit of at most one row, of a run that `who` says or of another service. -/
inductive RunCommit (who : String → Prop) (db : RunDb) : List RunWrite → Prop where
  | nothing : RunCommit who db []
  | claimed (key : RunKey) (runId : String) (mine : who runId)
      (free : db.claims.find? key = none) : RunCommit who db [.claimed ⟨key, runId⟩]
  | recorded (row : AgentRunRow) (new : db.runs.find? row.id = none) :
      RunCommit who db [.recorded row]
  | proposed (row : ProposalRow) (mine : row.key.isSome → who row.runId)
      (owned : ∀ key, row.key = some key → Claims db row.runId key)
      (first : ∀ key, row.key = some key → db.proposalsFor key = []) :
      RunCommit who db [.proposed row]
  | answered (answer : RunAnswer) (sound : AnswerSound db answer) :
      RunCommit who db [.answered answer]

namespace RunCommit

theorem mono (h : RunCommit who db own) (hwho : ∀ r, who r → who' r) : RunCommit who' db own := by
  cases h with
  | nothing => exact .nothing
  | claimed key runId hmine hfree => exact .claimed key runId (hwho _ hmine) hfree
  | recorded row hnew => exact .recorded row hnew
  | proposed row hmine howned hfirst =>
      exact .proposed row (fun hkey => hwho _ (hmine hkey)) howned hfirst
  | answered answer hsound => exact .answered answer hsound

/-! ## What every commit keeps -/

/-- A claim stays, whoever commits. -/
theorem claims (h : RunCommit who db own) {claim : KeyClaim}
    (hclaim : db.claims.find? key = some claim) :
    (runStore.view db own).claims.find? key = some claim := by
  cases h with
  | nothing => exact hclaim
  | recorded row hnew => exact hclaim
  | proposed row hmine howned hfirst => exact hclaim
  | answered answer hsound => exact hclaim
  | claimed other runId hmine hfree =>
      change (db.claims.put ⟨other, runId⟩).find? key = some claim
      rw [Table.find?_put, if_neg, hclaim]
      rintro rfl
      rw [hfree] at hclaim
      cases hclaim

theorem effective (h : RunCommit who db own) (heffective : Effective db runId key) :
    Effective (runStore.view db own) runId key := by
  cases heffective with
  | proposed row hmade hmine hsame =>
      refine .proposed row ?_ hmine hsame
      cases h with
      | nothing => exact hmade
      | claimed => exact hmade
      | recorded => exact hmade
      | answered => exact hmade
      | proposed => exact List.mem_append_left _ hmade
  | recorded row hstored htenant hsame =>
      refine .recorded row ?_ htenant hsame
      cases h with
      | nothing => exact hstored
      | claimed => exact hstored
      | proposed => exact hstored
      | answered => exact hstored
      | recorded new hnew =>
          change (db.runs.put new).find? runId = some row
          rw [Table.find?_put, if_neg, hstored]
          rintro rfl
          rw [hnew] at hstored
          cases hstored

theorem answerSound (h : RunCommit who db own) {answer : RunAnswer}
    (hanswer : AnswerSound db answer) : AnswerSound (runStore.view db own) answer where
  effective key hkey hselected hstatus :=
    h.effective (hanswer.effective key hkey hselected hstatus)
  duplicate key hkey hstatus :=
    have ⟨runId, hne, hclaims⟩ := hanswer.duplicate key hkey hstatus
    ⟨runId, hne, h.claims hclaims⟩

/-- No proposal is made for a key but by the run that has taken it. -/
theorem proposalsFor (h : RunCommit who db own) (hrun : ¬who runId) (hclaims : Claims db runId key)
    (hnone : db.proposalsFor key = []) : (runStore.view db own).proposalsFor key = [] := by
  cases h with
  | nothing => exact hnone
  | claimed => exact hnone
  | recorded => exact hnone
  | answered => exact hnone
  | proposed row hmine howned hfirst =>
      change (db.proposals ++ [row]).filter (fun row => decide (row.key = some key)) = []
      rw [List.filter_append]
      change db.proposalsFor key ++ _ = []
      rw [hnone, List.nil_append, List.filter_eq_nil_iff]
      intro other hother hkey
      obtain rfl := List.mem_singleton.mp hother
      have hsame := of_decide_eq_true hkey
      have hclaim := (howned key hsame).symm.trans hclaims
      obtain rfl : other.runId = runId := by simpa using hclaim
      exact hrun (hmine (by rw [hsame]; rfl))

/-- The run with an id takes its keys itself. -/
theorem unclaimed (h : RunCommit who db own) (hrun : ¬who runId)
    (hnone : ∀ key, ¬Claims db runId key) (key : RunKey) :
    ¬Claims (runStore.view db own) runId key := by
  cases h with
  | nothing => exact hnone key
  | recorded => exact hnone key
  | proposed => exact hnone key
  | answered => exact hnone key
  | claimed other r hmine hfree =>
      intro hclaims
      change (db.claims.put ⟨other, r⟩).find? key = some ⟨key, runId⟩ at hclaims
      rw [Table.find?_put] at hclaims
      split at hclaims
      · obtain ⟨-, rfl⟩ : other = key ∧ r = runId := by simpa using hclaims
        exact hrun hmine
      · exact hnone key hclaims

end RunCommit

theorem RunSound.commit (h : RunSound db) (hcommit : RunCommit who db own) :
    RunSound (runStore.view db own) where
  owned row hrow key hkey := by
    have hold : row ∈ db.proposals → Claims (runStore.view db own) row.runId key :=
      fun hmem => hcommit.claims (h.owned row hmem key hkey)
    cases hcommit with
    | nothing => exact hold hrow
    | claimed => exact hold hrow
    | recorded => exact hold hrow
    | answered => exact hold hrow
    | proposed new hmine howned hfirst =>
        rcases List.mem_append.mp hrow with hmem | hnew
        · exact hold hmem
        · obtain rfl := List.mem_singleton.mp hnew
          exact howned key hkey
  single key := by
    cases hcommit with
    | nothing => exact h.single key
    | claimed => exact h.single key
    | recorded => exact h.single key
    | answered => exact h.single key
    | proposed new hmine howned hfirst =>
        change ((db.proposals ++ [new]).filter fun row => row.key = some key).length ≤ 1
        rw [List.filter_append]
        change (db.proposalsFor key ++ _).length ≤ 1
        by_cases hkey : new.key = some key
        · rw [hfirst key hkey]
          simp [hkey]
        · simpa [hkey] using h.single key
  answers answer hanswer := by
    have hold : answer ∈ db.answers → AnswerSound (runStore.view db own) answer :=
      fun hmem => hcommit.answerSound (h.answers answer hmem)
    cases hcommit with
    | nothing => exact hold hanswer
    | claimed => exact hold hanswer
    | recorded => exact hold hanswer
    | proposed => exact hold hanswer
    | answered new hsound =>
        rcases List.mem_append.mp hanswer with hmem | hnew
        · exact hold hmem
        · obtain rfl := List.mem_singleton.mp hnew
          have hcommit : RunCommit who db [.answered answer] := .answered answer hsound
          exact hcommit.answerSound hsound

/-! ## The role of a run -/

def runRoles : CallRoles runStore RunCall where
  invariant := RunSound
  rely call := RunCommit (· ≠ call.runId)
  share call := RunCommit (· = call.runId)
  start call db := ∀ key, ¬Claims db call.runId key
  relies _ _ _ h hcommit := h.commit hcommit
  keeps _ _ _ h hcommit := h.commit hcommit
  begins _ _ _ _ hnone hcommit := hcommit.unclaimed (fun hne => hne rfl) hnone

theorem runRoles_fit {call other : RunCall} (hne : call.runId ≠ other.runId) :
    runRoles.Fit call other := by
  intro db writes _
  constructor
  · exact fun h => RunCommit.mono h fun r (hr : r = call.runId) => hr ▸ hne
  · exact fun h => RunCommit.mono h fun r (hr : r = other.runId) => hr ▸ hne.symm

/-- The run has its key, and no proposal has been made for it. -/
def Ready (call : RunCall) (db : RunDb) : Prop :=
  ∀ key, call.key = some key → Claims db call.runId key ∧ db.proposalsFor key = []

/-- The run has done what its key was taken for. -/
def Done (call : RunCall) (db : RunDb) : Prop :=
  ∀ key, call.key = some key → Effective db call.runId key

def Answerable (call : RunCall) (result : AgentRunResult) (db : RunDb) : Prop :=
  AnswerSound db ⟨call.runId, call.key, result.selectedAgentId, result.status⟩

section Lasting

variable (call : RunCall)

theorem ready_lasting : (runRoles.discipline call).Lasting (Ready call) :=
  fun _ _ _ hready (hrely : RunCommit _ _ _) key hkey =>
    ⟨hrely.claims (hready key hkey).1,
      hrely.proposalsFor (fun hne => hne rfl) (hready key hkey).1 (hready key hkey).2⟩

theorem done_lasting : (runRoles.discipline call).Lasting (Done call) :=
  fun _ _ _ hdone (hrely : RunCommit _ _ _) key hkey => hrely.effective (hdone key hkey)

theorem answerable_lasting (result : AgentRunResult) :
    (runRoles.discipline call).Lasting (Answerable call result) :=
  fun _ _ _ hanswer (hrely : RunCommit _ _ _) => hrely.answerSound hanswer

theorem start_lasting : (runRoles.discipline call).Lasting (runRoles.start call) :=
  runRoles.begins call

end Lasting

end BrainCore.AgentRouter
