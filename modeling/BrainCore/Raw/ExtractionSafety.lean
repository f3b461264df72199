import BrainCore.Raw.ExtractionHolders

/-!
# The lifecycle of extraction jobs

A cycle that stops between its claim and its write leaves the job running, and a
run that fails after it has recorded a result writes to the job once more.
While neither happens, the lifecycle of a job is as it should be in every run.
-/

namespace BrainCore.Raw

open BrainCore.Foundation

variable {config : ExtractionConfig} {s next : ExtractionWorld} {i j now : Nat}
  {cycle other : ExtractionCycle} {run : ExtractionRun} {row : ExtractionJobRow}

/-! ## Runs -/

/-- What a run has recorded as succeeded it does not write again. -/
structure RunsSound (s : ExtractionWorld) : Prop where
  numbered : ∀ (i : Nat) (cycle : ExtractionCycle) (run : ExtractionRun), s.cycles[i]? = some cycle →
    cycle.phase.current = some run → run.number < s.started
  distinct : ∀ (i j : Nat) (cycle other : ExtractionCycle) (run last : ExtractionRun),
    s.cycles[i]? = some cycle → s.cycles[j]? = some other → cycle.phase.current = some run →
      other.phase.current = some last → run.number = last.number → i = j
  known : ∀ run, .written run .succeeded ∈ s.history → run.number < s.started ∧
    ∀ (i : Nat) (cycle : ExtractionCycle) (last : ExtractionRun), s.cycles[i]? = some cycle →
      cycle.phase.current = some last → last.number = run.number → cycle.phase.succeeded = true
  settled : s.history.Pairwise fun later earlier => ∀ run last status,
    earlier = .written run .succeeded → later = .written last status → last.number ≠ run.number

namespace RunsSound

/-- A cycle goes on with the same run, or with none, and what is added to the history is no write. -/
theorem moved (h : RunsSound s) (hcycle : s.cycles[i]? = some cycle)
    (hcurrent : ∀ run, other.phase.current = some run → cycle.phase.current = some run)
    (hsucceeded : cycle.phase.succeeded = true →
      other.phase.current = none ∨ other.phase.succeeded = true) :
    RunsSound (s.setCycle i other) where
  numbered j party run hparty hrun := by
    rcases set_cases hcycle hparty with ⟨-, rfl⟩ | ⟨-, hbefore⟩
    · exact h.numbered i cycle run hcycle (hcurrent run hrun)
    · exact h.numbered j party run hbefore hrun
  distinct j k first second run last hfirst hsecond hrun hlast hsame := by
    have hbefore : ∀ {m : Nat} {party : ExtractionCycle} {run : ExtractionRun},
        (s.setCycle i other).cycles[m]? = some party → party.phase.current = some run →
          ∃ old, s.cycles[m]? = some old ∧ old.phase.current = some run := by
      intro m party run hparty hrun
      rcases set_cases hcycle hparty with ⟨rfl, rfl⟩ | ⟨-, hparty⟩
      · exact ⟨cycle, hcycle, hcurrent run hrun⟩
      · exact ⟨party, hparty, hrun⟩
    obtain ⟨old, hold, hold'⟩ := hbefore hfirst hrun
    obtain ⟨old₂, hold₂, hold₂'⟩ := hbefore hsecond hlast
    exact h.distinct j k old old₂ run last hold hold₂ hold' hold₂' hsame
  known run hmem := by
    obtain ⟨hlt, hknown⟩ := h.known run hmem
    refine ⟨hlt, fun j party last hparty hlast hsame => ?_⟩
    rcases set_cases hcycle hparty with ⟨-, rfl⟩ | ⟨-, hbefore⟩
    · rcases hsucceeded (hknown i cycle last hcycle (hcurrent last hlast) hsame) with hnone | hdone
      · rw [hnone] at hlast
        cases hlast
      · exact hdone
    · exact hknown j party last hbefore hlast hsame
  settled := h.settled

/-- The jobs do not matter. -/
theorem jobs (h : RunsSound s) {rows : List ExtractionJobRow} : RunsSound { s with jobs := rows } :=
  ⟨h.numbered, h.distinct, h.known, h.settled⟩

/-- What is no write is added to the history. -/
theorem note (h : RunsSound s) {event : JobEvent} (hevent : ∀ run status, event ≠ .written run status) :
    RunsSound { s with history := event :: s.history } where
  numbered := h.numbered
  distinct := h.distinct
  known run hmem := by
    rcases List.mem_cons.mp hmem with hsame | hmem
    · exact absurd hsame.symm (hevent run .succeeded)
    · exact h.known run hmem
  settled := List.pairwise_cons.mpr
    ⟨fun earlier _ run last status _ hsame => absurd hsame (hevent last status), h.settled⟩

/-- A run that has not recorded a success writes. -/
theorem write (h : RunsSound s) (hcycle : s.cycles[i]? = some cycle) {write : StatusWrite}
    (hcurrent : cycle.phase.current = some write.run) (hfresh : cycle.phase.succeeded = false)
    (hwritten : CyclePhase.Written other.phase write) :
    RunsSound { s.setCycle i other with history := .written write.run write.status :: s.history } := by
  have hset : RunsSound (s.setCycle i other) := h.moved hcycle
    (fun run hrun => (hwritten.current run hrun) ▸ hcurrent)
    (fun hdone => by rw [hfresh] at hdone; cases hdone)
  refine ⟨hset.numbered, hset.distinct, ?_, List.pairwise_cons.mpr ⟨?_, h.settled⟩⟩
  · intro run hmem
    rcases List.mem_cons.mp hmem with hsame | hmem
    · obtain ⟨rfl, hstatus⟩ := JobEvent.written.inj hsame
      refine ⟨h.numbered i cycle _ hcycle hcurrent, fun j party last hparty hlast hnumber => ?_⟩
      rcases set_cases hcycle hparty with ⟨-, rfl⟩ | ⟨hij, hbefore⟩
      · rcases hwritten.succeeded hstatus.symm with hnone | hdone
        · rw [hnone] at hlast
          cases hlast
        · exact hdone
      · exact absurd (h.distinct j i party cycle last write.run hbefore hcycle hlast hcurrent hnumber)
          hij
    · exact hset.known run hmem
  · intro earlier hmem run last status hearlier hlater hnumber
    obtain ⟨rfl, -⟩ := JobEvent.written.inj hlater
    rw [hearlier] at hmem
    have hdone := (h.known run hmem).2 i cycle write.run hcycle hcurrent hnumber
    rw [hfresh] at hdone
    cases hdone

/-- A run begins. -/
theorem claim (h : RunsSound s) (hcycle : s.cycles[i]? = some cycle)
    (hother : other.phase.current = some run) (hnumber : run.number = s.started) :
    RunsSound { s.setCycle i other with started := s.started + 1 } where
  numbered j party last hparty hlast := by
    rcases set_cases hcycle hparty with ⟨-, rfl⟩ | ⟨-, hbefore⟩
    · rw [hother] at hlast
      cases hlast
      exact Nat.lt_succ_of_le (Nat.le_of_eq hnumber)
    · exact Nat.lt_succ_of_lt (h.numbered j party last hbefore hlast)
  distinct j k first second last last' hfirst hsecond hlast hlast' hsame := by
    rcases set_cases hcycle hfirst with ⟨hj, rfl⟩ | ⟨-, hbefore⟩
    · rcases set_cases hcycle hsecond with ⟨hk, rfl⟩ | ⟨-, hbefore'⟩
      · exact hj.trans hk.symm
      · rw [hother] at hlast
        cases hlast
        have hlt := h.numbered k second last' hbefore' hlast'
        rw [← hsame, hnumber] at hlt
        exact absurd hlt (Nat.lt_irrefl _)
    · rcases set_cases hcycle hsecond with ⟨-, rfl⟩ | ⟨-, hbefore'⟩
      · rw [hother] at hlast'
        cases hlast'
        have hlt := h.numbered j first last hbefore hlast
        rw [hsame, hnumber] at hlt
        exact absurd hlt (Nat.lt_irrefl _)
      · exact h.distinct j k first second last last' hbefore hbefore' hlast hlast' hsame
  known written hmem := by
    obtain ⟨hlt, hknown⟩ := h.known written hmem
    refine ⟨Nat.lt_succ_of_lt hlt, fun j party last hparty hlast hsame => ?_⟩
    rcases set_cases hcycle hparty with ⟨-, rfl⟩ | ⟨-, hbefore⟩
    · rw [hother] at hlast
      cases hlast
      rw [← hsame, hnumber] at hlt
      exact absurd hlt (Nat.lt_irrefl _)
    · exact hknown j party last hbefore hlast hsame
  settled := h.settled

theorem scan (h : RunsSound s) (pending : List PendingExtractionJob) :
    RunsSound { s with cycles := s.cycles ++ [{ pending }] } where
  numbered j party run hparty hrun := by
    rcases snoc_cases hparty with ⟨-, rfl⟩ | hbefore
    · cases hrun
    · exact h.numbered j party run hbefore hrun
  distinct j k first second run last hfirst hsecond hrun hlast hsame := by
    rcases snoc_cases hfirst with ⟨-, rfl⟩ | hbefore
    · cases hrun
    · rcases snoc_cases hsecond with ⟨-, rfl⟩ | hbefore'
      · cases hlast
      · exact h.distinct j k first second run last hbefore hbefore' hrun hlast hsame
  known run hmem := by
    obtain ⟨hlt, hknown⟩ := h.known run hmem
    refine ⟨hlt, fun j party last hparty hlast hsame => ?_⟩
    rcases snoc_cases hparty with ⟨-, rfl⟩ | hbefore
    · cases hlast
    · exact hknown j party last hbefore hlast hsame
  settled := h.settled

end RunsSound

/-! ## Steps -/

/-- A write in the `catch` goes through when the run has written nothing yet; a run that has written
before leaves a success alone, and a job that another run holds or that has no attempts left. -/
def MayWrite (config : ExtractionConfig) (s : ExtractionWorld) (ending : WriteEnd) :
    CyclePhase → Prop
  | .caught _ none _ => ending.commits = true
  | .caught run (some status) error => ending.commits = true →
      status ≠ .succeeded ∧ ∀ row ∈ s.jobs, row.id = run.jobId → row.status ≠ .running ∧
        (config.retries run error = true → row.attemptCount < config.maxAttempts)
  | _ => True

/-- No run lets go of its job before it has written a status, or writes to a job it has left. -/
def Orderly (config : ExtractionConfig) (s : ExtractionWorld) : ExtractionLabel → Prop
  | .claim i now (.lost _) => ∀ (cycle : ExtractionCycle) (head : PendingExtractionJob),
      s.cycles[i]? = some cycle → cycle.pending.head? = some head → s.claimableJob now head.id = none
  | .fail i _ => ∀ (cycle : ExtractionCycle) (run : ExtractionRun),
      s.cycles[i]? = some cycle → cycle.phase ≠ .claimed run
  | .crash i => ∀ cycle : ExtractionCycle, s.cycles[i]? = some cycle → cycle.phase.holds = none
  | .write i _ ending => ∀ cycle : ExtractionCycle,
      s.cycles[i]? = some cycle → MayWrite config s ending cycle.phase
  | .claim _ _ .committed | .claim _ _ (.refused _) | .enqueue _ _ | .scan _ _ | .call _
  | .answer _ _ => True

/-- The jobs and the runs of a reachable state. -/
structure Sound (config : ExtractionConfig) (s : ExtractionWorld) : Prop where
  jobs : JobsSound config s
  runs : RunsSound s

namespace Sound

theorem moved (h : Sound config s) (hcycle : s.cycles[i]? = some cycle)
    (hmoved : CyclePhase.Moved cycle.phase other.phase) : Sound config (s.setCycle i other) :=
  ⟨h.jobs.moved hcycle hmoved, h.runs.moved hcycle hmoved.current hmoved.succeeded⟩

theorem enqueue (h : Sound config s) (hmax : 0 < config.maxAttempts) {id : String}
    {input : EnqueueExtractionJobInput} (hstep : s.enqueueExtractionJob id input = some next) :
    Sound config next := by
  unfold ExtractionWorld.enqueueExtractionJob at hstep
  split at hstep
  · rename_i row hfind
    have hrow : row ∈ s.jobs := List.mem_of_find?_eq_some hfind
    cases hstep
    cases hkept : row.kept input.requeueSucceeded with
    | true => exact ⟨h.jobs.keep hrow hkept, h.runs.jobs⟩
    | false =>
        exact ⟨h.jobs.renew hmax hrow hkept, (h.runs.note fun _ _ => by intro h; cases h).jobs⟩
  · split at hstep
    · cases hstep
    · rename_i hnew
      cases hstep
      refine ⟨h.jobs.insert hmax ?_ rfl rfl, (h.runs.note fun _ _ => by intro h; cases h).jobs⟩
      intro old hold hid
      exact hnew (List.any_eq_true.mpr ⟨old, hold, decide_eq_true hid⟩)

theorem claim (h : Sound config s) (hcycle : s.cycles[i]? = some cycle) {ending : WriteEnd}
    (hguard : Orderly config s (.claim i now ending))
    (hstep : s.claimStep i now cycle ending = some next) : Sound config next := by
  unfold ExtractionWorld.claimStep at hstep
  split at hstep
  · rename_i head rest hphase hpending
    have hidle : cycle.phase.current = none := by
      rw [hphase]
      rfl
    have hleave : ∀ {phase : CyclePhase}, phase.current = none →
        CyclePhase.Moved cycle.phase phase := by
      intro phase hnone
      refine .leave ?_ hnone
      rw [hphase]
      rfl
    cases ending with
    | refused error =>
        cases hstep
        exact h.moved hcycle (hleave rfl)
    | lost error =>
        have hnone := hguard cycle head hcycle (by rw [hpending]; rfl)
        dsimp only at hstep
        rw [hnone] at hstep
        cases hstep
        exact h.moved hcycle (hleave rfl)
    | committed =>
        dsimp only at hstep
        split at hstep
        · cases hstep
          exact h.moved hcycle (hleave rfl)
        · rename_i row hfind
          have hrow : row ∈ s.jobs := List.mem_of_find?_eq_some hfind
          have hclaimable := List.find?_some hfind
          rw [Bool.and_eq_true, ExtractionJobRow.claimable, Bool.and_eq_true, decide_eq_true_eq,
            decide_eq_true_eq] at hclaimable
          cases hstep
          exact ⟨h.jobs.claim hcycle hidle hrow hclaimable.2.1 rfl,
            (h.runs.claim hcycle rfl rfl).jobs⟩
  · cases hstep

theorem call (h : Sound config s) (hcycle : s.cycles[i]? = some cycle)
    (hstep : s.callStep i cycle = some next) : Sound config next := by
  unfold ExtractionWorld.callStep at hstep
  split at hstep
  · rename_i run hphase
    cases hstep
    have hmoved : CyclePhase.Moved cycle.phase (.awaiting run) := by
      rw [hphase]
      exact .keep rfl rfl (.inr rfl) id
    refine ⟨h.jobs.call hcycle hphase rfl, ?_⟩
    have hruns : RunsSound (s.setCycle i { cycle with phase := .awaiting run }) :=
      h.runs.moved hcycle hmoved.current hmoved.succeeded
    exact hruns.note fun _ _ => by intro h; cases h
  · cases hstep

theorem write (h : Sound config s) (hcycle : s.cycles[i]? = some cycle) {ending : WriteEnd}
    (hguard : MayWrite config s ending cycle.phase)
    (hstep : s.writeStep config i now cycle ending = some next) : Sound config next := by
  obtain ⟨write, hwrite, rfl⟩ := Option.map_eq_some_iff.mp hstep
  have hof := CyclePhase.write_of hwrite
  cases hcommits : ending.commits with
  | true =>
      have hwritten := CyclePhase.written_of hwrite hcommits
      dsimp only
      rw [if_pos rfl]
      rcases CyclePhase.holds_or_late hwrite with ⟨hholds, hfresh⟩ | ⟨status, error, hphase⟩
      · exact ⟨h.jobs.write_of_holds hcycle hof hwritten hholds,
          (h.runs.write hcycle hof.current hfresh hwritten).jobs⟩
      · rw [hphase] at hguard
        obtain ⟨hstatus, hrows⟩ := hguard hcommits
        have hfresh : cycle.phase.succeeded = false := by
          rw [hphase]
          cases status <;> first | rfl | exact absurd rfl hstatus
        refine ⟨h.jobs.write_late hcycle hof hwritten fun row hrow hid => ?_,
          (h.runs.write hcycle hof.current hfresh hwritten).jobs⟩
        refine ⟨(hrows row hrow hid).1, fun hqueued => ?_⟩
        obtain ⟨status', error', hphase', hretries⟩ := hof.repeats hqueued
        obtain ⟨-, -, rfl⟩ := CyclePhase.caught.inj (hphase.symm.trans hphase')
        exact (hrows row hrow hid).2 hretries
  | false =>
      dsimp only
      rw [if_neg Bool.false_ne_true]
      cases ending with
      | committed => cases hcommits
      | lost error => cases hcommits
      | refused error =>
          refine h.moved hcycle (CyclePhase.moved_of_refused hwrite fun run reason hphase => ?_)
          rw [hphase] at hguard
          cases hguard

theorem step (h : Sound config s) (hmax : 0 < config.maxAttempts) {label : ExtractionLabel}
    (hguard : Orderly config s label) (hstep : (extractionMachine config).step s label = some next) :
    Sound config next := by
  cases label with
  | enqueue id input => exact h.enqueue hmax hstep
  | scan now jobId =>
      cases hstep
      exact ⟨h.jobs.scan _, h.runs.scan _⟩
  | claim i now ending =>
      obtain ⟨cycle, hcycle, hstep⟩ := Option.bind_eq_some_iff.mp hstep
      exact h.claim hcycle hguard hstep
  | call i =>
      obtain ⟨cycle, hcycle, hstep⟩ := Option.bind_eq_some_iff.mp hstep
      exact h.call hcycle hstep
  | answer i answer =>
      obtain ⟨cycle, hcycle, hstep⟩ := Option.bind_eq_some_iff.mp hstep
      obtain ⟨phase, hphase, rfl⟩ := Option.map_eq_some_iff.mp hstep
      exact h.moved hcycle (CyclePhase.moved_of_resolved hphase)
  | fail i error =>
      obtain ⟨cycle, hcycle, hstep⟩ := Option.bind_eq_some_iff.mp hstep
      obtain ⟨phase, hphase, rfl⟩ := Option.map_eq_some_iff.mp hstep
      exact h.moved hcycle (CyclePhase.moved_of_rejects hphase fun run => hguard cycle run hcycle)
  | write i now ending =>
      obtain ⟨cycle, hcycle, hstep⟩ := Option.bind_eq_some_iff.mp hstep
      exact h.write hcycle (hguard cycle hcycle) hstep
  | crash i =>
      obtain ⟨cycle, hcycle, rfl⟩ := Option.map_eq_some_iff.mp hstep
      exact h.moved hcycle (.leave (hguard cycle hcycle) rfl)

theorem start : Sound config {} where
  jobs := {
    keys := List.nodup_nil
    lone := fun i j cycle other run last hcycle => by cases hcycle
    held := fun i cycle run hcycle => by cases hcycle
    live := fun row hrow => by cases hrow
    budget := fun row hrow => by cases hrow
    calls := fun row hrow => by cases hrow
    spare := fun i cycle run hcycle => by cases hcycle }
  runs := {
    numbered := fun i cycle run hcycle => by cases hcycle
    distinct := fun i j cycle other run last hcycle => by cases hcycle
    known := fun run hmem => by cases hmem
    settled := .nil }

end Sound

/-! ## The lifecycle -/

/-- The lifecycle of the jobs of a world. -/
structure Lifecycle (config : ExtractionConfig) (s : ExtractionWorld) : Prop where
  /-- What a run has recorded as succeeded it never writes again. -/
  settled : s.history.Pairwise fun later earlier => ∀ run last status,
    earlier = .written run .succeeded → later = .written last status → last.number ≠ run.number
  budget : ∀ row ∈ s.jobs, callsSince row.id s.history ≤ config.maxAttempts
  lone : ∀ (i j : Nat) (cycle other : ExtractionCycle) (run last : ExtractionRun),
    s.cycles[i]? = some cycle → s.cycles[j]? = some other → cycle.phase.holds = some run →
      other.phase.holds = some last → run.jobId = last.jobId → i = j
  /-- What is running is held by a cycle that goes on. -/
  live : ∀ row ∈ s.jobs, row.status = .running → ∃ (i : Nat) (cycle : ExtractionCycle)
    (run : ExtractionRun), s.cycles[i]? = some cycle ∧ cycle.phase.holds = some run ∧
      run.jobId = row.id

theorem lifecycle_of_run (hmax : 0 < config.maxAttempts) {labels : List ExtractionLabel}
    (hmeets : (extractionMachine config).Meets (Orderly config) {} labels)
    (hrun : (extractionMachine config).run {} labels = some s) : Lifecycle config s := by
  have hsound : Sound config s := (extractionMachine config).invariant_of_meets
    (fun _ _ _ hguard h hstep => h.step hmax hguard hstep) Sound.start hmeets hrun
  exact ⟨hsound.runs.settled,
    fun row hrow => Nat.le_trans (hsound.jobs.calls row hrow) (hsound.jobs.budget row hrow).1,
    hsound.jobs.lone, hsound.jobs.live⟩

namespace UploadedStatement

def upload : EnqueueExtractionJobInput :=
  { tenantId := "tnt_1", rawId := "raw_1", contentSha256 := "c0ffee", requestedBy := "user_1" }

/-- Until the external extractor is called. -/
def called : List ExtractionLabel :=
  [.enqueue "job_1" upload, .scan 0 none, .claim 0 0 .committed, .answer 0 .emitted,
    .answer 0 (.artifact (some false)), .answer 0 .bytes, .answer 0 (.local_ none), .call 0]

/-- The extractor does not answer, the job is queued again, and the process stops. -/
def retried : List ExtractionLabel :=
  called ++ [.fail 0 (.other "timeout"), .write 0 0 .committed, .crash 0]

theorem orderly_retried : (extractionMachine {}).Meets (Orderly {}) {} retried := by
  refine ⟨trivial, fun _ h₁ => ⟨trivial, fun _ h₂ => ⟨trivial, fun _ h₃ => ⟨trivial, fun _ h₄ =>
    ⟨trivial, fun _ h₅ => ⟨trivial, fun _ h₆ => ⟨trivial, fun _ h₇ => ⟨trivial, fun _ h₈ =>
      ⟨?_, fun _ h₉ => ⟨?_, fun _ h₁₀ => ⟨?_, fun _ _ => trivial⟩⟩⟩⟩⟩⟩⟩⟩⟩⟩⟩
  · cases h₁; cases h₂; cases h₃; cases h₄; cases h₅; cases h₆; cases h₇; cases h₈
    intro cycle run hcycle
    cases hcycle
    exact fun h => by cases h
  · cases h₁; cases h₂; cases h₃; cases h₄; cases h₅; cases h₆; cases h₇; cases h₈; cases h₉
    intro cycle hcycle
    cases hcycle
    rfl
  · cases h₁; cases h₂; cases h₃; cases h₄; cases h₅; cases h₆; cases h₇; cases h₈; cases h₉
    cases h₁₀
    intro cycle hcycle
    cases hcycle
    rfl

theorem retried_lifecycle : ∃ s, (extractionMachine {}).run {} retried = some s ∧
    s.jobs.map ExtractionJobRow.status = [.queued] ∧ Lifecycle {} s := by
  obtain ⟨s, hrun, hstatus⟩ : ∃ s, (extractionMachine {}).run {} retried = some s ∧
      s.jobs.map ExtractionJobRow.status = [.queued] := ⟨_, rfl, rfl⟩
  have hmax : 0 < ({} : ExtractionConfig).maxAttempts := by decide
  exact ⟨s, hrun, hstatus, lifecycle_of_run hmax orderly_retried hrun⟩

/-- The audit event of the success is refused, and the run queues the job again. -/
def undone : List ExtractionLabel :=
  called ++ [.answer 0 (.extracted 1), .answer 0 (.reconciled "parsed_1"), .write 0 0 .committed,
    .fail 0 (.other "audit unavailable"), .write 0 0 .committed]

theorem success_undone : ∃ s run rest, (extractionMachine {}).run {} undone = some s ∧
    s.jobs.map ExtractionJobRow.status = [.queued] ∧
    s.history = .written run .queued :: .written run .succeeded :: rest :=
  ⟨_, _, _, rfl, rfl, rfl⟩

end UploadedStatement

end BrainCore.Raw
