import BrainCore.Foundation.Parties
import BrainCore.Raw.ExtractionJobs
import Mathlib.Data.List.Nodup

/-!
# Who holds an extraction job

A run that has claimed a job holds it until it has written a status.  Each
statement that finds the job as its run has left it keeps one holder a job, the
calls of the extractor within the attempts, and what is running held.
-/

namespace BrainCore.Raw

open BrainCore.Foundation

variable {config : ExtractionConfig} {s next : ExtractionWorld} {i j now : Nat}
  {cycle other : ExtractionCycle} {phase phase' : CyclePhase} {run : ExtractionRun}
  {row : ExtractionJobRow} {jobId : String}

/-! ## Phases -/

namespace CyclePhase

/-- The run in progress. -/
def current : CyclePhase → Option ExtractionRun
  | claimed run | loading run | rejected run _ | reading run | interpreting run | calling run
  | awaiting run | reconciling run _ | recording run _ _ | recorded run _ | notifying run
  | caught run _ _ | settled run => some run
  | idle | thrown | crashed => none

/-- The run that has claimed its job and has written no status yet. -/
def holds : CyclePhase → Option ExtractionRun
  | claimed run | loading run | rejected run _ | reading run | interpreting run | calling run
  | awaiting run | reconciling run _ | recording run _ _ | caught run none _ => some run
  | idle | recorded _ _ | notifying _ | caught _ (some _) _ | settled _ | thrown | crashed => none

/-- The run that has yet to call the extractor. -/
def uncalled : CyclePhase → Option ExtractionRun
  | claimed run | loading run | reading run | interpreting run | calling run => some run
  | idle | rejected _ _ | awaiting _ | reconciling _ _ | recording _ _ _ | recorded _ _
  | notifying _ | caught _ _ _ | settled _ | thrown | crashed => none

/-- The run has recorded a success. -/
def succeeded : CyclePhase → Bool
  | recorded _ .succeeded | notifying _ | caught _ (some .succeeded) _ => true
  | _ => false

theorem current_of_holds (h : phase.holds = some run) : phase.current = some run := by
  cases phase with
  | caught held written error =>
      cases written with
      | none => exact h
      | some status => cases h
  | _ => first | exact h | cases h

theorem holds_of_uncalled (h : phase.uncalled = some run) : phase.holds = some run := by
  cases phase <;> first | exact h | cases h

/-- A step of a cycle that leaves the jobs alone. -/
structure Moved (phase phase' : CyclePhase) : Prop where
  current : ∀ run, phase'.current = some run → phase.current = some run
  holds : phase'.holds = phase.holds
  uncalled : ∀ run, phase'.uncalled = some run → phase.uncalled = some run
  succeeded : phase.succeeded = true → phase'.current = none ∨ phase'.succeeded = true

theorem holds_none_of_current (h : phase.current = none) : phase.holds = none := by
  cases hholds : phase.holds with
  | none => rfl
  | some run =>
      rw [current_of_holds hholds] at h
      cases h

theorem uncalled_none_of_current (h : phase.current = none) : phase.uncalled = none := by
  cases huncalled : phase.uncalled with
  | none => rfl
  | some run =>
      rw [current_of_holds (holds_of_uncalled huncalled)] at h
      cases h

/-- The work on a row ends. -/
theorem Moved.leave (hholds : phase.holds = none) (hcurrent : phase'.current = none) :
    Moved phase phase' where
  current run h := by
    rw [hcurrent] at h
    cases h
  holds := (holds_none_of_current hcurrent).trans hholds.symm
  uncalled run h := by
    rw [uncalled_none_of_current hcurrent] at h
    cases h
  succeeded _ := .inl hcurrent

/-- The run goes on, and has written nothing yet. -/
theorem Moved.keep (hcurrent : phase'.current = phase.current) (hholds : phase'.holds = phase.holds)
    (huncalled : phase'.uncalled = phase.uncalled ∨ phase'.uncalled = none)
    (hsucceeded : phase.succeeded = true → phase'.succeeded = true) : Moved phase phase' where
  current run h := hcurrent ▸ h
  holds := hholds
  uncalled run h := by
    rcases huncalled with hsame | hnone
    · exact hsame ▸ h
    · rw [hnone] at h
      cases h
  succeeded h := .inr (hsucceeded h)

theorem moved_of_resolved {answer : CycleAnswer}
    (h : phase.resolved config answer = some phase') : Moved phase phase' := by
  unfold resolved at h
  split at h
  · cases h
    exact .keep rfl rfl (.inl rfl) id
  · cases h
    exact .keep rfl rfl (.inr rfl) id
  · cases h
    exact .keep rfl rfl (.inr rfl) id
  · cases h
    exact .keep rfl rfl (.inl rfl) id
  · cases h
    exact .keep rfl rfl (.inl rfl) id
  · cases h
    exact .keep rfl rfl (.inr rfl) id
  · cases h
    split
    · exact .keep rfl rfl (.inl rfl) id
    · exact .keep rfl rfl (.inr rfl) id
  · cases h
    exact .keep rfl rfl (.inl rfl) id
  · cases h
    exact .keep rfl rfl (.inl rfl) id
  · cases h
    exact .keep rfl rfl (.inl rfl) fun _ => rfl
  · cases h
    exact .leave rfl rfl
  · cases h
    exact .leave rfl rfl
  · cases h
    exact .leave rfl rfl
  · cases h

theorem moved_of_rejects {error : ExtractionError} (h : phase.rejects error = some phase')
    (hclaimed : ∀ run, phase ≠ .claimed run) : Moved phase phase' := by
  cases phase with
  | claimed run => exact absurd rfl (hclaimed run)
  | settled run =>
      cases h
      exact .leave rfl rfl
  | loading run | reading run | interpreting run =>
      cases h
      exact .keep rfl rfl (.inr rfl) id
  | awaiting run =>
      cases h
      exact .keep rfl rfl (.inr rfl) id
  | reconciling run confidence =>
      cases h
      exact .keep rfl rfl (.inr rfl) id
  | recorded run status =>
      cases h
      refine .keep rfl rfl (.inl rfl) fun hsucceeded => ?_
      cases status <;> first | rfl | cases hsucceeded
  | notifying run =>
      cases h
      exact .leave rfl rfl
  | idle => cases h
  | rejected run error => cases h
  | calling run => cases h
  | recording run parsedId confidence => cases h
  | caught run written error => cases h
  | thrown => cases h
  | crashed => cases h

/-- What the status write of a phase is. -/
structure WriteOf (config : ExtractionConfig) (phase : CyclePhase) (write : StatusWrite) : Prop where
  current : phase.current = some write.run
  stops : write.status ≠ .running
  id : ∀ row, (write.update row).id = row.id
  status : ∀ row, (write.update row).status = write.status
  attempts : ∀ row, (write.update row).attemptCount = row.attemptCount
  repeats : write.status = .queued →
    ∃ written error, phase = .caught write.run written error ∧ config.retries write.run error = true

theorem write_of {write : StatusWrite} (h : phase.write config now = some write) :
    WriteOf config phase write := by
  cases phase with
  | rejected run error =>
      cases h
      exact ⟨rfl, (fun h => by cases h), fun _ => rfl, fun _ => rfl, fun _ => rfl,
        (fun h => by cases h)⟩
  | recording run parsedId confidence =>
      cases h
      exact ⟨rfl, (fun h => by cases h), fun _ => rfl, fun _ => rfl, fun _ => rfl,
        (fun h => by cases h)⟩
  | caught run written error =>
      rw [CyclePhase.write] at h
      split at h
      · rename_i hretries
        cases h
        exact ⟨rfl, (fun h => by cases h), fun _ => rfl, fun _ => rfl, fun _ => rfl,
          fun _ => ⟨written, error, rfl, hretries⟩⟩
      · cases h
        exact ⟨rfl, (fun h => by cases h), fun _ => rfl, fun _ => rfl, fun _ => rfl,
          (fun h => by cases h)⟩
  | _ => cases h

/-- A run that writes holds its job, or has written before. -/
theorem holds_or_late {write : StatusWrite} (h : phase.write config now = some write) :
    phase.holds = some write.run ∧ phase.succeeded = false ∨
      ∃ status error, phase = .caught write.run (some status) error := by
  cases phase with
  | rejected run error =>
      cases h
      exact .inl ⟨rfl, rfl⟩
  | recording run parsedId confidence =>
      cases h
      exact .inl ⟨rfl, rfl⟩
  | caught run written error =>
      obtain rfl := Option.some.inj (write_of h).current
      cases written with
      | none => exact .inl ⟨rfl, rfl⟩
      | some status => exact .inr ⟨status, error, rfl⟩
  | _ => cases h

/-- What is left of a run once its write has ended. -/
structure Written (phase' : CyclePhase) (write : StatusWrite) : Prop where
  current : ∀ run, phase'.current = some run → run = write.run
  uncalled : phase'.uncalled = none
  holds : phase'.holds = none
  succeeded : write.status = .succeeded → phase'.current = none ∨ phase'.succeeded = true

theorem written_of {write : StatusWrite} {ending : WriteEnd}
    (h : phase.write config now = some write) (hcommits : ending.commits = true) :
    Written (phase.written write.status write.run ending) write := by
  cases phase with
  | rejected run error =>
      cases h
      cases ending with
      | committed => exact ⟨fun _ h => (Option.some.inj h).symm, rfl, rfl, fun h => by cases h⟩
      | lost error => exact ⟨fun _ h => (Option.some.inj h).symm, rfl, rfl, fun h => by cases h⟩
      | refused error => cases hcommits
  | recording run parsedId confidence =>
      cases h
      cases ending with
      | committed => exact ⟨fun _ h => (Option.some.inj h).symm, rfl, rfl, fun _ => .inr rfl⟩
      | lost error => exact ⟨fun _ h => (Option.some.inj h).symm, rfl, rfl, fun _ => .inr rfl⟩
      | refused error => cases hcommits
  | caught run written error =>
      have hof := write_of h
      cases ending with
      | committed =>
          refine ⟨fun _ h => (Option.some.inj h).symm, rfl, rfl, fun hsucceeded => ?_⟩
          rw [CyclePhase.write] at h
          split at h <;> cases h <;> cases hsucceeded
      | lost error => exact ⟨(fun _ h => by cases h), rfl, rfl, fun _ => .inl rfl⟩
      | refused error => cases hcommits
  | _ => cases h

/-- A write that is refused leads to the `catch`, or out of it. -/
theorem moved_of_refused {write : StatusWrite} {error : ExtractionError}
    (h : phase.write config now = some write)
    (hkept : ∀ run reason, phase ≠ .caught run none reason) :
    Moved phase (phase.written write.status write.run (.refused error)) := by
  cases phase with
  | rejected run reason =>
      cases h
      exact .keep rfl rfl (.inr rfl) id
  | recording run parsedId confidence =>
      cases h
      exact .keep rfl rfl (.inr rfl) id
  | caught run written reason =>
      cases written with
      | none => exact absurd rfl (hkept run reason)
      | some status => exact .leave rfl rfl
  | _ => cases h

end CyclePhase

/-! ## Jobs -/

/-- The calls of the extractor for a job since an enqueue has renewed it. -/
def callsSince (jobId : String) : List JobEvent → Nat
  | [] => 0
  | .renewed other :: rest => if other = jobId then 0 else callsSince jobId rest
  | .called run :: rest =>
      if run.jobId = jobId then callsSince jobId rest + 1 else callsSince jobId rest
  | .written _ _ :: rest => callsSince jobId rest

/-- The jobs, and who holds them. -/
structure JobsSound (config : ExtractionConfig) (s : ExtractionWorld) : Prop where
  keys : (s.jobs.map ExtractionJobRow.id).Nodup
  lone : ∀ (i j : Nat) (cycle other : ExtractionCycle) (run last : ExtractionRun),
    s.cycles[i]? = some cycle → s.cycles[j]? = some other → cycle.phase.holds = some run →
      other.phase.holds = some last → run.jobId = last.jobId → i = j
  held : ∀ (i : Nat) (cycle : ExtractionCycle) (run : ExtractionRun), s.cycles[i]? = some cycle →
    cycle.phase.holds = some run →
      ∃ row ∈ s.jobs, row.id = run.jobId ∧ row.status = .running ∧ row.attemptCount = run.attemptCount
  live : ∀ row ∈ s.jobs, row.status = .running → ∃ (i : Nat) (cycle : ExtractionCycle)
    (run : ExtractionRun), s.cycles[i]? = some cycle ∧ cycle.phase.holds = some run ∧
      run.jobId = row.id
  budget : ∀ row ∈ s.jobs, row.attemptCount ≤ config.maxAttempts ∧
    (row.status = .queued → row.attemptCount < config.maxAttempts)
  calls : ∀ row ∈ s.jobs, callsSince row.id s.history ≤ row.attemptCount
  spare : ∀ (i : Nat) (cycle : ExtractionCycle) (run : ExtractionRun), s.cycles[i]? = some cycle →
    cycle.phase.uncalled = some run → callsSince run.jobId s.history < run.attemptCount

/-- Rows of one id are one row. -/
theorem JobsSound.unique (h : JobsSound config s) {first second : ExtractionJobRow}
    (hfirst : first ∈ s.jobs) (hsecond : second ∈ s.jobs) (hid : first.id = second.id) :
    first = second :=
  List.inj_on_of_nodup_map h.keys hfirst hsecond hid

theorem mem_updateJob {update : ExtractionJobRow → ExtractionJobRow} (hrow : row ∈ s.updateJob jobId update) :
    (∃ old ∈ s.jobs, old.id = jobId ∧ row = update old) ∨ row ∈ s.jobs ∧ row.id ≠ jobId := by
  obtain ⟨old, hold, rfl⟩ := List.mem_map.mp hrow
  split
  · rename_i hid
    exact .inl ⟨old, hold, hid, rfl⟩
  · rename_i hid
    exact .inr ⟨hold, hid⟩

theorem updateJob_mem {update : ExtractionJobRow → ExtractionJobRow} (hrow : row ∈ s.jobs)
    (hid : row.id = jobId) : update row ∈ s.updateJob jobId update :=
  List.mem_map.mpr ⟨row, hrow, if_pos hid⟩

theorem updateJob_kept {update : ExtractionJobRow → ExtractionJobRow} (hrow : row ∈ s.jobs)
    (hid : row.id ≠ jobId) : row ∈ s.updateJob jobId update :=
  List.mem_map.mpr ⟨row, hrow, if_neg hid⟩

theorem updateJob_ids {update : ExtractionJobRow → ExtractionJobRow}
    (hid : ∀ row, (update row).id = row.id) :
    (s.updateJob jobId update).map ExtractionJobRow.id = s.jobs.map ExtractionJobRow.id := by
  rw [ExtractionWorld.updateJob, List.map_map]
  refine List.map_congr_left fun row _ => ?_
  change (if row.id = jobId then update row else row).id = row.id
  split
  · exact hid row
  · rfl

namespace JobsSound

/-- A cycle goes on and leaves the jobs alone. -/
theorem moved (h : JobsSound config s) (hcycle : s.cycles[i]? = some cycle)
    (hmoved : CyclePhase.Moved cycle.phase other.phase) : JobsSound config (s.setCycle i other) where
  keys := h.keys
  lone j k first second run last hfirst hsecond hrun hlast := by
    have hbefore : ∀ {m : Nat} {party : ExtractionCycle} {run : ExtractionRun},
        (s.setCycle i other).cycles[m]? = some party → party.phase.holds = some run →
          ∃ old, s.cycles[m]? = some old ∧ old.phase.holds = some run := by
      intro m party run hparty hholds
      rcases set_cases hcycle hparty with ⟨rfl, rfl⟩ | ⟨-, hparty⟩
      · exact ⟨cycle, hcycle, hmoved.holds ▸ hholds⟩
      · exact ⟨party, hparty, hholds⟩
    obtain ⟨old, hold, hheld⟩ := hbefore hfirst hrun
    obtain ⟨old', hold', hheld'⟩ := hbefore hsecond hlast
    exact h.lone j k old old' run last hold hold' hheld hheld'
  held j party run hparty hholds := by
    rcases set_cases hcycle hparty with ⟨rfl, rfl⟩ | ⟨-, hparty⟩
    · exact h.held j cycle run hcycle (hmoved.holds ▸ hholds)
    · exact h.held j party run hparty hholds
  live row hrow hrunning := by
    obtain ⟨j, party, run, hparty, hholds, hid⟩ := h.live row hrow hrunning
    by_cases hij : j = i
    · subst hij
      cases hparty.symm.trans hcycle
      exact ⟨j, other, run, set_self hcycle, hmoved.holds.trans hholds, hid⟩
    · exact ⟨j, party, run, set_other hij hparty, hholds, hid⟩
  budget := h.budget
  calls := h.calls
  spare j party run hparty huncalled := by
    rcases set_cases hcycle hparty with ⟨rfl, rfl⟩ | ⟨-, hparty⟩
    · exact h.spare j cycle run hcycle (hmoved.uncalled run huncalled)
    · exact h.spare j party run hparty huncalled

/-- A status is written to a job that no other run holds. -/
theorem write (h : JobsSound config s) (hcycle : s.cycles[i]? = some cycle) {write : StatusWrite}
    (hof : CyclePhase.WriteOf config cycle.phase write)
    (hwritten : CyclePhase.Written other.phase write)
    (hfree : ∀ (j : Nat) (party : ExtractionCycle) (last : ExtractionRun),
      s.cycles[j]? = some party → party.phase.holds = some last → last.jobId = write.run.jobId → j = i)
    (hbudget : write.status = .queued → ∀ row ∈ s.jobs, row.id = write.run.jobId →
      row.attemptCount < config.maxAttempts) :
    JobsSound config { s.setCycle i other with
      jobs := s.updateJob write.run.jobId write.update
      history := .written write.run write.status :: s.history } where
  keys := (updateJob_ids hof.id).symm ▸ h.keys
  lone j k first second run last hfirst hsecond hrun hlast := by
    rcases set_cases hcycle hfirst with ⟨-, rfl⟩ | ⟨-, hfirst⟩
    · rw [hwritten.holds] at hrun
      cases hrun
    · rcases set_cases hcycle hsecond with ⟨-, rfl⟩ | ⟨-, hsecond⟩
      · rw [hwritten.holds] at hlast
        cases hlast
      · exact h.lone j k first second run last hfirst hsecond hrun hlast
  held j party run hparty hholds := by
    rcases set_cases hcycle hparty with ⟨-, rfl⟩ | ⟨hij, hparty⟩
    · rw [hwritten.holds] at hholds
      cases hholds
    · obtain ⟨row, hrow, hid, hfacts⟩ := h.held j party run hparty hholds
      refine ⟨row, updateJob_kept hrow fun hsame => ?_, hid, hfacts⟩
      exact hij (hfree j party run hparty hholds (hid.symm.trans hsame))
  live row hrow hrunning := by
    rcases mem_updateJob hrow with ⟨old, -, -, rfl⟩ | ⟨hold, hne⟩
    · exact absurd ((hof.status old).symm.trans hrunning) hof.stops
    · obtain ⟨j, party, run, hparty, hholds, hid⟩ := h.live row hold hrunning
      refine ⟨j, party, run, set_other (fun hij => ?_) hparty, hholds, hid⟩
      subst hij
      cases hparty.symm.trans hcycle
      cases (CyclePhase.current_of_holds hholds).symm.trans hof.current
      exact hne hid.symm
  budget row hrow := by
    rcases mem_updateJob hrow with ⟨old, hold, hid, rfl⟩ | ⟨hold, -⟩
    · rw [hof.attempts, hof.status]
      exact ⟨(h.budget old hold).1, fun hqueued => hbudget hqueued old hold hid⟩
    · exact h.budget row hold
  calls row hrow := by
    rcases mem_updateJob hrow with ⟨old, hold, -, rfl⟩ | ⟨hold, -⟩
    · rw [hof.attempts, hof.id]
      exact h.calls old hold
    · exact h.calls row hold
  spare j party run hparty huncalled := by
    rcases set_cases hcycle hparty with ⟨-, rfl⟩ | ⟨-, hparty⟩
    · rw [hwritten.uncalled] at huncalled
      cases huncalled
    · exact h.spare j party run hparty huncalled

/-- The holder writes. -/
theorem write_of_holds (h : JobsSound config s) (hcycle : s.cycles[i]? = some cycle)
    {write : StatusWrite} (hof : CyclePhase.WriteOf config cycle.phase write)
    (hwritten : CyclePhase.Written other.phase write)
    (hholds : cycle.phase.holds = some write.run) :
    JobsSound config { s.setCycle i other with
      jobs := s.updateJob write.run.jobId write.update
      history := .written write.run write.status :: s.history } := by
  refine h.write hcycle hof hwritten ?_ ?_
  · intro j party last hparty hlast hid
    exact h.lone j i party cycle last write.run hparty hcycle hlast hholds hid
  · intro hqueued row hrow hid
    obtain ⟨old, hold, hsame, -, hattempts⟩ := h.held i cycle write.run hcycle hholds
    obtain ⟨written, error, -, hretries⟩ := hof.repeats hqueued
    rw [h.unique hrow hold (hid.trans hsame.symm), hattempts]
    rw [ExtractionConfig.retries, Bool.and_eq_true, decide_eq_true_eq] at hretries
    exact hretries.2

/-- A run that has written before writes again, to a job that nobody holds. -/
theorem write_late (h : JobsSound config s) (hcycle : s.cycles[i]? = some cycle)
    {write : StatusWrite} (hof : CyclePhase.WriteOf config cycle.phase write)
    (hwritten : CyclePhase.Written other.phase write)
    (hrow : ∀ row ∈ s.jobs, row.id = write.run.jobId → row.status ≠ .running ∧
      (write.status = .queued → row.attemptCount < config.maxAttempts)) :
    JobsSound config { s.setCycle i other with
      jobs := s.updateJob write.run.jobId write.update
      history := .written write.run write.status :: s.history } := by
  refine h.write hcycle hof hwritten ?_ fun hqueued row hmem hid => (hrow row hmem hid).2 hqueued
  intro j party last hparty hlast hid
  obtain ⟨row, hmem, hsame, hrunning, -⟩ := h.held j party last hparty hlast
  exact absurd hrunning (hrow row hmem (hsame.trans hid)).1

/-- The extractor is called. -/
theorem call (h : JobsSound config s) (hcycle : s.cycles[i]? = some cycle)
    (hphase : cycle.phase = .calling run) (hother : other.phase = .awaiting run) :
    JobsSound config { s.setCycle i other with history := .called run :: s.history } := by
  have hmoved : CyclePhase.Moved cycle.phase other.phase := by
    rw [hphase, hother]
    exact .keep rfl rfl (.inr rfl) id
  have hheld : cycle.phase.holds = some run := by
    rw [hphase]
    rfl
  have hspare := h.spare i cycle run hcycle (by rw [hphase]; rfl)
  have hset := h.moved hcycle hmoved
  refine ⟨hset.keys, hset.lone, hset.held, hset.live, hset.budget, ?_, ?_⟩
  · intro row hrow
    change (if run.jobId = row.id then callsSince row.id s.history + 1 else
      callsSince row.id s.history) ≤ row.attemptCount
    split
    · rename_i hid
      obtain ⟨old, hold, hsame, -, hattempts⟩ := h.held i cycle run hcycle hheld
      rw [h.unique hrow hold (hid.symm.trans hsame.symm), hattempts, hsame]
      exact hspare
    · exact h.calls row hrow
  · intro j party last hparty huncalled
    rcases set_cases hcycle hparty with ⟨-, rfl⟩ | ⟨hij, hparty⟩
    · rw [hother] at huncalled
      cases huncalled
    · change (if run.jobId = last.jobId then callsSince last.jobId s.history + 1 else
        callsSince last.jobId s.history) < last.attemptCount
      rw [if_neg fun hid => hij (h.lone j i party cycle last run hparty hcycle
        (CyclePhase.holds_of_uncalled huncalled) hheld hid.symm)]
      exact h.spare j party last hparty huncalled

/-- A queued job is claimed. -/
theorem claim (h : JobsSound config s) (hcycle : s.cycles[i]? = some cycle)
    (hidle : cycle.phase.current = none) (hrow : row ∈ s.jobs) (hqueued : row.status = .queued)
    (hother : other.phase = .claimed ⟨s.started, row.id, row.attemptCount + 1⟩) :
    JobsSound config ((s.claimed row).setCycle i other) where
  keys := by
    have hids : (s.updateJob row.id ExtractionJobRow.claimed).map ExtractionJobRow.id =
        s.jobs.map ExtractionJobRow.id := updateJob_ids fun _ => rfl
    exact hids.symm ▸ h.keys
  lone j k first second run last hfirst hsecond hrun hlast hid := by
    have hnobody : ∀ {m : Nat} {party : ExtractionCycle} {run : ExtractionRun},
        s.cycles[m]? = some party → party.phase.holds = some run → run.jobId ≠ row.id := by
      intro m party run hparty hholds hsame
      obtain ⟨old, hold, hold', hrunning, -⟩ := h.held m party run hparty hholds
      rw [h.unique hold hrow (hold'.trans hsame), hqueued] at hrunning
      cases hrunning
    rcases set_cases hcycle hfirst with ⟨hj, rfl⟩ | ⟨-, hbefore⟩
    · rcases set_cases hcycle hsecond with ⟨hk, rfl⟩ | ⟨-, hbefore'⟩
      · exact hj.trans hk.symm
      · rw [hother] at hrun
        cases hrun
        exact absurd hid.symm (hnobody hbefore' hlast)
    · rcases set_cases hcycle hsecond with ⟨-, rfl⟩ | ⟨-, hbefore'⟩
      · rw [hother] at hlast
        cases hlast
        exact absurd hid (hnobody hbefore hrun)
      · exact h.lone j k first second run last hbefore hbefore' hrun hlast hid
  held j party run hparty hholds := by
    rcases set_cases hcycle hparty with ⟨-, rfl⟩ | ⟨-, hparty⟩
    · rw [hother] at hholds
      cases hholds
      exact ⟨row.claimed, updateJob_mem hrow rfl, rfl, rfl, rfl⟩
    · obtain ⟨old, hold, hid, hrunning, hattempts⟩ := h.held j party run hparty hholds
      refine ⟨old, updateJob_kept hold fun hsame => ?_, hid, hrunning, hattempts⟩
      rw [h.unique hold hrow hsame, hqueued] at hrunning
      cases hrunning
  live last hlast hrunning := by
    rcases mem_updateJob hlast with ⟨old, -, hid, rfl⟩ | ⟨hold, -⟩
    · exact ⟨i, other, _, set_self hcycle, by rw [hother]; rfl, hid.symm⟩
    · obtain ⟨j, party, run, hparty, hholds, hid⟩ := h.live last hold hrunning
      refine ⟨j, party, run, set_other (fun hij => ?_) hparty, hholds, hid⟩
      subst hij
      cases hparty.symm.trans hcycle
      rw [CyclePhase.current_of_holds hholds] at hidle
      cases hidle
  budget last hlast := by
    rcases mem_updateJob hlast with ⟨old, hold, hid, rfl⟩ | ⟨hold, -⟩
    · have hbudget := (h.budget old hold).2 (h.unique hold hrow hid ▸ hqueued)
      exact ⟨hbudget, fun hstatus => by cases hstatus⟩
    · exact h.budget last hold
  calls last hlast := by
    rcases mem_updateJob hlast with ⟨old, hold, -, rfl⟩ | ⟨hold, -⟩
    · exact Nat.le_succ_of_le (h.calls old hold)
    · exact h.calls last hold
  spare j party run hparty huncalled := by
    rcases set_cases hcycle hparty with ⟨-, rfl⟩ | ⟨-, hparty⟩
    · rw [hother] at huncalled
      cases huncalled
      exact Nat.lt_succ_of_le (h.calls row hrow)
    · exact h.spare j party run hparty huncalled

/-- A cycle begins. -/
theorem scan (h : JobsSound config s) (pending : List PendingExtractionJob) :
    JobsSound config { s with cycles := s.cycles ++ [{ pending }] } where
  keys := h.keys
  lone j k first second run last hfirst hsecond hrun hlast hid := by
    rcases snoc_cases hfirst with ⟨-, rfl⟩ | hbefore
    · cases hrun
    · rcases snoc_cases hsecond with ⟨-, rfl⟩ | hbefore'
      · cases hlast
      · exact h.lone j k first second run last hbefore hbefore' hrun hlast hid
  held j party run hparty hholds := by
    rcases snoc_cases hparty with ⟨-, rfl⟩ | hbefore
    · cases hholds
    · exact h.held j party run hbefore hholds
  live row hrow hrunning := by
    obtain ⟨j, party, run, hparty, hfacts⟩ := h.live row hrow hrunning
    exact ⟨j, party, run, snoc_other hparty, hfacts⟩
  budget := h.budget
  calls := h.calls
  spare j party run hparty huncalled := by
    rcases snoc_cases hparty with ⟨-, rfl⟩ | hbefore
    · cases huncalled
    · exact h.spare j party run hbefore huncalled

/-- A new job. -/
theorem insert (h : JobsSound config s) (hmax : 0 < config.maxAttempts)
    (hnew : ∀ old ∈ s.jobs, old.id ≠ row.id) (hqueued : row.status = .queued)
    (hattempts : row.attemptCount = 0) :
    JobsSound config { s with jobs := s.jobs ++ [row], history := .renewed row.id :: s.history } where
  keys := by
    rw [List.map_append, List.map_singleton, List.nodup_append]
    refine ⟨h.keys, List.nodup_singleton _, ?_⟩
    intro first hfirst second hsecond
    obtain ⟨old, hold, rfl⟩ := List.mem_map.mp hfirst
    rw [List.mem_singleton.mp hsecond]
    exact hnew old hold
  lone := h.lone
  held j party run hparty hholds := by
    obtain ⟨old, hold, hfacts⟩ := h.held j party run hparty hholds
    exact ⟨old, List.mem_append_left _ hold, hfacts⟩
  live last hlast hrunning := by
    rcases List.mem_append.mp hlast with hold | hnew
    · exact h.live last hold hrunning
    · rw [List.mem_singleton.mp hnew, hqueued] at hrunning
      cases hrunning
  budget last hlast := by
    rcases List.mem_append.mp hlast with hold | hnew
    · exact h.budget last hold
    · rw [List.mem_singleton.mp hnew, hattempts]
      exact ⟨Nat.zero_le _, fun _ => hmax⟩
  calls last hlast := by
    change (if row.id = last.id then 0 else callsSince last.id s.history) ≤ last.attemptCount
    split
    · exact Nat.zero_le _
    · rename_i hne
      rcases List.mem_append.mp hlast with hold | hnew
      · exact h.calls last hold
      · exact absurd (congrArg ExtractionJobRow.id (List.mem_singleton.mp hnew)).symm hne
  spare j party run hparty huncalled := by
    obtain ⟨old, hold, hid, -⟩ := h.held j party run hparty (CyclePhase.holds_of_uncalled huncalled)
    change (if row.id = run.jobId then 0 else callsSince run.jobId s.history) < run.attemptCount
    rw [if_neg fun hsame => hnew old hold (hid.trans hsame.symm)]
    exact h.spare j party run hparty huncalled

/-- An enqueue leaves the row alone but for its requester. -/
theorem keep (h : JobsSound config s) {requestedBy : String} {requeueSucceeded : Bool}
    (hrow : row ∈ s.jobs) (hkept : row.kept requeueSucceeded = true) :
    JobsSound config { s with
      jobs := s.updateJob row.id fun old => old.enqueued requestedBy requeueSucceeded } := by
  have hsame : ∀ old ∈ s.jobs, old.id = row.id →
      old.enqueued requestedBy requeueSucceeded = { old with requestedBy } := by
    intro old hold hid
    rw [h.unique hold hrow hid, ExtractionJobRow.enqueued, if_pos hkept]
  have hids : ∀ old : ExtractionJobRow, (old.enqueued requestedBy requeueSucceeded).id = old.id := by
    intro old
    unfold ExtractionJobRow.enqueued
    split <;> rfl
  refine ⟨(updateJob_ids hids).symm ▸ h.keys, h.lone, ?_, ?_, ?_, ?_, h.spare⟩
  · intro j party run hparty hholds
    obtain ⟨old, hold, hid, hrunning, hattempts⟩ := h.held j party run hparty hholds
    by_cases hrowId : old.id = row.id
    · refine ⟨_, updateJob_mem hold hrowId, (hids old).trans hid, ?_, ?_⟩
      · rw [hsame old hold hrowId]
        exact hrunning
      · rw [hsame old hold hrowId]
        exact hattempts
    · exact ⟨old, updateJob_kept hold hrowId, hid, hrunning, hattempts⟩
  · intro last hlast hrunning
    rcases mem_updateJob hlast with ⟨old, hold, hid, rfl⟩ | ⟨hold, -⟩
    · rw [hsame old hold hid] at hrunning ⊢
      exact h.live old hold hrunning
    · exact h.live last hold hrunning
  · intro last hlast
    rcases mem_updateJob hlast with ⟨old, hold, hid, rfl⟩ | ⟨hold, -⟩
    · rw [hsame old hold hid]
      exact h.budget old hold
    · exact h.budget last hold
  · intro last hlast
    rcases mem_updateJob hlast with ⟨old, hold, hid, rfl⟩ | ⟨hold, -⟩
    · rw [hsame old hold hid]
      exact h.calls old hold
    · exact h.calls last hold

/-- An enqueue queues the row anew. -/
theorem renew (h : JobsSound config s) (hmax : 0 < config.maxAttempts) {requestedBy : String}
    {requeueSucceeded : Bool} (hrow : row ∈ s.jobs) (hkept : row.kept requeueSucceeded = false) :
    JobsSound config { s with
      jobs := s.updateJob row.id fun old => old.enqueued requestedBy requeueSucceeded
      history := .renewed row.id :: s.history } := by
  have hsame : ∀ old ∈ s.jobs, old.id = row.id →
      (old.enqueued requestedBy requeueSucceeded).status = .queued ∧
        (old.enqueued requestedBy requeueSucceeded).attemptCount = 0 := by
    intro old hold hid
    rw [h.unique hold hrow hid, ExtractionJobRow.enqueued, if_neg (ne_true_of_eq_false hkept)]
    exact ⟨rfl, rfl⟩
  have hids : ∀ old : ExtractionJobRow, (old.enqueued requestedBy requeueSucceeded).id = old.id := by
    intro old
    unfold ExtractionJobRow.enqueued
    split <;> rfl
  have hstopped : row.status ≠ .running := by
    intro hrunning
    rw [ExtractionJobRow.kept, decide_eq_true hrunning] at hkept
    cases hkept
  have hother : ∀ (j : Nat) (party : ExtractionCycle) (run : ExtractionRun),
      s.cycles[j]? = some party → party.phase.holds = some run → run.jobId ≠ row.id := by
    intro j party run hparty hholds hid
    obtain ⟨old, hold, hold', hrunning, -⟩ := h.held j party run hparty hholds
    exact hstopped (h.unique hold hrow (hold'.trans hid) ▸ hrunning)
  refine ⟨(updateJob_ids hids).symm ▸ h.keys, h.lone, ?_, ?_, ?_, ?_, ?_⟩
  · intro j party run hparty hholds
    obtain ⟨old, hold, hid, hfacts⟩ := h.held j party run hparty hholds
    exact ⟨old, updateJob_kept hold fun hsame => hother j party run hparty hholds
      (hid.symm.trans hsame), hid, hfacts⟩
  · intro last hlast hrunning
    rcases mem_updateJob hlast with ⟨old, hold, hid, rfl⟩ | ⟨hold, -⟩
    · rw [(hsame old hold hid).1] at hrunning
      cases hrunning
    · exact h.live last hold hrunning
  · intro last hlast
    rcases mem_updateJob hlast with ⟨old, hold, hid, rfl⟩ | ⟨hold, -⟩
    · rw [(hsame old hold hid).2]
      exact ⟨Nat.zero_le _, fun _ => hmax⟩
    · exact h.budget last hold
  · intro last hlast
    change (if row.id = last.id then 0 else callsSince last.id s.history) ≤ last.attemptCount
    split
    · exact Nat.zero_le _
    · rename_i hne
      rcases mem_updateJob hlast with ⟨old, hold, hid, rfl⟩ | ⟨hold, -⟩
      · exact absurd (hid.symm.trans (hids old).symm) hne
      · exact h.calls last hold
  · intro j party run hparty huncalled
    change (if row.id = run.jobId then 0 else callsSince run.jobId s.history) < run.attemptCount
    rw [if_neg fun hsame => hother j party run hparty (CyclePhase.holds_of_uncalled huncalled)
      hsame.symm]
    exact h.spare j party run hparty huncalled

end JobsSound

end BrainCore.Raw
