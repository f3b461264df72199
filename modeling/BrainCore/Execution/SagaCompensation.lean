import BrainCore.Execution.Sagas

/-!
# What a saga compensates

Which compensations a saga attempts after a forward action has failed, and what
its arrays say about them, by what the audit emitter answers on the way.
-/

namespace BrainCore.Execution

open BrainCore.Foundation

variable {T : Type} {deps : SagaDeps} {sagaId failedStep : String}

/-! ## Outcomes -/

/-- The compensations that were attempted, in order. -/
def attempted (calls : List (SagaCall T)) : List (SagaEntry T) :=
  calls.filterMap fun
    | .compensate entry => some entry
    | _ => none

@[simp]
theorem attempted_append (first second : List (SagaCall T)) :
    attempted (first ++ second) = attempted first ++ attempted second := List.filterMap_append

@[simp]
theorem attempted_emit (event : SagaEvent) : attempted [.emit (T := T) event] = [] := rfl

/-- The arrays at the end of the loop, or where an error left it. -/
def tallyOf (run : Saga T Compensations) : Compensations :=
  match run.result with
  | .ok tally => tally
  | .error thrown => thrown.tally

/-- The arrays of the result, or as an error left them. -/
def arraysOf (run : Saga T SagaResult) : Compensations :=
  match run.result with
  | .ok result => ⟨result.compensated, result.compensationFailures⟩
  | .error thrown => thrown.tally

/-- The steps that complete before the first one that throws. -/
def completedSteps : List (SagaStep T) → List (SagaEntry T)
  | [] => []
  | step :: rest =>
      match step.forward with
      | .ok result => ⟨step, result⟩ :: completedSteps rest
      | .error _ => []

/-- The first step whose forward action throws, and what it throws. -/
def failingStep : List (SagaStep T) → Option (SagaStep T × String)
  | [] => none
  | step :: rest =>
      match step.forward with
      | .ok _ => failingStep rest
      | .error error => some (step, error)

/-! ## One turn of the loop -/

/-- The emitter takes the news of a compensation that was made. -/
def ToldOnce (deps : SagaDeps) (place : Nat) (entry : SagaEntry T) : Prop :=
  (entry.step.compensate entry.result).isOk → (deps.emit .compensated place).isOk

/-- No error leaves the turn. -/
def GoesOn (deps : SagaDeps) (place : Nat) (entry : SagaEntry T) : Prop :=
  (entry.step.compensate entry.result).isOk ∧ (deps.emit .compensated place).isOk ∨
    (deps.emit .compensationFailed place).isOk

/-- What a turn does: it attempts the compensation, puts the name into one array, or into both, and
goes on, or ends the loop. -/
structure Turn (deps : SagaDeps) (place : Nat) (entry : SagaEntry T) (tally after : Compensations)
    (turn : Saga T Compensations) : Prop where
  attempted : attempted turn.calls = [entry]
  once : ToldOnce deps place entry → after.names.Perm (tally.names ++ [entry.step.name])
  twice : ¬ToldOnce deps place entry →
    after.names.Perm (tally.names ++ [entry.step.name, entry.step.name])
  goesOn : GoesOn deps place entry → turn.result = .ok after
  ends : ¬GoesOn deps place entry → ∃ message, turn.result = .error ⟨message, after⟩

variable {entry : SagaEntry T} {entries : List (SagaEntry T)} {tally : Compensations} {place : Nat}

theorem names_compensate (tally : Compensations) (name : String) :
    (tally.compensate name).names.Perm (tally.names ++ [name]) := by
  unfold Compensations.compensate Compensations.names
  rw [List.append_assoc, List.append_assoc]
  exact List.perm_append_comm.append_left tally.compensated

theorem names_fail (tally : Compensations) (name : String) :
    (tally.fail name).names = tally.names ++ [name] := by
  simp [Compensations.fail, Compensations.names]

section Cases

variable (sagaId failedStep : String) (tally : Compensations)

/-- The turn of a step whose compensation is made. -/
theorem compensateStep_of_ok {made told : Unit} (hcomp : entry.step.compensate entry.result = .ok made)
    (htold : deps.emit .compensated place = .ok told) :
    ∃ event, compensateStep deps sagaId failedStep place entry tally =
      ⟨.ok (tally.compensate entry.step.name), [.compensate entry, .emit event]⟩ := by
  unfold compensateStep
  simp only [emitSaga, hcomp, htold]
  exact ⟨_, rfl⟩

/-- How the handler ends, with the arrays after it. -/
def handled (deps : SagaDeps) (place : Nat) (after : Compensations) :
    Except SagaError Compensations :=
  match deps.emit .compensationFailed place with
  | .ok _ => .ok after
  | .error message => .error ⟨message, after⟩

/-- The emitter throws after the compensation was made. -/
theorem compensateStep_of_untold {made : Unit} {error : String}
    (hcomp : entry.step.compensate entry.result = .ok made)
    (huntold : deps.emit .compensated place = .error error) :
    ∃ event other, compensateStep deps sagaId failedStep place entry tally =
      ⟨handled deps place ((tally.compensate entry.step.name).fail entry.step.name),
        [.compensate entry, .emit event, .emit other]⟩ := by
  unfold compensateStep handled
  simp only [emitSaga, hcomp, huntold]
  cases hfailed : deps.emit .compensationFailed place with
  | ok => exact ⟨_, _, rfl⟩
  | error message => exact ⟨_, _, rfl⟩

theorem compensateStep_of_error {error : String}
    (hcomp : entry.step.compensate entry.result = .error error) :
    ∃ event, compensateStep deps sagaId failedStep place entry tally =
      ⟨handled deps place (tally.fail entry.step.name), [.compensate entry, .emit event]⟩ := by
  unfold compensateStep handled
  simp only [emitSaga, hcomp]
  cases hfailed : deps.emit .compensationFailed place with
  | ok => exact ⟨_, rfl⟩
  | error message => exact ⟨_, rfl⟩

theorem compensateStep_turn (deps : SagaDeps) (place : Nat) (entry : SagaEntry T) :
    ∃ after, Turn deps place entry tally after
      (compensateStep deps sagaId failedStep place entry tally) := by
  have hhandled (after : Compensations) :
      ((deps.emit .compensationFailed place).isOk → handled deps place after = .ok after) ∧
        (¬(deps.emit .compensationFailed place).isOk →
          ∃ message, handled deps place after = .error ⟨message, after⟩) := by
    unfold handled
    cases deps.emit .compensationFailed place with
    | ok => exact ⟨fun _ => rfl, fun h => absurd rfl h⟩
    | error message => exact ⟨fun h => absurd h Bool.false_ne_true, fun _ => ⟨message, rfl⟩⟩
  cases hcomp : entry.step.compensate entry.result with
  | ok made =>
      cases htold : deps.emit .compensated place with
      | ok told =>
          obtain ⟨event, hturn⟩ := compensateStep_of_ok sagaId failedStep tally hcomp htold
          have honce : ToldOnce deps place entry := fun _ => by rw [htold]; rfl
          have hon : GoesOn deps place entry := .inl ⟨by rw [hcomp]; rfl, by rw [htold]; rfl⟩
          rw [hturn]
          exact ⟨tally.compensate entry.step.name, rfl, fun _ => names_compensate tally _,
            fun h => absurd honce h, fun _ => rfl, fun h => absurd hon h⟩
      | error error =>
          obtain ⟨event, other, hturn⟩ := compensateStep_of_untold sagaId failedStep tally hcomp htold
          have htwice : ¬ToldOnce deps place entry := fun h => by
            simp [ToldOnce, hcomp, htold, Except.isOk, Except.toBool] at h
          have hon : GoesOn deps place entry ↔ (deps.emit .compensationFailed place).isOk := by
            simp [GoesOn, htold, Except.isOk, Except.toBool]
          have hnames : ((tally.compensate entry.step.name).fail entry.step.name).names.Perm
              (tally.names ++ [entry.step.name, entry.step.name]) := by
            rw [names_fail, List.append_cons tally.names]
            exact (names_compensate tally _).append_right _
          rw [hturn]
          exact ⟨_, rfl, fun h => absurd h htwice, fun _ => hnames,
            fun h => (hhandled _).1 (hon.mp h), fun h => (hhandled _).2 fun hok => h (hon.mpr hok)⟩
  | error error =>
      obtain ⟨event, hturn⟩ := compensateStep_of_error sagaId failedStep tally hcomp
      have honce : ToldOnce deps place entry := fun h => by
        simp [hcomp, Except.isOk, Except.toBool] at h
      have hon : GoesOn deps place entry ↔ (deps.emit .compensationFailed place).isOk := by
        simp [GoesOn, hcomp, Except.isOk, Except.toBool]
      rw [hturn]
      exact ⟨_, rfl, fun _ => by rw [names_fail], fun h => absurd honce h,
        fun h => (hhandled _).1 (hon.mp h), fun h => (hhandled _).2 fun hok => h (hon.mpr hok)⟩

end Cases

/-! ## The loop -/

theorem compensateSteps_cons (deps : SagaDeps) (sagaId failedStep : String) (entry : SagaEntry T)
    (earlier : List (SagaEntry T)) (tally : Compensations) :
    (∃ after, Turn deps earlier.length entry tally after
        (compensateStep deps sagaId failedStep earlier.length entry tally) ∧
      (GoesOn deps earlier.length entry →
        attempted (compensateSteps deps sagaId failedStep (entry :: earlier) tally).calls =
            entry :: attempted (compensateSteps deps sagaId failedStep earlier after).calls ∧
          (compensateSteps deps sagaId failedStep (entry :: earlier) tally).result =
            (compensateSteps deps sagaId failedStep earlier after).result) ∧
      (¬GoesOn deps earlier.length entry →
        attempted (compensateSteps deps sagaId failedStep (entry :: earlier) tally).calls = [entry] ∧
          ∃ message, (compensateSteps deps sagaId failedStep (entry :: earlier) tally).result =
            .error ⟨message, after⟩)) := by
  obtain ⟨after, hturn⟩ := compensateStep_turn sagaId failedStep tally deps earlier.length entry
  refine ⟨after, hturn, fun hon => ?_, fun hends => ?_⟩
  · rw [compensateSteps, Ported.bind_of_ok (hturn.goesOn hon), attempted_append, hturn.attempted]
    exact ⟨rfl, rfl⟩
  · obtain ⟨message, hmessage⟩ := hturn.ends hends
    rw [compensateSteps, Ported.bind_of_error hmessage]
    exact ⟨hturn.attempted, message, rfl⟩

/-- The loop attempts the last entries, down to one that ends it, and each puts its name into the
arrays. -/
theorem compensateSteps_bound (deps : SagaDeps) (sagaId failedStep : String)
    (entries : List (SagaEntry T)) (tally : Compensations) :
    attempted (compensateSteps deps sagaId failedStep entries tally).calls <+: entries ∧
      tally.names.length +
          (attempted (compensateSteps deps sagaId failedStep entries tally).calls).length ≤
        (tallyOf (compensateSteps deps sagaId failedStep entries tally)).names.length := by
  induction entries generalizing tally with
  | nil => exact ⟨List.prefix_rfl, Nat.le_refl _⟩
  | cons entry earlier ih =>
      obtain ⟨after, hturn, hgoes, hends⟩ :=
        compensateSteps_cons deps sagaId failedStep entry earlier tally
      have hone : tally.names.length + 1 ≤ after.names.length := by
        by_cases htold : ToldOnce deps earlier.length entry
        · simpa using (hturn.once htold).length_eq.ge
        · have hlength := (hturn.twice htold).length_eq
          simp only [List.length_append, List.length_cons, List.length_nil] at hlength
          omega
      by_cases hon : GoesOn deps earlier.length entry
      · obtain ⟨hcalls, hresult⟩ := hgoes hon
        obtain ⟨hsome, hlength⟩ := ih after
        rw [hcalls, tallyOf, hresult]
        refine ⟨List.cons_prefix_cons.mpr ⟨rfl, hsome⟩, ?_⟩
        rw [List.length_cons]
        unfold tallyOf at hlength
        omega
      · obtain ⟨hcalls, message, hresult⟩ := hends hon
        rw [hcalls, tallyOf, hresult]
        exact ⟨List.cons_prefix_cons.mpr ⟨rfl, List.nil_prefix⟩, hone⟩

/-- Every completed step, with the steps that completed before it. -/
def EachEntry (entries : List (SagaEntry T)) (P : SagaEntry T → List (SagaEntry T) → Prop) : Prop :=
  ∀ entry earlier, entry :: earlier <:+ entries → P entry earlier

theorem eachEntry_cons {earlier : List (SagaEntry T)} {P : SagaEntry T → List (SagaEntry T) → Prop} :
    EachEntry (entry :: earlier) P ↔ P entry earlier ∧ EachEntry earlier P := by
  constructor
  · intro h
    exact ⟨h entry earlier List.suffix_rfl,
      fun other before hsuffix => h other before (hsuffix.trans (List.suffix_cons entry earlier))⟩
  · rintro ⟨hfirst, hrest⟩ other before hsuffix
    rcases List.suffix_cons_iff.mp hsuffix with heq | hsuffix
    · obtain ⟨rfl, rfl⟩ := List.cons.inj heq
      exact hfirst
    · exact hrest other before hsuffix

theorem eachEntry_nil {P : SagaEntry T → List (SagaEntry T) → Prop} : EachEntry [] P :=
  fun _ _ hsuffix => absurd (List.suffix_nil.mp hsuffix) (List.cons_ne_nil _ _)

/-- All entries are attempted, and the arrays have the name of each of them once. -/
def LoopCompensates (entries : List (SagaEntry T)) (tally : Compensations)
    (run : Saga T Compensations) : Prop :=
  attempted run.calls = entries ∧
    (tallyOf run).names.Perm (tally.names ++ entries.map fun entry => entry.step.name)

theorem loopCompensates_iff (entries : List (SagaEntry T)) (tally : Compensations) :
    LoopCompensates entries tally (compensateSteps deps sagaId failedStep entries tally) ↔
      EachEntry entries fun entry earlier => ToldOnce deps earlier.length entry ∧
        (GoesOn deps earlier.length entry ∨ earlier = []) := by
  induction entries generalizing tally with
  | nil =>
      refine ⟨fun _ => eachEntry_nil, fun _ => ⟨rfl, ?_⟩⟩
      rw [List.map_nil, List.append_nil]
      exact List.Perm.refl _
  | cons entry earlier ih =>
      obtain ⟨after, hturn, hgoes, hends⟩ :=
        compensateSteps_cons deps sagaId failedStep entry earlier tally
      have hbound := compensateSteps_bound deps sagaId failedStep earlier after
      rw [eachEntry_cons, ← ih after]
      by_cases hon : GoesOn deps earlier.length entry
      · obtain ⟨hcalls, hresult⟩ := hgoes hon
        unfold LoopCompensates tallyOf
        rw [hcalls, hresult, List.map_cons, List.cons_inj_right]
        by_cases htold : ToldOnce deps earlier.length entry
        · have hnames : (after.names ++ earlier.map fun entry => entry.step.name).Perm
              (tally.names ++ entry.step.name :: earlier.map fun entry => entry.step.name) := by
            rw [List.append_cons tally.names]
            exact (hturn.once htold).append_right _
          rw [hnames.congr_right]
          exact ⟨fun h => ⟨⟨htold, .inl hon⟩, h⟩, And.right⟩
        · refine ⟨fun ⟨hall, hperm⟩ => ?_, fun h => absurd h.1.1 htold⟩
          -- the name of the first entry is there twice, and those of the others at least once
          have htwice := (hturn.twice htold).length_eq
          have hlength := hperm.length_eq
          have hbound := hbound.2
          unfold tallyOf at hbound
          simp only [List.length_append, List.length_cons, List.length_nil, List.length_map]
            at htwice hlength
          rw [hall] at hbound
          omega
      · obtain ⟨hcalls, message, hresult⟩ := hends hon
        unfold LoopCompensates tallyOf
        rw [hcalls, hresult]
        constructor
        · rintro ⟨hall, hperm⟩
          obtain rfl : [] = earlier := (List.cons.inj hall).2
          refine ⟨⟨by_contra fun htold => ?_, .inr rfl⟩, rfl, ?_⟩
          · have htwice := (hturn.twice htold).length_eq
            have hlength := hperm.length_eq
            simp only [List.length_append, List.length_cons, List.length_nil, List.length_map]
              at htwice hlength
            omega
          · simp [compensateSteps]
        · rintro ⟨⟨htold, hlast⟩, -⟩
          obtain rfl := hlast.resolve_left hon
          exact ⟨rfl, hturn.once htold⟩

/-- The loop ends without an error exactly when every turn goes on. -/
theorem compensateSteps_ok_iff (entries : List (SagaEntry T)) (tally : Compensations) :
    (∃ after, (compensateSteps deps sagaId failedStep entries tally).result = .ok after) ↔
      EachEntry entries fun entry earlier => GoesOn deps earlier.length entry := by
  induction entries generalizing tally with
  | nil => exact ⟨fun _ => eachEntry_nil, fun _ => ⟨tally, rfl⟩⟩
  | cons entry earlier ih =>
      obtain ⟨after, -, hgoes, hends⟩ :=
        compensateSteps_cons deps sagaId failedStep entry earlier tally
      rw [eachEntry_cons, ← ih after]
      by_cases hon : GoesOn deps earlier.length entry
      · rw [(hgoes hon).2]
        exact ⟨fun h => ⟨hon, h⟩, And.right⟩
      · obtain ⟨-, message, hresult⟩ := hends hon
        rw [hresult]
        exact ⟨fun ⟨_, h⟩ => (by cases h), fun h => absurd h.1 hon⟩

/-! ## Sagas -/

variable {done : List (SagaEntry T)} {failing : SagaStep T} {error : String} {steps : List (SagaStep T)}

@[simp]
theorem attempted_forward (step : SagaStep T) : attempted [.forward step] = [] := rfl

@[simp]
theorem attempted_emitSaga {tally : Compensations} {action : SagaAction} {inputs outputs : Json} :
    attempted (emitSaga (T := T) deps tally place action inputs outputs).calls = [] := rfl

/-- What a step adds, when it completes. -/
theorem runSagaFrom_completed {step : SagaStep T} {result : T} {rest : List (SagaStep T)}
    (h : step.forward = .ok result) :
    runSagaFrom deps sagaId done (step :: rest) =
      ⟨(runSagaFrom deps sagaId (done ++ [⟨step, result⟩]) rest).result,
        .forward step :: (runSagaFrom deps sagaId (done ++ [⟨step, result⟩]) rest).calls⟩ := by
  simp only [runSagaFrom, h]
  rfl

theorem runSagaFrom_thrown {step : SagaStep T} {rest : List (SagaStep T)}
    (h : step.forward = .error error) :
    runSagaFrom deps sagaId done (step :: rest) =
      ⟨(rollBack deps sagaId done step error).result,
        .forward step :: (rollBack deps sagaId done step error).calls⟩ := by
  simp only [runSagaFrom, h]
  rfl

/-- With no step that throws, nothing is compensated. -/
theorem runSagaFrom_of_none (h : failingStep steps = none) :
    attempted (runSagaFrom deps sagaId done steps).calls = [] := by
  induction steps generalizing done with
  | nil =>
      unfold runSagaFrom
      exact congrArg attempted (Ported.calls_bind_of_quiet fun _ => rfl)
  | cons step rest ih =>
      unfold failingStep at h
      cases hforward : step.forward with
      | ok result =>
          rw [hforward] at h
          rw [runSagaFrom_completed hforward]
          exact ih h
      | error error =>
          rw [hforward] at h
          cases h

/-- A saga with a step that throws rolls back what it has done before it. -/
theorem runSagaFrom_of_failing (deps : SagaDeps) (sagaId : String) (done : List (SagaEntry T))
    (h : failingStep steps = some (failing, error)) :
    attempted (runSagaFrom deps sagaId done steps).calls =
        attempted (rollBack deps sagaId (done ++ completedSteps steps) failing error).calls ∧
      (runSagaFrom deps sagaId done steps).result =
        (rollBack deps sagaId (done ++ completedSteps steps) failing error).result := by
  induction steps generalizing done with
  | nil => cases h
  | cons step rest ih =>
      unfold failingStep at h
      unfold completedSteps
      cases hforward : step.forward with
      | ok result =>
          rw [hforward] at h
          rw [runSagaFrom_completed hforward]
          dsimp only
          rw [List.append_cons done _ (completedSteps rest)]
          exact ih (done ++ [⟨step, result⟩]) h
      | error thrown =>
          rw [hforward] at h
          obtain ⟨rfl, rfl⟩ := Prod.mk.inj (Option.some.inj h)
          rw [runSagaFrom_thrown hforward, List.append_nil]
          exact ⟨rfl, rfl⟩

theorem rollBack_attempted :
    attempted (rollBack deps sagaId done failing error).calls =
      attempted (compensateSteps deps sagaId failing.name done.reverse {}).calls := by
  unfold rollBack
  cases hloop : (compensateSteps deps sagaId failing.name done.reverse {}).result with
  | error thrown => rw [Ported.bind_of_error hloop]
  | ok after =>
      rw [Ported.bind_of_ok hloop, attempted_append,
        Ported.calls_bind_of_quiet (fun _ => Ported.calls_pure), attempted_emitSaga, List.append_nil]

/-- Also when the last event is refused, the arrays are those of the loop. -/
theorem rollBack_arrays (error : String) :
    arraysOf (rollBack deps sagaId done failing error) =
      tallyOf (compensateSteps deps sagaId failing.name done.reverse {}) := by
  unfold rollBack arraysOf tallyOf
  cases hloop : (compensateSteps deps sagaId failing.name done.reverse {}).result with
  | error thrown => rw [Ported.bind_of_error hloop]
  | ok after =>
      rw [Ported.bind_of_ok hloop]
      dsimp only [emitSaga]
      cases hemit : deps.emit .failed done.length with
      | ok told => rfl
      | error message => rfl

theorem rollBack_ok_iff (error : String) :
    (∃ result, (rollBack deps sagaId done failing error).result = .ok result) ↔
      (∃ after, (compensateSteps deps sagaId failing.name done.reverse {}).result = .ok after) ∧
        (deps.emit .failed done.length).isOk := by
  unfold rollBack
  cases hloop : (compensateSteps deps sagaId failing.name done.reverse {}).result with
  | error thrown =>
      rw [Ported.bind_of_error hloop]
      exact ⟨fun ⟨_, h⟩ => (by cases h), fun ⟨⟨_, h⟩, _⟩ => (by cases h)⟩
  | ok after =>
      rw [Ported.bind_of_ok hloop]
      dsimp only [emitSaga]
      cases hemit : deps.emit .failed done.length with
      | ok told => exact ⟨fun _ => ⟨⟨after, rfl⟩, rfl⟩, fun _ => ⟨_, rfl⟩⟩
      | error message =>
          exact ⟨fun ⟨_, h⟩ => (by cases h), fun h => absurd h.2 Bool.false_ne_true⟩

/-! ## Compensation -/

/-- The names of the steps that completed are in the arrays, each once. -/
def SortedOnce (steps : List (SagaStep T)) (arrays : Compensations) : Prop :=
  arrays.names.Perm ((completedSteps steps).map fun entry => entry.step.name)

/-- What is compensated is what had completed, and when a step throws that is all of it, from the
last one to the first, and each step is in one of the arrays. -/
structure Compensates (steps : List (SagaStep T)) (run : Saga T SagaResult) : Prop where
  completed : ∀ entry ∈ attempted run.calls, entry ∈ completedSteps steps
  each : failingStep steps ≠ none → attempted run.calls = (completedSteps steps).reverse
  sorted : failingStep steps ≠ none → SortedOnce steps (arraysOf run)

/-- The same is so, and the caller is told with a result. -/
structure Reports (steps : List (SagaStep T)) (run : Saga T SagaResult) : Prop
    extends Compensates steps run where
  result : failingStep steps ≠ none → ∃ result, run.result = .ok result

/-- What a saga with a step that throws does is what its loop does. -/
theorem compensates_iff_loop (h : failingStep steps = some (failing, error)) :
    Compensates steps (runSagaFrom deps sagaId [] steps) ↔
      LoopCompensates (completedSteps steps).reverse {}
        (compensateSteps deps sagaId failing.name (completedSteps steps).reverse {}) := by
  have hsome : failingStep steps ≠ none := by rw [h]; exact Option.some_ne_none _
  obtain ⟨hcalls, hresult⟩ := runSagaFrom_of_failing deps sagaId [] h
  rw [List.nil_append] at hcalls hresult
  rw [rollBack_attempted] at hcalls
  have harrays : arraysOf (runSagaFrom deps sagaId [] steps) =
      tallyOf (compensateSteps deps sagaId failing.name (completedSteps steps).reverse {}) := by
    rw [← rollBack_arrays error, arraysOf, arraysOf, hresult]
  have hnames : ((completedSteps steps).reverse.map fun entry => entry.step.name).Perm
      ((completedSteps steps).map fun entry => entry.step.name) :=
    (List.reverse_perm _).map _
  constructor
  · intro hall
    refine ⟨hcalls ▸ hall.each hsome, ?_⟩
    have hsorted := hall.sorted hsome
    rw [harrays] at hsorted
    exact hsorted.trans hnames.symm
  · rintro ⟨heach, hsorted⟩
    refine ⟨fun entry hmem => ?_, fun _ => hcalls.trans heach, fun _ => ?_⟩
    · rw [hcalls, heach] at hmem
      exact List.mem_reverse.mp hmem
    · rw [harrays]
      exact hsorted.trans hnames

theorem reports_iff_loop (h : failingStep steps = some (failing, error)) :
    Reports steps (runSagaFrom deps sagaId [] steps) ↔
      LoopCompensates (completedSteps steps).reverse {}
          (compensateSteps deps sagaId failing.name (completedSteps steps).reverse {}) ∧
        (∃ after, (compensateSteps deps sagaId failing.name (completedSteps steps).reverse {}).result =
          .ok after) ∧ (deps.emit .failed (completedSteps steps).length).isOk := by
  have hsome : failingStep steps ≠ none := by rw [h]; exact Option.some_ne_none _
  have hresult := (runSagaFrom_of_failing deps sagaId [] h).2
  rw [List.nil_append] at hresult
  rw [← compensates_iff_loop h, ← rollBack_ok_iff error, ← hresult]
  exact ⟨fun hall => ⟨hall.toCompensates, hall.result hsome⟩,
    fun hall => ⟨hall.1, fun _ => hall.2⟩⟩

/-- A saga compensates what it has done exactly when the emitter takes the news of each compensation
that was made, and of each that failed, unless none is left after it; and it reports that exactly
when the emitter takes the last event too. -/
theorem saga_compensates_iff (deps : SagaDeps) (sagaId : String) (steps : List (SagaStep T)) :
    (Compensates steps (runSaga deps sagaId steps) ↔ (failingStep steps ≠ none →
      EachEntry (completedSteps steps).reverse fun entry earlier =>
        ToldOnce deps earlier.length entry ∧ (GoesOn deps earlier.length entry ∨ earlier = []))) ∧
    (Reports steps (runSaga deps sagaId steps) ↔ (failingStep steps ≠ none →
      EachEntry (completedSteps steps).reverse (fun entry earlier =>
        ToldOnce deps earlier.length entry ∧ GoesOn deps earlier.length entry) ∧
      (deps.emit .failed (completedSteps steps).length).isOk)) := by
  unfold runSaga
  cases hfailing : failingStep steps with
  | none =>
      have hnone : attempted (runSagaFrom deps sagaId [] steps).calls = [] :=
        runSagaFrom_of_none hfailing
      have hcompensates : Compensates steps (runSagaFrom deps sagaId [] steps) :=
        ⟨fun entry hmem => by simp [hnone] at hmem, fun h => absurd hfailing h,
          fun h => absurd hfailing h⟩
      exact ⟨⟨fun _ h => absurd rfl h, fun _ => hcompensates⟩,
        ⟨fun _ h => absurd rfl h, fun _ => ⟨hcompensates, fun h => absurd hfailing h⟩⟩⟩
  | some failure =>
      obtain ⟨failing, error⟩ := failure
      have hsome : failingStep steps ≠ none := by rw [hfailing]; exact Option.some_ne_none _
      have hthrown : some (failing, error) ≠ none := Option.some_ne_none _
      rw [compensates_iff_loop hfailing, reports_iff_loop hfailing, loopCompensates_iff,
        compensateSteps_ok_iff]
      refine ⟨⟨fun h _ => h, fun h => h hthrown⟩, ⟨fun ⟨hloop, hon, hlast⟩ _ => ⟨?_, hlast⟩, fun h => ?_⟩⟩
      · exact fun entry earlier hsuffix =>
          ⟨(hloop entry earlier hsuffix).1, hon entry earlier hsuffix⟩
      · obtain ⟨heach, hlast⟩ := h hthrown
        exact ⟨fun entry earlier hsuffix =>
          ⟨(heach entry earlier hsuffix).1, .inl (heach entry earlier hsuffix).2⟩,
          fun entry earlier hsuffix => (heach entry earlier hsuffix).2, hlast⟩

/-- An emitter that does not take the news of one compensation. -/
def deafDeps : SagaDeps where
  tenantId := "tnt"
  actor := "agent"
  emit action place := if action = .compensated ∧ place = 1 then .error "audit down" else .ok ()

/-- Two steps that complete and can be compensated, and one that throws. -/
def transferSteps : List (SagaStep Unit) :=
  [⟨"reserve", .ok (), fun _ => .ok ()⟩, ⟨"transfer", .ok (), fun _ => .ok ()⟩,
    ⟨"notify", .error "down", fun _ => .ok ()⟩]

/-- A compensation that was made is reported as made and as failed. -/
theorem transfer_in_both_arrays :
    (arraysOf (runSaga deafDeps "agsg" transferSteps)).compensated = ["transfer", "reserve"] ∧
      (arraysOf (runSaga deafDeps "agsg" transferSteps)).compensationFailures = ["transfer"] ∧
      ¬Compensates transferSteps (runSaga deafDeps "agsg" transferSteps) := by
  refine ⟨by decide, by decide, fun h => ?_⟩
  have hlength := (h.sorted (by simp [transferSteps, failingStep])).length_eq
  exact absurd hlength (by decide)

end BrainCore.Execution
