import Mathlib
import BrainCore.Foundation.Json
import BrainCore.Foundation.Machine

/-!
# Extraction jobs

The statements of `services/raw/src/repository/extractionJobs.ts` and
`runDocumentExtractionCycle` of `services/api/src/raw-extract/worker.ts`, await by
await, with any number of cycles and callers of `enqueueExtractionJob` in any
order.
-/

namespace BrainCore.Raw

open BrainCore.Foundation

inductive ExtractionJobStatus where
  | queued
  | running
  | succeeded
  | failed
deriving DecidableEq

/-- What the `error` column keeps. -/
structure JobError where
  code : String
  message : String
  details : Option Json := none
  retryExhausted : Bool := false

structure ExtractionJobRow where
  id : String
  tenantId : String
  rawId : String
  contentSha256 : String
  status : ExtractionJobStatus := .queued
  parsedId : Option String := none
  confidence : Option Rat := none
  error : Option JobError := none
  attemptCount : Nat := 0
  nextAttemptAt : Option Nat := none
  requestedBy : String

structure EnqueueExtractionJobInput where
  tenantId : String
  rawId : String
  contentSha256 : String
  requestedBy : String
  requeueSucceeded : Bool := false

namespace ExtractionJobRow

variable (row : ExtractionJobRow)

/-- The row is left as it is by an enqueue of its key. -/
def kept (requeueSucceeded : Bool) : Bool :=
  row.status = .running || row.status = .succeeded && !requeueSucceeded

/-- `ON CONFLICT (tenant_id, raw_id, content_sha256) DO UPDATE`. -/
def enqueued (requestedBy : String) (requeueSucceeded : Bool) : ExtractionJobRow :=
  if row.kept requeueSucceeded then { row with requestedBy }
  else
    { row with
      status := .queued
      parsedId := none
      confidence := none
      error := none
      attemptCount := 0
      nextAttemptAt := none
      requestedBy }

def claimable (now : Nat) : Bool :=
  row.status = .queued && row.nextAttemptAt.all (· ≤ now)

def claimed : ExtractionJobRow :=
  { row with status := .running, attemptCount := row.attemptCount + 1 }

def markSucceeded (parsedId : String) (confidence : Rat) : ExtractionJobRow :=
  { row with
    status := .succeeded
    parsedId := some parsedId
    confidence := some confidence
    error := none
    nextAttemptAt := none }

def requeued (error : JobError) (nextAttemptAt : Nat) : ExtractionJobRow :=
  { row with status := .queued, error := some error, nextAttemptAt := some nextAttemptAt }

def markFailed (error : JobError) : ExtractionJobRow :=
  { row with status := .failed, error := some error, nextAttemptAt := none }

end ExtractionJobRow

/-! ## Errors and retries -/

/-- An exception: a `BrainError`, or any other. -/
inductive ExtractionError where
  | brain (code message : String) (statusCode : Nat) (details : Option Json)
  | other (message : String)

namespace ExtractionError

def errorToDetails : ExtractionError → JobError
  | brain code message _ details => { code, message, details }
  | other message => { code := "internal_server_error", message }

def isTransientExtractionError : ExtractionError → Bool
  | brain _ _ statusCode _ => 500 ≤ statusCode
  | other _ => true

end ExtractionError

def MAX_RETRY_DELAY_MS : Nat := 15 * 60000

def nextRetryAt (now retryBaseMs attemptCount : Nat) : Nat :=
  now + min (retryBaseMs * 2 ^ (attemptCount - 1)) MAX_RETRY_DELAY_MS

/-- The options of a cycle, and whether there is a client of the external extractor. -/
structure ExtractionConfig where
  batchSize : Nat := 10
  maxAttempts : Nat := 3
  retryBaseMs : Nat := 30000
  hasClient : Bool := true

/-! ## A cycle -/

structure PendingExtractionJob where
  id : String
  rawId : String

/-- The work on one claimed row: its number is history. -/
structure ExtractionRun where
  number : Nat
  jobId : String
  attemptCount : Nat

/-- Where a cycle is. -/
inductive CyclePhase where
  /-- Between two rows. -/
  | idle
  /-- Before the audit event of the claim, which is outside of the `try`. -/
  | claimed (run : ExtractionRun)
  | loading (run : ExtractionRun)
  /-- About to write `failed` within the `try`. -/
  | rejected (run : ExtractionRun) (error : JobError)
  | reading (run : ExtractionRun)
  | interpreting (run : ExtractionRun)
  /-- About to call the external extractor. -/
  | calling (run : ExtractionRun)
  | awaiting (run : ExtractionRun)
  | reconciling (run : ExtractionRun) (confidence : Rat)
  /-- About to write `succeeded`. -/
  | recording (run : ExtractionRun) (parsedId : String) (confidence : Rat)
  /-- Before the audit event of the status that was written within the `try`. -/
  | recorded (run : ExtractionRun) (status : ExtractionJobStatus)
  | notifying (run : ExtractionRun)
  /-- In the `catch`, with the status that the run has written before. -/
  | caught (run : ExtractionRun) (written : Option ExtractionJobStatus) (error : ExtractionError)
  /-- Before the audit event of the status that was written in the `catch`. -/
  | settled (run : ExtractionRun)
  | thrown
  | crashed

/-- What an await of a cycle resolves to. -/
inductive CycleAnswer where
  | emitted
  /-- The row of the artifact, if there is one, and whether it is tombstoned. -/
  | artifact (tombstoned : Option Bool)
  | bytes
  /-- `tryInProcessUploadExtraction`. -/
  | local_ (parsed : Option (String × Rat))
  | extracted (confidence : Rat)
  | reconciled (parsedId : String)
  | notified

def artifactNotFound : JobError :=
  { code := "raw_artifact_not_found", message := "raw artifact not found" }

def artifactTombstoned : JobError :=
  { code := "raw_artifact_tombstoned", message := "raw artifact tombstoned" }

def dependencyUnavailable : JobError :=
  { code := "dependency_unavailable", message := "document extraction agent is not configured" }

namespace CyclePhase

/-- The next phase when the await resolves. -/
def resolved (config : ExtractionConfig) : CyclePhase → CycleAnswer → Option CyclePhase
  | claimed run, .emitted => some (loading run)
  | loading run, .artifact none => some (rejected run artifactNotFound)
  | loading run, .artifact (some true) => some (rejected run artifactTombstoned)
  | loading run, .artifact (some false) => some (reading run)
  | reading run, .bytes => some (interpreting run)
  | interpreting run, .local_ (some (parsedId, confidence)) =>
      some (recording run parsedId confidence)
  | interpreting run, .local_ none =>
      some (if config.hasClient then calling run else rejected run dependencyUnavailable)
  | awaiting run, .extracted confidence => some (reconciling run confidence)
  | reconciling run confidence, .reconciled parsedId =>
      some (recording run parsedId (min confidence (1 / 2)))
  | recorded run .succeeded, .emitted => some (notifying run)
  | recorded _ _, .emitted => some idle
  | notifying _, .notified => some idle
  | settled _, .emitted => some idle
  | _, _ => none

/-- The next phase when the await throws. -/
def rejects (error : ExtractionError) : CyclePhase → Option CyclePhase
  | claimed _ | settled _ => some thrown
  | loading run | reading run | interpreting run | awaiting run | reconciling run _ =>
      some (caught run none error)
  | recorded run status => some (caught run (some status) error)
  -- `notifyAfterExtract` catches what the hook throws
  | notifying _ => some idle
  | idle | rejected _ _ | calling _ | recording _ _ _ | caught _ _ _ | thrown | crashed => none

end CyclePhase

/-- A status that a cycle writes, keyed on the id of the job only. -/
structure StatusWrite where
  run : ExtractionRun
  status : ExtractionJobStatus
  update : ExtractionJobRow → ExtractionJobRow

/-- How a statement on its own connection ends for the cycle. -/
inductive WriteEnd where
  | committed
  /-- It is committed, and the answer does not come back. -/
  | lost (error : ExtractionError)
  | refused (error : ExtractionError)

def WriteEnd.commits : WriteEnd → Bool
  | committed | lost _ => true
  | refused _ => false

/-- The attempt is repeated, rather than failed. -/
def ExtractionConfig.retries (config : ExtractionConfig) (run : ExtractionRun)
    (error : ExtractionError) : Bool :=
  error.isTransientExtractionError && run.attemptCount < config.maxAttempts

namespace CyclePhase

/-- The status write that comes next. -/
def write (config : ExtractionConfig) (now : Nat) : CyclePhase → Option StatusWrite
  | rejected run error => some ⟨run, .failed, fun row => row.markFailed error⟩
  | recording run parsedId confidence =>
      some ⟨run, .succeeded, fun row => row.markSucceeded parsedId confidence⟩
  | caught run _ error =>
      some (
        if config.retries run error then
          ⟨run, .queued, fun row => row.requeued error.errorToDetails
            (nextRetryAt now config.retryBaseMs run.attemptCount)⟩
        else
          ⟨run, .failed, fun row => row.markFailed
            { error.errorToDetails with retryExhausted := error.isTransientExtractionError }⟩)
  | idle | claimed _ | loading _ | reading _ | interpreting _ | calling _ | awaiting _
  | reconciling _ _ | recorded _ _ | notifying _ | settled _ | thrown | crashed => none

/-- The next phase when the write of a status ends. -/
def written (status : ExtractionJobStatus) (run : ExtractionRun) :
    CyclePhase → WriteEnd → CyclePhase
  | caught _ _ _, .committed => settled run
  | caught _ _ _, .lost _ => thrown
  | caught _ _ _, .refused _ => thrown
  | _, .committed => recorded run status
  | _, .lost error => caught run (some status) error
  | _, .refused error => caught run none error

end CyclePhase

structure ExtractionCycle where
  pending : List PendingExtractionJob
  phase : CyclePhase := .idle

/-! ## The system -/

inductive JobEvent where
  /-- A job was made, or queued anew with no attempts, by an enqueue. -/
  | renewed (jobId : String)
  | called (run : ExtractionRun)
  | written (run : ExtractionRun) (status : ExtractionJobStatus)

/-- The jobs in the order they were made and the cycles, and as history what happened to the jobs,
the latest first. -/
structure ExtractionWorld where
  jobs : List ExtractionJobRow := []
  cycles : List ExtractionCycle := []
  started : Nat := 0
  history : List JobEvent := []

inductive ExtractionLabel where
  | enqueue (id : String) (input : EnqueueExtractionJobInput)
  /-- A cycle begins: it selects the rows that are due. -/
  | scan (now : Nat) (jobId : Option String)
  | claim (i now : Nat) (ending : WriteEnd)
  /-- The request to the external extractor is sent. -/
  | call (i : Nat)
  | answer (i : Nat) (answer : CycleAnswer)
  | fail (i : Nat) (error : ExtractionError)
  | write (i now : Nat) (ending : WriteEnd)
  | crash (i : Nat)

namespace ExtractionWorld

variable (config : ExtractionConfig) (s : ExtractionWorld)

/-- `WHERE id = $1`. -/
def updateJob (jobId : String) (update : ExtractionJobRow → ExtractionJobRow) :
    List ExtractionJobRow :=
  s.jobs.map fun row => if row.id = jobId then update row else row

def setCycle (i : Nat) (cycle : ExtractionCycle) : ExtractionWorld :=
  { s with cycles := s.cycles.set i cycle }

def ofKey (input : EnqueueExtractionJobInput) : Option ExtractionJobRow :=
  s.jobs.find? fun row => row.tenantId = input.tenantId ∧ row.rawId = input.rawId ∧
    row.contentSha256 = input.contentSha256

def enqueueExtractionJob (id : String) (input : EnqueueExtractionJobInput) :
    Option ExtractionWorld :=
  match s.ofKey input with
  | some row =>
      some { s with
        jobs := s.updateJob row.id fun row => row.enqueued input.requestedBy input.requeueSucceeded
        history := if row.kept input.requeueSucceeded then s.history else .renewed row.id :: s.history }
  | none =>
      -- the primary key
      if s.jobs.any fun row => row.id = id then none
      else some { s with
        jobs := s.jobs ++ [{ id, tenantId := input.tenantId, rawId := input.rawId,
                             contentSha256 := input.contentSha256, requestedBy := input.requestedBy }]
        history := .renewed id :: s.history }

/-- The rows of a cycle, oldest first. -/
def selectPending (now : Nat) (jobId : Option String) : List PendingExtractionJob :=
  ((s.jobs.filter fun row => row.claimable now && jobId.all (row.id = ·)).take config.batchSize).map
    fun row => ⟨row.id, row.rawId⟩

def claimableJob (now : Nat) (jobId : String) : Option ExtractionJobRow :=
  s.jobs.find? fun row => row.id = jobId && row.claimable now

/-- The jobs once the row is claimed, and the run that has claimed it. -/
def claimed (row : ExtractionJobRow) : ExtractionWorld :=
  { s with jobs := s.updateJob row.id ExtractionJobRow.claimed, started := s.started + 1 }

def claimStep (i now : Nat) (cycle : ExtractionCycle) (ending : WriteEnd) :
    Option ExtractionWorld :=
  match cycle.phase, cycle.pending with
  | .idle, head :: rest =>
      match ending with
      | .refused _ => some (s.setCycle i ⟨rest, .thrown⟩)
      | .committed =>
          match s.claimableJob now head.id with
          | none => some (s.setCycle i ⟨rest, .idle⟩)
          | some row => some ((s.claimed row).setCycle i
              ⟨rest, .claimed ⟨s.started, row.id, row.attemptCount + 1⟩⟩)
      | .lost _ =>
          match s.claimableJob now head.id with
          | none => some (s.setCycle i ⟨rest, .thrown⟩)
          | some row => some ((s.claimed row).setCycle i ⟨rest, .thrown⟩)
  | _, _ => none

def callStep (i : Nat) (cycle : ExtractionCycle) : Option ExtractionWorld :=
  match cycle.phase with
  | .calling run =>
      some { s.setCycle i { cycle with phase := .awaiting run } with
        history := .called run :: s.history }
  | _ => none

def writeStep (i now : Nat) (cycle : ExtractionCycle) (ending : WriteEnd) : Option ExtractionWorld :=
  (cycle.phase.write config now).map fun write =>
    let next := s.setCycle i { cycle with phase := cycle.phase.written write.status write.run ending }
    if ending.commits then
      { next with
        jobs := s.updateJob write.run.jobId write.update
        history := .written write.run write.status :: s.history }
    else next

def step : ExtractionLabel → Option ExtractionWorld
  | .enqueue id input => s.enqueueExtractionJob id input
  | .scan now jobId =>
      some { s with cycles := s.cycles ++ [{ pending := s.selectPending config now jobId }] }
  | .claim i now ending => s.cycles[i]?.bind fun cycle => s.claimStep i now cycle ending
  | .call i => s.cycles[i]?.bind fun cycle => s.callStep i cycle
  | .answer i answer => s.cycles[i]?.bind fun cycle =>
      (cycle.phase.resolved config answer).map fun phase => s.setCycle i { cycle with phase }
  | .fail i error => s.cycles[i]?.bind fun cycle =>
      (cycle.phase.rejects error).map fun phase => s.setCycle i { cycle with phase }
  | .write i now ending => s.cycles[i]?.bind fun cycle => s.writeStep config i now cycle ending
  | .crash i => s.cycles[i]?.map fun cycle => s.setCycle i { cycle with phase := .crashed }

end ExtractionWorld

def extractionMachine (config : ExtractionConfig) : Machine ExtractionWorld ExtractionLabel :=
  ⟨fun s => s.step config⟩

end BrainCore.Raw
