import BrainCore.Foundation.CallRoles
import BrainCore.Foundation.Json
import BrainCore.Foundation.LinkedChain
import BrainCore.Foundation.RelyGuarantee
import BrainCore.Foundation.Table
import BrainCore.Policy.Cron

/-!
# The store of the sync worker

The tables of `services/raw/src/repository/syncPartitions.ts` and
`artifacts.ts` with the blobs behind the artifacts, and the statements over
them.  A partition has a lease, the id of the run that holds it, and the
checkpoint the last batch has committed.
-/

namespace BrainCore.Raw

open BrainCore.Foundation BrainCore.Policy

inductive BackfillStatus where
  | notStarted
  | running
  | complete
  | failed
deriving DecidableEq

inductive SyncCheckpointType where
  | cursor
  | pageToken
  | watermark
  | snapshot
deriving DecidableEq

structure SyncPartitionRow where
  id : String
  sourceId : String
  resourceId : String := ""
  objectType : String
  checkpointType : SyncCheckpointType
  committedCheckpoint : Json := .null
  pendingRunId : Option String := none
  lastSuccessfulSyncAt : Option Instant := none
  backfillStatus : BackfillStatus := .notStarted
  errorMessage : Option String := none
  updatedAt : Instant

/-- What the worker hands an adapter for one pull. -/
structure SyncPartitionState where
  sourceId : String
  resourceId : String
  objectType : String
  checkpointType : SyncCheckpointType
  committedCheckpoint : Json

/-- The fields of `IngestEnvelopeFields` that the store reads. -/
structure IngestEnvelope where
  sourceSchema : Option String := none
  objectType : Option String := none
  sourceId : Option String := none
  idempotencyKey : Option String := none
deriving DecidableEq

structure FetchedArtifact where
  body : String
  mimeType : Option String := none
  envelope : IngestEnvelope := {}
deriving DecidableEq

structure FetchIncrementalResult where
  artifacts : List FetchedArtifact
  nextCheckpoint : Json
  hasMore : Bool

/-- `blobPath(tenantId, sha)`. -/
structure BlobPath where
  tenantId : String
  day : Nat
  sha256 : String
deriving DecidableEq

structure BlobRow where
  path : BlobPath
  body : String

structure RawArtifactRow where
  id : String
  sha256 : String
  sourceType : String
  blobUri : BlobPath
  mimeType : Option String
  bytes : Nat
  ingestedBy : String
  envelope : IngestEnvelope

/-- What a run has fetched from a checkpoint and then committed. -/
structure SyncBatch where
  partitionId : String
  runId : String
  state : SyncPartitionState
  result : FetchIncrementalResult

namespace SyncBatch

def start (batch : SyncBatch) : Option Json := some batch.state.committedCheckpoint

def next (batch : SyncBatch) : Json := batch.result.nextCheckpoint

end SyncBatch

/-- An artifact for which the row of its idempotency key was taken. -/
structure ArtifactReuse where
  rowId : String
  artifact : FetchedArtifact

/-- The tables and the blobs; as history the runs that have claimed a partition, the batches that
were committed and the artifacts that were not inserted. -/
structure SyncDb where
  partitions : Table SyncPartitionRow.id := Table.empty
  artifacts : Table RawArtifactRow.id := Table.empty
  blobs : Table BlobRow.path := Table.empty
  claims : List String := []
  batches : List SyncBatch := []
  reuses : List ArtifactReuse := []

def SyncDb.batchesOf (db : SyncDb) (partitionId : String) : List SyncBatch :=
  db.batches.filter fun batch => batch.partitionId = partitionId

inductive SyncWrite where
  /-- A partition that `ensurePartitions` inserts. -/
  | ensured (row : SyncPartitionRow)
  | claimed (row : SyncPartitionRow) (runId : String)
  | advanced (row : SyncPartitionRow) (batch : SyncBatch)
  | released (row : SyncPartitionRow)
  | artifact (row : RawArtifactRow)
  | reused (reuse : ArtifactReuse)
  | blob (row : BlobRow)

namespace SyncWrite

def partition? : SyncWrite → Option SyncPartitionRow
  | .ensured row | .claimed row _ | .advanced row _ | .released row => some row
  | .artifact _ | .reused _ | .blob _ => none

def artifact? : SyncWrite → Option RawArtifactRow
  | .artifact row => some row
  | .ensured _ | .claimed _ _ | .advanced _ _ | .released _ | .reused _ | .blob _ => none

def blob? : SyncWrite → Option BlobRow
  | .blob row => some row
  | .ensured _ | .claimed _ _ | .advanced _ _ | .released _ | .artifact _ | .reused _ => none

def claim? : SyncWrite → Option String
  | .claimed _ runId => some runId
  | .ensured _ | .advanced _ _ | .released _ | .artifact _ | .reused _ | .blob _ => none

def batch? : SyncWrite → Option SyncBatch
  | .advanced _ batch => some batch
  | .ensured _ | .claimed _ _ | .released _ | .artifact _ | .reused _ | .blob _ => none

def reuse? : SyncWrite → Option ArtifactReuse
  | .reused reuse => some reuse
  | .ensured _ | .claimed _ _ | .advanced _ _ | .released _ | .artifact _ | .blob _ => none

def apply (db : SyncDb) (w : SyncWrite) : SyncDb where
  partitions := w.partition?.elim db.partitions db.partitions.put
  artifacts := w.artifact?.elim db.artifacts db.artifacts.put
  blobs := w.blob?.elim db.blobs db.blobs.put
  claims := db.claims ++ w.claim?.toList
  batches := db.batches ++ w.batch?.toList
  reuses := db.reuses ++ w.reuse?.toList

/-- Two rows of one key of a table. -/
def clash (first second : SyncWrite) : Bool :=
  (first.partition?.any fun row => second.partition?.any fun other => row.id = other.id) ||
    (first.artifact?.any fun row => second.artifact?.any fun other =>
      row.id = other.id || row.sha256 = other.sha256 ||
        row.envelope.idempotencyKey.any fun key => other.envelope.idempotencyKey = some key) ||
    (first.blob?.any fun row => second.blob?.any fun other => row.path = other.path)

theorem clash_symm (w w' : SyncWrite) : clash w w' = clash w' w := by
  have hkeys : ∀ first second : Option String,
      (first.any fun key => decide (second = some key)) =
        second.any fun key => decide (first = some key) := by
    intro first second
    cases first <;> cases second <;> simp [eq_comm]
  unfold clash
  rw [any_any_comm w.partition? w'.partition? fun row other => by simp only [eq_comm],
    any_any_comm w.artifact? w'.artifact? fun row other => by
      rw [hkeys row.envelope.idempotencyKey]
      simp only [eq_comm],
    any_any_comm w.blob? w'.blob? fun row other => by simp only [eq_comm]]

end SyncWrite

def syncStore : Store SyncDb SyncWrite := ⟨SyncWrite.apply, SyncWrite.clash⟩

/-- What is thrown in a run, by its message. -/
structure SyncError where
  message : String
deriving DecidableEq

abbrev SyncTransact (α : Type) := Program SyncDb SyncWrite SyncError α

/-! ## The lease and the checkpoint -/

/-- Fifteen minutes. -/
def STALE_LEASE_MS : Nat := 15 * 60000

namespace SyncPartitionRow

/-- `pending_run_id IS NULL OR updated_at < now() - make_interval(mins => $3)`. -/
def Free (row : SyncPartitionRow) (now : Instant) : Prop :=
  row.pendingRunId = none ∨ row.updatedAt + STALE_LEASE_MS < now

instance instDecidableFree (row : SyncPartitionRow) (now : Instant) : Decidable (row.Free now) :=
  inferInstanceAs (Decidable (_ ∨ _))

def claim (row : SyncPartitionRow) (runId : String) (now : Instant) : SyncPartitionRow :=
  { row with
    pendingRunId := some runId
    backfillStatus := if row.backfillStatus = .notStarted then .running else row.backfillStatus
    updatedAt := now }

/-- The assignments of `commitCheckpoint`. -/
def advance (row : SyncPartitionRow) (checkpoint : Json) (backfillComplete releaseLease : Bool)
    (now : Instant) : SyncPartitionRow :=
  { row with
    committedCheckpoint := checkpoint
    pendingRunId := if releaseLease then none else row.pendingRunId
    lastSuccessfulSyncAt := some now
    backfillStatus := if backfillComplete then .complete else row.backfillStatus
    errorMessage := none
    updatedAt := now }

/-- The assignments of `releasePartition`. -/
def release (row : SyncPartitionRow) (errorMessage : Option String) (now : Instant) :
    SyncPartitionRow :=
  { row with
    pendingRunId := none
    errorMessage := errorMessage
    backfillStatus := if row.backfillStatus = .running ∧ errorMessage ≠ none then .failed
      else row.backfillStatus
    updatedAt := now }

end SyncPartitionRow

def claimPartition (partitionId runId : String) (now : Instant) :
    SyncTransact (Option SyncPartitionRow) :=
  Program.execute fun db =>
    match db.partitions.find? partitionId with
    | none => .ok ([], none)
    | some row =>
        if row.Free now then
          .ok ([.claimed (row.claim runId now) runId], some (row.claim runId now))
        else .ok ([], none)

/-- `UPDATE … WHERE id = $1 AND pending_run_id = $2`; whether a row was updated. -/
def commitCheckpoint (partitionId runId : String) (state : SyncPartitionState)
    (result : FetchIncrementalResult) (releaseLease : Bool) (now : Instant) : SyncTransact Bool :=
  Program.execute fun db =>
    match db.partitions.find? partitionId with
    | none => .ok ([], false)
    | some row =>
        if row.pendingRunId = some runId then
          .ok ([.advanced (row.advance result.nextCheckpoint (!result.hasMore) releaseLease now)
            ⟨partitionId, runId, state, result⟩], true)
        else .ok ([], false)

def releasePartition (partitionId runId : String) (errorMessage : Option String) (now : Instant) :
    SyncTransact Unit :=
  Program.execute fun db =>
    match db.partitions.find? partitionId with
    | none => .ok ([], ())
    | some row =>
        if row.pendingRunId = some runId then
          .ok ([.released (row.release errorMessage now)], ())
        else .ok ([], ())

/-! ## Artifacts -/

/-- `blob.put`. -/
def putBlob (path : BlobPath) (body : String) : SyncTransact Unit :=
  Program.execute fun _ => .ok ([.blob ⟨path, body⟩], ())

def findArtifactByIdempotencyKey (db : SyncDb) (key : String) : Option RawArtifactRow :=
  db.artifacts.rows.find? fun row => row.envelope.idempotencyKey = some key

/-- The row of the content with the columns an insert of it fills in. -/
def RawArtifactRow.merged (row excluded : RawArtifactRow) : RawArtifactRow :=
  { row with envelope := { row.envelope with
      sourceSchema := row.envelope.sourceSchema.or excluded.envelope.sourceSchema
      objectType := row.envelope.objectType.or excluded.envelope.objectType } }

def uniqueViolation : SyncError := ⟨"duplicate key value violates unique constraint"⟩

/-- `INSERT INTO raw_artifacts … ON CONFLICT (tenant_id, sha256) DO UPDATE`. -/
def insertArtifact (row : RawArtifactRow) : SyncTransact RawArtifactRow :=
  Program.execute fun db =>
    match db.artifacts.rows.find? fun other => other.sha256 = row.sha256 with
    | some existing => .ok ([.artifact (existing.merged row)], existing.merged row)
    | none =>
        if (db.artifacts.find? row.id).isSome ||
            row.envelope.idempotencyKey.any
              fun key => (findArtifactByIdempotencyKey db key).isSome then
          .error uniqueViolation
        else .ok ([.artifact row], row)

/-- A unique violation of the insert ends the transaction, so nothing is read after it. -/
def insertOrReuseArtifact (row : RawArtifactRow) (artifact : FetchedArtifact) :
    SyncTransact RawArtifactRow := do
  let existing ← Program.execute fun db =>
    match row.envelope.idempotencyKey.bind (findArtifactByIdempotencyKey db) with
    | none => .ok ([], none)
    | some existing => .ok ([.reused ⟨existing.id, artifact⟩], some existing)
  match existing with
  | some existing => return existing
  | none => insertArtifact row

/-!
## The sync worker

`syncPartition` of `services/raw/src/workers/syncWorker.ts`: a run claims the
lease of a partition, and then fetches one batch after the other, stores its
artifacts and commits its checkpoint.  What an adapter may answer a fetch with
is a parameter, as is the digest of the blobs.
-/

/-- What an adapter may return for the state of a partition. -/
abbrev Provider := SyncPartitionState → FetchIncrementalResult → Prop

/-- What the worker is told at one step. -/
structure SyncEnv (provider : Provider) where
  now : Instant
  artifactId : String := ""
  credentials : Except SyncError (Option Json) := .ok none
  fetch : (state : SyncPartitionState) →
    Except SyncError { result : FetchIncrementalResult // provider state result } :=
      fun _ => .error ⟨"provider unavailable"⟩
  /-- How an audit event, a hook or the stamp of the source ends. -/
  outcome : Except SyncError Unit := .ok ()

abbrev SyncScript (provider : Provider) (α : Type) :=
  Script SyncDb SyncWrite (SyncEnv provider) Empty SyncError α

/-- One run over one partition. -/
structure SyncCall where
  tenantId : String
  sourceType : String
  partition : SyncPartitionRow
  /-- `newSourceSyncJobId()`. -/
  runId : String
  actor : String
  maxBatches : Nat

section

variable {provider : Provider}

def now : SyncScript provider Instant := Script.ask fun env => .ok env.now

/-- An audit event, or another effect that the store does not see. -/
def effect : SyncScript provider Unit := Script.ask fun env => env.outcome

/-- The `InsertArtifactInput` of an ingest. -/
def artifactInput (call : SyncCall) (id : String) (path : BlobPath) (artifact : FetchedArtifact) :
    RawArtifactRow where
  id := id
  sha256 := path.sha256
  sourceType := call.sourceType
  blobUri := path
  mimeType := artifact.mimeType
  bytes := artifact.body.utf8ByteSize
  ingestedBy := call.actor
  envelope := { artifact.envelope with sourceId := some call.partition.sourceId }

def ingestOne (sha256Hex : String → String) (call : SyncCall) (artifact : FetchedArtifact) :
    SyncScript provider RawArtifactRow := do
  let id ← Script.ask fun env => .ok env.artifactId
  let at_ ← now
  let path : BlobPath := ⟨call.tenantId, at_ / 86400000, sha256Hex artifact.body⟩
  Script.transact (putBlob path artifact.body)
  let row ← Script.transact
    (insertOrReuseArtifact (artifactInput call id path artifact) artifact)
  effect
  return row

def ingestMany (sha256Hex : String → String) (call : SyncCall) :
    List FetchedArtifact → SyncScript provider (List RawArtifactRow)
  | [] => pure []
  | artifact :: artifacts => do
      let row ← ingestOne sha256Hex call artifact
      let rows ← ingestMany sha256Hex call artifacts
      return row :: rows

/-- The batches that are left; whether the run still holds the lease. -/
def pullBatches (sha256Hex : String → String) (call : SyncCall) (claimed : SyncPartitionRow) :
    Nat → Json → SyncScript provider Bool
  | 0, _ => pure true
  | left + 1, committedCheckpoint => do
      let state : SyncPartitionState :=
        ⟨call.partition.sourceId, claimed.resourceId, claimed.objectType, claimed.checkpointType,
          committedCheckpoint⟩
      let result ← Script.ask fun env => env.fetch state
      let _ ← ingestMany sha256Hex call result.1.artifacts
      let at_ ← now
      let advanced ← Script.transact (commitCheckpoint call.partition.id call.runId state result.1
        (!result.1.hasMore || left = 0) at_)
      if advanced then do
        effect
        if result.1.hasMore then
          pullBatches sha256Hex call claimed left result.1.nextCheckpoint
        else pure true
      else pure false

def releaseLease (call : SyncCall) (message : String) : SyncScript provider Unit := do
  let at_ ← now
  Script.transact (releasePartition call.partition.id call.runId (some message) at_)

/-- The run once it has claimed the partition. -/
def syncClaimed (sha256Hex : String → String) (call : SyncCall) (claimed : SyncPartitionRow) :
    SyncScript provider Unit := do
  let credentials ← Script.ask fun env => env.credentials
  if credentials.isNone then releaseLease call "credentials unavailable"
  else do
    let held ← pullBatches sha256Hex call claimed call.maxBatches claimed.committedCheckpoint
    if held then do
      effect
      effect
    else pure ()

def syncPartition (sha256Hex : String → String) (call : SyncCall) : SyncScript provider Unit := do
  let at_ ← now
  let claimed ← Script.transact (claimPartition call.partition.id call.runId at_)
  match claimed with
  | none => pure ()
  | some claimed =>
      (syncClaimed sha256Hex call claimed).tryCatch fun error =>
        (releaseLease call error.message).tryCatch fun _ => pure ()

end

/-! ## Other components -/

/-- What other components commit, row by row: a new partition, a blob of its digest, a new artifact
of a stored blob, or the next version of an artifact. -/
def otherRows (sha256Hex : String → String) (db : SyncDb) : List SyncWrite → Bool
  | [.ensured row] => (db.partitions.find? row.id).isNone && row.committedCheckpoint.isNull &&
      row.pendingRunId.isNone && (db.batchesOf row.id).isEmpty
  | [.blob row] => row.path.sha256 = sha256Hex row.body
  | [.artifact row] => (db.blobs.find? row.blobUri).isSome && row.blobUri.sha256 = row.sha256 &&
      (db.artifacts.find? row.id).all fun old =>
        old.sha256 = row.sha256 && old.blobUri = row.blobUri
  | _ => false

def syncMachine (provider : Provider) (sha256Hex : String → String) :
    Machine (Calls SyncDb SyncWrite (SyncEnv provider) Empty SyncError Unit)
      (CallLabel SyncWrite (SyncEnv provider) SyncError SyncCall) :=
  callMachine syncStore (syncPartition sha256Hex) (otherRows sha256Hex)

end BrainCore.Raw
