import BrainCore.Raw.Parsed

/-!
# The canonical store

The tables a projector works on: `raw_parsed`, `canonical_projection_log` and
the canonical tables, and the upserts of `services/canonical/src/repository`.
All canonical tables have one shape: a row has its key of a source, columns that
an upsert writes as they come, and references to rows of other tables by their
source keys.
-/

namespace BrainCore.Canonical

open BrainCore.Foundation BrainCore.Raw

inductive CanonicalTable where
  | glAccount
  | journalEntry
  | account
  | transaction
  | counterparty
  | obligation
deriving DecidableEq

/-- `UNIQUE (tenant_id, source_system, source_natural_key)` of a table. -/
structure CanonicalKey where
  table : CanonicalTable
  tenantId : String
  sourceSystem : String
  sourceNaturalKey : String
deriving DecidableEq

structure ProjectionCommon where
  provenance : String
  confidence : Option Rat
  sourceIds : List String
  evidenceIds : List String
deriving DecidableEq

abbrev Columns := List (String × Json)

/-- A reference of an upsert.  The lines of a journal entry have columns of their own. -/
structure CanonicalReference where
  table : CanonicalTable
  sourceKey : Option String
  columns : Columns := []

structure CanonicalUpsert where
  table : CanonicalTable
  sourceSystem : String
  sourceNaturalKey : String
  columns : Columns
  references : List CanonicalReference := []
  common : ProjectionCommon

/-- A reference as it is stored, with the id it was resolved to. -/
structure ResolvedReference extends CanonicalReference where
  id : Option String

structure CanonicalRow where
  id : String
  key : CanonicalKey
  columns : Columns
  references : List ResolvedReference
  common : ProjectionCommon
  updatedAt : Nat

/-- What has happened to the rows of `raw_parsed`, in the order of the commits. -/
inductive ProjectionEvent where
  /-- The row got a new version. -/
  | versioned (row : RawParsedRow)
  /-- The version was projected. -/
  | projected (row : RawParsedRow)
  /-- A failure of the version was recorded in a cycle with this budget. -/
  | failed (id : String) (version maxAttempts : Nat)
  | replayed (id : String)

/-- The tables, and as history what has happened. -/
structure ProjectorDb where
  rawParsed : Table RawParsedRow.id
  projectionLog : Table ProjectionLogRow.rawParsedId
  canonical : Table CanonicalRow.key
  events : List ProjectionEvent

inductive ProjectorWrite where
  | parsed (row : RawParsedRow)
  | canonical (row : CanonicalRow)
  | projected (row : RawParsedRow) (log : ProjectionLogRow)
  | failed (version maxAttempts : Nat) (log : ProjectionLogRow)
  | replayed (log : ProjectionLogRow)

namespace ProjectorWrite

/-- The row of the log that is written. -/
def log? : ProjectorWrite → Option ProjectionLogRow
  | .parsed _ | .canonical _ => none
  | .projected _ log | .failed _ _ log | .replayed log => some log

def event? : ProjectorWrite → Option ProjectionEvent
  | .parsed row => some (.versioned row)
  | .canonical _ => none
  | .projected row _ => some (.projected row)
  | .failed version maxAttempts log => some (.failed log.rawParsedId version maxAttempts)
  | .replayed log => some (.replayed log.rawParsedId)

def parsed? : ProjectorWrite → Option RawParsedRow
  | .parsed row => some row
  | .canonical _ | .projected _ _ | .failed _ _ _ | .replayed _ => none

def canonical? : ProjectorWrite → Option CanonicalRow
  | .canonical row => some row
  | .parsed _ | .projected _ _ | .failed _ _ _ | .replayed _ => none

/-- `Table.put` of a written row, if there is one. -/
def putAll {κ ρ : Type} {key : ρ → κ} [DecidableEq κ] (table : Table key) : Option ρ → Table key
  | none => table
  | some row => table.put row

def apply (db : ProjectorDb) (w : ProjectorWrite) : ProjectorDb where
  rawParsed := putAll db.rawParsed w.parsed?
  projectionLog := putAll db.projectionLog w.log?
  canonical := putAll db.canonical w.canonical?
  events := db.events ++ w.event?.toList

/-- Two optional rows with one value of a key. -/
def sameKey {κ ρ : Type} [DecidableEq κ] (key : ρ → κ) (first second : Option ρ) : Bool :=
  first.any fun row => second.any fun other => key row = key other

/-- A row of one key, or of one primary key. -/
def clash (first second : ProjectorWrite) : Bool :=
  sameKey RawParsedRow.id first.parsed? second.parsed? ||
    sameKey ProjectionLogRow.rawParsedId first.log? second.log? ||
    sameKey CanonicalRow.key first.canonical? second.canonical? ||
    sameKey (fun row : CanonicalRow => (row.key.table, row.id)) first.canonical?
      second.canonical?

end ProjectorWrite

def projectorStore : Store ProjectorDb ProjectorWrite := ⟨ProjectorWrite.apply, ProjectorWrite.clash⟩

/-- What is thrown in a projection, by its message. -/
structure ProjectionError where
  message : String
deriving DecidableEq

abbrev ProjectorTransact (α : Type) := Program ProjectorDb ProjectorWrite ProjectionError α

/-! ## Upserts -/

def duplicateKey : ProjectionError := ⟨"duplicate key value violates unique constraint"⟩

def foreignKey : ProjectionError := ⟨"insert or update violates foreign key constraint"⟩

namespace CanonicalUpsert

def key (input : CanonicalUpsert) (tenantId : String) : CanonicalKey :=
  ⟨input.table, tenantId, input.sourceSystem, input.sourceNaturalKey⟩

/-- The key of a referenced row, of the same source. -/
def target (input : CanonicalUpsert) (tenantId : String) (reference : CanonicalReference) :
    Option CanonicalKey :=
  reference.sourceKey.map fun sourceKey =>
    ⟨reference.table, tenantId, input.sourceSystem, sourceKey⟩

/-- The row that is put in the place of another, or inserted under a new id. -/
def row (input : CanonicalUpsert) (tenantId id : String) (references : List ResolvedReference)
    (now : Nat) : CanonicalRow where
  id := id
  key := input.key tenantId
  columns := input.columns
  references := references
  common := input.common
  updatedAt := now

end CanonicalUpsert

/-- `INSERT … ON CONFLICT (tenant_id, source_system, source_natural_key) DO UPDATE … RETURNING id`. -/
def putCanonical (tenantId newId : String) (now : Nat) (input : CanonicalUpsert)
    (references : List ResolvedReference) : ProjectorTransact String :=
  .execute fun db =>
    match db.canonical.find? (input.key tenantId) with
    | some old => .ok ([.canonical (input.row tenantId old.id references now)], old.id)
    | none =>
        if db.canonical.rows.any fun other =>
            other.key.table = input.table && other.id = newId then
          .error duplicateKey
        else .ok ([.canonical (input.row tenantId newId references now)], newId)

/-- The id of the row that a reference is to, if there is one. -/
def findTarget (tenantId : String) (input : CanonicalUpsert) (reference : CanonicalReference) :
    ProjectorTransact (Option String) :=
  .select fun db =>
    (input.target tenantId reference).bind fun key =>
      (db.canonical.find? key).map CanonicalRow.id

/-- The ids that the references are to, looked up one after the other. -/
def resolveReferences (tenantId : String) (input : CanonicalUpsert) :
    List CanonicalReference → ProjectorTransact (List ResolvedReference)
  | [] => pure []
  | reference :: rest => do
      let id ← findTarget tenantId input reference
      let more ← resolveReferences tenantId input rest
      pure (⟨reference, id⟩ :: more)

/-- References are resolved first, and the row is put with them. -/
def upsertResolved (tenantId newId : String) (now : Nat) (input : CanonicalUpsert) :
    ProjectorTransact String := do
  let references ← resolveReferences tenantId input input.references
  putCanonical tenantId newId now input references

def upsertGlAccount := upsertResolved

def upsertCanonicalAccount := upsertResolved

def upsertCanonicalTransaction := upsertResolved

def upsertCanonicalCounterparty := upsertResolved

/-- A line of an entry, under the row of the entry. -/
def insertLine (key : CanonicalKey) (line : ResolvedReference) : ProjectorTransact Unit :=
  .execute fun db =>
    match db.canonical.find? key with
    | none => .error foreignKey
    | some row => .ok ([.canonical { row with references := row.references ++ [line] }], ())

def insertLines (tenantId : String) (input : CanonicalUpsert) :
    List CanonicalReference → ProjectorTransact Unit
  | [] => pure ()
  | line :: rest => do
      let id ← findTarget tenantId input line
      insertLine (input.key tenantId) ⟨line, id⟩
      insertLines tenantId input rest

/-- The lines are deleted with the update of the entry and inserted anew. -/
def upsertJournalEntry (tenantId newId : String) (now : Nat) (input : CanonicalUpsert) :
    ProjectorTransact String := do
  let id ← putCanonical tenantId newId now input []
  insertLines tenantId input input.references
  pure id

def CUSTOMER_ASSERTED_CSV_SOURCE : String := "customer_asserted_csv"

/-- The counterparty that stands in for one that no page has declared. -/
def placeholderOf (placeholderColumns : CanonicalUpsert → Columns) (input : CanonicalUpsert)
    (sourceKey : String) : CanonicalUpsert where
  table := .counterparty
  sourceSystem := input.sourceSystem
  sourceNaturalKey := sourceKey
  columns := placeholderColumns input
  common := ⟨"customer_asserted", some (3 / 10), [], []⟩

/-- The id of a referenced counterparty, which is created for a row of a customer's file. -/
def findOrCreate (placeholderColumns : CanonicalUpsert → Columns)
    (tenantId placeholderId : String) (now : Nat) (input : CanonicalUpsert)
    (reference : CanonicalReference) : ProjectorTransact (Option String) := do
  let id ← findTarget tenantId input reference
  match id, reference.sourceKey with
  | none, some sourceKey =>
      if reference.table = .counterparty ∧ input.sourceSystem = CUSTOMER_ASSERTED_CSV_SOURCE then do
        let created ← upsertCanonicalCounterparty tenantId placeholderId now
          (placeholderOf placeholderColumns input sourceKey)
        pure (some created)
      else pure none
  | id, _ => pure id

def resolveCounterparties (placeholderColumns : CanonicalUpsert → Columns)
    (tenantId placeholderId : String) (now : Nat) (input : CanonicalUpsert) :
    List CanonicalReference → ProjectorTransact (List ResolvedReference)
  | [] => pure []
  | reference :: rest => do
      let id ← findOrCreate placeholderColumns tenantId placeholderId now input reference
      let more ← resolveCounterparties placeholderColumns tenantId placeholderId now input rest
      pure (⟨reference, id⟩ :: more)

def upsertCanonicalObligation (placeholderColumns : CanonicalUpsert → Columns)
    (tenantId newId placeholderId : String) (now : Nat) (input : CanonicalUpsert) :
    ProjectorTransact String := do
  let references ← resolveCounterparties placeholderColumns tenantId placeholderId now input
    input.references
  putCanonical tenantId newId now input references

/-!
## The projection log

The statements of `services/canonical/src/projectors/worker.ts` on
`canonical_projection_log`: what a poll excludes, how a projection and a failure
are recorded, and the replay of quarantined rows.
-/

/-- `PENDING_EXCLUSION`: the log has the current version of the row as projected or quarantined. -/
def excluded (db : ProjectorDb) (row : RawParsedRow) : Bool :=
  (db.projectionLog.find? row.id).any fun log =>
    (log.error.isNone || log.quarantined) && log.parsedExtractedAt = some row.extractedAt

def isQuarantined (attempts maxAttempts : Nat) : Bool := maxAttempts ≤ attempts

/-- What a pass writes to the log besides the outcome. -/
structure LogLabels where
  projector : String
  domain : String
  /-- Whether a later projection sets the domain again. -/
  updatesDomain : Bool := true

/-- The log row after a projection, whose counter of attempts is left as it is. -/
def projectedLog (labels : LogLabels) (row : RawParsedRow) (recordsWritten now : Nat)
    (old : Option ProjectionLogRow) : ProjectionLogRow where
  rawParsedId := row.id
  tenantId := (old.map ProjectionLogRow.tenantId).getD row.tenantId
  projector := labels.projector
  domain := if labels.updatesDomain then labels.domain
    else (old.map ProjectionLogRow.domain).getD labels.domain
  recordsWritten := recordsWritten
  error := none
  attempts := (old.map ProjectionLogRow.attempts).getD 0
  quarantined := false
  parsedExtractedAt := some row.extractedAt
  projectedAt := now

/-- In the transaction of the projection itself. -/
def logProjection (labels : LogLabels) (row : RawParsedRow) (recordsWritten now : Nat) :
    ProjectorTransact Unit :=
  .execute fun db =>
    .ok ([.projected row
      (projectedLog labels row recordsWritten now (db.projectionLog.find? row.id))], ())

/-- The budget starts anew when the log is about another version. -/
def nextAttempts (row : RawParsedRow) (old : Option ProjectionLogRow) : Nat :=
  match old with
  | none => 1
  | some log => if log.parsedExtractedAt ≠ some row.extractedAt then 1 else log.attempts + 1

def failedLog (labels : LogLabels) (row : RawParsedRow) (message : String) (maxAttempts now : Nat)
    (old : Option ProjectionLogRow) : ProjectionLogRow where
  rawParsedId := row.id
  tenantId := (old.map ProjectionLogRow.tenantId).getD row.tenantId
  projector := labels.projector
  domain := labels.domain
  recordsWritten := (old.map ProjectionLogRow.recordsWritten).getD 0
  error := some message
  attempts := nextAttempts row old
  quarantined := isQuarantined (nextAttempts row old) maxAttempts
  parsedExtractedAt := some row.extractedAt
  projectedAt := now

def recordFailure (labels : LogLabels) (row : RawParsedRow) (message : String)
    (maxAttempts now : Nat) : ProjectorTransact ProjectionLogRow :=
  .execute fun db =>
    .ok ([.failed row.extractedAt maxAttempts
        (failedLog labels row message maxAttempts now (db.projectionLog.find? row.id))],
      failedLog labels row message maxAttempts now (db.projectionLog.find? row.id))

/-! ## Replay -/

def earlier (first second : ProjectionLogRow) : Prop := first.projectedAt ≤ second.projectedAt

instance decidableEarlier : DecidableRel earlier := fun first second =>
  inferInstanceAs (Decidable (first.projectedAt ≤ second.projectedAt))

/-- The ids of the quarantined rows, the oldest first. -/
def quarantinedIds (tenantId : Option String) (limit : Nat) (db : ProjectorDb) : List String :=
  (((db.projectionLog.rows.filter fun log =>
    log.quarantined && tenantId.all fun tenant => log.tenantId = tenant).insertionSort
      earlier).take limit).map ProjectionLogRow.rawParsedId

/-- The update takes its rows one after the other, as each is by then. -/
def releaseEach : List String → ProjectorTransact Unit
  | [] => pure ()
  | id :: rest => do
      .execute fun db =>
        match db.projectionLog.find? id with
        | none => .ok ([], ())
        | some log => .ok ([.replayed { log with quarantined := false, attempts := 0 }], ())
      releaseEach rest

def replayQuarantined (tenantId : Option String) (limit : Nat) : ProjectorTransact Nat := do
  let ids ← .select (quarantinedIds tenantId limit)
  releaseEach ids
  pure ids.length

end BrainCore.Canonical
