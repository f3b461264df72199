import BrainCore.Canonical.Store

/-!
# The canonical projection worker

`runProjectionCycle` of `services/canonical/src/projectors/worker.ts`: the polls
of its passes, the transaction that projects one row with its log entry, the
audit events after it and the record of a failure.  The pure functions from a
payload to its upserts are parameters.  Any number of cycles and replays run at
once, since only the scheduled worker holds a lease.
-/

namespace BrainCore.Canonical

open BrainCore.Foundation BrainCore.Raw

/-- The mapping functions of the projectors, which may throw. -/
structure Projectors where
  glAccount : Json → String → ProjectionCommon → Except ProjectionError (Option CanonicalUpsert)
  journalEntry : Json → String → ProjectionCommon → Except ProjectionError (Option CanonicalUpsert)
  contact : Json → String → ProjectionCommon → Except ProjectionError (Option CanonicalUpsert)
  invoice : Json → String → ProjectionCommon → Except ProjectionError (Option CanonicalUpsert)
  docObligation : Json → String → ProjectionCommon → Except ProjectionError (List CanonicalUpsert)
  plaid : Json → ProjectionCommon → Except ProjectionError (List CanonicalUpsert)
  stripe : Json → ProjectionCommon → Except ProjectionError (List CanonicalUpsert)
  finch : Json → ProjectionCommon → Except ProjectionError (List CanonicalUpsert)
  bankStatementUpload : Json → ProjectionCommon → Except ProjectionError (List CanonicalUpsert)
  documentRecordsUpload : Json → ProjectionCommon → Except ProjectionError (List CanonicalUpsert)
  customerAssertedCsv : Json → ProjectionCommon → Except ProjectionError (List CanonicalUpsert)
  /-- The columns of the counterparty that stands in for an undeclared one. -/
  placeholderColumns : CanonicalUpsert → Columns

/-- One pass of a cycle over the rows of a parser. -/
structure Pass where
  parser : String
  /-- The rows of the parser that the pass takes. -/
  takes : RawParsedRow → Bool := fun _ => true
  /-- Rows of a lower rank come first. -/
  rank : RawParsedRow → Nat := fun _ => 0
  projector : String
  domain : RawParsedRow → String
  updatesDomain : Bool := true
  project : RawParsedRow → Except ProjectionError (List CanonicalUpsert)
  /-- What the upserts count as. -/
  records : List CanonicalUpsert → Nat := List.length
  isUpload : Bool

def Pass.labels (pass : Pass) (row : RawParsedRow) : LogLabels :=
  ⟨pass.projector, pass.domain row, pass.updatesDomain⟩

/-! ## The accounting pages -/

def ALL_PROJECTABLE_OBJECT_TYPES : List String := ["gl_account", "journal_entry", "invoice", "contact"]

def objectTypeOf (row : RawParsedRow) : Option String :=
  (row.extracted.json.field? "object_type").bind Json.str?

def isApAr (objectType : Option String) : Bool :=
  objectType = some "invoice" || objectType = some "contact"

def domainFor (objectType : Option String) : String :=
  if isApAr objectType then "ap_ar" else "accounting"

def sourceSystemOf (mergeIntegration : Option String) : String :=
  match mergeIntegration with
  | some name => if name = "" then "merge" else String.ofList (name.toList.map Char.toLower)
  | none => "merge"

def mergeConfidence (objectType : Option String) : Option Rat :=
  if objectType = some "invoice" then some (17 / 20)
  else if objectType = some "contact" then some (4 / 5)
  else none

def objectsOf : Option Json → List Json
  | some (.arr objects) => objects
  | _ => []

/-- The upserts of the objects of a page, in their order. -/
def mergeObjects (convert : Json → Except ProjectionError (Option CanonicalUpsert)) :
    List Json → Except ProjectionError (List CanonicalUpsert)
  | [] => .ok []
  | object :: rest => do
      let input ← convert object
      let more ← mergeObjects convert rest
      pure (input.toList ++ more)

def projectMergePage (projectors : Projectors) (row : RawParsedRow) :
    Except ProjectionError (List CanonicalUpsert) :=
  let objectType := objectTypeOf row
  let sourceSystem :=
    sourceSystemOf ((row.extracted.json.field? "merge_integration").bind Json.str?)
  let common : ProjectionCommon :=
    ⟨"extracted", mergeConfidence objectType, [row.rawArtifactId], [row.id]⟩
  let objects := objectsOf (row.extracted.json.field? "objects")
  if objectType = some "gl_account" then
    mergeObjects (fun object => projectors.glAccount object sourceSystem common) objects
  else if objectType = some "journal_entry" then
    mergeObjects (fun object => projectors.journalEntry object sourceSystem common) objects
  else if objectType = some "contact" then
    mergeObjects (fun object => projectors.contact object sourceSystem common) objects
  else if objectType = some "invoice" then
    mergeObjects (fun object => projectors.invoice object sourceSystem common) objects
  else .ok []

def mergeRank (row : RawParsedRow) : Nat :=
  match objectTypeOf row with
  | some "contact" => 0
  | some "gl_account" => 1
  | some "invoice" => 2
  | some "journal_entry" => 3
  | _ => 9

def mergePass (projectors : Projectors) : Pass where
  parser := "merge_accounting_v1"
  takes := fun row => (objectTypeOf row).any fun type => type ∈ ALL_PROJECTABLE_OBJECT_TYPES
  rank := mergeRank
  projector := "merge_accounting_canonical_v1"
  domain := fun row => domainFor (objectTypeOf row)
  project := projectMergePage projectors
  isUpload := false

/-! ## The other passes -/

def docPass (projectors : Projectors) : Pass where
  parser := "doc_obligation_v1"
  projector := "doc_obligation_canonical_v1"
  domain := fun _ => "ap_ar"
  updatesDomain := false
  project := fun row =>
    projectors.docObligation row.extracted.json row.rawArtifactId
      ⟨"agent_contributed", some (row.confidence.getD (1 / 2)), [row.rawArtifactId], [row.id]⟩
  records := fun inputs => if inputs.isEmpty then 0 else 1
  isUpload := true

/-- A pass of `CONNECTOR_LEDGER_PASSES`. -/
def connectorPass (parser projector provenance : String) (isUpload : Bool)
    (project : Json → ProjectionCommon → Except ProjectionError (List CanonicalUpsert)) : Pass where
  parser := parser
  projector := projector
  domain := fun _ => "ledger"
  project := fun row =>
    project row.extracted.json ⟨provenance, row.confidence, [row.rawArtifactId], [row.id]⟩
  isUpload := isUpload

def CONNECTOR_LEDGER_PASSES (projectors : Projectors) : List Pass := [
  connectorPass "plaid_tx_v1" "plaid_canonical_ledger_v1" "extracted" false projectors.plaid,
  connectorPass "stripe_v1" "stripe_canonical_ledger_v1" "extracted" false projectors.stripe,
  connectorPass "finch_payroll_v1" "finch_canonical_ledger_v1" "extracted" false projectors.finch,
  connectorPass "bank_statement_upload_v1" "bank_statement_upload_canonical_v1" "extracted" true
    projectors.bankStatementUpload,
  connectorPass "document_records_upload_v1" "document_records_upload_canonical_v1" "extracted" true
    projectors.documentRecordsUpload,
  connectorPass "customer_asserted_csv_v1" "customer_asserted_csv_canonical_v1" "customer_asserted"
    true projectors.customerAssertedCsv]

/-! ## A cycle -/

/-- What a cycle asks of its surroundings in one step. -/
structure ProjectorEnvironment where
  now : Nat
  /-- The ids that are made for new rows. -/
  newIds : Nat → String
  audit : Except ProjectionError Unit

/-- An audit event: its action and the row it is about. -/
abbrev ProjectorAudit := String × String

abbrev ProjectorScript (α : Type) :=
  Script ProjectorDb ProjectorWrite ProjectorEnvironment ProjectorAudit ProjectionError α

structure ProjectionWorkerOptions where
  batchSize : Nat := 20
  rawParsedIds : List String := []
  maxAttempts : Nat := 5

/-- The upsert of one record, under its own name for each table. -/
def persistUpsert (projectors : Projectors) (tenantId newId placeholderId : String) (now : Nat)
    (input : CanonicalUpsert) : ProjectorTransact String :=
  match input.table with
  | .glAccount => upsertGlAccount tenantId newId now input
  | .journalEntry => upsertJournalEntry tenantId newId now input
  | .account => upsertCanonicalAccount tenantId newId now input
  | .transaction => upsertCanonicalTransaction tenantId newId now input
  | .counterparty => upsertCanonicalCounterparty tenantId newId now input
  | .obligation =>
      upsertCanonicalObligation projectors.placeholderColumns tenantId newId placeholderId now input

def persistAll (projectors : Projectors) (tenantId : String) (env : ProjectorEnvironment) :
    Nat → List CanonicalUpsert → ProjectorTransact Unit
  | _, [] => pure ()
  | next, input :: rest => do
      let _ ← persistUpsert projectors tenantId (env.newIds next) (env.newIds (next + 1)) env.now
        input
      persistAll projectors tenantId env (next + 2) rest

/-- The records of a row and its log entry commit or roll back together. -/
def projectTransaction (projectors : Projectors) (pass : Pass) (row : RawParsedRow)
    (env : ProjectorEnvironment) : ProjectorTransact Nat := do
  let inputs ← .ofExcept (pass.project row)
  persistAll projectors row.tenantId env 0 inputs
  logProjection (pass.labels row) row (pass.records inputs) env.now
  pure (pass.records inputs)

def emitAudit (action : String) (row : RawParsedRow) : ProjectorScript Unit :=
  .callOut fun env => (env.audit, if env.audit.toBool then [(action, row.id)] else [])

/-- What goes wrong in here is swallowed. -/
def handleProjectionFailure (pass : Pass) (row : RawParsedRow) (maxAttempts : Nat)
    (error : ProjectionError) : ProjectorScript Unit :=
  .tryCatch (do
      let env ← .ask .ok
      let _ ← .transact
        (recordFailure (pass.labels row) row error.message maxAttempts env.now)
      pure ())
    fun _ => pure ()

/-- A row is projected and announced; whatever is thrown on the way is recorded as a failure. -/
def projectRow (projectors : Projectors) (pass : Pass) (maxAttempts : Nat) (row : RawParsedRow) :
    ProjectorScript Unit :=
  .tryCatch (do
      let env ← .ask .ok
      let written ← .transact (projectTransaction projectors pass row env)
      emitAudit "canonical.projected" row
      if pass.isUpload && written ≠ 0 then emitAudit "ledger.upload.projected" row
      else pure ())
    (handleProjectionFailure pass row maxAttempts)

def projectRows (projectors : Projectors) (pass : Pass) (maxAttempts : Nat) :
    List RawParsedRow → ProjectorScript Unit
  | [] => pure ()
  | row :: rest => do
      projectRow projectors pass maxAttempts row
      projectRows projectors pass maxAttempts rest

/-- The order of a poll. -/
def Pass.before (pass : Pass) (first second : RawParsedRow) : Prop :=
  pass.rank first < pass.rank second ∨
    pass.rank first = pass.rank second ∧ first.extractedAt ≤ second.extractedAt

instance Pass.decidableBefore (pass : Pass) : DecidableRel pass.before := fun first second =>
  inferInstanceAs (Decidable (pass.rank first < pass.rank second ∨
    pass.rank first = pass.rank second ∧ first.extractedAt ≤ second.extractedAt))

/-- The pending rows of the pass. -/
def Pass.selects (pass : Pass) (options : ProjectionWorkerOptions) (db : ProjectorDb)
    (row : RawParsedRow) : Bool :=
  row.parser = pass.parser && pass.takes row &&
    (options.rawParsedIds.isEmpty || row.id ∈ options.rawParsedIds) && !excluded db row

def Pass.pending (pass : Pass) (options : ProjectionWorkerOptions) (db : ProjectorDb) :
    List RawParsedRow :=
  ((db.rawParsed.rows.filter (pass.selects options db)).insertionSort pass.before).take
    options.batchSize

/-- A poll that fails gives nothing. -/
def poll (pass : Pass) (options : ProjectionWorkerOptions) :
    ProjectorScript (Option (List RawParsedRow)) :=
  .tryCatch (.transact (.select fun db => some (pass.pending options db))) fun _ => pure none

def runPass (projectors : Projectors) (options : ProjectionWorkerOptions) (pass : Pass) :
    ProjectorScript Unit := do
  match ← poll pass options with
  | none => pure ()
  | some rows => projectRows projectors pass options.maxAttempts rows

def runConnectorLedgerPasses (projectors : Projectors) (options : ProjectionWorkerOptions) :
    List Pass → ProjectorScript Unit
  | [] => pure ()
  | pass :: rest => do
      runPass projectors options pass
      runConnectorLedgerPasses projectors options rest

/-- The cycle ends when its first poll fails. -/
def runProjectionCycle (projectors : Projectors) (options : ProjectionWorkerOptions) :
    ProjectorScript Unit := do
  match ← poll (mergePass projectors) options with
  | none => pure ()
  | some rows => do
      projectRows projectors (mergePass projectors) options.maxAttempts rows
      runPass projectors options (docPass projectors)
      runConnectorLedgerPasses projectors options (CONNECTOR_LEDGER_PASSES projectors)

/-! ## Any number of cycles and replays -/

inductive ProjectorCall where
  | cycle (options : ProjectionWorkerOptions)
  | replay (tenantId : Option String) (limit : Nat)

def projectorScript (projectors : Projectors) : ProjectorCall → ProjectorScript Unit
  | .cycle options => runProjectionCycle projectors options
  | .replay tenantId limit => do
      let _ ← .transact (replayQuarantined tenantId limit)
      pure ()

/-- The row has never had the version. -/
def isNewVersion (db : ProjectorDb) (row : RawParsedRow) : Bool :=
  db.events.all fun
    | .versioned other => other.id ≠ row.id || other.extractedAt ≠ row.extractedAt
    | _ => true

/-- Other components insert rows of `raw_parsed` and repair them, which gives them a version they
have not had. -/
def othersMay (db : ProjectorDb) : List ProjectorWrite → Bool
  | [.parsed row] => isNewVersion db row
  | writes => writes.isEmpty

abbrev ProjectorLabel :=
  CallLabel ProjectorWrite ProjectorEnvironment ProjectionError ProjectorCall

abbrev ProjectorWorld :=
  Calls ProjectorDb ProjectorWrite ProjectorEnvironment ProjectorAudit ProjectionError Unit

def projectorMachine (projectors : Projectors) : Machine ProjectorWorld ProjectorLabel :=
  callMachine projectorStore (projectorScript projectors) othersMay

end BrainCore.Canonical
