import BrainCore.Audit.Hash
import BrainCore.Foundation.CallRoles
import BrainCore.Foundation.Table

/-!
# The raw_parsed table

`insertParsed` of `services/raw/src/repository/parsed.ts` over the table of
`services/raw/migrations/0002_raw_parsed.sql`: the lookup of the exact row, the
repairs that a trusted caller opts in to, and the insert.  Row level security
lets a statement see the rows of its tenant alone, unique indexes see all.
-/

namespace BrainCore.Raw

open BrainCore.Foundation BrainCore.Audit

structure RawParsedRow where
  id : String
  rawArtifactId : String
  tenantId : String
  parser : String
  parserVersion : String
  extracted : JsonbValue
  confidence : Option Rat
  extractedAt : Nat

namespace RawParsedRow

/-- `UNIQUE (raw_artifact_id, parser, parser_version)`. -/
def uniqueKey (row : RawParsedRow) : String × String × String :=
  (row.rawArtifactId, row.parser, row.parserVersion)

end RawParsedRow

/-- A row of `canonical_projection_log`: what a projector has logged for a row of `raw_parsed`, and
for which version of it. -/
structure ProjectionLogRow where
  rawParsedId : String
  tenantId : String
  projector : String
  domain : String
  recordsWritten : Nat := 0
  error : Option String := none
  attempts : Nat := 0
  quarantined : Bool := false
  parsedExtractedAt : Option Nat
  projectedAt : Nat

structure RawStore where
  parsed : Table RawParsedRow.id
  projectionLog : Table ProjectionLogRow.rawParsedId

inductive RawWrite where
  | parsed (row : RawParsedRow)
  | projectionLog (row : ProjectionLogRow)

namespace RawWrite

def apply (db : RawStore) : RawWrite → RawStore
  | .parsed row => { db with parsed := db.parsed.put row }
  | .projectionLog row => { db with projectionLog := db.projectionLog.put row }

def isProjectionLog : RawWrite → Bool
  | .projectionLog _ => true
  | .parsed _ => false

/-- A row of one key, or of one entry of the unique index. -/
def clash : RawWrite → RawWrite → Bool
  | .parsed first, .parsed second =>
      first.id = second.id || first.uniqueKey = second.uniqueKey
  | .projectionLog first, .projectionLog second => first.rawParsedId = second.rawParsedId
  | .parsed _, .projectionLog _ | .projectionLog _, .parsed _ => false

end RawWrite

def rawStore : Store RawStore RawWrite := ⟨RawWrite.apply, RawWrite.clash⟩

inductive ParsedError where
  /-- `TypeError: Do not know how to serialize a BigInt`. -/
  | bigInt
  /-- `JSON.parse` of what is not a text of JSON. -/
  | invalidJson
  /-- `TypeError: Cannot read properties of null`. -/
  | propertyOfNull
  | uniqueViolation
  | notNullViolation
  | checkViolation
  | error (message : String)
  /-- Any other failure of the database. -/
  | database (message : String)
deriving DecidableEq

abbrev ParsedTransact (α : Type) := Program RawStore RawWrite ParsedError α

structure InsertParsedInput where
  id : String
  rawArtifactId : String
  tenantId : String
  parser : String
  parserVersion : String
  extracted : JsData
  confidence : Option Rat
  allowRepair : Option Bool := none

structure InsertParsedResult where
  row : RawParsedRow
  created : Bool

/-! ## When an upload is repaired -/

def isUploadParser (parser : String) : Bool :=
  parser = "bank_statement_upload_v1" || parser = "document_records_upload_v1"

/-- `extracted["object_type"]` of a value of a `JSONB` column. -/
def objectType (extracted : JsonbValue) : Except ParsedError (Option Json) :=
  if extracted.json.isNull then .error .propertyOfNull
  else .ok (extracted.json.field? "object_type")

def uploadParsedPayloadMatches (parser : String) (extracted : JsonbValue) :
    Except ParsedError Bool :=
  (objectType extracted).map fun objectType =>
    if parser = "bank_statement_upload_v1" then
      (objectType.bind Json.str?) = some "bank_statement"
    else if parser = "document_records_upload_v1" then
      (objectType.bind Json.str?) = some "ar_aging" ||
        (objectType.bind Json.str?) = some "payroll_register"
    else true

/-- `JSON.parse(JSON.stringify(value))`. -/
def normalizeForCompare (value : JsData) : Except ParsedError Json :=
  match value.value.jsonStringify with
  | .error .bigInt => .error .bigInt
  | .ok none => .error .invalidJson
  | .ok (some json) => .ok json

def extractedPayloadChanged (existing : JsonbValue) (incoming : JsData) :
    Except ParsedError Bool := do
  let existing ← normalizeForCompare existing.data
  let incoming ← normalizeForCompare incoming
  pure (stableStringify existing ≠ stableStringify incoming)

def shouldRepairParsedOutput (existing : RawParsedRow) (input : InsertParsedInput) :
    Except ParsedError Bool :=
  if !isUploadParser input.parser then .ok false
  else do
    let payloadMatches ← uploadParsedPayloadMatches input.parser existing.extracted
    if !payloadMatches then pure true
    else extractedPayloadChanged existing.extracted input.extracted

/-! ## Statements -/

namespace InsertParsedInput

variable (input : InsertParsedInput)

def uniqueKey : String × String × String :=
  (input.rawArtifactId, input.parser, input.parserVersion)

/-- `input.allowRepair === true`. -/
def canRepair : Bool := input.allowRepair = some true

/-- The exact row, of the tenant. -/
def isExact (row : RawParsedRow) : Bool :=
  row.tenantId = input.tenantId && row.uniqueKey = input.uniqueKey

/-- A row of another parser, of the tenant. -/
def isStale (row : RawParsedRow) : Bool :=
  row.tenantId = input.tenantId && row.rawArtifactId = input.rawArtifactId &&
    row.parserVersion = input.parserVersion && row.parser ≠ input.parser

/-- `JSON.stringify(input.extracted)`. -/
def serialized : Except ParsedError (Option JsonbValue) :=
  input.extracted.column.mapError fun _ => .bigInt

/-- `NOT NULL` and `CHECK` of the columns that come from the parser. -/
def checked : Option JsonbValue → Except ParsedError JsonbValue
  | none => .error .notNullViolation
  | some extracted =>
      if input.confidence.all fun confidence => 0 ≤ confidence && confidence ≤ 1 then
        .ok extracted
      else .error .checkViolation

/-- The row that is inserted. -/
def row (extracted : JsonbValue) (now : Nat) : RawParsedRow where
  id := input.id
  rawArtifactId := input.rawArtifactId
  tenantId := input.tenantId
  parser := input.parser
  parserVersion := input.parserVersion
  extracted := extracted
  confidence := input.confidence
  extractedAt := now

/-- The row after its repair. -/
def rewrite (old : RawParsedRow) (extracted : JsonbValue) (now : Nat) : RawParsedRow :=
  { old with
    parser := input.parser
    parserVersion := input.parserVersion
    extracted := extracted
    confidence := input.confidence
    extractedAt := now }

end InsertParsedInput

def findParsedByArtifactParserVersion (input : InsertParsedInput) :
    ParsedTransact (Option RawParsedRow) :=
  .select fun db => db.parsed.rows.find? input.isExact

/-- The log says that the row was projected and gave nothing. -/
def terminalZeroProjection (id : String) (db : RawStore) : Bool :=
  db.projectionLog.rows.any fun log =>
    log.rawParsedId = id && log.recordsWritten = 0 && log.error.isNone && !log.quarantined

def hasTerminalZeroProjectionLog (id : String) : ParsedTransact Bool :=
  .select (terminalZeroProjection id)

/-- Two rows would share an entry of the unique index. -/
def violatesUnique (db : RawStore) (row : RawParsedRow) : Bool :=
  db.parsed.rows.any fun other => other.id ≠ row.id && other.uniqueKey = row.uniqueKey

/-- `UPDATE raw_parsed … WHERE id = … AND raw_artifact_id = … AND tenant_id = … RETURNING *`. -/
def updateParsed (existing : RawParsedRow) (input : InsertParsedInput) (now : Nat) :
    ParsedTransact (Option RawParsedRow) :=
  .execute fun db => do
    let serialized ← input.serialized
    match (db.parsed.find? existing.id).filter fun row =>
        row.rawArtifactId = input.rawArtifactId && row.tenantId = input.tenantId with
    | none => .ok ([], none)
    | some old => do
        let extracted ← input.checked serialized
        if violatesUnique db (input.rewrite old extracted now) then .error .uniqueViolation
        else .ok ([.parsed (input.rewrite old extracted now)],
          some (input.rewrite old extracted now))

def repairParsedOutput (existing : RawParsedRow) (input : InsertParsedInput) (now : Nat) :
    ParsedTransact RawParsedRow := do
  match ← updateParsed existing input now with
  | none => .throw (.error "raw_parsed repair failed to return the existing row")
  | some row => pure row

/-- `INSERT INTO raw_parsed … ON CONFLICT (raw_artifact_id, parser, parser_version) DO NOTHING
RETURNING *`. -/
def insertRow (input : InsertParsedInput) (now : Nat) : ParsedTransact (Option RawParsedRow) :=
  .execute fun db => do
    let serialized ← input.serialized
    let extracted ← input.checked serialized
    if db.parsed.rows.any fun other => other.uniqueKey = input.uniqueKey then .ok ([], none)
    else if (db.parsed.find? input.id).isSome then .error .uniqueViolation
    else .ok ([.parsed (input.row extracted now)], some (input.row extracted now))

/-- The rows of other parsers, of which two are as good as many. -/
def staleParsed (input : InsertParsedInput) : ParsedTransact (List RawParsedRow) :=
  .select fun db => (db.parsed.rows.filter input.isStale).take 2

/-- Whether the exact row is to be repaired. -/
def needsRepair (exact : RawParsedRow) (input : InsertParsedInput) : ParsedTransact Bool :=
  if !input.canRepair then pure false
  else do
    if ← .ofExcept (shouldRepairParsedOutput exact input) then pure true
    else hasTerminalZeroProjectionLog exact.id

/-- After a conflict with a concurrent writer the exact row exists. -/
def afterConflict (input : InsertParsedInput) (now : Nat) : ParsedTransact InsertParsedResult := do
  match ← findParsedByArtifactParserVersion input with
  | none =>
      .throw (.error "raw_parsed insert hit a conflict but no existing row was found")
  | some row =>
      if !input.canRepair then pure ⟨row, false⟩
      else do
        if ← hasTerminalZeroProjectionLog row.id then
          pure ⟨← repairParsedOutput row input now, false⟩
        else pure ⟨row, false⟩

def insertFresh (input : InsertParsedInput) (now : Nat) : ParsedTransact InsertParsedResult := do
  match ← insertRow input now with
  | some inserted => pure ⟨inserted, true⟩
  | none => afterConflict input now

/-- Without an exact row: a single row of another parser is taken over. -/
def insertOrTakeOver (input : InsertParsedInput) (now : Nat) :
    ParsedTransact InsertParsedResult :=
  if !input.canRepair then insertFresh input now
  else do
    match ← staleParsed input with
    | [stale] => pure ⟨← repairParsedOutput stale input now, false⟩
    | _ => insertFresh input now

def insertParsed (input : InsertParsedInput) (now : Nat) : ParsedTransact InsertParsedResult := do
  match ← findParsedByArtifactParserVersion input with
  | some exact =>
      if ← needsRepair exact input then pure ⟨← repairParsedOutput exact input now, false⟩
      else pure ⟨exact, false⟩
  | none => insertOrTakeOver input now

/-! ## Calls -/

/-- One call, in a transaction of its own that sees one time. -/
def insertParsedCall (input : InsertParsedInput) :
    Script RawStore RawWrite Nat Empty ParsedError InsertParsedResult := do
  let now ← .ask .ok
  .transact (insertParsed input now)

/-- No row has the key of the row or its entry in the unique index. -/
def isFresh (db : RawStore) (row : RawParsedRow) : Bool :=
  (db.parsed.find? row.id).isNone &&
    !db.parsed.rows.any fun other => other.uniqueKey = row.uniqueKey

/-- What other components commit: the log of the projections, and new rows. -/
def othersMay (db : RawStore) : List RawWrite → Bool
  | [.parsed row] => isFresh db row
  | writes => writes.all RawWrite.isProjectionLog

abbrev RawLabel := CallLabel RawWrite Nat ParsedError InsertParsedInput

abbrev RawWorld := Calls RawStore RawWrite Nat Empty ParsedError InsertParsedResult

/-- Any number of calls, in any order and interleaved with each other. -/
def rawMachine : Machine RawWorld RawLabel := callMachine rawStore insertParsedCall othersMay

end BrainCore.Raw
