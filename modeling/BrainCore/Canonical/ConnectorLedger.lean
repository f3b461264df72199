import BrainCore.Canonical.Worker
import BrainCore.Ledger.Counterparties
import BrainCore.Ledger.Categorization

/-!
# Projections of uploads

`services/canonical/src/projectors/connector-ledger.ts`, for what customers
upload: bank statements, aging and payroll documents, and declared CSV records.
A record of an upload yields its upserts, is skipped for a reason, or throws,
and then nothing of the upload is projected.
-/

namespace BrainCore.Canonical

open BrainCore.Foundation BrainCore.Ledger

/-- What the runtime prints numbers as, and its tables of letters. -/
structure Runtime where
  /-- `String(value)`. -/
  numberText : Rat → List Char
  toLowerCase : List Char → List Char
  toUpperCase : List Char → List Char

/-! ## Fields -/

/-- A text that is not empty. -/
def str : Option Json → Option String
  | some (.str value) => if value = "" then none else some value
  | _ => none

def asRecord : Json → Option Json
  | .obj members => some (.obj members)
  | _ => none

/-- The items of a field, none when it is no array. -/
def itemsOf (payload : Json) (name : String) : List Json :=
  match payload.field? name with
  | some (.arr items) => items
  | _ => []

/-- A value or `null`. -/
def orNull : Option String → Json
  | some value => .str value
  | none => .null

/-- `/^-?\d+(\.\d+)?$/`. -/
def isDecimalText (s : List Char) : Bool :=
  let unsigned := if s.head? = some '-' then s.tail else s
  !(unsigned.takeWhile Char.isDigit).isEmpty &&
    match unsigned.dropWhile Char.isDigit with
    | [] => true
    | c :: frac => c == '.' && !frac.isEmpty && frac.all Char.isDigit

def counterpartyNameHint (row : Json) : Option String :=
  (str (row.field? "vendor_name")).or
    ((str (row.field? "customer_name")).or (str (row.field? "counterparty_name")))

/-- A tax authority is kept as `other`. -/
def canonicalCounterpartyType : Option String → Option String
  | some value =>
      if value ∈ ["vendor", "customer", "other", "employee", "merchant"] then some value
      else if value = "tax_authority" then some "other" else none
  | none => none

def isCanonicalTransactionCategoryCode (value : String) : Bool :=
  value ∈ ["income.subscription_revenue", "expense.payroll_and_benefits",
    "expense.cloud_infrastructure", "expense.general_and_administrative"]

def directionOf (row : Json) : Option String :=
  (str (row.field? "direction")).filter fun direction =>
    direction = "inflow" || direction = "outflow"

section Runtime

variable (runtime : Runtime)

/-- `currency(value)`, in US dollars when there is none. -/
def currency (value : Option Json) : Except ProjectionError String :=
  let up := runtime.toUpperCase ((str value).getD "USD").toList
  if up.length = 3 && up.all Char.isUpper then .ok (String.ofList up)
  else .error ⟨"currency must be a 3-letter ISO 4217 code"⟩

def decimal : Option Json → Option String
  | some (.num value) =>
      let s := runtime.numberText value
      if s.any fun c => c = 'e' || c = 'E' then none else some (String.ofList s)
  | some (.str value) =>
      let s := trim value.toList
      if isDecimalText s then some (String.ofList s) else none
  | _ => none

/-- The normal form of names in the canonical store, which keeps marks of letters apart. -/
def normalizeName (name : String) : String :=
  String.ofList (stripUnderscores (replaceRuns '_' false
    (Regex.replaceAll (.alt longReference shortReference) [' ']
      ((runtime.toLowerCase name.toList).dropWhile fun c => ¬isAlnum c))))

/-- `normalizeName(name) || null`. -/
def normalizedOrNull (name : String) : Json :=
  if normalizeName runtime name = "" then .null else .str (normalizeName runtime name)

end Runtime

/-! ## Upserts -/

/-- The upserts of an upload, and the reasons why rows were skipped. -/
structure ConnectorProjection where
  out : List CanonicalUpsert := []
  skippedRows : List String := []

def skipped (reason : String) : ConnectorProjection := { skippedRows := [reason] }

/-- One row after the other; an error ends the projection. -/
def projectEach (project : Json → Except ProjectionError ConnectorProjection) :
    List Json → Except ProjectionError ConnectorProjection
  | [] => pure {}
  | raw :: rest => do
      let row ← project raw
      let others ← projectEach project rest
      pure ⟨row.out ++ others.out, row.skippedRows ++ others.skippedRows⟩

/-- What a row states of money: of a transaction or of an obligation. -/
structure Money where
  amount : String
  currency : String

def counterpartyUpsert (sourceSystem key name : String) (normalizedName : Json) (type : String)
    (email : Option String) (extensions : Json) (common : ProjectionCommon) : CanonicalUpsert where
  table := .counterparty
  sourceSystem := sourceSystem
  sourceNaturalKey := key
  columns := [("name", .str name), ("normalizedName", normalizedName), ("type", .str type),
    ("email", orNull email), ("extensions", extensions)]
  common := common

def obligationUpsert (sourceSystem key direction type counterparty : String) (money : Money)
    (issueDate dueDate : Option String) (status : String) (extensions : Json)
    (common : ProjectionCommon) : CanonicalUpsert where
  table := .obligation
  sourceSystem := sourceSystem
  sourceNaturalKey := key
  columns := [("direction", .str direction), ("type", .str type), ("amount", .str money.amount),
    ("currency", .str money.currency), ("issueDate", orNull issueDate),
    ("dueDate", orNull dueDate), ("status", .str status), ("extensions", extensions)]
  references := [{ table := .counterparty, sourceKey := some counterparty }]
  common := common

/-- A posted transaction that is not reconciled. -/
def transactionUpsert (sourceSystem key : String) (account counterparty : Option String)
    (money : Money) (direction date : String) (descriptionRaw descriptionNormalized : Option String)
    (category : Columns) (extensions : Json) (common : ProjectionCommon) : CanonicalUpsert where
  table := .transaction
  sourceSystem := sourceSystem
  sourceNaturalKey := key
  columns := [("amount", .str money.amount), ("currency", .str money.currency),
    ("direction", .str direction), ("transactionDate", .str date), ("postedDate", .str date),
    ("status", .str "posted"), ("descriptionRaw", orNull descriptionRaw),
    ("descriptionNormalized", orNull descriptionNormalized),
    ("reconciliationStatus", .str "unreconciled")] ++ category ++ [("extensions", extensions)]
  references := [{ table := .account, sourceKey := account },
    { table := .counterparty, sourceKey := counterparty }]
  common := common

section Uploads

variable (runtime : Runtime) (common : ProjectionCommon)

def commonWithParserConfidence : ProjectionCommon :=
  { common with confidence := some (common.confidence.getD (1 / 2)) }

/-! ## Bank statements -/

def documentUpload : String := "document_upload"

def projectStatementTransaction (accountId : String) (tx : Json) :
    Except ProjectionError ConnectorProjection := do
  let sourceCommon := commonWithParserConfidence common
  match str (tx.field? "transaction_id"), decimal runtime (tx.field? "amount"),
      str (tx.field? "date"), directionOf tx with
  | some key, some amount, some date, some direction =>
      let counterpartyName := str (tx.field? "counterparty_name")
      let counterparty := (counterpartyName.map fun name => (name, normalizeName runtime name)).filter
        fun named => named.2 ≠ ""
      let counterparties := counterparty.map fun (name, normalized) =>
        counterpartyUpsert documentUpload ("upload_counterparty:" ++ normalized) name
          (.str normalized) "merchant" none
          (.obj [("document_upload", .obj [("object_type", .str "bank_statement")])]) sourceCommon
      let code ← currency runtime (tx.field? "currency")
      let description := str (tx.field? "description")
      pure { out := counterparties.toList ++
        [transactionUpsert documentUpload key (some accountId)
          (counterparty.map fun (_, normalized) => "upload_counterparty:" ++ normalized)
          ⟨amount, code⟩ direction date description (counterpartyName.or description) []
          (.obj [("document_upload", tx)]) sourceCommon] }
  | _, _, _, _ => pure (skipped "bank_statement_transaction_missing_required_field")

def statementAccount (accountId : String) (account : Json) :
    Except ProjectionError CanonicalUpsert := do
  let code ← currency runtime (account.field? "currency")
  pure
    { table := .account
      sourceSystem := documentUpload
      sourceNaturalKey := accountId
      columns := [
        ("institution", .str ((str (account.field? "institution")).getD "Uploaded statement")),
        ("externalAccountId", .str accountId), ("accountType", .str "bank_checking"),
        ("name", .str ((str (account.field? "name")).getD "Uploaded bank statement")),
        ("currency", .str code),
        ("currentBalance", orNull (decimal runtime (account.field? "current_balance"))),
        ("availableBalance", .null), ("status", .str "active"),
        ("extensions", .obj [("document_upload",
          .obj [("object_type", .str "bank_statement"), ("account", account)])])]
      common := commonWithParserConfidence common }

def projectBankStatementUploadLedger (extracted : Json) :
    Except ProjectionError ConnectorProjection := do
  match asRecord extracted with
  | none => .error ⟨"bank statement upload payload must be an object"⟩
  | some payload =>
      if str (payload.field? "object_type") ≠ some "bank_statement" then
        .error ⟨"bank statement upload payload missing object_type=bank_statement"⟩
      else
        match (payload.field? "account").bind asRecord with
        | none => .error ⟨"bank statement upload payload missing account.account_id"⟩
        | some account =>
            match str (account.field? "account_id") with
            | none => .error ⟨"bank statement upload payload missing account.account_id"⟩
            | some accountId =>
                let accountRow ← statementAccount runtime common accountId account
                let rows ← projectEach (projectStatementTransaction runtime common accountId)
                  (itemsOf payload "transactions")
                pure { rows with out := accountRow :: rows.out }

/-! ## Aging and payroll documents -/

def projectReceivable (obj : Json) : Except ProjectionError ConnectorProjection := do
  let sourceCommon := commonWithParserConfidence common
  match str (obj.field? "counterparty_name"), str (obj.field? "invoice_ref"),
      decimal runtime (obj.field? "amount") with
  | some name, some invoiceRef, some amount =>
      let normalized := normalizeName runtime name
      let counterpartyKey := "ar_customer:" ++ if normalized = "" then name else normalized
      let code ← currency runtime (obj.field? "currency")
      pure { out := [
        counterpartyUpsert documentUpload counterpartyKey name (normalizedOrNull runtime name)
          "customer" none (.obj [("document_upload", .obj [("object_type", .str "ar_aging")])])
          sourceCommon,
        obligationUpsert documentUpload ("ar:" ++ invoiceRef) "receivable" "invoice" counterpartyKey
          ⟨amount, code⟩ none (str (obj.field? "due_date"))
          ((str (obj.field? "status")).getD "due")
          (.obj [("document_upload", .obj [("object_type", .str "ar_aging"),
            ("invoice_ref", .str invoiceRef),
            ("aging_bucket", orNull (str (obj.field? "aging_bucket")))])])
          sourceCommon] }
  | _, _, _ => pure (skipped "ar_aging_receivable_missing_required_field")

def projectPayrollObligation (obj : Json) : Except ProjectionError ConnectorProjection := do
  let sourceCommon := commonWithParserConfidence common
  let name := (str (obj.field? "counterparty_name")).getD "Payroll"
  match str (obj.field? "run_ref"), decimal runtime (obj.field? "amount"),
      str (obj.field? "due_date") with
  | some runRef, some amount, some dueDate =>
      let normalized := normalizeName runtime name
      let counterpartyKey := "payroll:" ++ if normalized = "" then "payroll" else normalized
      let code ← currency runtime (obj.field? "currency")
      pure { out := [
        counterpartyUpsert documentUpload counterpartyKey name (normalizedOrNull runtime name)
          (if name = "Payroll" then "other" else "employee") none
          (.obj [("document_upload", .obj [("object_type", .str "payroll_register")])]) sourceCommon,
        obligationUpsert documentUpload ("payroll:" ++ runRef) "payable" "payroll" counterpartyKey
          ⟨amount, code⟩ none (some dueDate) ((str (obj.field? "status")).getD "upcoming")
          (.obj [("document_upload", .obj [("object_type", .str "payroll_register"),
            ("run_ref", .str runRef),
            ("net_amount", orNull (decimal runtime (obj.field? "net_amount"))),
            ("tax_amount", orNull (decimal runtime (obj.field? "tax_amount"))),
            ("cadence", orNull (str (obj.field? "cadence")))])])
          sourceCommon] }
  | _, _, _ => pure (skipped "payroll_register_obligation_missing_required_field")

def projectArAging (payload : Json) : Except ProjectionError ConnectorProjection :=
  projectEach (projectReceivable runtime common) (itemsOf payload "receivables")

def projectPayrollRegister (payload : Json) : Except ProjectionError ConnectorProjection :=
  projectEach (projectPayrollObligation runtime common) (itemsOf payload "obligations")

def projectDocumentRecordsUploadLedger (extracted : Json) :
    Except ProjectionError ConnectorProjection :=
  match asRecord extracted with
  | none => .error ⟨"document records upload payload must be an object"⟩
  | some payload =>
      match str (payload.field? "object_type") with
      | some "ar_aging" => projectArAging runtime common payload
      | some "payroll_register" => projectPayrollRegister runtime common payload
      | _ => .error ⟨"document records upload payload has unsupported object_type"⟩

/-! ## Declared CSV records -/

def customerAssertedCsv : String := "customer_asserted_csv"

/-- What the customer asserts is taken as it is. -/
def assertedCommon : ProjectionCommon :=
  { common with provenance := "customer_asserted", confidence := some 1 }

def assertedExtensions (members : List (String × Json)) : Json :=
  .obj [(customerAssertedCsv, .obj members)]

def projectAssertedCounterparty (row : Json) : Except ProjectionError ConnectorProjection :=
  let declaredType := str (row.field? "type")
  match str (row.field? "counterparty_id"), str (row.field? "name"),
      canonicalCounterpartyType declaredType with
  | some id, some name, some type =>
      pure { out := [
        counterpartyUpsert customerAssertedCsv id name (normalizedOrNull runtime name) type
          (str (row.field? "email"))
          (assertedExtensions [("category", orNull (str (row.field? "category"))),
            ("first_seen", orNull (str (row.field? "first_seen"))),
            ("declared_type", orNull declaredType)])
          (assertedCommon common)] }
  | _, _, _ => pure (skipped "customer_asserted_counterparty_missing_required_field")

/-- The direction comes from the record type. -/
def invoiceDirection (recordType : String) : String :=
  if recordType = "payables_invoices" then "payable" else "receivable"

/-- An invoice that is paid is a transaction as well. -/
def projectAssertedInvoice (recordType : String) (row : Json) :
    Except ProjectionError ConnectorProjection := do
  match str (row.field? "invoice_id"), str (row.field? "counterparty_id"),
      decimal runtime (row.field? "amount"), str (row.field? "due_date") with
  | some id, some counterpartyKey, some amount, some dueDate =>
      let direction := invoiceDirection recordType
      let paidDate := str (row.field? "paid_date")
      let code ← currency runtime (row.field? "currency")
      let obligation := obligationUpsert customerAssertedCsv id direction "invoice" counterpartyKey
        ⟨amount, code⟩ (str (row.field? "issued_date")) (some dueDate)
        ((str (row.field? "status")).getD "open")
        (assertedExtensions [("record_type", .str recordType), ("paid_date", orNull paidDate),
          ("counterparty_name_hint", orNull (counterpartyNameHint row))])
        (assertedCommon common)
      let payment := paidDate.map fun date =>
        transactionUpsert customerAssertedCsv ("payment:" ++ id) none (some counterpartyKey)
          ⟨amount, code⟩ (if direction = "payable" then "outflow" else "inflow") date (some id)
          (some id) []
          (assertedExtensions [("record_type", .str recordType), ("invoice_id", .str id)])
          (assertedCommon common)
      pure { out := obligation :: payment.toList }
  | _, _, _, _ => pure (skipped "customer_asserted_invoice_missing_required_field")

def projectAssertedPayroll (recordType : String) (row : Json) :
    Except ProjectionError ConnectorProjection := do
  match str (row.field? "run_id"), decimal runtime (row.field? "gross_amount") with
  | some id, some amount =>
      let paidDate := str (row.field? "paid_date")
      let scheduledDate := str (row.field? "scheduled_date")
      let extensions := assertedExtensions [("record_type", .str recordType), ("run_id", .str id)]
      let counterparty := counterpartyUpsert customerAssertedCsv "payroll" "Payroll" (.str "payroll")
        "other" none (assertedExtensions [("source_kind", .str "payroll_runs")])
        (assertedCommon common)
      -- the currency is read for an obligation or a transaction only
      if scheduledDate = none ∧ paidDate = none then pure { out := [counterparty] }
      else
        let code ← currency runtime (row.field? "currency")
        let obligation := scheduledDate.map fun dueDate =>
          obligationUpsert customerAssertedCsv ("payroll:" ++ id) "payable" "payroll" "payroll"
            ⟨amount, code⟩ none (some dueDate) ((str (row.field? "status")).getD "upcoming")
            extensions (assertedCommon common)
        let payment := paidDate.map fun date =>
          transactionUpsert customerAssertedCsv ("payroll_payment:" ++ id) none (some "payroll")
            ⟨amount, code⟩ "outflow" date (some ("Payroll " ++ id)) (some ("Payroll " ++ id)) []
            extensions (assertedCommon common)
        pure { out := counterparty :: (obligation.toList ++ payment.toList) }
  | _, _ => pure (skipped "customer_asserted_payroll_missing_required_field")

def projectAssertedTax (recordType : String) (row : Json) :
    Except ProjectionError ConnectorProjection := do
  match str (row.field? "obligation_id"), str (row.field? "counterparty_id"),
      decimal runtime (row.field? "amount"), str (row.field? "due_date") with
  | some id, some counterpartyKey, some amount, some dueDate =>
      let code ← currency runtime (row.field? "currency")
      pure { out := [
        obligationUpsert customerAssertedCsv id "payable" "tax" counterpartyKey ⟨amount, code⟩ none
          (some dueDate) ((str (row.field? "status")).getD "open")
          (assertedExtensions [("record_type", .str recordType),
            ("description", orNull (str (row.field? "description"))),
            ("counterparty_name_hint", orNull (counterpartyNameHint row))])
          (assertedCommon common)] }
  | _, _, _, _ => pure (skipped "customer_asserted_tax_missing_required_field")

/-- The category as the customer states it. -/
def sourceCategory (code : String) : Columns :=
  [("categoryAssignment", .obj [("canonicalCode", .str code), ("method", .str "source_provided"),
    ("confidence", .num 1), ("sourceCategory", .str code)])]

def projectAssertedTransaction (recordType : String) (row : Json) :
    Except ProjectionError ConnectorProjection := do
  match str (row.field? "transaction_id"), str (row.field? "account_id"),
      decimal runtime (row.field? "amount"), str (row.field? "date"), directionOf row with
  | some id, some accountKey, some amount, some date, some direction =>
      let description := (str (row.field? "description")).getD id
      let category := str (row.field? "category_code")
      if !category.all isCanonicalTransactionCategoryCode then
        .error ⟨"unsupported customer_asserted category_code: " ++ category.getD ""⟩
      else
        let code ← currency runtime (row.field? "currency")
        pure { out := [
          transactionUpsert customerAssertedCsv id (some accountKey) none ⟨amount, code⟩ direction
            date (some description) (some description) (category.elim [] sourceCategory)
            (assertedExtensions [("record_type", .str recordType), ("transaction_id", .str id)])
            (assertedCommon common)] }
  | _, _, _, _, _ => pure (skipped "customer_asserted_bank_transaction_missing_required_field")

/-- A record of another type yields nothing. -/
def projectAssertedRow (recordType : String) (raw : Json) :
    Except ProjectionError ConnectorProjection :=
  match asRecord raw with
  | none => pure (skipped "customer_asserted_csv_row_not_object")
  | some row =>
      if recordType = "counterparties" then projectAssertedCounterparty runtime common row
      else if recordType = "payables_invoices" ∨ recordType = "receivables_invoices" then
        projectAssertedInvoice runtime common recordType row
      else if recordType = "payroll_runs" then projectAssertedPayroll runtime common recordType row
      else if recordType = "tax_obligations" then projectAssertedTax runtime common recordType row
      else if recordType = "bank_transactions" then
        projectAssertedTransaction runtime common recordType row
      else pure {}

def projectCustomerAssertedCsvLedger (extracted : Json) :
    Except ProjectionError ConnectorProjection :=
  match (asRecord extracted).bind fun payload => str (payload.field? "record_type") with
  | none => .error ⟨"customer_asserted CSV payload is malformed"⟩
  | some recordType =>
      projectEach (projectAssertedRow runtime common recordType) (itemsOf extracted "records")

end Uploads

end BrainCore.Canonical
