import BrainCore.Canonical.ConnectorLedger
import BrainCore.Foundation.TaggedKeys

/-!
# Natural keys of uploaded records

Which rows of obligations and transactions a record of an upload yields, under
which keys, and so exactly when two records of one tenant yield rows with one
key.
-/

namespace BrainCore.Canonical

open BrainCore.Foundation

/-! ## Builders -/

/-- How the key of a row is made from the id of its record. -/
inductive KeyBuilder where
  | bare
  | aging
  | payroll
  | payment
  | payrollPayment
deriving DecidableEq

def KeyBuilder.tag : KeyBuilder → String
  | bare => ""
  | aging => "ar:"
  | payroll => "payroll:"
  | payment => "payment:"
  | payrollPayment => "payroll_payment:"

/-- No tag starts with another one. -/
def keyBuilders : TagFamily KeyBuilder where
  tag := KeyBuilder.tag
  apart b c := by cases b <;> cases c <;> decide

@[simp]
theorem keyBuilders_build (builder : KeyBuilder) (id : String) :
    keyBuilders.build builder id = builder.tag ++ id := rfl

/-! ## Records -/

/-- A record of an upload, with what its projection takes from the upload. -/
inductive UploadedRecord where
  | statementTransaction (accountId : String) (tx : Json)
  | receivable (obj : Json)
  | payrollObligation (obj : Json)
  | asserted (recordType : String) (raw : Json)

namespace UploadedRecord

/-- The source system and the type of the record. -/
def recordType : UploadedRecord → String × String
  | statementTransaction _ _ => (documentUpload, "bank_statement")
  | receivable _ => (documentUpload, "ar_aging")
  | payrollObligation _ => (documentUpload, "payroll_register")
  | asserted recordType _ => (customerAssertedCsv, recordType)

def row : UploadedRecord → Json
  | statementTransaction _ tx => tx
  | receivable obj => obj
  | payrollObligation obj => obj
  | asserted _ raw => raw

def project (runtime : Runtime) (common : ProjectionCommon) :
    UploadedRecord → Except ProjectionError ConnectorProjection
  | statementTransaction accountId tx => projectStatementTransaction runtime common accountId tx
  | receivable obj => projectReceivable runtime common obj
  | payrollObligation obj => projectPayrollObligation runtime common obj
  | asserted recordType raw => projectAssertedRow runtime common recordType raw

end UploadedRecord

/-- What a type of records asks of a record, and the rows that a complete record yields. -/
structure RecordForm where
  idField : String
  texts : List String := []
  amountField : String := "amount"
  directed : Bool := false
  categorized : Bool := false
  rows : Json → List (CanonicalTable × KeyBuilder)

/-- A row under the condition that a field is a text. -/
def rowIf (row : Json) (field : String) (table : CanonicalTable) (builder : KeyBuilder) :
    List (CanonicalTable × KeyBuilder) :=
  if str (row.field? field) = none then [] else [(table, builder)]

def statementForm : RecordForm where
  idField := "transaction_id"
  texts := ["date"]
  directed := true
  rows _ := [(.transaction, .bare)]

def receivableForm : RecordForm where
  idField := "invoice_ref"
  texts := ["counterparty_name"]
  rows _ := [(.obligation, .aging)]

def payrollObligationForm : RecordForm where
  idField := "run_ref"
  texts := ["due_date"]
  rows _ := [(.obligation, .payroll)]

/-- An invoice is an obligation, and a transaction once it is paid. -/
def invoiceForm : RecordForm where
  idField := "invoice_id"
  texts := ["counterparty_id", "due_date"]
  rows row := (.obligation, .bare) :: rowIf row "paid_date" .transaction .payment

def payrollRunForm : RecordForm where
  idField := "run_id"
  amountField := "gross_amount"
  rows row := rowIf row "scheduled_date" .obligation .payroll ++
    rowIf row "paid_date" .transaction .payrollPayment

def taxForm : RecordForm where
  idField := "obligation_id"
  texts := ["counterparty_id", "due_date"]
  rows _ := [(.obligation, .bare)]

def bankTransactionForm : RecordForm where
  idField := "transaction_id"
  texts := ["account_id", "date"]
  directed := true
  categorized := true
  rows _ := [(.transaction, .bare)]

/-- The form of the declared records of a type, none for records that yield no money. -/
def assertedForm (recordType : String) : Option RecordForm :=
  if recordType = "counterparties" then none
  else if recordType = "payables_invoices" ∨ recordType = "receivables_invoices" then
    some invoiceForm
  else if recordType = "payroll_runs" then some payrollRunForm
  else if recordType = "tax_obligations" then some taxForm
  else if recordType = "bank_transactions" then some bankTransactionForm
  else none

namespace UploadedRecord

def form : UploadedRecord → Option RecordForm
  | statementTransaction _ _ => some statementForm
  | receivable _ => some receivableForm
  | payrollObligation _ => some payrollObligationForm
  | asserted recordType _ => assertedForm recordType

/-- The id of the record under its type. -/
def recordId (record : UploadedRecord) : Option String :=
  record.form.bind fun form => str (record.row.field? form.idField)

end UploadedRecord

/-- The record has the fields that its form asks for. -/
structure Filled (runtime : Runtime) (form : RecordForm) (row : Json) (id : String) : Prop where
  id : str (row.field? form.idField) = some id
  texts : ∀ name ∈ form.texts, str (row.field? name) ≠ none
  amount : decimal runtime (row.field? form.amountField) ≠ none
  directed : form.directed = true → directionOf row ≠ none
  categorized : form.categorized = true →
    (str (row.field? "category_code")).all isCanonicalTransactionCategoryCode = true

/-- The record has these fields, and its currency is a currency. -/
structure Complete (runtime : Runtime) (form : RecordForm) (row : Json) (id : String) : Prop
    extends Filled runtime form row id where
  currency : ∃ code, currency runtime (row.field? "currency") = .ok code

/-! ## Keys -/

abbrev RowKey := CanonicalTable × String × String

/-- The key of a row of money. -/
def moneyKey (upsert : CanonicalUpsert) : Option RowKey :=
  if upsert.table = .obligation ∨ upsert.table = .transaction then
    some (upsert.table, upsert.sourceSystem, upsert.sourceNaturalKey)
  else none

def moneyKeys (projection : ConnectorProjection) : List RowKey := projection.out.filterMap moneyKey

/-- A projection that does not throw, and yields this key. -/
def YieldsKey (projected : Except ProjectionError ConnectorProjection) (key : RowKey) : Prop :=
  ∃ projection, projected = .ok projection ∧ key ∈ moneyKeys projection

/-- A complete record of the form yields this key. -/
def FormYields (runtime : Runtime) (form : RecordForm) (system : String) (row : Json)
    (key : RowKey) : Prop :=
  ∃ id, Complete runtime form row id ∧
    ∃ made ∈ form.rows row, (made.1, system, keyBuilders.build made.2 id) = key

section Builders

variable {runtime : Runtime} {common : ProjectionCommon} {key : RowKey}

@[simp]
theorem moneyKey_counterparty {system key name : String} {normalizedName : Json} {type : String}
    {email : Option String} {extensions : Json} :
    moneyKey (counterpartyUpsert system key name normalizedName type email extensions common) =
      none := rfl

@[simp]
theorem moneyKey_obligation {system key direction type counterparty : String} {money : Money}
    {issueDate dueDate : Option String} {status : String} {extensions : Json} :
    moneyKey (obligationUpsert system key direction type counterparty money issueDate dueDate status
      extensions common) = some (.obligation, system, key) := rfl

@[simp]
theorem moneyKey_transaction {system key : String} {account counterparty : Option String}
    {money : Money} {direction date : String} {descriptionRaw descriptionNormalized : Option String}
    {category : Columns} {extensions : Json} :
    moneyKey (transactionUpsert system key account counterparty money direction date descriptionRaw
      descriptionNormalized category extensions common) = some (.transaction, system, key) := rfl

@[simp]
theorem not_mem_moneyKeys_nil {reasons : List String} : key ∉ moneyKeys ⟨[], reasons⟩ :=
  List.not_mem_nil

@[simp]
theorem mem_moneyKeys_cons {upsert : CanonicalUpsert} {rest : List CanonicalUpsert}
    {reasons : List String} :
    key ∈ moneyKeys ⟨upsert :: rest, reasons⟩ ↔
      moneyKey upsert = some key ∨ key ∈ moneyKeys ⟨rest, reasons⟩ := by
  simp [moneyKeys]

@[simp]
theorem mem_moneyKeys_append {first second : List CanonicalUpsert} {reasons : List String} :
    key ∈ moneyKeys ⟨first ++ second, reasons⟩ ↔
      key ∈ moneyKeys ⟨first, reasons⟩ ∨ key ∈ moneyKeys ⟨second, reasons⟩ := by
  simp only [moneyKeys, List.filterMap_append, List.mem_append]

@[simp]
theorem mem_moneyKeys_toList {upsert : Option CanonicalUpsert} {reasons : List String} :
    key ∈ moneyKeys ⟨upsert.toList, reasons⟩ ↔ ∃ made, upsert = some made ∧ moneyKey made = some key := by
  cases upsert <;> simp

@[simp]
theorem yieldsKey_ok {projection : ConnectorProjection} :
    YieldsKey (.ok projection) key ↔ key ∈ moneyKeys projection := by
  simp [YieldsKey]

@[simp]
theorem not_yieldsKey_error {error : ProjectionError} : ¬YieldsKey (.error error) key := by
  simp [YieldsKey]

@[simp]
theorem not_yieldsKey_skipped {reason : String} : ¬YieldsKey (.ok (skipped reason)) key := by
  simp [skipped]

/-- A record that lacks a field yields nothing. -/
theorem yields_missing {form : RecordForm} {system : String} {row : Json}
    {projected : Except ProjectionError ConnectorProjection} (hnone : ¬YieldsKey projected key)
    (h : ∀ id, ¬Filled runtime form row id) :
    YieldsKey projected key ↔ FormYields runtime form system row key :=
  ⟨fun hkey => absurd hkey hnone, fun ⟨id, hcomplete, _⟩ => absurd hcomplete.toFilled (h id)⟩

/-- A record with its fields yields the rows of its form, unless its currency is no currency. -/
theorem yields_filled {form : RecordForm} {system : String} {row : Json} {id : String}
    {next : String → Except ProjectionError ConnectorProjection} (h : Filled runtime form row id)
    (hnext : ∀ code, YieldsKey (next code) key ↔
      ∃ made ∈ form.rows row, (made.1, system, keyBuilders.build made.2 id) = key) :
    YieldsKey (currency runtime (row.field? "currency") >>= next) key ↔
      FormYields runtime form system row key := by
  cases hcode : currency runtime (row.field? "currency") with
  | error error =>
      refine ⟨fun hkey => absurd hkey not_yieldsKey_error, fun ⟨_, hcomplete, _⟩ => ?_⟩
      obtain ⟨code, hok⟩ := hcomplete.currency
      rw [hcode] at hok
      cases hok
  | ok code =>
      refine (hnext code).trans ⟨fun hmade => ⟨id, ⟨h, code, hcode⟩, hmade⟩, ?_⟩
      rintro ⟨other, hother, hmade⟩
      obtain rfl := Option.some.inj (h.id.symm.trans hother.id)
      exact hmade

/-- A text that a filled record has. -/
theorem Filled.exists_text {form : RecordForm} {row : Json} {id : String}
    (h : Filled runtime form row id) {name : String} (hname : name ∈ form.texts) :
    ∃ text, str (row.field? name) = some text :=
  Option.ne_none_iff_exists'.mp (h.texts name hname)

theorem receivable_yields {obj : Json} :
    YieldsKey (projectReceivable runtime common obj) key ↔
      FormYields runtime receivableForm documentUpload obj key := by
  unfold projectReceivable
  split
  · rename_i name ref amount hname href hamount
    have hfilled : Filled runtime receivableForm obj ref :=
      ⟨href, by simp [receivableForm, hname], by simp [receivableForm, hamount],
        by simp [receivableForm], by simp [receivableForm]⟩
    refine yields_filled hfilled fun code => ?_
    simp [pure, Except.pure, receivableForm, KeyBuilder.tag]
  · rename_i hmissing
    refine yields_missing not_yieldsKey_skipped fun id hfilled => ?_
    obtain ⟨name, hname⟩ := hfilled.exists_text (show "counterparty_name" ∈ _ from List.mem_cons_self)
    obtain ⟨amount, hamount⟩ := Option.ne_none_iff_exists'.mp hfilled.amount
    exact hmissing name id amount hname hfilled.id hamount

theorem payrollObligation_yields {obj : Json} :
    YieldsKey (projectPayrollObligation runtime common obj) key ↔
      FormYields runtime payrollObligationForm documentUpload obj key := by
  unfold projectPayrollObligation
  dsimp only
  split
  · rename_i ref amount dueDate href hamount hdue
    have hfilled : Filled runtime payrollObligationForm obj ref :=
      ⟨href, by simp [payrollObligationForm, hdue], by simp [payrollObligationForm, hamount],
        by simp [payrollObligationForm], by simp [payrollObligationForm]⟩
    refine yields_filled hfilled fun code => ?_
    simp [pure, Except.pure, payrollObligationForm, KeyBuilder.tag]
  · rename_i hmissing
    refine yields_missing not_yieldsKey_skipped fun id hfilled => ?_
    obtain ⟨dueDate, hdue⟩ := hfilled.exists_text (show "due_date" ∈ _ from List.mem_cons_self)
    obtain ⟨amount, hamount⟩ := Option.ne_none_iff_exists'.mp hfilled.amount
    exact hmissing id amount dueDate hfilled.id hamount hdue

theorem statementTransaction_yields {accountId : String} {tx : Json} :
    YieldsKey (projectStatementTransaction runtime common accountId tx) key ↔
      FormYields runtime statementForm documentUpload tx key := by
  unfold projectStatementTransaction
  dsimp only
  split
  · rename_i id amount date direction hid hamount hdate hdirection
    have hfilled : Filled runtime statementForm tx id :=
      ⟨hid, by simp [statementForm, hdate], by simp [statementForm, hamount],
        by simp [hdirection], by simp [statementForm]⟩
    refine yields_filled hfilled fun code => ?_
    simp [pure, Except.pure, statementForm, KeyBuilder.tag]
  · rename_i hmissing
    refine yields_missing not_yieldsKey_skipped fun id hfilled => ?_
    obtain ⟨date, hdate⟩ := hfilled.exists_text (show "date" ∈ _ from List.mem_cons_self)
    obtain ⟨amount, hamount⟩ := Option.ne_none_iff_exists'.mp hfilled.amount
    obtain ⟨direction, hdirection⟩ := Option.ne_none_iff_exists'.mp (hfilled.directed rfl)
    exact hmissing id amount date direction hfilled.id hamount hdate hdirection

theorem invoice_yields {recordType : String} {row : Json} :
    YieldsKey (projectAssertedInvoice runtime common recordType row) key ↔
      FormYields runtime invoiceForm customerAssertedCsv row key := by
  unfold projectAssertedInvoice
  split
  · rename_i id counterparty amount dueDate hid hcounterparty hamount hdue
    have hfilled : Filled runtime invoiceForm row id :=
      ⟨hid, by simp [invoiceForm, hcounterparty, hdue], by simp [invoiceForm, hamount],
        by simp [invoiceForm], by simp [invoiceForm]⟩
    refine yields_filled hfilled fun code => ?_
    cases hpaid : str (row.field? "paid_date") <;>
      simp [pure, Except.pure, invoiceForm, rowIf, hpaid, KeyBuilder.tag]
  · rename_i hmissing
    refine yields_missing not_yieldsKey_skipped fun id hfilled => ?_
    obtain ⟨counterparty, hcounterparty⟩ :=
      hfilled.exists_text (show "counterparty_id" ∈ _ from List.mem_cons_self)
    obtain ⟨dueDate, hdue⟩ :=
      hfilled.exists_text (show "due_date" ∈ _ from List.mem_cons_of_mem _ List.mem_cons_self)
    obtain ⟨amount, hamount⟩ := Option.ne_none_iff_exists'.mp hfilled.amount
    exact hmissing id counterparty amount dueDate hfilled.id hcounterparty hamount hdue

theorem payrollRun_yields {recordType : String} {row : Json} :
    YieldsKey (projectAssertedPayroll runtime common recordType row) key ↔
      FormYields runtime payrollRunForm customerAssertedCsv row key := by
  unfold projectAssertedPayroll
  split
  · rename_i id amount hid hamount
    have hfilled : Filled runtime payrollRunForm row id :=
      ⟨hid, by simp [payrollRunForm], by simp [payrollRunForm, hamount], by simp [payrollRunForm],
        by simp [payrollRunForm]⟩
    dsimp only
    split
    · rename_i hneither
      -- neither scheduled nor paid, and so no rows of money on either side
      refine ⟨fun hkey => ?_, fun ⟨_, _, made, hmade, _⟩ => ?_⟩
      · simp [pure, Except.pure] at hkey
      · simp [payrollRunForm, rowIf, hneither.1, hneither.2] at hmade
    · refine yields_filled hfilled fun code => ?_
      cases hscheduled : str (row.field? "scheduled_date") <;>
        cases hpaid : str (row.field? "paid_date") <;>
        simp [pure, Except.pure, payrollRunForm, rowIf, hscheduled,
          hpaid, KeyBuilder.tag]
  · rename_i hmissing
    refine yields_missing not_yieldsKey_skipped fun id hfilled => ?_
    obtain ⟨amount, hamount⟩ := Option.ne_none_iff_exists'.mp hfilled.amount
    exact hmissing id amount hfilled.id hamount

theorem tax_yields {recordType : String} {row : Json} :
    YieldsKey (projectAssertedTax runtime common recordType row) key ↔
      FormYields runtime taxForm customerAssertedCsv row key := by
  unfold projectAssertedTax
  split
  · rename_i id counterparty amount dueDate hid hcounterparty hamount hdue
    have hfilled : Filled runtime taxForm row id :=
      ⟨hid, by simp [taxForm, hcounterparty, hdue], by simp [taxForm, hamount], by simp [taxForm],
        by simp [taxForm]⟩
    refine yields_filled hfilled fun code => ?_
    simp [pure, Except.pure, taxForm, KeyBuilder.tag]
  · rename_i hmissing
    refine yields_missing not_yieldsKey_skipped fun id hfilled => ?_
    obtain ⟨counterparty, hcounterparty⟩ :=
      hfilled.exists_text (show "counterparty_id" ∈ _ from List.mem_cons_self)
    obtain ⟨dueDate, hdue⟩ :=
      hfilled.exists_text (show "due_date" ∈ _ from List.mem_cons_of_mem _ List.mem_cons_self)
    obtain ⟨amount, hamount⟩ := Option.ne_none_iff_exists'.mp hfilled.amount
    exact hmissing id counterparty amount dueDate hfilled.id hcounterparty hamount hdue

theorem bankTransaction_yields {recordType : String} {row : Json} :
    YieldsKey (projectAssertedTransaction runtime common recordType row) key ↔
      FormYields runtime bankTransactionForm customerAssertedCsv row key := by
  unfold projectAssertedTransaction
  split
  · rename_i id account amount date direction hid haccount hamount hdate hdirection
    dsimp only
    split
    · rename_i hcategory
      refine yields_missing not_yieldsKey_error fun id hfilled => ?_
      rw [hfilled.categorized rfl] at hcategory
      cases hcategory
    · rename_i hcategory
      have hfilled : Filled runtime bankTransactionForm row id :=
        ⟨hid, by simp [bankTransactionForm, haccount, hdate], by simp [bankTransactionForm, hamount],
          by simp [hdirection], fun _ => by simpa using hcategory⟩
      refine yields_filled hfilled fun code => ?_
      simp [pure, Except.pure, bankTransactionForm, KeyBuilder.tag]
  · rename_i hmissing
    refine yields_missing not_yieldsKey_skipped fun id hfilled => ?_
    obtain ⟨account, haccount⟩ :=
      hfilled.exists_text (show "account_id" ∈ _ from List.mem_cons_self)
    obtain ⟨date, hdate⟩ :=
      hfilled.exists_text (show "date" ∈ _ from List.mem_cons_of_mem _ List.mem_cons_self)
    obtain ⟨amount, hamount⟩ := Option.ne_none_iff_exists'.mp hfilled.amount
    obtain ⟨direction, hdirection⟩ := Option.ne_none_iff_exists'.mp (hfilled.directed rfl)
    exact hmissing id account amount date direction hfilled.id haccount hamount hdate hdirection

theorem not_counterparty_yields {row : Json} :
    ¬YieldsKey (projectAssertedCounterparty runtime common row) key := by
  unfold projectAssertedCounterparty
  dsimp only
  split
  · simp [pure, Except.pure]
  · exact not_yieldsKey_skipped

/-- What is no record is read as one without fields. -/
theorem asRecord_cases (raw : Json) :
    asRecord raw = some raw ∨ asRecord raw = none ∧ ∀ name, raw.field? name = none := by
  cases raw <;> simp [asRecord, Json.field?]

theorem assertedRow_yields {recordType : String} {raw : Json} :
    YieldsKey (projectAssertedRow runtime common recordType raw) key ↔
      ∃ form, assertedForm recordType = some form ∧
        FormYields runtime form customerAssertedCsv raw key := by
  unfold projectAssertedRow
  rcases asRecord_cases raw with hraw | ⟨hraw, hempty⟩
  · simp only [hraw]
    unfold assertedForm
    split
    · simp [not_counterparty_yields]
    · split
      · simp [invoice_yields]
      · split
        · simp [payrollRun_yields]
        · split
          · simp [tax_yields]
          · split
            · simp [bankTransaction_yields]
            · simp [pure, Except.pure]
  · simp only [hraw]
    refine ⟨fun hkey => absurd hkey not_yieldsKey_skipped, fun ⟨form, _, id, hcomplete, _⟩ => ?_⟩
    have hid := hcomplete.id
    rw [hempty] at hid
    cases hid

/-- The rows of money of a record, by its form. -/
theorem UploadedRecord.yields_iff {record : UploadedRecord} :
    YieldsKey (record.project runtime common) key ↔
      ∃ form, record.form = some form ∧
        FormYields runtime form record.recordType.1 record.row key := by
  cases record with
  | statementTransaction accountId tx =>
      simpa [form, project, recordType, row] using statementTransaction_yields
  | receivable obj => simpa [form, project, recordType, row] using receivable_yields
  | payrollObligation obj =>
      simpa [form, project, recordType, row] using payrollObligation_yields
  | asserted recordType raw => exact assertedRow_yields

/-- The keys of an upload are those of its records. -/
theorem projectEach_keys {project : Json → Except ProjectionError ConnectorProjection} :
    ∀ {rows : List Json} {projection : ConnectorProjection},
      projectEach project rows = .ok projection →
        (key ∈ moneyKeys projection ↔ ∃ raw ∈ rows, YieldsKey (project raw) key) := by
  intro rows
  induction rows with
  | nil =>
      intro projection h
      obtain rfl : {} = projection := Except.ok.inj h
      simp
  | cons raw rest ih =>
      intro projection h
      obtain ⟨row, hrow, h⟩ := bind_ok.mp h
      obtain ⟨others, hothers, h⟩ := bind_ok.mp h
      obtain rfl := Except.ok.inj h
      rw [mem_moneyKeys_append, List.exists_mem_cons_iff, hrow, yieldsKey_ok]
      have hrest := ih hothers
      exact or_congr Iff.rfl hrest

theorem customerAssertedCsv_keys {recordType : String} {extracted : Json}
    {projection : ConnectorProjection}
    (htype : str (extracted.field? "record_type") = some recordType)
    (h : projectCustomerAssertedCsvLedger runtime common extracted = .ok projection) :
    key ∈ moneyKeys projection ↔ ∃ raw ∈ itemsOf extracted "records",
      YieldsKey ((UploadedRecord.asserted recordType raw).project runtime common) key := by
  unfold projectCustomerAssertedCsvLedger at h
  rcases asRecord_cases extracted with hrecord | ⟨hrecord, -⟩
  · rw [hrecord, Option.bind_some, htype] at h
    exact projectEach_keys h
  · rw [hrecord] at h
    cases h

end Builders

/-! ## Two records -/

variable {runtime : Runtime} {common common' : ProjectionCommon} {record other : UploadedRecord}

/-- The rows of money that the two records yield have different keys of their sources. -/
def KeysApart (runtime : Runtime) (common common' : ProjectionCommon)
    (record other : UploadedRecord) : Prop :=
  ∀ key key', YieldsKey (record.project runtime common) key →
    YieldsKey (other.project runtime common') key' → key.2 ≠ key'.2

/-- No row of money of one record takes the place of a row of the other one. -/
def RowsApart (runtime : Runtime) (common common' : ProjectionCommon)
    (record other : UploadedRecord) : Prop :=
  ∀ key key', YieldsKey (record.project runtime common) key →
    YieldsKey (other.project runtime common') key' → key ≠ key'

/-- A complete record of one source makes a row by this builder, from this id. -/
def Makes (runtime : Runtime) (record : UploadedRecord) (table : CanonicalTable)
    (builder : KeyBuilder) (id : String) : Prop :=
  ∃ form, record.form = some form ∧ Complete runtime form record.row id ∧
    (table, builder) ∈ form.rows record.row

theorem yieldsKey_iff_makes {key : RowKey} :
    YieldsKey (record.project runtime common) key ↔
      ∃ table builder id, Makes runtime record table builder id ∧
        (table, record.recordType.1, keyBuilders.build builder id) = key := by
  rw [UploadedRecord.yields_iff]
  constructor
  · rintro ⟨form, hform, id, hcomplete, ⟨table, builder⟩, hmade, hkey⟩
    exact ⟨table, builder, id, ⟨form, hform, hcomplete, hmade⟩, hkey⟩
  · rintro ⟨table, builder, id, ⟨form, hform, hcomplete, hmade⟩, hkey⟩
    exact ⟨form, hform, id, hcomplete, (table, builder), hmade, hkey⟩

/-- The ids of the two records meet under builders of theirs, for rows of these tables. -/
def Meet (runtime : Runtime) (record other : UploadedRecord) (table table' : CanonicalTable) : Prop :=
  record.recordType.1 = other.recordType.1 ∧
    ∃ builder id builder' id', Makes runtime record table builder id ∧
      Makes runtime other table' builder' id' ∧ keyBuilders.Meets builder id builder' id'

theorem keysApart_iff :
    KeysApart runtime common common' record other ↔
      ∀ table table', ¬Meet runtime record other table table' := by
  constructor
  · rintro hapart table table' ⟨hsystem, builder, id, builder', id', hmakes, hmakes', hmeets⟩
    refine hapart _ _ (yieldsKey_iff_makes.mpr ⟨table, builder, id, hmakes, rfl⟩)
      (yieldsKey_iff_makes.mpr ⟨table', builder', id', hmakes', rfl⟩) ?_
    exact Prod.ext hsystem (keyBuilders.build_eq_iff.mpr hmeets)
  · intro hmeet key key' hkey hkey' hsame
    obtain ⟨table, builder, id, hmakes, rfl⟩ := yieldsKey_iff_makes.mp hkey
    obtain ⟨table', builder', id', hmakes', rfl⟩ := yieldsKey_iff_makes.mp hkey'
    obtain ⟨hsystem, hkeys⟩ := Prod.mk.inj hsame
    exact hmeet table table' ⟨hsystem, builder, id, builder', id', hmakes, hmakes',
      keyBuilders.build_eq_iff.mp hkeys⟩

theorem rowsApart_iff :
    RowsApart runtime common common' record other ↔
      ∀ table, ¬Meet runtime record other table table := by
  constructor
  · rintro hapart table ⟨hsystem, builder, id, builder', id', hmakes, hmakes', hmeets⟩
    refine hapart _ _ (yieldsKey_iff_makes.mpr ⟨table, builder, id, hmakes, rfl⟩)
      (yieldsKey_iff_makes.mpr ⟨table, builder', id', hmakes', rfl⟩) ?_
    rw [hsystem, keyBuilders.build_eq_iff.mpr hmeets]
  · intro hmeet key key' hkey hkey' hsame
    obtain ⟨table, builder, id, hmakes, rfl⟩ := yieldsKey_iff_makes.mp hkey
    obtain ⟨table', builder', id', hmakes', rfl⟩ := yieldsKey_iff_makes.mp hkey'
    obtain ⟨rfl, hsystem, hkeys⟩ : table = table' ∧ record.recordType.1 = other.recordType.1 ∧
        keyBuilders.build builder id = keyBuilders.build builder' id' := by
      simpa only [Prod.mk.injEq] using hsame
    exact hmeet table ⟨hsystem, builder, id, builder', id', hmakes, hmakes',
      keyBuilders.build_eq_iff.mp hkeys⟩

/-- An invoice that is payable and one that is receivable are one row of obligations, when they
have one id. -/
theorem invoices_meet {row row' : Json} {id : String} (h : Complete runtime invoiceForm row id)
    (h' : Complete runtime invoiceForm row' id) :
    Meet runtime (.asserted "payables_invoices" row) (.asserted "receivables_invoices" row')
      .obligation .obligation := by
  refine ⟨rfl, KeyBuilder.bare, id, KeyBuilder.bare, id, ⟨invoiceForm, ?_, h, List.mem_cons_self⟩,
    ⟨invoiceForm, ?_, h', List.mem_cons_self⟩, .same KeyBuilder.bare id⟩
  · simp [UploadedRecord.form, assertedForm]
  · simp [UploadedRecord.form, assertedForm]

/-- The type and the id of a record. -/
def UploadedRecord.identity (record : UploadedRecord) : (String × String) × Option String :=
  (record.recordType, record.recordId)

/-- Two different records yield rows under different keys exactly when their ids do not meet, and
take no row's place from one another exactly when they do not meet within one table. -/
theorem natural_keys_apart_iff (runtime : Runtime) (common common' : ProjectionCommon)
    (record other : UploadedRecord) :
    ((record.identity ≠ other.identity → KeysApart runtime common common' record other) ↔
      (record.identity ≠ other.identity → ∀ table table', ¬Meet runtime record other table table')) ∧
    ((record.identity ≠ other.identity → RowsApart runtime common common' record other) ↔
      (record.identity ≠ other.identity → ∀ table, ¬Meet runtime record other table table)) := by
  rw [keysApart_iff, rowsApart_iff]
  exact ⟨Iff.rfl, Iff.rfl⟩

/-- A runtime with the letters of ASCII. -/
def asciiRuntime : Runtime where
  numberText value := numberText value
  toLowerCase := List.map Char.toLower
  toUpperCase := List.map Char.toUpper

/-- An open invoice over 100 dollars. -/
def openInvoice (counterparty : String) : Json :=
  .obj [("invoice_id", .str "INV-1"), ("counterparty_id", .str counterparty),
    ("amount", .str "100.00"), ("due_date", .str "2026-01-31")]

theorem openInvoice_complete (counterparty : String) (h : counterparty ≠ "") :
    Complete asciiRuntime invoiceForm (openInvoice counterparty) "INV-1" where
  id := by simp [openInvoice, invoiceForm, Json.field?, str]
  texts := by simp [openInvoice, invoiceForm, Json.field?, str, h]
  amount := by
    have hamount : (openInvoice counterparty).field? "amount" = some (.str "100.00") := by
      simp [openInvoice, Json.field?]
    have htext : isDecimalText (trim "100.00".toList) = true := by decide
    change decimal asciiRuntime ((openInvoice counterparty).field? "amount") ≠ none
    rw [hamount]
    unfold decimal
    dsimp only
    rw [if_pos htext]
    exact Option.some_ne_none _
  directed := by simp [invoiceForm]
  categorized := by simp [invoiceForm]
  currency := by
    have hnone : (openInvoice counterparty).field? "currency" = none := by
      simp [openInvoice, Json.field?]
    have hcode : (decide ((asciiRuntime.toUpperCase ((str none).getD "USD").toList).length = 3) &&
        (asciiRuntime.toUpperCase ((str none).getD "USD").toList).all Char.isUpper) = true := by
      change (decide (3 = 3) && ['U', 'S', 'D'].all Char.isUpper) = true
      decide
    rw [hnone]
    unfold currency
    dsimp only
    rw [if_pos hcode]
    exact ⟨_, rfl⟩

/-- A bill and an invoice of the customer's own with one number are one obligation. -/
theorem invoices_share_key :
    (UploadedRecord.asserted "payables_invoices" (openInvoice "vendor-1")).identity ≠
        (UploadedRecord.asserted "receivables_invoices" (openInvoice "customer-9")).identity ∧
      ¬RowsApart asciiRuntime ⟨"customer_asserted", some 1, [], []⟩
        ⟨"customer_asserted", some 1, [], []⟩
        (.asserted "payables_invoices" (openInvoice "vendor-1"))
        (.asserted "receivables_invoices" (openInvoice "customer-9")) := by
  constructor
  · simp [UploadedRecord.identity, UploadedRecord.recordType]
  · rw [rowsApart_iff]
    exact fun h => h .obligation (invoices_meet (openInvoice_complete "vendor-1" (by decide))
      (openInvoice_complete "customer-9" (by decide)))

/-! ## Records that do not meet -/

/-- The id of a record that makes a row is its own. -/
theorem Makes.recordId {table : CanonicalTable} {builder : KeyBuilder} {id : String}
    (h : Makes runtime record table builder id) : record.recordId = some id := by
  obtain ⟨form, hform, hcomplete, -⟩ := h
  rw [UploadedRecord.recordId, hform, Option.bind_some]
  exact hcomplete.id

end BrainCore.Canonical
