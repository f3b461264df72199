import BrainCore.Foundation.Failures
import BrainCore.Foundation.Table
import BrainCore.Policy.Cron
import Mathlib.Data.Rat.Defs
import Mathlib.Algebra.Order.Ring.Rat

/-!
# The category of a transaction

`assignTransactionCategory` of `services/ledger/src/categorization/assign.ts`
over the tables of migrations 0001, 0006, 0057 and 0058.  A statement checks the
constraints of the rows it writes; the foreign keys are not deferrable, so they
are checked at its end.
-/

namespace BrainCore.Ledger

open BrainCore.Foundation BrainCore.Policy

/-! ## Codes and methods -/

inductive CanonicalTransactionCategoryCode where
  | incomeSubscriptionRevenue
  | expensePayrollAndBenefits
  | expenseCloudInfrastructure
  | expenseGeneralAndAdministrative
deriving DecidableEq

inductive CategoryKind where
  | expense
  | income
  | transfer
  | other
deriving DecidableEq

structure CanonicalTransactionCategoryDefinition where
  name : String
  kind : CategoryKind

namespace CanonicalTransactionCategoryCode

def text : CanonicalTransactionCategoryCode → String
  | incomeSubscriptionRevenue => "income.subscription_revenue"
  | expensePayrollAndBenefits => "expense.payroll_and_benefits"
  | expenseCloudInfrastructure => "expense.cloud_infrastructure"
  | expenseGeneralAndAdministrative => "expense.general_and_administrative"

/-- `CANONICAL_TRANSACTION_CATEGORIES`. -/
def definition : CanonicalTransactionCategoryCode → CanonicalTransactionCategoryDefinition
  | incomeSubscriptionRevenue => ⟨"Subscription revenue", .income⟩
  | expensePayrollAndBenefits => ⟨"Payroll and benefits", .expense⟩
  | expenseCloudInfrastructure => ⟨"Cloud infrastructure", .expense⟩
  | expenseGeneralAndAdministrative => ⟨"General and administrative", .expense⟩

theorem definition_name_injective {code other : CanonicalTransactionCategoryCode}
    (h : code.definition.name = other.definition.name) : code = other := by
  revert h
  cases code <;> cases other <;> decide

end CanonicalTransactionCategoryCode

/-- `canonical_code ~ '^(income|expense)\.[a-z0-9_]+$'`. -/
def isCanonicalCode (text : String) : Bool :=
  ["income.", "expense."].any fun start =>
    start.toList.isPrefixOf text.toList &&
      let rest := text.toList.drop start.length
      !rest.isEmpty && rest.all fun c => c.isLower || c.isDigit || c = '_'

theorem isCanonicalCode_text (code : CanonicalTransactionCategoryCode) :
    isCanonicalCode code.text = true := by
  cases code <;> decide

inductive TransactionCategoryAssignmentMethod where
  | deterministicRule
  | sourceProvided
  | humanConfirmed
deriving DecidableEq

/-- `METHOD_PRIORITY`. -/
def TransactionCategoryAssignmentMethod.priority : TransactionCategoryAssignmentMethod → Nat
  | deterministicRule => 1
  | sourceProvided => 2
  | humanConfirmed => 3

/-! ## Rows -/

structure CategoryRow where
  id : String
  tenantId : String
  name : String
  kind : CategoryKind
  canonicalCode : Option CanonicalTransactionCategoryCode := none
  updatedAt : Instant := 0

/-- The columns of a transaction that an assignment reads and writes. -/
structure CategorizedTransaction where
  id : String
  ownerId : String
  categoryId : Option String

structure CategoryAssignmentRow where
  id : String
  tenantId : String
  transactionId : String
  categoryId : String
  canonicalCode : CanonicalTransactionCategoryCode
  assignmentMethod : TransactionCategoryAssignmentMethod
  confidence : Rat
  ruleVersion : Option String := none
  sourceCategory : Option String := none
  supersededAt : Option Instant := none
  supersededBy : Option String := none

/-- What a call asks for a transaction of a tenant. -/
structure AssignmentRequest where
  tenantId : String
  transactionId : String
  canonicalCode : CanonicalTransactionCategoryCode
  method : TransactionCategoryAssignmentMethod
deriving DecidableEq

/-- The tables, and as history the requests whose calls have committed. -/
structure CategoryDb where
  categories : Table CategoryRow.id := Table.empty
  transactions : Table CategorizedTransaction.id := Table.empty
  assignments : Table CategoryAssignmentRow.id := Table.empty
  applied : List AssignmentRequest := []

namespace CategoryDb

/-- The category of a code. -/
def canonicalCategory? (db : CategoryDb) (tenantId : String)
    (code : CanonicalTransactionCategoryCode) : Option CategoryRow :=
  db.categories.rows.find? fun row => row.tenantId = tenantId ∧ row.canonicalCode = some code

def categoryNamed? (db : CategoryDb) (tenantId name : String) : Option CategoryRow :=
  db.categories.rows.find? fun row => row.tenantId = tenantId ∧ row.name = name

/-- The assignment that is not superseded. -/
def active? (db : CategoryDb) (tenantId transactionId : String) : Option CategoryAssignmentRow :=
  db.assignments.rows.find? fun row =>
    row.tenantId = tenantId ∧ row.transactionId = transactionId ∧ row.supersededAt = none

/-- The transaction of a tenant. -/
def transaction? (db : CategoryDb) (tenantId transactionId : String) :
    Option CategorizedTransaction :=
  (db.transactions.find? transactionId).filter fun row => row.ownerId = tenantId

end CategoryDb

inductive CategoryWrite where
  | category (row : CategoryRow)
  /-- The lock of `FOR UPDATE` on a category. -/
  | lockCategory (id : String)
  | transaction (row : CategorizedTransaction)
  /-- The lock of `FOR UPDATE` on a transaction, with the request it is taken for. -/
  | lockTransaction (request : AssignmentRequest)
  | assignment (row : CategoryAssignmentRow)

namespace CategoryWrite

def apply (db : CategoryDb) : CategoryWrite → CategoryDb
  | .category row => { db with categories := db.categories.put row }
  | .lockCategory _ => db
  | .transaction row => { db with transactions := db.transactions.put row }
  | .lockTransaction request => { db with applied := db.applied ++ [request] }
  | .assignment row => { db with assignments := db.assignments.put row }

/-- The category row that is locked. -/
def categoryId? : CategoryWrite → Option String
  | .category row => some row.id
  | .lockCategory id => some id
  | .transaction _ | .lockTransaction _ | .assignment _ => none

def transactionId? : CategoryWrite → Option String
  | .transaction row => some row.id
  | .lockTransaction request => some request.transactionId
  | .category _ | .lockCategory _ | .assignment _ => none

def category? : CategoryWrite → Option CategoryRow
  | .category row => some row
  | .lockCategory _ | .transaction _ | .lockTransaction _ | .assignment _ => none

def assignment? : CategoryWrite → Option CategoryAssignmentRow
  | .assignment row => some row
  | .category _ | .lockCategory _ | .transaction _ | .lockTransaction _ => none

/-- `UNIQUE (tenant_id, name)` and the unique index on the canonical code. -/
def sameCategory (first second : CategoryRow) : Bool :=
  first.tenantId = second.tenantId ∧
    (first.name = second.name ∨
      first.canonicalCode ≠ none ∧ first.canonicalCode = second.canonicalCode)

/-- The primary key, and the unique index on the active assignment. -/
def sameAssignment (first second : CategoryAssignmentRow) : Bool :=
  first.id = second.id ∨
    first.tenantId = second.tenantId ∧ first.transactionId = second.transactionId ∧
      first.supersededAt = none ∧ second.supersededAt = none

def clash (first second : CategoryWrite) : Bool :=
  (first.categoryId?.isSome && first.categoryId? = second.categoryId?) ||
    (first.transactionId?.isSome && first.transactionId? = second.transactionId?) ||
    (first.category?.any fun row => second.category?.any (sameCategory row)) ||
    (first.assignment?.any fun row => second.assignment?.any (sameAssignment row))

end CategoryWrite

def categoryStore : Store CategoryDb CategoryWrite := ⟨CategoryWrite.apply, CategoryWrite.clash⟩

inductive AssignError where
  /-- "transaction category assignment confidence must be in [0, 1]" -/
  | confidence
  /-- "transaction category assignment requires a tenant transaction" -/
  | transactionRequired
  /-- A constraint of the schema, by its name. -/
  | violates (constraint : String)
  | unavailable
deriving DecidableEq

abbrev AssignTransact (α : Type) := Program CategoryDb CategoryWrite AssignError α

/-! ## The statements -/

structure TransactionCategoryAssignmentInput where
  canonicalCode : CanonicalTransactionCategoryCode
  method : TransactionCategoryAssignmentMethod
  confidence : Rat
  ruleVersion : Option String := none
  sourceCategory : Option String := none

/-- One call, with the ids it draws. -/
structure AssignCall where
  tenantId : String
  transactionId : String
  input : TransactionCategoryAssignmentInput
  newCategoryId : String
  newAssignmentId : String
  now : Instant

def AssignCall.request (call : AssignCall) : AssignmentRequest :=
  ⟨call.tenantId, call.transactionId, call.input.canonicalCode, call.input.method⟩

structure TransactionCategoryAssignmentResult where
  changed : Bool
  assignmentId : Option String
  categoryId : String
  canonicalCode : CanonicalTransactionCategoryCode
  replacedAssignmentId : Option String

def assertConfidence (confidence : Rat) : Except AssignError Unit :=
  if confidence < 0 ∨ 1 < confidence then .error .confidence else .ok ()

/-- `SELECT id FROM ledger_categories … FOR UPDATE`. -/
def selectCanonical (call : AssignCall) : AssignTransact (Option String) :=
  Program.execute fun db =>
    match db.canonicalCategory? call.tenantId call.input.canonicalCode with
    | none => .ok ([], none)
    | some row => .ok ([.lockCategory row.id], some row.id)

/-- `UPDATE ledger_categories SET canonical_code … WHERE name = $3 AND canonical_code IS NULL`. -/
def mapNamed (call : AssignCall) : AssignTransact (Option String) :=
  Program.execute fun db =>
    match (db.categoryNamed? call.tenantId call.input.canonicalCode.definition.name).filter
        fun row => row.canonicalCode.isNone with
    | none => .ok ([], none)
    | some row =>
        if (db.canonicalCategory? call.tenantId call.input.canonicalCode).isSome then
          .error (.violates "uq_ledger_categories_tenant_canonical_code")
        else if !isCanonicalCode call.input.canonicalCode.text then
          .error (.violates "ledger_categories_canonical_code_format")
        else .ok ([.category { row with
            canonicalCode := some call.input.canonicalCode
            updatedAt := call.now }], some row.id)

/-- `INSERT INTO ledger_categories … ON CONFLICT (tenant_id, canonical_code) … DO UPDATE`. -/
def insertCategory (call : AssignCall) : AssignTransact String :=
  Program.execute fun db =>
    match db.canonicalCategory? call.tenantId call.input.canonicalCode with
    | some row => .ok ([.category { row with updatedAt := call.now }], row.id)
    | none =>
        if (db.categories.find? call.newCategoryId).isSome then
          .error (.violates "ledger_categories_pkey")
        else if (db.categoryNamed? call.tenantId call.input.canonicalCode.definition.name).isSome then
          .error (.violates "ledger_categories_tenant_id_name_key")
        else if !isCanonicalCode call.input.canonicalCode.text then
          .error (.violates "ledger_categories_canonical_code_format")
        else .ok ([.category {
            id := call.newCategoryId
            tenantId := call.tenantId
            name := call.input.canonicalCode.definition.name
            kind := call.input.canonicalCode.definition.kind
            canonicalCode := some call.input.canonicalCode
            updatedAt := call.now }], call.newCategoryId)

/-- The category of the code, which is mapped or inserted when there is none. -/
def categoryOf (call : AssignCall) : AssignTransact String := do
  let existing ← selectCanonical call
  match existing with
  | some categoryId => return categoryId
  | none => do
      let mapped ← mapNamed call
      match mapped with
      | some categoryId => return categoryId
      | none => insertCategory call

/-- `SELECT id FROM ledger_transactions … FOR UPDATE`. -/
def lockTransaction (call : AssignCall) : AssignTransact Unit :=
  Program.execute fun db =>
    match db.transaction? call.tenantId call.transactionId with
    | none => .error .transactionRequired
    | some _ => .ok ([.lockTransaction call.request], ())

/-- The locks of the transaction's assignments are implied by that of the transaction. -/
def selectActive (call : AssignCall) : AssignTransact (Option CategoryAssignmentRow) :=
  Program.select fun db => db.active? call.tenantId call.transactionId

/-- `UPDATE … SET superseded_at = now(), superseded_by = $1`. -/
def supersede (call : AssignCall) (active : CategoryAssignmentRow) : AssignTransact Unit :=
  Program.execute fun db =>
    match (db.assignments.find? active.id).filter fun row => row.tenantId = call.tenantId with
    | none => .ok ([], ())
    | some row =>
        if (db.assignments.find? call.newAssignmentId).isNone then
          .error (.violates "ledger_transaction_category_assignments_superseded_by_fkey")
        else .ok ([.assignment { row with
            supersededAt := some call.now
            supersededBy := some call.newAssignmentId }], ())

def AssignCall.newAssignment (call : AssignCall) (categoryId : String) : CategoryAssignmentRow where
  id := call.newAssignmentId
  tenantId := call.tenantId
  transactionId := call.transactionId
  categoryId := categoryId
  canonicalCode := call.input.canonicalCode
  assignmentMethod := call.input.method
  confidence := call.input.confidence
  ruleVersion := call.input.ruleVersion
  sourceCategory := call.input.sourceCategory

/-- `INSERT INTO ledger_transaction_category_assignments`. -/
def insertAssignment (call : AssignCall) (categoryId : String) : AssignTransact Unit :=
  Program.execute fun db =>
    if (db.assignments.find? call.newAssignmentId).isSome then
      .error (.violates "ledger_transaction_category_assignments_pkey")
    else if (db.transactions.find? call.transactionId).isNone then
      .error (.violates "ledger_transaction_category_assignments_transaction_id_fkey")
    else if (db.categories.find? categoryId).isNone then
      .error (.violates "ledger_transaction_category_assignments_category_id_fkey")
    else if !isCanonicalCode call.input.canonicalCode.text then
      .error (.violates "ledger_transaction_category_assignments_canonical_code_format")
    else if call.input.confidence < 0 ∨ 1 < call.input.confidence then
      .error (.violates "ledger_transaction_category_assignments_confidence_check")
    else if (db.active? call.tenantId call.transactionId).isSome then
      .error (.violates "uq_ledger_transaction_category_assignment_active")
    else .ok ([.assignment (call.newAssignment categoryId)], ())

/-- `UPDATE ledger_transactions SET category_id = $1`. -/
def updateTransaction (call : AssignCall) (categoryId : String) : AssignTransact Unit :=
  Program.execute fun db =>
    match db.transaction? call.tenantId call.transactionId with
    | none => .ok ([], ())
    | some row =>
        if (db.categories.find? categoryId).isNone then
          .error (.violates "ledger_transactions_category_id_fkey")
        else .ok ([.transaction { row with categoryId := some categoryId }], ())

def replaceAssignment (call : AssignCall) (categoryId : String)
    (active : Option CategoryAssignmentRow) :
    AssignTransact TransactionCategoryAssignmentResult := do
  match active with
  | none => pure ()
  | some active => supersede call active
  insertAssignment call categoryId
  updateTransaction call categoryId
  return ⟨true, some call.newAssignmentId, categoryId, call.input.canonicalCode,
    active.map CategoryAssignmentRow.id⟩

def assignTransactionCategory (call : AssignCall) :
    AssignTransact TransactionCategoryAssignmentResult := do
  Program.ofExcept (assertConfidence call.input.confidence)
  let categoryId ← categoryOf call
  lockTransaction call
  let active ← selectActive call
  match active with
  | none => replaceAssignment call categoryId none
  | some row =>
      if row.canonicalCode = call.input.canonicalCode ∧ row.categoryId = categoryId then
        return ⟨false, some row.id, categoryId, call.input.canonicalCode, none⟩
      else if call.input.method.priority < row.assignmentMethod.priority then
        return ⟨false, some row.id, row.categoryId, row.canonicalCode, none⟩
      else replaceAssignment call categoryId (some row)

/-! ## Calls -/

/-- The effects outside the database are left out. -/
abbrev AssignScript := Script CategoryDb CategoryWrite Unit Empty AssignError

def assignScript (call : AssignCall) : AssignScript TransactionCategoryAssignmentResult :=
  Script.transact (assignTransactionCategory call)

/-- Other components add transactions. -/
def otherTransactions (db : CategoryDb) : List CategoryWrite → Bool
  | [.transaction row] => (db.transactions.find? row.id).isNone
  | _ => false

def assignMachine : Machine
    (Calls CategoryDb CategoryWrite Unit Empty AssignError TransactionCategoryAssignmentResult)
    (CallLabel CategoryWrite Unit AssignError AssignCall) :=
  callMachine categoryStore assignScript otherTransactions

end BrainCore.Ledger
