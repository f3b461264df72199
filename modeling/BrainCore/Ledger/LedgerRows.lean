import BrainCore.Foundation.Json
import BrainCore.Foundation.RelyGuarantee
import BrainCore.Foundation.Table
import BrainCore.Gate.Types
import BrainCore.Ledger.PaymentIntents

/-!
# The rows of the ledger

The tables of `services/ledger/migrations` that projections, direct writes and
reconciliation work on, for one tenant.  Every row has a provenance and a
confidence; what else it has depends on its table.
-/

namespace BrainCore.Ledger

open BrainCore.Foundation BrainCore.Gate BrainCore.Policy

inductive LedgerTable where
  | accounts
  | balances
  | counterparties
  | documents
  | invoices
  | obligations
  | transactions
deriving DecidableEq

inductive Provenance where
  | extracted
  | inferred
  | ambiguous
  | humanConfirmed
  | agentContributed
  | customerAsserted
deriving DecidableEq

/-- `CAPPED_PROVENANCES`. -/
def Provenance.Capped (provenance : Provenance) : Prop :=
  provenance = .agentContributed ∨ provenance = .customerAsserted

/-- `INDEPENDENT_PROVENANCE`. -/
def Provenance.Independent (provenance : Provenance) : Prop :=
  provenance = .extracted ∨ provenance = .humanConfirmed

instance instDecidableCapped (provenance : Provenance) : Decidable provenance.Capped :=
  inferInstanceAs (Decidable (_ ∨ _))

instance instDecidableIndependent (provenance : Provenance) : Decidable provenance.Independent :=
  inferInstanceAs (Decidable (_ ∨ _))

theorem Provenance.Independent.not_capped {provenance : Provenance} (h : provenance.Independent) :
    ¬provenance.Capped := by
  rcases h with rfl | rfl <;> decide

/-! ## The columns of a table -/

inductive AccountType where
  | bankChecking
  | bankSavings
  | card
  | loan
  | lineOfCredit
  | onchain
  | paymentProcessor
deriving DecidableEq

structure AccountColumns where
  institution : Option String := none
  externalAccountId : Option String := none
  canonicalAccountId : Option String := none
  accountType : AccountType
  name : String
  currency : String
  currentBalance : Option Numeric8 := none
  availableBalance : Option Numeric8 := none
  status : String

structure CounterpartyColumns where
  name : String
  normalizedName : Option String
  type : String
  canonicalCounterpartyId : Option String := none
  metadata : Json := .obj []

inductive TransactionDirection where
  | inflow
  | outflow
  | transfer
  | adjustment
deriving DecidableEq

inductive TransactionStatus where
  | pending
  | posted
  | cleared
  | failed
  | reversed
  | disputed
deriving DecidableEq

inductive ReconciliationStatus where
  | unreconciled
  | matched
  | partial_
  | disputed
deriving DecidableEq

structure TransactionColumns where
  accountId : String
  externalTransactionId : Option String
  canonicalTransactionId : Option String := none
  amount : Numeric8
  currency : String
  direction : TransactionDirection
  transactionDate : Instant
  postedDate : Option Instant := none
  counterpartyId : Option String := none
  status : TransactionStatus
  descriptionRaw : Option String := none
  descriptionNormalized : Option String := none
  reconciliationStatus : Option ReconciliationStatus := none
  chainTxHash : Option String := none

inductive ObligationStatus where
  | upcoming
  | due
  | paid
  | overdue
  | cancelled
  | disputed
deriving DecidableEq

structure ObligationColumns where
  type : String
  counterpartyId : String
  amountDue : Numeric8
  minimumDue : Option Numeric8 := none
  currency : String
  dueDate : Instant
  recurrence : Option String := none
  status : ObligationStatus
  direction : Option ObligationDirection := none
  metadata : Json := .obj []
  externalKey : Option String := none
  canonicalObligationId : Option String := none

inductive InvoiceStatus where
  | draft
  | sent
  | partial_
  | paid
  | overdue
  | cancelled
  | disputed
deriving DecidableEq

structure InvoiceColumns where
  invoiceNumber : String
  counterpartyId : String
  amountDue : Numeric8
  amountPaid : Numeric8
  currency : String
  issueDate : Instant
  dueDate : Option Instant := none
  status : InvoiceStatus
  metadata : Json := .obj []
  canonicalObligationId : Option String := none

inductive LedgerColumns where
  | account (columns : AccountColumns)
  | balance
  | counterparty (columns : CounterpartyColumns)
  | document
  | invoice (columns : InvoiceColumns)
  | obligation (columns : ObligationColumns)
  | transaction (columns : TransactionColumns)

def LedgerColumns.table : LedgerColumns → LedgerTable
  | .account _ => .accounts
  | .balance => .balances
  | .counterparty _ => .counterparties
  | .document => .documents
  | .invoice _ => .invoices
  | .obligation _ => .obligations
  | .transaction _ => .transactions

/-! ## Rows -/

structure LedgerRow where
  id : String
  columns : LedgerColumns
  sourceIds : List String := []
  evidenceIds : List String := []
  provenance : Provenance
  confidence : Rat
  updatedAt : Instant := 0

structure LedgerKey where
  table : LedgerTable
  id : String
deriving DecidableEq

namespace LedgerRow

/-- The primary key of the row in its table. -/
def key (row : LedgerRow) : LedgerKey := ⟨row.columns.table, row.id⟩

def account? (row : LedgerRow) : Option AccountColumns :=
  match row.columns with
  | .account columns => some columns
  | _ => none

def counterparty? (row : LedgerRow) : Option CounterpartyColumns :=
  match row.columns with
  | .counterparty columns => some columns
  | _ => none

def invoice? (row : LedgerRow) : Option InvoiceColumns :=
  match row.columns with
  | .invoice columns => some columns
  | _ => none

def obligation? (row : LedgerRow) : Option ObligationColumns :=
  match row.columns with
  | .obligation columns => some columns
  | _ => none

def transaction? (row : LedgerRow) : Option TransactionColumns :=
  match row.columns with
  | .transaction columns => some columns
  | _ => none

end LedgerRow

/-! ## Unique indexes -/

/-- The value of a row in one of the unique indexes of its table. -/
inductive UniqueKey where
  | primary (key : LedgerKey)
  | canonical (table : LedgerTable) (id : String)
  /-- `(owner_id, external_account_id)`. -/
  | externalAccount (id : String)
  /-- `(owner_id, normalized_name, type)` of a row without a canonical id. -/
  | normalizedName (name type : String)
  /-- `(account_id, external_transaction_id)`. -/
  | externalTransaction (accountId id : String)
  /-- `(owner_id, external_key)`. -/
  | externalKey (key : String)
  /-- `(owner_id, counterparty_id, type, amount_due, currency, due_date)` of a row without an
  external key. -/
  | content (counterpartyId type : String) (amountDue : Numeric8) (currency : String)
      (dueDate : Instant)
  /-- `(owner_id, counterparty_id, invoice_number)`. -/
  | invoiceNumber (counterpartyId number : String)
deriving DecidableEq

/-- `canonical_…_id`. -/
def LedgerColumns.canonicalId : LedgerColumns → Option String
  | .account columns => columns.canonicalAccountId
  | .counterparty columns => columns.canonicalCounterpartyId
  | .invoice columns => columns.canonicalObligationId
  | .obligation columns => columns.canonicalObligationId
  | .transaction columns => columns.canonicalTransactionId
  | .balance | .document => none

/-- The keys besides the primary key and the canonical id. -/
def LedgerColumns.naturalKeys : LedgerColumns → List UniqueKey
  | .account columns => (columns.externalAccountId.map .externalAccount).toList
  | .counterparty columns =>
      if columns.canonicalCounterpartyId = none then
        (columns.normalizedName.map (.normalizedName · columns.type)).toList
      else []
  | .invoice columns => [.invoiceNumber columns.counterpartyId columns.invoiceNumber]
  | .obligation columns =>
      match columns.externalKey with
      | some key => [.externalKey key]
      | none => [.content columns.counterpartyId columns.type columns.amountDue columns.currency
          columns.dueDate]
  | .transaction columns =>
      (columns.externalTransactionId.map (.externalTransaction columns.accountId ·)).toList
  | .balance | .document => []

def LedgerRow.uniqueKeys (row : LedgerRow) : List UniqueKey :=
  .primary row.key :: (row.columns.canonicalId.map (.canonical row.columns.table ·)).toList ++
    row.columns.naturalKeys

/-! ## Matches -/

inductive MatchType where
  | transactionReceipt
  | invoicePayment
  | statementBalance
  | walletTransfer
  | payrollBankDebit
  | subscriptionCharge
  | cardCharge
  | onchainSettlement
  | obligationDuplicate
  | counterpartyDuplicate
  | accountDuplicate
deriving DecidableEq

inductive EntityType where
  | transaction
  | invoice
  | obligation
  | document
  | balance
  | transfer
  | counterparty
  | account
deriving DecidableEq

inductive MatchStatus where
  | unmatched
  | matched
  | partiallyMatched
  | duplicatePossible
  | disputed
  | cleared
  | failed
  | reversed
deriving DecidableEq

/-- One side of a match. -/
structure MatchSide where
  type : EntityType
  id : String
deriving DecidableEq

structure ReconciliationMatchRow where
  id : String
  matchType : MatchType
  left : MatchSide
  right : MatchSide
  confidenceScore : Rat
  status : MatchStatus
  evidenceIds : List String := []
  explanation : Option String
  updatedAt : Instant := 0

/-- `UNIQUE (owner_id, match_type, left_entity_type, left_entity_id, right_entity_type,
right_entity_id)`. -/
def ReconciliationMatchRow.pair (row : ReconciliationMatchRow) : MatchType × MatchSide × MatchSide :=
  (row.matchType, row.left, row.right)

/-! ## The store -/

structure LedgerDb where
  rows : Table LedgerRow.key := Table.empty
  reconciliationMatches : Table ReconciliationMatchRow.id := Table.empty

inductive LedgerWrite where
  | row (row : LedgerRow)
  | reconciliationMatch (row : ReconciliationMatchRow)

namespace LedgerWrite

def apply (db : LedgerDb) : LedgerWrite → LedgerDb
  | .row written => { db with rows := db.rows.put written }
  | .reconciliationMatch written =>
      { db with reconciliationMatches := db.reconciliationMatches.put written }

/-- Two rows that a unique index does not take both. -/
def clash : LedgerWrite → LedgerWrite → Bool
  | .row first, .row second => first.uniqueKeys.any fun key => key ∈ second.uniqueKeys
  | .reconciliationMatch first, .reconciliationMatch second =>
      first.id = second.id || first.pair = second.pair
  | .row _, .reconciliationMatch _ | .reconciliationMatch _, .row _ => false

end LedgerWrite

def ledgerStore : Store LedgerDb LedgerWrite := ⟨LedgerWrite.apply, LedgerWrite.clash⟩

/-- What a statement of the ledger fails with, by its message. -/
structure LedgerError where
  message : String
deriving DecidableEq

abbrev LedgerTransact (α : Type) := Program LedgerDb LedgerWrite LedgerError α

end BrainCore.Ledger
