import BrainCore.Foundation.Closure
import BrainCore.Ledger.PaymentIntents

/-!
# Duplicate payments

`detectDuplicates` of `services/policy/src/duplicate-detector.ts`: each rule
reads the payment intents of the tenant, or the obligations, matches and payment
instructions beside them; any collision fails the gate's check 11.5.
-/

namespace BrainCore.Policy

open BrainCore.Foundation BrainCore.Gate BrainCore.Ledger BrainCore.Shared

structure ObligationRow where
  id : String
  status : String
deriving DecidableEq

structure ReconciliationMatch where
  matchType : String
  status : String
  leftEntityType : String
  leftEntityId : String
  rightEntityType : String
  rightEntityId : String
deriving DecidableEq

structure PaymentInstruction where
  counterpartyId : String
  changedAt : Instant
deriving DecidableEq

/-- The tables the detector reads beside the payment intents. -/
structure DuplicateFacts where
  obligations : Table ObligationRow.id := Table.empty
  matchRows : List ReconciliationMatch := []
  paymentInstructions : List PaymentInstruction := []

/-- The confirmed `obligation_duplicate` matches. -/
def DuplicateFacts.links (facts : DuplicateFacts) : List (String × String) :=
  (facts.matchRows.filter fun m => m.matchType = "obligation_duplicate" ∧ m.status = "matched" ∧
    m.leftEntityType = "obligation" ∧ m.rightEntityType = "obligation").map
      fun m => (m.leftEntityId, m.rightEntityId)

def DuplicateFacts.isPaid (facts : DuplicateFacts) (obligationId : String) : Bool :=
  (facts.obligations.find? obligationId).any fun row => row.status = "paid"

/-! ## The queries -/

/-- An executed intent other than `id` that a condition selects. -/
def executedOther (intents : PaymentIntents) (id : String) (p : PaymentIntentRow → Bool) :
    Option PaymentIntentRow :=
  intents.rows.find? fun row => p row && row.status = .executed && row.id ≠ id

/-- `amount = $2`, compared as numbers. -/
def amountIs (amount : Numeric8) (text : String) : Bool :=
  compareDecimal amount.text.text text = 0

/-- The same counterparty, amount and currency, executed less than `ms` ago. -/
def executedWithin (intents : PaymentIntents) (now : Instant) (ms : Nat) (pi : DuplicateIntent) :
    Option PaymentIntentRow :=
  executedOther intents pi.id fun row =>
    row.destinationCounterpartyId = pi.counterpartyId && amountIs row.amount pi.amount &&
      row.currency = pi.currency && now < row.updatedAt + ms

/-- A linked obligation that is paid, or has an executed intent, with that intent. -/
def linkedPaid (intents : PaymentIntents) (facts : DuplicateFacts) (id obligationId : String) :
    Option (String × Option String) :=
  ((linkedTo facts.links obligationId).filter fun linked => linked ≠ obligationId).findSome?
    fun linked =>
      match executedOther intents id fun row => row.obligationId = some linked with
      | some row => some (linked, some row.id)
      | none => if facts.isPaid linked then some (linked, none) else none

/-! ## The rules -/

def invoiceAlreadyPaid (intents : PaymentIntents) (pi : DuplicateIntent) :
    List DuplicateCollision :=
  match pi.invoiceId with
  | none => []
  | some invoiceId =>
      (executedOther intents pi.id fun row => row.invoiceId = some invoiceId).toList.map fun row =>
        ⟨"invoice_already_paid", "invoice " ++ invoiceId ++ " already paid", some row.id⟩

def obligationAlreadySettled (intents : PaymentIntents) (facts : DuplicateFacts)
    (pi : DuplicateIntent) : List DuplicateCollision :=
  match pi.obligationId with
  | none => []
  | some obligationId =>
      (if facts.isPaid obligationId then
        [⟨"obligation_already_settled", "obligation " ++ obligationId ++ " is already paid", none⟩]
      else []) ++
      (executedOther intents pi.id fun row => row.obligationId = some obligationId).toList.map fun row =>
        ⟨"obligation_already_settled",
          "obligation " ++ obligationId ++ " already has an executed payment", some row.id⟩

def reconciliationObligationDuplicatePaid (intents : PaymentIntents) (facts : DuplicateFacts)
    (pi : DuplicateIntent) : List DuplicateCollision :=
  match pi.obligationId with
  | none => []
  | some obligationId =>
      (linkedPaid intents facts pi.id obligationId).toList.map fun linked =>
        ⟨"reconciliation_obligation_duplicate_paid",
          "linked duplicate obligation " ++ linked.1 ++ " is already paid", linked.2⟩

def vendorAmountInvoiceMatch (intents : PaymentIntents) (now : Instant) (pi : DuplicateIntent) :
    List DuplicateCollision :=
  (executedWithin intents now (30 * 86400000) pi).toList.map fun row =>
    ⟨"vendor_amount_invoice_match", "same counterparty+amount executed within 30 days", some row.id⟩

def paymentIntentRecentlyExecuted (intents : PaymentIntents) (now : Instant)
    (pi : DuplicateIntent) : List DuplicateCollision :=
  (executedWithin intents now 600000 pi).toList.map fun row =>
    ⟨"payment_intent_recently_executed",
      "same counterparty+amount+currency executed within 10 minutes", some row.id⟩

def rawInvoiceUsedElsewhere (intents : PaymentIntents) (pi : DuplicateIntent) :
    List DuplicateCollision :=
  (intents.rows.find? fun row => row.evidenceIds.any (fun id => pi.evidenceArtifactIds.contains id) &&
      row.status ≠ .cancelled && row.id ≠ pi.id).toList.map fun row =>
    ⟨"raw_invoice_used_elsewhere",
      "evidence artifact already referenced by another payment intent", some row.id⟩

def destinationRecentlyChanged (facts : DuplicateFacts) (now : Instant) (pi : DuplicateIntent) :
    List DuplicateCollision :=
  if facts.paymentInstructions.any fun change => change.counterpartyId = pi.counterpartyId &&
      now < change.changedAt + 86400000 then
    [⟨"destination_recently_changed",
      "counterparty " ++ pi.counterpartyId ++ " payment instructions changed within 24h", none⟩]
  else []

def detectDuplicates (intents : PaymentIntents) (facts : DuplicateFacts) (now : Instant)
    (pi : DuplicateIntent) : DuplicateCheckResult :=
  let collisions := invoiceAlreadyPaid intents pi ++ obligationAlreadySettled intents facts pi ++
    reconciliationObligationDuplicatePaid intents facts pi ++ vendorAmountInvoiceMatch intents now pi ++
    paymentIntentRecentlyExecuted intents now pi ++ rawInvoiceUsedElsewhere intents pi ++
    destinationRecentlyChanged facts now pi
  { passed := collisions.isEmpty, collisions }

/-! ## What a passed check says -/

variable {intents : PaymentIntents} {facts : DuplicateFacts} {now : Instant} {pi : DuplicateIntent}

/-- No other intent that a condition selects was executed. -/
def OnlyOwn (intents : PaymentIntents) (id : String) (p : PaymentIntentRow → Prop) : Prop :=
  ∀ row ∈ intents.rows, p row → row.status = .executed → row.id = id

theorem executedOther_eq_none_iff {id : String} {p : PaymentIntentRow → Bool} :
    executedOther intents id p = none ↔ OnlyOwn intents id (p · = true) := by
  unfold executedOther OnlyOwn
  rw [List.find?_eq_none]
  refine forall₂_congr fun row _ => ?_
  simp only [Bool.and_eq_true, decide_eq_true_eq, ne_eq]
  tauto

/-- What the detector lets pass. -/
structure NoDuplicate (intents : PaymentIntents) (facts : DuplicateFacts) (now : Instant)
    (pi : DuplicateIntent) : Prop where
  invoice : ∀ invoiceId, pi.invoiceId = some invoiceId →
    OnlyOwn intents pi.id (·.invoiceId = some invoiceId)
  /-- The obligation, and every one that confirmed matches link to it. -/
  obligation : ∀ obligationId linked, pi.obligationId = some obligationId →
    Connected facts.links obligationId linked →
      facts.isPaid linked = false ∧ OnlyOwn intents pi.id (·.obligationId = some linked)
  recent : OnlyOwn intents pi.id fun row => row.destinationCounterpartyId = pi.counterpartyId ∧
    amountIs row.amount pi.amount = true ∧ row.currency = pi.currency ∧
      now < row.updatedAt + 30 * 86400000
  evidence : ∀ row ∈ intents.rows, row.status ≠ .cancelled →
    (∃ id ∈ row.evidenceIds, id ∈ pi.evidenceArtifactIds) → row.id = pi.id
  destination : ∀ change ∈ facts.paymentInstructions, change.counterpartyId = pi.counterpartyId →
    change.changedAt + 86400000 ≤ now

theorem invoiceAlreadyPaid_eq_nil : invoiceAlreadyPaid intents pi = [] ↔
    ∀ invoiceId, pi.invoiceId = some invoiceId →
      OnlyOwn intents pi.id (·.invoiceId = some invoiceId) := by
  unfold invoiceAlreadyPaid
  cases pi.invoiceId with
  | none => simp
  | some invoiceId =>
      rw [List.map_eq_nil_iff, Option.toList_eq_nil_iff, executedOther_eq_none_iff]
      simp

theorem linkedPaid_eq_none {id obligationId : String} :
    linkedPaid intents facts id obligationId = none ↔
      ∀ linked, Connected facts.links obligationId linked → linked ≠ obligationId →
        facts.isPaid linked = false ∧ OnlyOwn intents id (·.obligationId = some linked) := by
  unfold linkedPaid
  rw [List.findSome?_eq_none_iff]
  refine forall_congr' fun linked => ?_
  have hiff := @executedOther_eq_none_iff intents id fun row => row.obligationId = some linked
  simp only [decide_eq_true_eq] at hiff
  rw [List.mem_filter, mem_linkedTo_iff, decide_eq_true_eq, and_imp, ← hiff]
  cases executedOther intents id fun row => row.obligationId = some linked with
  | some row => simp
  | none => simp

theorem obligations_eq_nil : obligationAlreadySettled intents facts pi = [] ∧
      reconciliationObligationDuplicatePaid intents facts pi = [] ↔
    ∀ obligationId linked, pi.obligationId = some obligationId →
      Connected facts.links obligationId linked →
        facts.isPaid linked = false ∧ OnlyOwn intents pi.id (·.obligationId = some linked) := by
  unfold obligationAlreadySettled reconciliationObligationDuplicatePaid
  cases pi.obligationId with
  | none => simp
  | some obligationId =>
      rw [List.append_eq_nil_iff, List.map_eq_nil_iff, List.map_eq_nil_iff,
        Option.toList_eq_nil_iff, Option.toList_eq_nil_iff, executedOther_eq_none_iff,
        linkedPaid_eq_none]
      simp only [ite_eq_right_iff, List.cons_ne_self, imp_false, Bool.not_eq_true,
        decide_eq_true_eq, Option.some.injEq]
      constructor
      · rintro ⟨hown, hothers⟩ _ linked rfl hlinked
        by_cases hself : linked = obligationId
        · exact hself ▸ hown
        · exact hothers linked hlinked hself
      · intro h
        exact ⟨h _ _ rfl .refl, fun linked hlinked _ => h _ linked rfl hlinked⟩

theorem executedWithin_eq_none (ms : Nat) : executedWithin intents now ms pi = none ↔
    OnlyOwn intents pi.id fun row => row.destinationCounterpartyId = pi.counterpartyId ∧
      amountIs row.amount pi.amount = true ∧ row.currency = pi.currency ∧
        now < row.updatedAt + ms := by
  unfold executedWithin
  rw [executedOther_eq_none_iff]
  simp only [Bool.and_eq_true, decide_eq_true_eq, and_assoc]

theorem rawInvoiceUsedElsewhere_eq_nil : rawInvoiceUsedElsewhere intents pi = [] ↔
    ∀ row ∈ intents.rows, row.status ≠ .cancelled →
      (∃ id ∈ row.evidenceIds, id ∈ pi.evidenceArtifactIds) → row.id = pi.id := by
  unfold rawInvoiceUsedElsewhere
  rw [List.map_eq_nil_iff, Option.toList_eq_nil_iff, List.find?_eq_none]
  refine forall₂_congr fun row _ => ?_
  simp only [Bool.and_eq_true, List.any_eq_true, List.contains_iff_mem, decide_eq_true_eq, not_and,
    ne_eq, not_not, and_imp]
  exact ⟨fun h hkept hshared => h hshared hkept, fun h hshared hkept => h hkept hshared⟩

theorem destinationRecentlyChanged_eq_nil : destinationRecentlyChanged facts now pi = [] ↔
    ∀ change ∈ facts.paymentInstructions, change.counterpartyId = pi.counterpartyId →
      change.changedAt + 86400000 ≤ now := by
  simp [destinationRecentlyChanged]

/-- The check passes exactly when nothing was paid, referenced or changed that the rules look for;
the window of ten minutes adds nothing to that of thirty days. -/
theorem detectDuplicates_passed_iff :
    (detectDuplicates intents facts now pi).passed = true ↔ NoDuplicate intents facts now pi := by
  simp only [detectDuplicates, List.isEmpty_iff, List.append_eq_nil_iff, vendorAmountInvoiceMatch,
    paymentIntentRecentlyExecuted, List.map_eq_nil_iff, Option.toList_eq_nil_iff,
    executedWithin_eq_none]
  constructor
  · rintro ⟨⟨⟨⟨⟨⟨hinvoice, hown⟩, hlinked⟩, hmonth⟩, -⟩, hraw⟩, hdestination⟩
    exact ⟨invoiceAlreadyPaid_eq_nil.mp hinvoice, obligations_eq_nil.mp ⟨hown, hlinked⟩, hmonth,
      rawInvoiceUsedElsewhere_eq_nil.mp hraw, destinationRecentlyChanged_eq_nil.mp hdestination⟩
  · intro h
    obtain ⟨hown, hlinked⟩ := obligations_eq_nil.mpr h.obligation
    refine ⟨⟨⟨⟨⟨⟨invoiceAlreadyPaid_eq_nil.mpr h.invoice, hown⟩, hlinked⟩, h.recent⟩, ?_⟩,
      rawInvoiceUsedElsewhere_eq_nil.mpr h.evidence⟩,
      destinationRecentlyChanged_eq_nil.mpr h.destination⟩
    rintro row hrow ⟨hcounterparty, hamount, hcurrency, hrecent⟩
    exact h.recent row hrow ⟨hcounterparty, hamount, hcurrency,
      lt_of_lt_of_le hrecent (Nat.add_le_add_left (by decide) _)⟩

end BrainCore.Policy
