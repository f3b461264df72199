import BrainCore.Foundation.Result
import BrainCore.Gate.Types

/-!
# Evidence validation

`shared/src/gate/evidence-validator.ts`: whether the resolved evidence supports
the payment, and whether evidence that is low-trust throughout may carry an
automatic execution.  Decimal arithmetic on evidence that is not a number
throws.
-/

namespace BrainCore.Gate

open BrainCore.Foundation BrainCore.Policy BrainCore.Shared

structure EvidencePaymentIntent where
  counterpartyId : String
  amount : String
  currency : String
  invoiceId : Option String
  obligationId : Option String

structure EvidenceValidationInput where
  actionType : ActionType
  paymentIntent : EvidencePaymentIntent
  evidence : List ResolvedEvidence
  maxRiskLevel : Option RiskLevel
  now : Instant
  freshnessWindowDays : Nat := 90

structure EvidenceFailure where
  rule : String
  detail : String
deriving DecidableEq

/-- The member of an extracted payload, when it is a string. -/
def extractedText (evidence : ResolvedEvidence) (name : String) : Option String :=
  (evidence.extracted.field? name).bind Json.str?

/-- `${value}` of a text that may be missing. -/
def shown (text : Option String) : String := text.getD "undefined"

def dayMs : Nat := 24 * 60 * 60 * 1000

/-- `Math.round` of an age in days. -/
def roundedDays (ageMs : Int) : Int := (2 * ageMs + dayMs) / (2 * dayMs)

def pushFreshness (evidence : ResolvedEvidence) (i : EvidenceValidationInput) :
    List EvidenceFailure :=
  let ageMs : Int := (i.now : Int) - evidence.capturedAt
  if (i.freshnessWindowDays * dayMs : Nat) < ageMs then
    [⟨"freshness", "evidence captured " ++ toString (roundedDays ageMs) ++ "d ago, window is " ++
      toString i.freshnessWindowDays ++ "d"⟩]
  else []

def pushTrust (evidence : ResolvedEvidence) (i : EvidenceValidationInput) :
    List EvidenceFailure :=
  let lowRisk := i.maxRiskLevel = some .low ∨ i.maxRiskLevel = some .medium
  if evidence.trustLevel ≠ .high ∧ ¬lowRisk then
    [⟨"source_trust", "source trust '" ++ evidence.trustLevel.text ++
      "' insufficient for max_risk_level '" ++ (i.maxRiskLevel.map riskText).getD "high" ++ "'"⟩]
  else []

def failureUnless (holds : Bool) (rule detail : String) : List EvidenceFailure :=
  if holds then [] else [⟨rule, detail⟩]

/-- Amount due minus amount paid equals the intent amount. -/
def invoiceAmountFailures (invoice : ResolvedEvidence) (i : EvidenceValidationInput) :
    Except String (List EvidenceFailure) :=
  match extractedText invoice "amount_due" with
  | none => .ok [⟨"amount_match", "invoice has no amount_due"⟩]
  | some amountDue => do
      let paid := (extractedText invoice "amount_paid").getD "0"
      let remaining ← EvidenceDecimal.subtractDecimal amountDue paid
      let cmp ← EvidenceDecimal.compareDecimal remaining i.paymentIntent.amount
      pure (failureUnless (cmp = 0) "amount_match"
        ("invoice remaining " ++ remaining ++ " != intent amount " ++ i.paymentIntent.amount))

def validatePayInvoice (i : EvidenceValidationInput) : Except String (List EvidenceFailure) :=
  match i.evidence.find? fun e => e.kind = "invoice" with
  | none => .ok [⟨"invoice_present", "no evidence of kind 'invoice' attached"⟩]
  | some invoice => do
      let id := extractedText invoice "id"
      let counterparty := extractedText invoice "counterparty_id"
      let currency := extractedText invoice "currency"
      let idFailures := failureUnless (i.paymentIntent.invoiceId = none ∨ id = none ∨
          id = i.paymentIntent.invoiceId) "invoice_id_match"
        ("evidence invoice id " ++ shown id ++ " != intent invoiceId " ++
          shown i.paymentIntent.invoiceId)
      let counterpartyFailures := failureUnless
        (counterparty = some i.paymentIntent.counterpartyId) "counterparty_match"
        ("invoice counterparty " ++ shown counterparty ++ " != intent " ++
          i.paymentIntent.counterpartyId)
      let currencyFailures := failureUnless (currency = some i.paymentIntent.currency)
        "currency_match"
        ("invoice currency " ++ shown currency ++ " != intent " ++ i.paymentIntent.currency)
      let amountFailures ← invoiceAmountFailures invoice i
      pure (idFailures ++ counterpartyFailures ++ currencyFailures ++ amountFailures ++
        pushFreshness invoice i ++ pushTrust invoice i)

def obligationAmountFailures (ref : ResolvedEvidence) (i : EvidenceValidationInput) :
    Except String (List EvidenceFailure) :=
  let failure := fun (due : String) => (⟨"amount_match", "obligation amount_due " ++ due ++
    " != intent amount " ++ i.paymentIntent.amount⟩ : EvidenceFailure)
  match extractedText ref "amount_due" with
  | none => .ok [failure "(missing)"]
  | some amountDue => do
      let cmp ← EvidenceDecimal.compareDecimal amountDue i.paymentIntent.amount
      pure (if cmp = 0 then [] else [failure amountDue])

def validatePayObligation (i : EvidenceValidationInput) : Except String (List EvidenceFailure) :=
  match i.evidence.find? fun e => e.kind = "obligation_reference" ∨ e.kind = "invoice" with
  | none => .ok [⟨"obligation_reference_present",
      "no obligation_reference or invoice evidence attached"⟩]
  | some ref => do
      let counterparty := extractedText ref "counterparty_id"
      let status := extractedText ref "status"
      let counterpartyFailures := failureUnless
        (counterparty = some i.paymentIntent.counterpartyId) "counterparty_match"
        ("obligation counterparty " ++ shown counterparty ++ " != intent " ++
          i.paymentIntent.counterpartyId)
      let amountFailures ← obligationAmountFailures ref i
      let statusFailures := failureUnless
        (status = some "upcoming" ∨ status = some "due" ∨ status = some "overdue")
        "obligation_status"
        ("obligation status is '" ++ status.getD "(missing)" ++ "', expected upcoming|due|overdue")
      pure (counterpartyFailures ++ amountFailures ++ statusFailures ++ pushTrust ref i)

/-- The rails that move funds to a counterparty. -/
def evidenceValidatedActionTypes : List ActionType :=
  [.achOutbound, .wire, .onchainTransfer, .cardPayment]

/-- The failures; none means the evidence passed. -/
def validateEvidence (i : EvidenceValidationInput) : Except String (List EvidenceFailure) :=
  if i.actionType ∉ evidenceValidatedActionTypes then .ok []
  else if i.paymentIntent.invoiceId.isSome then validatePayInvoice i
  else if i.paymentIntent.obligationId.isSome then validatePayObligation i
  else .ok []

def corroboratedProvenance : List String := ["extracted", "human_confirmed"]

structure LowTrustAutoExecutionInput where
  outcome : GateOutcome
  evidence : List ResolvedEvidence
  obligationProvenance : Option String

/-- Evidence that is low-trust throughout does not carry an automatic execution. -/
def validateLowTrustAutoExecution (i : LowTrustAutoExecutionInput) : List EvidenceFailure :=
  if i.outcome ≠ .allow ∨ i.evidence = [] then []
  else if ¬(i.evidence.all fun e => e.trustLevel = .low) then []
  else if i.obligationProvenance.any fun p => p ∈ corroboratedProvenance then []
  else [⟨"low_trust_auto_execution",
    "auto-execution refused: all supporting evidence is low-trust " ++
    "(customer_asserted / uncorroborated agent_contributed) and the linked " ++
    "obligation is not corroborated; require approval (confirm) or corroborate " ++
    "the obligation against an independent source"⟩]

/-! ## What evidence that passed says -/

@[simp] theorem failureUnless_eq_nil {holds : Bool} {rule detail : String} :
    failureUnless holds rule detail = [] ↔ holds = true := by
  cases holds <;> simp [failureUnless]

/-- An invoice that supports the payment of what is left of it. -/
structure InvoiceSupports (i : EvidenceValidationInput) (invoice : ResolvedEvidence) : Prop where
  attached : invoice ∈ i.evidence
  kind : invoice.kind = "invoice"
  counterparty : extractedText invoice "counterparty_id" = some i.paymentIntent.counterpartyId
  currency : extractedText invoice "currency" = some i.paymentIntent.currency
  remaining : ∃ due, extractedText invoice "amount_due" = some due ∧
    ∀ x y z : DecimalString, x.text = due →
      y.text = (extractedText invoice "amount_paid").getD "0" → z.text = i.paymentIntent.amount →
        x.units - y.units = z.units
  fresh : (i.now : Int) - invoice.capturedAt ≤ (i.freshnessWindowDays * dayMs : Nat)
  trusted : invoice.trustLevel = .high ∨ i.maxRiskLevel = some .low ∨ i.maxRiskLevel = some .medium

/-- An obligation, or an invoice, that supports the payment of all of it. -/
structure ObligationSupports (i : EvidenceValidationInput) (ref : ResolvedEvidence) : Prop where
  attached : ref ∈ i.evidence
  counterparty : extractedText ref "counterparty_id" = some i.paymentIntent.counterpartyId
  due : ∃ due, extractedText ref "amount_due" = some due ∧
    ∀ x z : DecimalString, x.text = due → z.text = i.paymentIntent.amount → x.units = z.units
  trusted : ref.trustLevel = .high ∨ i.maxRiskLevel = some .low ∨ i.maxRiskLevel = some .medium

/-- The evidence supports a payment that moves funds to a counterparty. -/
def Supports (i : EvidenceValidationInput) : Prop :=
  i.actionType ∈ evidenceValidatedActionTypes →
    (i.paymentIntent.invoiceId ≠ none → ∃ invoice, InvoiceSupports i invoice) ∧
      (i.paymentIntent.invoiceId = none → i.paymentIntent.obligationId ≠ none →
        ∃ ref, ObligationSupports i ref)

/-- An automatic execution has evidence above low trust, or a corroborated obligation. -/
def Corroborated (i : LowTrustAutoExecutionInput) : Prop :=
  i.outcome = .allow → i.evidence ≠ [] →
    (∃ e ∈ i.evidence, e.trustLevel ≠ .low) ∨
      ∃ provenance ∈ i.obligationProvenance, provenance ∈ corroboratedProvenance

theorem trusted_of_pushTrust {evidence : ResolvedEvidence} {i : EvidenceValidationInput}
    (h : pushTrust evidence i = []) :
    evidence.trustLevel = .high ∨ i.maxRiskLevel = some .low ∨ i.maxRiskLevel = some .medium := by
  by_contra hlow
  rw [not_or] at hlow
  simp [pushTrust, hlow] at h

theorem fresh_of_pushFreshness {evidence : ResolvedEvidence} {i : EvidenceValidationInput}
    (h : pushFreshness evidence i = []) :
    (i.now : Int) - evidence.capturedAt ≤ (i.freshnessWindowDays * dayMs : Nat) := by
  by_contra hstale
  rw [pushFreshness, if_pos (not_le.mp hstale)] at h
  exact List.cons_ne_nil _ _ h

/-- What is left of the invoice is the amount, when both are decimal numbers. -/
theorem remaining_of_invoiceAmountFailures {invoice : ResolvedEvidence}
    {i : EvidenceValidationInput} (h : invoiceAmountFailures invoice i = .ok []) :
    ∃ due, extractedText invoice "amount_due" = some due ∧
      ∀ x y z : DecimalString, x.text = due →
        y.text = (extractedText invoice "amount_paid").getD "0" →
          z.text = i.paymentIntent.amount → x.units - y.units = z.units := by
  unfold invoiceAmountFailures at h
  cases hdue : extractedText invoice "amount_due" with
  | none => simp [hdue] at h
  | some due =>
      refine ⟨due, rfl, ?_⟩
      rintro x y z rfl hy hz
      simp only [hdue, ← hy, ← hz, bind_ok, pure_ok] at h
      obtain ⟨remaining, hremaining, cmp, hcmp, hmatch⟩ := h
      rw [evidence_subtractDecimal, Except.ok.injEq] at hremaining
      rw [← hremaining, evidence_compareDecimal, units_renderUnits, Except.ok.injEq] at hcmp
      have hzero : cmp = 0 := by simpa using hmatch
      exact sign3_eq_zero.mp (hcmp.trans hzero)

theorem due_of_obligationAmountFailures {ref : ResolvedEvidence} {i : EvidenceValidationInput}
    (h : obligationAmountFailures ref i = .ok []) :
    ∃ due, extractedText ref "amount_due" = some due ∧
      ∀ x z : DecimalString, x.text = due → z.text = i.paymentIntent.amount → x.units = z.units := by
  unfold obligationAmountFailures at h
  cases hdue : extractedText ref "amount_due" with
  | none => simp [hdue] at h
  | some due =>
      refine ⟨due, rfl, ?_⟩
      rintro x z rfl hz
      simp only [hdue, ← hz, bind_ok, pure_ok] at h
      obtain ⟨cmp, hcmp, hmatch⟩ := h
      rw [evidence_compareDecimal, Except.ok.injEq] at hcmp
      have hzero : cmp = 0 := by
        by_contra hne
        simp [hne] at hmatch
      exact sign3_eq_zero.mp (hcmp.trans hzero)

theorem invoice_of_validatePayInvoice {i : EvidenceValidationInput}
    (h : validatePayInvoice i = .ok []) : ∃ invoice, InvoiceSupports i invoice := by
  unfold validatePayInvoice at h
  cases hfind : i.evidence.find? fun e => e.kind = "invoice" with
  | none => simp [hfind] at h
  | some invoice =>
      simp only [hfind, bind_ok, pure_ok, List.append_eq_nil_iff, failureUnless_eq_nil,
        decide_eq_true_eq] at h
      obtain ⟨amount, hamount, ⟨⟨⟨⟨-, hcounterparty⟩, hcurrency⟩, rfl⟩, hfresh⟩, htrust⟩ := h
      exact ⟨invoice,
        { attached := List.mem_of_find?_eq_some hfind
          kind := by simpa using List.find?_some hfind
          counterparty := hcounterparty
          currency := hcurrency
          remaining := remaining_of_invoiceAmountFailures hamount
          fresh := fresh_of_pushFreshness hfresh
          trusted := trusted_of_pushTrust htrust }⟩

theorem ref_of_validatePayObligation {i : EvidenceValidationInput}
    (h : validatePayObligation i = .ok []) : ∃ ref, ObligationSupports i ref := by
  unfold validatePayObligation at h
  cases hfind : i.evidence.find? fun e => e.kind = "obligation_reference" ∨ e.kind = "invoice" with
  | none =>
      simp only [hfind] at h
      simp at h
  | some ref =>
      simp only [hfind, bind_ok, pure_ok, List.append_eq_nil_iff, failureUnless_eq_nil,
        decide_eq_true_eq] at h
      obtain ⟨amount, hamount, ⟨⟨hcounterparty, rfl⟩, -⟩, htrust⟩ := h
      exact ⟨ref,
        { attached := List.mem_of_find?_eq_some hfind
          counterparty := hcounterparty
          due := due_of_obligationAmountFailures hamount
          trusted := trusted_of_pushTrust htrust }⟩

/-- Evidence without a failure supports the payment. -/
theorem supports_of_validateEvidence {i : EvidenceValidationInput}
    (h : validateEvidence i = .ok []) : Supports i := by
  intro hvalidated
  rw [validateEvidence, if_neg (not_not.mpr hvalidated)] at h
  constructor
  · intro hinvoice
    rw [if_pos (Option.isSome_iff_ne_none.mpr hinvoice)] at h
    exact invoice_of_validatePayInvoice h
  · intro hinvoice hobligation
    rw [hinvoice, if_neg (by simp), if_pos (Option.isSome_iff_ne_none.mpr hobligation)] at h
    exact ref_of_validatePayObligation h

theorem corroborated_of_validateLowTrust {i : LowTrustAutoExecutionInput}
    (h : validateLowTrustAutoExecution i = []) : Corroborated i := by
  intro houtcome hevidence
  by_contra hlow
  rw [not_or] at hlow
  obtain ⟨hlevels, hprovenance⟩ := hlow
  have hall : (i.evidence.all fun e => decide (e.trustLevel = .low)) = true := by
    rw [List.all_eq_true]
    intro e he
    by_contra hne
    exact hlevels ⟨e, he, by simpa using hne⟩
  have hnone : (i.obligationProvenance.any fun p => decide (p ∈ corroboratedProvenance)) = false := by
    cases hp : i.obligationProvenance with
    | none => rfl
    | some p =>
        have hp' : p ∉ corroboratedProvenance := fun hmem => hprovenance ⟨p, hp, hmem⟩
        simpa using hp'
  rw [validateLowTrustAutoExecution, if_neg (by simp [houtcome, hevidence]),
    if_neg (by simp [hall]), if_neg (by simp [hnone])] at h
  exact List.cons_ne_nil _ _ h

end BrainCore.Gate
