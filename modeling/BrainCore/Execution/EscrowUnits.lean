import BrainCore.Execution.EscrowRail
import BrainCore.Gate.HumanApproval

/-!
# Units of a release

The hand-off counts a release in units of `10 ^ -6` and drops what the column's
seventh and eighth digits say.  What the rail encodes, and what the contract
transfers, is the number it was handed.  So the transfer is the amount the gate
has compared with the escrow exactly when those two digits are zero.
-/

namespace BrainCore.Execution

open BrainCore.Contracts (BrainEscrow EscrowError TokenCall)
open BrainCore.Foundation BrainCore.Gate BrainCore.Ledger BrainCore.Shared

/-! ## The units of an amount -/

/-- Six of the eight fraction digits of a column. -/
theorem natOf_padEndSlice_six (n : Nat) :
    natOf (padEndSlice 6 (fracDigits8 n)) = n % 10 ^ 8 / 100 := by
  have hlength := length_fracDigits8 n
  have hslice : padEndSlice 6 (fracDigits8 n) = (fracDigits8 n).take 6 := by
    rw [padEndSlice, List.take_append_of_le_length (by omega)]
  have htail : ((fracDigits8 n).drop 6).length = 2 := by rw [List.length_drop, hlength]
  have hlt : natOf ((fracDigits8 n).drop 6) < 100 := by
    have := natOf_lt (s := (fracDigits8 n).drop 6) fun c hc =>
      isDigits_fracDigits8 n c (List.mem_of_mem_drop hc)
    rwa [htail] at this
  have hsplit : n % 10 ^ 8 = natOf ((fracDigits8 n).take 6) * 100 + natOf ((fracDigits8 n).drop 6) := by
    rw [← natOf_fracDigits8 n]
    conv_lhs => rw [← List.take_append_drop 6 (fracDigits8 n), natOf_append, htail]
    rfl
  rw [hslice, hsplit]
  omega

/-- The hand-off counts whole units. -/
theorem amountUnits_eq {amount : Numeric8} (positive : 0 < amount.scaled) :
    amountUnits amount = toString (amount.scaled.natAbs / 100) := by
  have hsign : ¬amount.scaled < 0 := by omega
  have htext : amount.text.text.toList =
      Nat.toDigits 10 (amount.scaled.natAbs / 10 ^ 8) ++ dotted (fracDigits8 amount.scaled.natAbs) := by
    change (numericText amount.scaled).toList = _
    rw [numericText, String.toList_ofList, if_neg hsign, List.nil_append]
  have hnonempty : fracDigits8 amount.scaled.natAbs ≠ [] := by
    intro h
    have := length_fracDigits8 amount.scaled.natAbs
    rw [h] at this
    cases this
  obtain ⟨hint, hrest⟩ := takeWhile_digits_append
    (isDigits_toDigits (amount.scaled.natAbs / 10 ^ 8))
    (dotted_stops (fracDigits8 amount.scaled.natAbs))
  have hfrac : (dotted (fracDigits8 amount.scaled.natAbs)).tail = fracDigits8 amount.scaled.natAbs := by
    rw [dotted, if_neg hnonempty, List.tail_cons]
  unfold amountUnits
  simp only [htext, hint, hrest, hfrac, natOf_toDigits, natOf_padEndSlice_six]
  congr 1
  omega

theorem natOf_toString (n : Nat) : natOf (toString n).toList = n := by
  have htext : (toString n).toList = Nat.toDigits 10 n := by simp [toString, Nat.repr]
  rw [htext, natOf_toDigits]

theorem toString_nat_inj {m n : Nat} (h : toString m = toString n) : m = n := by
  rw [← natOf_toString m, h, natOf_toString]

/-- The value of a column in units of `10 ^ -6`. -/
theorem value_text (amount : Numeric8) :
    amount.text.value * 10 ^ 6 = (amount.scaled : ℚ) / 100 := by
  rw [DecimalString.value, Numeric8.units_text]
  push_cast
  ring

/-! ## Exact releases -/

variable (deps : GateDependencies) (input : RunGateInput)

/-- A release of `units`: handed to the rail, the amount the gate has compared, and what the
contract transfers. -/
structure ReleaseExact (payload : List (String × Json)) (units : Nat) : Prop where
  handed : payload.lookup "amount_units" = some (.str (toString units))
  exact : ∀ amount : DecimalString, amount.text = input.intent.amount →
    (units : ℚ) = amount.value * 10 ^ 6
  covered : ∀ e resolve, input.intent.escrow = some e → deps.resolveEscrowState = some resolve →
    ∃ onchain, resolve e.escrowId = .ok (some onchain) ∧
      ∀ remaining : DecimalString, remaining.text = onchain.remaining →
        (units : ℚ) ≤ remaining.value * 10 ^ 6
  encoded : ∀ data, dispatchData payload = .ok data →
    ∃ id amount, decodeRelease data = some (id, amount) ∧ amount.val = units
  transferred : ∀ data, dispatchData payload = .ok data →
    ∀ contract context next call, callRelease contract context data = some (.ok (next, call)) →
      ∃ token payee amount, call = .transfer token payee amount ∧ amount.val = units

variable {deps input}

/-- What was handed over is what the contract is called with. -/
theorem decodeRelease_dispatchData {payload : List (String × Json)} {units : Nat} {data : List Char}
    (handed : payload.lookup "amount_units" = some (.str (toString units)))
    (h : dispatchData payload = .ok data) :
    ∃ id amount, decodeRelease data = some (id, amount) ∧ amount.val = units := by
  obtain ⟨parsed, hparsed, h⟩ := bind_ok.mp h
  obtain rfl := pure_ok.mp h
  obtain ⟨_, hbytes, hamount, hfits⟩ := parseEscrowAction_ok hparsed
  obtain ⟨id, hid⟩ := decodeRelease_encodeRelease hbytes hfits
  have htext : parsed.amountUnits = toString units :=
    Json.str.inj (Option.some.inj (hamount.symm.trans handed))
  have hvalue : natOf parsed.amountUnits.toList = units := by rw [htext, natOf_toString]
  exact ⟨id, _, hid, hvalue⟩

theorem transfer_of_callRelease {data : List Char} {id : Bytes32} {amount : Uint256}
    (hdecoded : decodeRelease data = some (id, amount)) {contract next : BrainEscrow}
    {context : CallContext} {call : TokenCall}
    (h : callRelease contract context data = some (.ok (next, call))) :
    ∃ token payee, call = .transfer token payee amount := by
  rw [callRelease, hdecoded, Option.map_some] at h
  exact release_transfers (Option.some.inj h)

/-- The payload of a release carries its units. -/
theorem lookup_amount_units {row : PaymentIntentRow} (haction : row.actionType = .escrowRelease)
    (onchain : Option OnchainDispatchParams) :
    (dispatchPayload row onchain).lookup "amount_units" = some (.str (amountUnits row.amount)) := by
  have hprotocol : protocolPayload row onchain =
      (row.escrowId.map fun id => ("escrow_id", Json.str id)).toList ++
        (row.jobTermsHash.map fun hash => ("job_terms_hash", Json.str hash)).toList ++
        [("amount_units", .str (amountUnits row.amount))] := by
    unfold protocolPayload
    rw [haction]
  rw [dispatchPayload, hprotocol]
  cases row.escrowId <;> cases row.jobTermsHash <;> rfl

/-- The units are one number, and an exact one leaves nothing of the column out. -/
theorem dvd_of_releaseExact {row : PaymentIntentRow} {onchain : Option OnchainDispatchParams}
    (hintent : input.intent = intentToGate row) (haction : row.actionType = .escrowRelease)
    {units : Nat} (exact : ReleaseExact deps input (dispatchPayload row onchain) units) :
    (100 : ℤ) ∣ row.amount.scaled := by
  have hgate : input.intent.amount = row.amount.text.text := by rw [hintent, intentToGate]
  have hhanded := lookup_amount_units haction onchain
  rw [amountUnits_eq row.positive] at hhanded
  have hunits : units = row.amount.scaled.natAbs / 100 :=
    toString_nat_inj (Json.str.inj (Option.some.inj (exact.handed.symm.trans hhanded)))
  have hvalue := exact.exact row.amount.text hgate.symm
  rw [value_text, eq_div_iff (by norm_num)] at hvalue
  refine ⟨units, ?_⟩
  have hscaled : ((units * 100 : ℤ) : ℚ) = row.amount.scaled := by exact_mod_cast hvalue
  rw [mul_comm]
  exact_mod_cast hscaled.symm

/-- A column whose last two digits are zero has as many units as the hand-off counts. -/
theorem units_eq_value {amount : Numeric8} (positive : 0 < amount.scaled)
    (whole : (100 : ℤ) ∣ amount.scaled) :
    ((amount.scaled.natAbs / 100 : ℕ) : ℚ) = amount.text.value * 10 ^ 6 := by
  obtain ⟨units, hscaled⟩ := whole
  have hunits : ((amount.scaled.natAbs / 100 : ℕ) : ℤ) = units := by omega
  have hcast : ((amount.scaled.natAbs / 100 : ℕ) : ℚ) = units := by
    rw [← hunits, Int.cast_natCast]
  rw [value_text, hcast, hscaled]
  push_cast
  ring

/-- What is transferred is what the gate has compared, exactly when the amount's seventh and
eighth digits are zero. -/
theorem release_exact_iff {row : PaymentIntentRow} {onchain : Option OnchainDispatchParams}
    {result : GateSuccess} (hintent : input.intent = intentToGate row)
    (haction : row.actionType = .escrowRelease) (hlive : input.dryRun = false)
    (hpassed : (runPreExecutionGate deps input).result = .ok (.success result)) :
    (∃ units, ReleaseExact deps input (dispatchPayload row onchain) units) ↔
      (100 : ℤ) ∣ row.amount.scaled := by
  constructor
  · rintro ⟨units, hexact⟩
    exact dvd_of_releaseExact hintent haction hexact
  · intro hwhole
    have hgate : input.intent.amount = row.amount.text.text := by rw [hintent, intentToGate]
    have hhanded := lookup_amount_units haction onchain
    rw [amountUnits_eq row.positive] at hhanded
    have hvalue := units_eq_value row.positive hwhole
    obtain ⟨decision, event, hholds, _⟩ := of_live_success hlive hpassed
    obtain ⟨_, _, counterparty, _, _, _, _, hcontext, _⟩ := hholds
    refine ⟨row.amount.scaled.natAbs / 100, hhanded, ?_, ?_, ?_, ?_⟩
    · intro amount hamount
      obtain rfl : amount = row.amount.text := DecimalString.ext (hamount.trans hgate)
      exact hvalue
    · intro e resolve he hresolve
      obtain ⟨state, hstate, _, _, hmost, _⟩ := hcontext.escrow e resolve he hresolve
      refine ⟨state, hstate, fun remaining hremaining => ?_⟩
      have hle := DecimalString.value_le_iff.mpr
        (hmost row.amount.text remaining hgate.symm hremaining)
      rw [hvalue]
      exact mul_le_mul_of_nonneg_right hle (by norm_num)
    · intro data hdata
      exact decodeRelease_dispatchData hhanded hdata
    · intro data hdata contract context next call hcall
      obtain ⟨id, amount, hdecoded, hamount⟩ := decodeRelease_dispatchData hhanded hdata
      obtain ⟨token, payee, rfl⟩ := transfer_of_callRelease hdecoded hcall
      exact ⟨token, payee, amount, rfl, hamount⟩

/-! ## A milestone -/

/-- A locked escrow of ten. -/
def milestoneRecord : EscrowRecord :=
  { payer := "0xcccccccccccccccccccccccccccccccccccccccc"
    payee := "0xaaaaaaaaaaaaaaaaaaaaaaaaaaaaaaaaaaaaaaaa"
    token := "0xbbbbbbbbbbbbbbbbbbbbbbbbbbbbbbbbbbbbbbbb"
    amount := 10000000, released := 0, refunded := 0, jobTermsHash := "0x11", stateRaw := 1 }

def milestonePayee : GateCounterparty :=
  { id := "cp_1", type := "vendor", riskLevel := none, verifiedStatus := none
    onchainAddress := some milestoneRecord.payee }

def milestoneDecision : GatePolicyDecision :=
  { id := "pd_1", outcome := .allow, matchedRuleId := some "releases", requiredApprovers := []
    ledgerSnapshotHash := "", trace := [] }

/-- A policy that allows releases, a person who has signed, and the escrow on chain. -/
def milestoneDependencies : GateDependencies :=
  { plainDependencies "USDC" with
    resolveCounterparty := fun _ => .ok (some milestonePayee)
    evaluatePolicy := fun _ _ => .ok milestoneDecision
    resolveApprovals := fun _ _ => .ok ["approver"]
    resolveEscrowState :=
      some (makeResolveEscrowState milestoneRecord.token fun _ => .ok milestoneRecord) }

def milestoneIntent (amount : Numeric8) (positive : 0 < amount.scaled) : PaymentIntentRow :=
  { id := "pi_1", ownerId := "tnt_1", createdByAgentId := some "agent_1"
    actionType := .escrowRelease, sourceAccountId := "acc_1", destinationCounterpartyId := "cp_1"
    amount, currency := "USDC", status := .approved, policyDecisionId := some "pd_1"
    escrowId := some "0x2222222222222222222222222222222222222222222222222222222222222222"
    jobTermsHash := some milestoneRecord.jobTermsHash, updatedAt := 0, positive }

def milestoneInput (row : PaymentIntentRow) : RunGateInput :=
  { ctx := ⟨"tnt_1", "agent_1"⟩
    principal := ⟨"agent_1", .agent, ["payment_intent:execute"]⟩
    intent := intentToGate row }

theorem milestone_escrow {amount : Numeric8} {positive : 0 < amount.scaled}
    (within : 0 ≤ cmpDecimal "10" amount.text.text) :
    Succeeds (escrowStateBound milestoneDependencies
      (milestoneInput (milestoneIntent amount positive)) milestonePayee) () := by
  have hremaining : formatUnits milestoneRecord.remaining SETTLEMENT_DECIMALS = "10" := by
    decide +kernel
  have hfailures (escrow : Escrow) (hterms : escrow.jobTermsHash = milestoneRecord.jobTermsHash) :
      escrowFailures (milestoneInput (milestoneIntent amount positive)).intent milestonePayee escrow
        (milestoneRecord.resolved milestoneRecord.token) = [] := by
    have hamount : (milestoneInput (milestoneIntent amount positive)).intent.amount =
        amount.text.text := rfl
    simp [escrowFailures, refusal, EscrowRecord.resolved, hremaining, hamount, hterms, sameAddress,
      milestonePayee, not_lt.mpr within]
    rfl
  have hresolved : milestoneDependencies.resolveEscrowState.map (fun resolve => resolve
      "0x2222222222222222222222222222222222222222222222222222222222222222") =
      some (.ok (some (milestoneRecord.resolved milestoneRecord.token))) := rfl
  refine .bind (.ask (Option.some.inj hresolved)) ?_
  change Succeeds (passUnless .escrowStateBound _) ()
  rw [hfailures _ rfl]
  exact .pass _ _

/-- A milestone within the escrow passes the gate. -/
theorem milestone_passes {amount : Numeric8} {positive : 0 < amount.scaled}
    (within : 0 ≤ cmpDecimal "10" amount.text.text) :
    ∃ result, (runPreExecutionGate milestoneDependencies
      (milestoneInput (milestoneIntent amount positive))).result = .ok (.success result) := by
  have hchecks : Succeeds (checks milestoneDependencies
      (milestoneInput (milestoneIntent amount positive))) ⟨milestoneDecision, ""⟩ := by
    refine @Succeeds.bind _ _ _ ⟨"agent_1", "active", true, none, none⟩ _ _ (fun _ => ⟨_, rfl⟩)
      (.bind (fun _ => ⟨_, rfl⟩) (.bind (fun _ => ⟨_, rfl⟩) (.bind (.pure none)
        (.bind (.ask (show _ = Except.ok milestoneDecision from rfl)) ?_))))
    refine .bind (fun _ => ⟨_, rfl⟩) (.bind (fun _ => ⟨_, rfl⟩) (.bind (fun _ => ⟨_, rfl⟩)
      (@Succeeds.bind _ _ _ ⟨"acc_1", "active", "USDC", none⟩ _ _ (fun _ => ⟨_, rfl⟩)
        (@Succeeds.bind _ _ _ milestonePayee _ _ (fun _ => ⟨_, rfl⟩) (.bind (fun _ => ⟨_, rfl⟩)
          (.bind (fun _ => ⟨_, rfl⟩) (.bind (fun _ => ⟨_, rfl⟩)
            (.bind (milestone_escrow within) ?_))))))))
    refine .bind (fun _ => ⟨_, rfl⟩) (.bind (fun _ => ⟨_, rfl⟩) (.bind (fun _ => ⟨_, rfl⟩)
      (.bind (fun _ => ⟨_, rfl⟩) (.bind (fun _ => ⟨_, rfl⟩) (.bind (fun _ => ⟨_, rfl⟩)
        (.bind (fun _ => ⟨_, rfl⟩) (.bind (fun _ => ⟨_, rfl⟩) ?_)))))))
    exact .bind (fun _ => ⟨_, rfl⟩) (.bind (fun _ => ⟨_, rfl⟩) (.bind (fun _ => ⟨_, rfl⟩)
      (.pure _)))
  obtain ⟨log, hlog⟩ := hchecks {}
  exact ⟨_, congrArg GateRun.result (run_of_checks hlog)⟩

/-- A milestone of one is released to the unit. -/
theorem milestone_exact : ∃ units, ReleaseExact milestoneDependencies
    (milestoneInput (milestoneIntent ⟨100000000, by decide⟩ (by decide)))
    (dispatchPayload (milestoneIntent ⟨100000000, by decide⟩ (by decide)) none) units := by
  obtain ⟨result, hpassed⟩ :=
    @milestone_passes ⟨100000000, by decide⟩ (by decide) (by decide +kernel)
  exact (release_exact_iff rfl rfl rfl hpassed).mpr (by decide)

/-- A milestone of 1.0000005 passes the gate and is not released as it is. -/
theorem milestone_truncated :
    (∃ result, (runPreExecutionGate milestoneDependencies
      (milestoneInput (milestoneIntent ⟨100000050, by decide⟩ (by decide)))).result =
        .ok (.success result)) ∧
    ¬∃ units, ReleaseExact milestoneDependencies
      (milestoneInput (milestoneIntent ⟨100000050, by decide⟩ (by decide)))
      (dispatchPayload (milestoneIntent ⟨100000050, by decide⟩ (by decide)) none) units := by
  refine ⟨milestone_passes (by decide +kernel), ?_⟩
  rintro ⟨units, hexact⟩
  exact absurd (dvd_of_releaseExact rfl rfl hexact) (by decide)

/-! ## What the escrow still holds -/

/-- The text of units that are not negative. -/
theorem units_formatUnits {value : Int} (nonneg : 0 ≤ value) {text : DecimalString}
    (h : text.text = formatUnits value SETTLEMENT_DECIMALS) : text.units = value * 10 ^ 12 := by
  obtain ⟨int, frac, htext, parts⟩ := fixedPoint_parts SETTLEMENT_DECIMALS value.natAbs
  have hlist : text.text.toList = (if false then ['-'] else []) ++ (int ++ dotted frac) := by
    rw [h, formatUnits, String.toList_ofList, if_neg (not_lt.mpr nonneg), htext]
    rfl
  obtain ⟨hneg, hint, hfrac⟩ := DecimalString.of_parts hlist parts.intDigits parts.intNonempty
  have hshort : frac.length ≤ 6 := parts.fracShort
  have hpow : 10 ^ (18 - frac.length) = 10 ^ (6 - frac.length) * 10 ^ 12 := by
    rw [← Nat.pow_add]
    congr 1
    omega
  have hmagnitude : text.magnitude = value.natAbs * 10 ^ 12 := by
    rw [DecimalString.magnitude, hint, hfrac, hpow, ← parts.units, SETTLEMENT_DECIMALS]
    ring
  rw [DecimalString.units, hmagnitude, hneg, signed, if_neg Bool.false_ne_true]
  omega

end BrainCore.Execution
