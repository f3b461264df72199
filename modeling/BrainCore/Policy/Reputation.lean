import BrainCore.Gate.Types
import BrainCore.Shared.DecimalArithmetic

/-!
# Reputation as a threshold input

`services/policy/src/reputation.ts`: below the score a rule asks for, a decision
gets more approvers and lower bounds.  The adjustment only tightens.
-/

namespace BrainCore.Policy

open BrainCore.Foundation BrainCore.Gate BrainCore.Shared

structure ReputationScore where
  score : Rat
  source : Option String := none

/-- What applies below the minimum score. -/
structure ReputationBelow where
  addApprovers : Option (List String) := none
  amountCap : Option Amount := none
  requireVerificationAbove : Option Amount := none

structure ReputationEnvelope where
  minScore : Rat
  below : Option ReputationBelow := none

/-! ## Reading the envelope of a rule -/

/-- `isBound`. -/
def bound? (raw : Json) : Option Amount :=
  match (raw.field? "currency").bind Json.str?, (raw.field? "value").bind Json.str? with
  | some currency, some value => some ⟨currency, value⟩
  | _, _ => none

def strings? : Json → Option (List String)
  | .arr items => some (items.filterMap Json.str?)
  | _ => none

/-- `typeof raw === "object"`, which holds of arrays as well. -/
def isObject : Json → Bool
  | .obj _ | .arr _ => true
  | _ => false

def readBelow (raw : Json) : ReputationBelow :=
  { addApprovers := (raw.field? "add_approvers").bind strings?
    amountCap := (raw.field? "amount_cap").bind bound?
    requireVerificationAbove := (raw.field? "require_verification_above").bind bound? }

/-- The envelope of a rule, `none` unless it is well formed. -/
def readReputationEnvelope (rule : PolicyRule) : Option ReputationEnvelope :=
  rule.reputation.bind fun raw =>
    match raw.field? "min_score" with
    | some (.num minScore) =>
        some ⟨minScore, ((raw.field? "below").filter isObject).map readBelow⟩
    | _ => none

/-! ## The adjustment -/

/-- What an adjustment changes, and what it has applied so far. -/
structure Thresholds where
  outcome : GateOutcome
  requiredApprovers : List String
  amountUpperBound : Option Amount
  verificationThreshold : Option Amount
  applied : List String := []

/-- The union of the approvers, recorded when it grew. -/
def uniteApprovers (added : List String) (t : Thresholds) : Thresholds :=
  let grown := (t.requiredApprovers ++ added).eraseDups
  if grown.length ≠ t.requiredApprovers.eraseDups.length then
    { t with requiredApprovers := grown, applied := t.applied ++ ["add_approvers"] }
  else t

/-- Approvers turn an allow into a confirm. -/
def escalate (t : Thresholds) : Thresholds :=
  if t.requiredApprovers ≠ [] ∧ t.outcome = .allow then
    { t with outcome := .confirm, applied := t.applied ++ ["escalate_allow_to_confirm"] }
  else t

def addApprovers (added : List String) (t : Thresholds) : Thresholds :=
  if added = [] then t else escalate (uniteApprovers added t)

/-- The lower of two bounds of one currency; a bound is imposed where there was none. -/
def tightenBound (base : Option Amount) (cap : Amount) (imposed lowered : String) :
    Option Amount × List String :=
  match base with
  | none => (some cap, [imposed])
  | some bound =>
      if bound.currency = cap.currency ∧ compareDecimal cap.value bound.value < 0 then
        (some cap, [lowered])
      else (some bound, [])

def capAmount (cap : Amount) (t : Thresholds) : Thresholds :=
  let (bound, applied) := tightenBound t.amountUpperBound cap "amount_cap_imposed" "amount_cap_lowered"
  { t with amountUpperBound := bound, applied := t.applied ++ applied }

def requireVerification (above : Amount) (t : Thresholds) : Thresholds :=
  let (bound, applied) :=
    tightenBound t.verificationThreshold above "verification_imposed" "verification_lowered"
  { t with verificationThreshold := bound, applied := t.applied ++ applied }

/-- An adjustment the envelope may declare. -/
def whenDeclared {α : Type} (declared : Option α) (adjust : α → Thresholds → Thresholds)
    (t : Thresholds) : Thresholds :=
  match declared with
  | none => t
  | some value => adjust value t

def tighten (below : ReputationBelow) (t : Thresholds) : Thresholds :=
  let t := whenDeclared below.addApprovers addApprovers t
  let t := whenDeclared below.amountCap capAmount t
  whenDeclared below.requireVerificationAbove requireVerification t

/-- The thresholds of a decision. -/
def thresholds (decision : GatePolicyDecision) : Thresholds :=
  { outcome := decision.outcome
    requiredApprovers := decision.requiredApprovers
    amountUpperBound := decision.amountUpperBound
    verificationThreshold := decision.counterpartyVerificationThreshold }

def withThresholds (decision : GatePolicyDecision) (t : Thresholds)
    (trace : ReputationTrace) : GatePolicyDecision :=
  { decision with
    outcome := t.outcome
    requiredApprovers := t.requiredApprovers
    amountUpperBound := t.amountUpperBound
    counterpartyVerificationThreshold := t.verificationThreshold
    trace := decision.trace ++ [.reputationAdjustment trace] }

def applyReputationAdjustment (decision : GatePolicyDecision) (reputation : Option ReputationScore)
    (envelope : Option ReputationEnvelope) : GatePolicyDecision :=
  match reputation, envelope with
  | some reputation, some envelope =>
      if envelope.minScore ≤ reputation.score then decision
      else
        match envelope.below with
        | none => decision
        | some below =>
            let t := tighten below (thresholds decision)
            if t.applied = [] then decision
            else withThresholds decision t
              ⟨reputation.score, envelope.minScore, reputation.source, t.applied⟩
  | _, _ => decision

/-! ## The adjustment only tightens -/

/-- No approver is lost, and only approvers turn an allow into a confirm. -/
structure Tightens (before after : Thresholds) : Prop where
  approvers : ∀ role ∈ before.requiredApprovers, role ∈ after.requiredApprovers
  outcome : after.outcome = before.outcome ∨
    before.outcome = .allow ∧ after.outcome = .confirm ∧ after.requiredApprovers ≠ []

namespace Tightens

theorem refl (t : Thresholds) : Tightens t t := ⟨fun _ h => h, .inl rfl⟩

theorem ne_nil {before after : Thresholds} (h : Tightens before after)
    (hne : before.requiredApprovers ≠ []) : after.requiredApprovers ≠ [] := by
  obtain ⟨role, hrole⟩ := List.exists_mem_of_ne_nil _ hne
  exact List.ne_nil_of_mem (h.approvers role hrole)

theorem trans {first second third : Thresholds} (h : Tightens first second)
    (h' : Tightens second third) : Tightens first third := by
  refine ⟨fun role hrole => h'.approvers role (h.approvers role hrole), ?_⟩
  rcases h.outcome with hsame | ⟨hallow, hconfirm, hasked⟩
  · rcases h'.outcome with hsame' | ⟨hallow', hconfirm', hasked'⟩
    · exact .inl (hsame'.trans hsame)
    · exact .inr ⟨hsame ▸ hallow', hconfirm', hasked'⟩
  · rcases h'.outcome with hsame' | ⟨hallow', -, -⟩
    · exact .inr ⟨hallow, hsame'.trans hconfirm, h'.ne_nil hasked⟩
    · rw [hconfirm] at hallow'
      cases hallow'

end Tightens

theorem uniteApprovers_tightens (added : List String) (t : Thresholds) :
    Tightens t (uniteApprovers added t) := by
  unfold uniteApprovers
  dsimp only
  split
  · exact ⟨fun role hrole => List.mem_eraseDups.mpr (List.mem_append_left _ hrole), .inl rfl⟩
  · exact .refl t

theorem escalate_tightens (t : Thresholds) : Tightens t (escalate t) := by
  unfold escalate
  split
  · rename_i hescalates
    exact ⟨fun _ h => h, .inr ⟨hescalates.2, rfl, hescalates.1⟩⟩
  · exact .refl t

theorem addApprovers_tightens (added : List String) (t : Thresholds) :
    Tightens t (addApprovers added t) := by
  unfold addApprovers
  split
  · exact .refl t
  · exact (uniteApprovers_tightens added t).trans (escalate_tightens _)

theorem whenDeclared_tightens {α : Type} (declared : Option α)
    {adjust : α → Thresholds → Thresholds} (h : ∀ value t, Tightens t (adjust value t))
    (t : Thresholds) : Tightens t (whenDeclared declared adjust t) := by
  cases declared with
  | none => exact .refl t
  | some value => exact h value t

theorem capAmount_tightens (cap : Amount) (t : Thresholds) : Tightens t (capAmount cap t) :=
  ⟨fun _ h => h, .inl rfl⟩

theorem requireVerification_tightens (above : Amount) (t : Thresholds) :
    Tightens t (requireVerification above t) :=
  ⟨fun _ h => h, .inl rfl⟩

theorem tighten_tightens (below : ReputationBelow) (t : Thresholds) :
    Tightens t (tighten below t) :=
  ((whenDeclared_tightens _ addApprovers_tightens t).trans
    (whenDeclared_tightens _ capAmount_tightens _)).trans
    (whenDeclared_tightens _ requireVerification_tightens _)

theorem applyReputationAdjustment_tightens (decision : GatePolicyDecision)
    (reputation : Option ReputationScore) (envelope : Option ReputationEnvelope) :
    Tightens (thresholds decision)
      (thresholds (applyReputationAdjustment decision reputation envelope)) := by
  unfold applyReputationAdjustment
  split
  · split
    · exact .refl _
    · split
      · exact .refl _
      · rename_i below _
        dsimp only
        split
        · exact .refl _
        · have h := tighten_tightens below (thresholds decision)
          exact ⟨h.approvers, h.outcome⟩
  · exact .refl _

/-- The rule and the policy version stay. -/
theorem applyReputationAdjustment_keeps (decision : GatePolicyDecision)
    (reputation : Option ReputationScore) (envelope : Option ReputationEnvelope) :
    (applyReputationAdjustment decision reputation envelope).matchedRuleId =
        decision.matchedRuleId ∧
      (applyReputationAdjustment decision reputation envelope).policyVersion =
        decision.policyVersion := by
  unfold applyReputationAdjustment
  split
  · split
    · exact ⟨rfl, rfl⟩
    · split
      · exact ⟨rfl, rfl⟩
      · dsimp only
        split <;> exact ⟨rfl, rfl⟩
  · exact ⟨rfl, rfl⟩

end BrainCore.Policy
