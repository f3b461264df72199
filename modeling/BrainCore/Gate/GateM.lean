import BrainCore.Foundation.Result
import BrainCore.Foundation.Text
import BrainCore.Gate.Types
import BrainCore.Shared.DecimalArithmetic

/-!
# Runs of the gate

A run of the gate carries what it has recorded so far: the checks that passed,
and the policy's decision once it has one.  It stops at the first check that
fails, or where a dependency throws.
-/

namespace BrainCore.Gate

open BrainCore.Foundation BrainCore.Policy

/-- What the gate has recorded when it stops. -/
structure GateLog where
  checks : List GateCheck := []
  outcome : Option GateOutcome := none
  requiredApprovers : List String := []
  trace : List TraceEntry := []

/-- Why a run stops before its end. -/
inductive GateStop where
  | failed (log : GateLog) (check : GateCheck)
  | threw (message : String)

abbrev GateM := StateT GateLog (Except GateStop)

/-- The answer of a dependency. -/
def ask {α : Type} (answer : Except String α) : GateM α := fun log =>
  match answer with
  | .error message => .error (.threw message)
  | .ok value => .ok (value, log)

/-- Records a check that passed. -/
def pass (name : GateCheckName) (detail : Detail := []) : GateM Unit := fun log =>
  .ok ((), { log with checks := log.checks ++ [⟨name, true, detail⟩] })

/-- `outcome`, `requiredApprovers` and `trace` of a failure after the policy. -/
def recordDecision (decision : GatePolicyDecision) : GateM Unit := fun log =>
  .ok ((), { log with outcome := some decision.outcome
                      requiredApprovers := decision.requiredApprovers
                      trace := decision.trace })

/-- Stops at a check that failed. -/
def failGate {α : Type} (name : GateCheckName) (detail : Detail) : GateM α := fun log =>
  .error (.failed log ⟨name, false, detail⟩)

/-- Lets a check pass when nothing speaks against it. -/
def passUnless (name : GateCheckName) (refusals : List String) : GateM Unit :=
  if refusals ≠ [] then failGate name [("failures", .arr (refusals.map Json.str))]
  else pass name

/-! ## What a run that goes on says -/

section Inversion

variable {α : Type} {log log' : GateLog}

@[simp] theorem ask_ok_iff {answer : Except String α} {value : α} :
    ask answer log = .ok (value, log') ↔ answer = .ok value ∧ log = log' := by
  cases answer <;> simp [ask]

@[simp] theorem failGate_ne_ok {name : GateCheckName} {detail : Detail} {value : α} :
    failGate name detail log ≠ .ok (value, log') := by
  simp [failGate]

/-- A run goes on behind a refusal only when the refusal did not apply. -/
theorem guard_ok_iff {refused : Prop} [Decidable refused] {name : GateCheckName} {detail : Detail}
    {next : GateM α} {value : α} :
    (if refused then failGate name detail else next) log = .ok (value, log') ↔
      ¬refused ∧ next log = .ok (value, log') := by
  by_cases hrefused : refused <;> simp [hrefused]

theorem passUnless_ok {name : GateCheckName} {refusals : List String}
    (h : passUnless name refusals log = .ok ((), log')) : refusals = [] := by
  by_contra hrefused
  simp [passUnless, hrefused] at h

end Inversion

/-! ## Runs that go on -/

/-- From any log the computation ends with the value. -/
def Succeeds {α : Type} (run : GateM α) (value : α) : Prop :=
  ∀ log, ∃ log', run log = .ok (value, log')

namespace Succeeds

variable {α β : Type}

theorem bind {first : GateM α} {value : α} {next : α → GateM β} {result : β}
    (hfirst : Succeeds first value) (hnext : Succeeds (next value) result) :
    Succeeds (first >>= next) result := by
  intro log
  obtain ⟨middle, hmiddle⟩ := hfirst log
  obtain ⟨log', hlog'⟩ := hnext middle
  exact ⟨log', run_bind_ok.mpr ⟨value, middle, hmiddle, hlog'⟩⟩

theorem pure (value : α) : Succeeds (Pure.pure value) value := fun log => ⟨log, rfl⟩

theorem pass (name : GateCheckName) (detail : Detail) : Succeeds (Gate.pass name detail) () :=
  fun _ => ⟨_, rfl⟩

theorem recordDecision (decision : GatePolicyDecision) :
    Succeeds (Gate.recordDecision decision) () := fun _ => ⟨_, rfl⟩

theorem ask {answer : Except String α} {value : α} (h : answer = .ok value) :
    Succeeds (Gate.ask answer) value := fun log => ⟨log, ask_ok_iff.mpr ⟨h, rfl⟩⟩

theorem guard {refused : Prop} [Decidable refused] {name : GateCheckName} {detail : Detail}
    {next : GateM α} {value : α} (hfree : ¬refused) (hnext : Succeeds next value) :
    Succeeds (if refused then failGate name detail else next) value := by
  rwa [if_neg hfree]

end Succeeds

/-!
## The hard human approval floor

Movements that are irreversible or uncapped ask for a human even when the policy
allows them (`requiresHardHumanApprovalFloor` of `shared/src/gate/gate.ts`).
x402, ACH and card payments are exempt below a signed autonomous cap.
-/

open BrainCore.Foundation BrainCore.Policy BrainCore.Shared

/-- `/^\d+(\.\d+)?$/`. -/
def autonomousCapDecimal (s : String) : Bool :=
  !(s.toList.takeWhile Char.isDigit).isEmpty &&
    match s.toList.dropWhile Char.isDigit with
    | [] => true
    | c :: frac => c == '.' && frac.all Char.isDigit && !frac.isEmpty

/-- `/^0x[0-9a-fA-F]{40}$/`. -/
def isOnchainAddress (s : String) : Bool :=
  s.toList.take 2 == ['0', 'x'] && (s.toList.drop 2).length == 40 &&
    (s.toList.drop 2).all isHexDigit

/-- The intent's amount is within a cap of its currency. -/
def withinCap (intent : GatePaymentIntent) (cap : Option Amount) : Bool :=
  match cap with
  | none => false
  | some cap =>
      cap.currency = intent.currency && autonomousCapDecimal cap.value &&
        autonomousCapDecimal intent.amount && cmpDecimal intent.amount cap.value ≤ 0

def isTrue (value : Option Json) : Bool :=
  match value with
  | some (.bool true) => true
  | _ => false

def isFalse (value : Option Json) : Bool :=
  match value with
  | some (.bool false) => true
  | _ => false

def isX402AutonomousAllowed (intent : GatePaymentIntent) (decision : GatePolicyDecision) : Bool :=
  intent.actionType = .x402Settle && intent.settlement.isSome && decision.outcome = .allow &&
    isTrue decision.onchainSettlementPermitted && withinCap intent decision.x402AutonomousMaxAmount

def isFiatAutonomousAllowed (intent : GatePaymentIntent) (decision : GatePolicyDecision) : Bool :=
  decision.outcome = .allow &&
    withinCap intent
      (match intent.actionType with
        | .achOutbound | .achInbound => decision.achAutonomousMaxAmount
        | .cardPayment => decision.cardAutonomousMaxAmount
        | _ => none)

def requiresHardHumanApprovalFloor (intent : GatePaymentIntent) (decision : GatePolicyDecision)
    (fiatHumanApprovalFloorEnabled : Option Bool) : Bool :=
  if decision.outcome ≠ .allow then false
  else
    match intent.actionType with
    | .onchainTransfer | .escrowRelease => true
    | .x402Settle => !isX402AutonomousAllowed intent decision
    | .wire => fiatHumanApprovalFloorEnabled ≠ some false
    | .achOutbound | .achInbound | .cardPayment =>
        fiatHumanApprovalFloorEnabled ≠ some false && !isFiatAutonomousAllowed intent decision
    | .erpWriteback | .other => false

end BrainCore.Gate
