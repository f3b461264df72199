import BrainCore.Foundation.Json
import BrainCore.Foundation.Ports
import Mathlib.Data.List.Infix
import Mathlib.Data.List.Perm.Basic

/-!
# Sagas

`services/execution/src/sagas.ts`: the steps run forward one after the other,
and when one of them throws, those that had completed are compensated from the
last one to the first.  Every compensation is told to the audit emitter, which
may throw as well.
-/

namespace BrainCore.Execution

open BrainCore.Foundation

/-! ## Steps -/

/-- A step, with the answers of its two actions. -/
structure SagaStep (T : Type) where
  name : String
  forward : Except String T
  compensate : T → Except String Unit

/-- An entry of `done`. -/
structure SagaEntry (T : Type) where
  step : SagaStep T
  result : T

inductive SagaAction where
  | compensated
  | compensationFailed
  | failed
  | completed
deriving DecidableEq

def SagaAction.text : SagaAction → String
  | compensated => "agent.saga.compensated"
  | compensationFailed => "agent.saga.compensation_failed"
  | failed => "agent.saga.failed"
  | completed => "agent.saga.completed"

structure SagaEvent where
  tenantId : String
  layer : String := "agent"
  actor : String
  action : SagaAction
  inputs : Json
  outputs : Json

structure SagaDeps where
  tenantId : String
  actor : String
  /-- The answer to an event about the step at a place, which is there at most once in a run. -/
  emit : SagaAction → Nat → Except String Unit

inductive SagaCall (T : Type) where
  | forward (step : SagaStep T)
  | compensate (entry : SagaEntry T)
  | emit (event : SagaEvent)

/-- The two arrays of the loop. -/
structure Compensations where
  compensated : List String := []
  compensationFailures : List String := []

namespace Compensations

/-- `compensated.push(name)`. -/
def compensate (tally : Compensations) (name : String) : Compensations :=
  { tally with compensated := tally.compensated ++ [name] }

/-- `compensationFailures.push(name)`. -/
def fail (tally : Compensations) (name : String) : Compensations :=
  { tally with compensationFailures := tally.compensationFailures ++ [name] }

/-- The names of both arrays. -/
def names (tally : Compensations) : List String :=
  tally.compensated ++ tally.compensationFailures

end Compensations

/-- What is thrown, and the arrays as they are then. -/
structure SagaError where
  message : String
  tally : Compensations := {}

structure SagaResult where
  ok : Bool
  completed : List String
  failedStep : Option String := none
  compensated : List String
  compensationFailures : List String

abbrev Saga (T : Type) := Ported (SagaCall T) SagaError

section Run

variable {T : Type} (deps : SagaDeps) (sagaId : String)

/-! ## The executor -/

def emitSaga (tally : Compensations) (place : Nat) (action : SagaAction) (inputs outputs : Json) :
    Saga T Unit :=
  .call (.emit { tenantId := deps.tenantId, actor := deps.actor, action, inputs, outputs })
    ((deps.emit action place).mapError fun message => ⟨message, tally⟩)

/-- One turn of the loop.  An error of the first emit is caught as one of the compensation is. -/
def compensateStep (failedStep : String) (place : Nat) (entry : SagaEntry T)
    (tally : Compensations) : Saga T Compensations :=
  let inputs := .obj [("saga_id", .str sagaId), ("step", .str entry.step.name),
    ("failed_step", .str failedStep)]
  .tryCatch
    (do
      .call (.compensate entry)
        ((entry.step.compensate entry.result).mapError fun message => ⟨message, tally⟩)
      let tally := tally.compensate entry.step.name
      emitSaga deps tally place .compensated inputs (.obj [("ok", .bool true)])
      pure tally)
    fun thrown => do
      let tally := thrown.tally.fail entry.step.name
      emitSaga deps tally place .compensationFailed inputs
        (.obj [("ok", .bool false), ("error", .str thrown.message)])
      pure tally

/-- The loop, over the entries from the last one to the first. -/
def compensateSteps (failedStep : String) :
    List (SagaEntry T) → Compensations → Saga T Compensations
  | [], tally => pure tally
  | entry :: earlier, tally => do
      let tally ← compensateStep deps sagaId failedStep earlier.length entry tally
      compensateSteps failedStep earlier tally

/-- What follows the error of a forward action. -/
def rollBack (done : List (SagaEntry T)) (failing : SagaStep T) (error : String) :
    Saga T SagaResult := do
  let tally ← compensateSteps deps sagaId failing.name done.reverse {}
  emitSaga deps tally done.length .failed
    (.obj [("saga_id", .str sagaId), ("failed_step", .str failing.name)])
    (.obj [("error", .str error), ("compensated", .arr (tally.compensated.map .str)),
      ("compensation_failures", .arr (tally.compensationFailures.map .str))])
  pure {
    ok := false
    completed := done.map fun entry => entry.step.name
    failedStep := some failing.name
    compensated := tally.compensated
    compensationFailures := tally.compensationFailures }

def runSagaFrom (done : List (SagaEntry T)) : List (SagaStep T) → Saga T SagaResult
  | [] => do
      emitSaga deps {} done.length .completed (.obj [("saga_id", .str sagaId)])
        (.obj [("steps", .num done.length)])
      pure {
        ok := true
        completed := done.map fun entry => entry.step.name
        compensated := []
        compensationFailures := [] }
  | step :: rest => do
      .call (.forward step) (.ok ())
      match step.forward with
      | .ok result => runSagaFrom (done ++ [⟨step, result⟩]) rest
      | .error error => rollBack deps sagaId done step error

def runSaga (steps : List (SagaStep T)) : Saga T SagaResult := runSagaFrom deps sagaId [] steps

end Run

end BrainCore.Execution
