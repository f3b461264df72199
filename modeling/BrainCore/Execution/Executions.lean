import BrainCore.Foundation.Json
import BrainCore.Foundation.Table
import BrainCore.Policy.Cron

/-!
# Executions

The rows of the `executions` table and the statements of
`services/execution/src/repository.ts` over them.
-/

namespace BrainCore.Execution

open BrainCore.Foundation BrainCore.Policy

/-- What a service throws. -/
structure ServiceError where
  code : String
  message : String
deriving DecidableEq

inductive ExecutionState where
  | dispatched
  | inFlight
  | completed
  | failed
deriving DecidableEq

def ExecutionState.text : ExecutionState → String
  | .dispatched => "dispatched"
  | .inFlight => "in_flight"
  | .completed => "completed"
  | .failed => "failed"

def isValidExecutionTransition : ExecutionState → ExecutionState → Bool
  | .dispatched, target => target = .inFlight || target = .failed
  | .inFlight, target => target = .completed || target = .failed
  | .completed, _ | .failed, _ => false

structure ExecutionRow where
  id : String
  proposalId : String
  rail : String
  /-- A missing receipt and the JSON `null` are both read as `null`. -/
  railReceipt : Json := .null
  status : ExecutionState
  idempotencyKey : String
  completedAt : Option Instant := none

abbrev Executions := Table ExecutionRow.id

namespace Executions

/-- `CHECK (rail IN (…))`. -/
def allowedRails : List String := ["bank_ach", "erp_writeback", "onchain_base", "notification"]

/-- The primary key, the unique idempotency key and the check on the rail. -/
def accepts (executions : Executions) (row : ExecutionRow) : Bool :=
  row.rail ∈ allowedRails && !(executions.find? row.id).isSome &&
    !executions.rows.any fun other => other.idempotencyKey = row.idempotencyKey

/-- The row `insertExecution` writes. -/
def insertExecution (executions : Executions) (row : ExecutionRow) :
    Except ServiceError ExecutionRow :=
  if executions.accepts row then .ok row
  else .error ⟨"internal_server_error", "executions violates a constraint"⟩

/-- The row `setExecutionReceipt` writes, if there is one. -/
def setExecutionReceipt (executions : Executions) (id : String) (receipt : Json) :
    Option ExecutionRow :=
  (executions.find? id).map fun row => { row with railReceipt := receipt }

/-- The row `transitionExecution` writes. -/
def transitionExecution (executions : Executions) (id : String) (source target : ExecutionState)
    (now : Instant) : Except ServiceError ExecutionRow :=
  if ¬isValidExecutionTransition source target then
    .error ⟨"execution_proposal_invalid_state",
      "invalid execution transition " ++ source.text ++ " → " ++ target.text⟩
  else
    let missing : ServiceError :=
      ⟨"internal_server_error", "execution " ++ id ++ " not in state " ++ source.text⟩
    match executions.find? id with
    | none => .error missing
    | some row =>
        if row.status = source then
          .ok { row with
            status := target
            completedAt := if target = .completed ∨ target = .failed then some now
              else row.completedAt }
        else .error missing

end Executions

end BrainCore.Execution
