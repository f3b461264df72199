import Mathlib.Data.List.Basic

/-!
# Computations that call ports

A computation that calls other systems through ports: each call is recorded and
answered, an answer may be an error, and an error ends what would come after it
unless it is caught.  What was called is read off the steps, one rule for each
way of putting computations together.
-/

namespace BrainCore.Foundation

/-- How a computation ended, and the calls it made, in order. -/
@[ext]
structure Ported (κ ε α : Type) where
  result : Except ε α
  calls : List κ := []

namespace Ported

variable {κ ε α β : Type}

/-- One call and its answer. -/
def call (made : κ) (answer : Except ε α) : Ported κ ε α := ⟨answer, [made]⟩

def throw (error : ε) : Ported κ ε α := ⟨.error error, []⟩

/-- An error is the end of the computation. -/
def bind (first : Ported κ ε α) (next : α → Ported κ ε β) : Ported κ ε β :=
  match first.result with
  | .ok value => ⟨(next value).result, first.calls ++ (next value).calls⟩
  | .error error => ⟨.error error, first.calls⟩

instance instMonadPorted : Monad (Ported κ ε) where
  pure value := ⟨.ok value, []⟩
  bind := bind

/-- `try … catch`. -/
def tryCatch (body : Ported κ ε α) (handle : ε → Ported κ ε α) : Ported κ ε α :=
  match body.result with
  | .ok _ => body
  | .error error => ⟨(handle error).result, body.calls ++ (handle error).calls⟩

section Rules

variable {first body : Ported κ ε α} {next : α → Ported κ ε β} {handle : ε → Ported κ ε α}
  {value : α} {error : ε} {made : κ} {answer : Except ε α}

theorem bind_of_ok (h : first.result = .ok value) :
    first >>= next = ⟨(next value).result, first.calls ++ (next value).calls⟩ := by
  change bind first next = _
  rw [bind, h]

theorem bind_of_error (h : first.result = .error error) :
    first >>= next = ⟨.error error, first.calls⟩ := by
  change bind first next = _
  rw [bind, h]

theorem tryCatch_of_ok (h : body.result = .ok value) : tryCatch body handle = body := by
  rw [tryCatch, h]

theorem tryCatch_of_error (h : body.result = .error error) :
    tryCatch body handle = ⟨(handle error).result, body.calls ++ (handle error).calls⟩ := by
  rw [tryCatch, h]

@[simp] theorem result_call : (call made answer).result = answer := rfl

@[simp] theorem calls_call : (call made answer).calls = [made] := rfl

@[simp] theorem result_throw : (throw error : Ported κ ε α).result = .error error := rfl

@[simp] theorem calls_throw : (throw error : Ported κ ε α).calls = [] := rfl

@[simp] theorem result_pure : (pure value : Ported κ ε α).result = .ok value := rfl

@[simp] theorem calls_pure : (pure value : Ported κ ε α).calls = [] := rfl

/-- A sequence of steps ends with a value when each of them does. -/
@[simp]
theorem result_bind_ok {result : β} :
    (first >>= next).result = .ok result ↔
      ∃ value, first.result = .ok value ∧ (next value).result = .ok result := by
  cases h : first.result with
  | ok value => simp [bind_of_ok h]
  | error error => simp [bind_of_error h]

/-- A sequence of steps calls what its steps call, up to the first error. -/
@[simp]
theorem mem_calls_bind :
    made ∈ (first >>= next).calls ↔
      made ∈ first.calls ∨ ∃ value, first.result = .ok value ∧ made ∈ (next value).calls := by
  cases h : first.result with
  | ok value => simp [bind_of_ok h]
  | error error => simp [bind_of_error h]

/-- Steps that call nothing add nothing. -/
theorem calls_bind_of_quiet (h : ∀ value, (next value).calls = []) :
    (first >>= next).calls = first.calls := by
  cases hfirst : first.result with
  | ok value => simp [bind_of_ok hfirst, h]
  | error error => simp [bind_of_error hfirst]

@[simp]
theorem result_tryCatch_ok {result : α} :
    (tryCatch body handle).result = .ok result ↔
      body.result = .ok result ∨
        ∃ error, body.result = .error error ∧ (handle error).result = .ok result := by
  cases h : body.result with
  | ok value => simp [tryCatch_of_ok h, h]
  | error error => simp [tryCatch_of_error h]

/-- What is called in the handler is called after an error of the body. -/
@[simp]
theorem mem_calls_tryCatch :
    made ∈ (tryCatch body handle).calls ↔
      made ∈ body.calls ∨ ∃ error, body.result = .error error ∧ made ∈ (handle error).calls := by
  cases h : body.result with
  | ok value => simp [tryCatch_of_ok h]
  | error error => simp [tryCatch_of_error h]

end Rules

end Ported

end BrainCore.Foundation
