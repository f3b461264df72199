import BrainCore.Foundation.RelyGuarantee

/-!
# Scripts of transactions

A script is the code of one call: it asks its environment, has effects outside
the database and runs transactions, and goes on from what each of them returned
or threw.  Any number of calls take their steps in any order.  A call may crash
between two steps, the database may fail a transaction, and other components
may commit writes of their own.
-/

namespace BrainCore.Foundation

/-- `σ` is the database, `ω` a written row, `ν` what the environment answers in one step, `τ` an
effect outside the database. -/
inductive Script (σ ω ν τ ε β : Type) : Type 1 where
  | finished (result : Except ε β)
  | perform {α : Type} (act : ν → α × List τ) (next : α → Script σ ω ν τ ε β)
  | transaction {α : Type} (body : Program σ ω ε α) (next : Except ε α → Script σ ω ν τ ε β)

namespace Script

variable {σ ω ν τ ε α β : Type}

/-- An error ends the script. -/
def bind : Script σ ω ν τ ε α → (α → Script σ ω ν τ ε β) → Script σ ω ν τ ε β
  | .finished (.ok value), rest => rest value
  | .finished (.error e), _ => .finished (.error e)
  | .perform act next, rest => .perform act fun value => (next value).bind rest
  | .transaction body next, rest => .transaction body fun result => (next result).bind rest

instance instMonadScript : Monad (Script σ ω ν τ ε) where
  pure value := .finished (.ok value)
  bind := bind

def throw (error : ε) : Script σ ω ν τ ε β := .finished (.error error)

/-- `try … catch`. -/
def tryCatch : Script σ ω ν τ ε β → (ε → Script σ ω ν τ ε β) → Script σ ω ν τ ε β
  | .finished (.ok value), _ => .finished (.ok value)
  | .finished (.error e), handle => handle e
  | .perform act next, handle => .perform act fun value => (next value).tryCatch handle
  | .transaction body next, handle => .transaction body fun result => (next result).tryCatch handle

/-- An answer of the environment, which may be an error. -/
def ask (answer : ν → Except ε α) : Script σ ω ν τ ε α :=
  .perform (fun env => (answer env, [])) .finished

/-- A call of another system: its answer, and what it did. -/
def callOut (act : ν → Except ε α × List τ) : Script σ ω ν τ ε α := .perform act .finished

/-- A check outside the database. -/
def ofExcept (result : Except ε β) : Script σ ω ν τ ε β := .finished result

/-- One transaction. -/
def transact (body : Program σ ω ε α) : Script σ ω ν τ ε α := .transaction body .finished

end Script

/-! ## Interleaved calls -/

/-- A call between two transactions, inside one, or ended by a crash. -/
inductive Call (σ ω ν τ ε β : Type) : Type 1 where
  | between (script : Script σ ω ν τ ε β)
  | inside {α : Type} (own : List ω) (body : Program σ ω ε α)
      (next : Except ε α → Script σ ω ν τ ε β)
  | crashed

/-- The uncommitted writes of a call. -/
def Call.own {σ ω ν τ ε β : Type} : Call σ ω ν τ ε β → List ω
  | .inside own _ _ => own
  | .between _ | .crashed => []

/-- The committed database, the calls in the order they began, and the effects outside. -/
structure Calls (σ ω ν τ ε β : Type) : Type 1 where
  committed : σ
  calls : List (Call σ ω ν τ ε β) := []
  history : List τ := []

inductive CallLabel (ω ν ε κ : Type) where
  | begin (call : κ)
  | advance (i : Nat) (env : ν)
  /-- The database fails the open transaction of a call. -/
  | fail (i : Nat) (error : ε)
  | crash (i : Nat)
  /-- Another component commits. -/
  | outside (writes : List ω)

namespace Calls

variable {σ ω ν τ ε β : Type}

def set (s : Calls σ ω ν τ ε β) (i : Nat) (call : Call σ ω ν τ ε β) : Calls σ ω ν τ ε β :=
  { s with calls := s.calls.set i call }

/-- A write is of a row that one of the calls has locked. -/
def locked (store : Store σ ω) (calls : List (Call σ ω ν τ ε β)) (writes : List ω) : Bool :=
  calls.any fun call => call.own.any fun held => writes.any (store.clash held)

/-- What a call does next; `none` while it has to wait. -/
def advanceCall (store : Store σ ω) (s : Calls σ ω ν τ ε β) (i : Nat) (env : ν) :
    Call σ ω ν τ ε β → Option (Calls σ ω ν τ ε β)
  | .between (.perform act next) =>
      some { s.set i (.between (next (act env).1)) with history := s.history ++ (act env).2 }
  | .between (.transaction body next) => some (s.set i (.inside [] body next))
  | .inside own (.done result) next =>
      some { s.set i (.between (next (.ok result))) with committed := store.view s.committed own }
  | .inside own (.statement run rest) next =>
      match run (store.view s.committed own) with
      | .error error => some (s.set i (.between (next (.error error))))
      | .ok (new, value) =>
          if locked store (s.calls.eraseIdx i) new then none
          else some (s.set i (.inside (own ++ new) (rest value) next))
  | .between (.finished _) | .crashed => none

variable {κ : Type}

/-- One step of one call; `permitted` says what another component may commit. -/
def step (store : Store σ ω) (script : κ → Script σ ω ν τ ε β) (permitted : σ → List ω → Bool)
    (s : Calls σ ω ν τ ε β) : CallLabel ω ν ε κ → Option (Calls σ ω ν τ ε β)
  | .begin call => some { s with calls := s.calls ++ [.between (script call)] }
  | .advance i env => s.calls[i]?.bind (advanceCall store s i env)
  | .fail i error =>
      match s.calls[i]? with
      | some (.inside _ _ next) => some (s.set i (.between (next (.error error))))
      | _ => none
  | .crash i => s.calls[i]?.map fun _ => s.set i .crashed
  | .outside writes =>
      if permitted s.committed writes && !locked store s.calls writes then
        some { s with committed := store.view s.committed writes }
      else none

end Calls

/-- Calls that take their steps in any order. -/
def callMachine {σ ω ν τ ε β κ : Type} (store : Store σ ω) (script : κ → Script σ ω ν τ ε β)
    (permitted : σ → List ω → Bool) : Machine (Calls σ ω ν τ ε β) (CallLabel ω ν ε κ) :=
  ⟨Calls.step store script permitted⟩

/-! ## What a step does -/

section Steps

variable {σ ω ν τ ε β κ : Type}

/-- The ways a call can go on. -/
inductive CallStep (store : Store σ ω) (script : κ → Script σ ω ν τ ε β)
    (permitted : σ → List ω → Bool) (s : Calls σ ω ν τ ε β) :
    CallLabel ω ν ε κ → Calls σ ω ν τ ε β → Prop where
  | begin (call : κ) : CallStep store script permitted s (.begin call)
      { s with calls := s.calls ++ [.between (script call)] }
  | perform (i : Nat) (env : ν) {α : Type} (act : ν → α × List τ)
      (next : α → Script σ ω ν τ ε β) (call : s.calls[i]? = some (.between (.perform act next))) :
      CallStep store script permitted s (.advance i env)
        { s.set i (.between (next (act env).1)) with history := s.history ++ (act env).2 }
  | open (i : Nat) (env : ν) {α : Type} (body : Program σ ω ε α)
      (next : Except ε α → Script σ ω ν τ ε β)
      (call : s.calls[i]? = some (.between (.transaction body next))) :
      CallStep store script permitted s (.advance i env) (s.set i (.inside [] body next))
  | statement (i : Nat) (env : ν) {α γ : Type} (own : List ω)
      (run : σ → Except ε (List ω × γ)) (rest : γ → Program σ ω ε α)
      (next : Except ε α → Script σ ω ν τ ε β) (new : List ω) (value : γ)
      (call : s.calls[i]? = some (.inside own (.statement run rest) next))
      (result : run (store.view s.committed own) = .ok (new, value))
      (free : Calls.locked store (s.calls.eraseIdx i) new = false) :
      CallStep store script permitted s (.advance i env)
        (s.set i (.inside (own ++ new) (rest value) next))
  | commit (i : Nat) (env : ν) {α : Type} (own : List ω) (result : α)
      (next : Except ε α → Script σ ω ν τ ε β)
      (call : s.calls[i]? = some (.inside own (.done result) next)) :
      CallStep store script permitted s (.advance i env)
        { s.set i (.between (next (.ok result))) with committed := store.view s.committed own }
  | rollBack (i : Nat) (label : CallLabel ω ν ε κ) {α : Type} (own : List ω)
      (body : Program σ ω ε α) (next : Except ε α → Script σ ω ν τ ε β) (error : ε)
      (call : s.calls[i]? = some (.inside own body next)) :
      CallStep store script permitted s label (s.set i (.between (next (.error error))))
  | crash (i : Nat) : CallStep store script permitted s (.crash i) (s.set i .crashed)
  | outside (writes : List ω) (allowed : permitted s.committed writes = true)
      (free : Calls.locked store s.calls writes = false) :
      CallStep store script permitted s (.outside writes)
        { s with committed := store.view s.committed writes }

variable {store : Store σ ω} {script : κ → Script σ ω ν τ ε β}
  {permitted : σ → List ω → Bool}

theorem callStep_of_advance {s next : Calls σ ω ν τ ε β} {i : Nat} {env : ν}
    {call : Call σ ω ν τ ε β} (hcall : s.calls[i]? = some call)
    (hstep : Calls.advanceCall store s i env call = some next) :
    CallStep store script permitted s (.advance i env) next := by
  cases call with
  | crashed => cases hstep
  | between rest =>
      cases rest with
      | finished result => cases hstep
      | perform act rest =>
          cases hstep
          exact .perform i env act rest hcall
      | transaction body rest =>
          cases hstep
          exact .open i env body rest hcall
  | inside own body rest =>
      cases body with
      | done result =>
          cases hstep
          exact .commit i env own result rest hcall
      | statement run after =>
          rw [Calls.advanceCall] at hstep
          cases hrun : run (store.view s.committed own) with
          | error error =>
              rw [hrun] at hstep
              cases hstep
              exact .rollBack i _ own _ rest error hcall
          | ok last =>
              obtain ⟨new, value⟩ := last
              rw [hrun] at hstep
              dsimp only at hstep
              split at hstep
              · cases hstep
              · rename_i hfree
                cases hstep
                exact .statement i env own run after rest new value hcall hrun
                  (Bool.eq_false_iff.mpr hfree)

theorem callStep_cases {s next : Calls σ ω ν τ ε β} {label : CallLabel ω ν ε κ}
    (hstep : Calls.step store script permitted s label = some next) :
    CallStep store script permitted s label next := by
  cases label with
  | begin call =>
      cases hstep
      exact .begin call
  | advance i env =>
      obtain ⟨call, hcall, hadvance⟩ := Option.bind_eq_some_iff.mp hstep
      exact callStep_of_advance hcall hadvance
  | fail i error =>
      rw [Calls.step] at hstep
      split at hstep
      · rename_i own body rest hcall
        cases hstep
        exact .rollBack i _ own body rest error hcall
      · cases hstep
  | crash i =>
      obtain ⟨call, -, rfl⟩ := Option.map_eq_some_iff.mp hstep
      exact .crash i
  | outside writes =>
      rw [Calls.step] at hstep
      split at hstep
      · rename_i hboth
        cases hstep
        rw [Bool.and_eq_true, Bool.not_eq_true'] at hboth
        exact .outside writes hboth.1 hboth.2
      · cases hstep

end Steps

/-!
## A call that runs alone

When one call runs with nobody else, and its environment always answers alike,
how it ends is a function of the database it starts on.  The machine of
interleaved calls comes to that end.
-/

variable {σ ω ν τ ε α β κ : Type}

/-- How a script ends. -/
structure Ending (σ τ ε β : Type) where
  committed : σ
  history : List τ
  result : Except ε β

namespace Ending

/-- An error is the end of what would come after it. -/
def andThen (first : Ending σ τ ε α) (next : α → σ → Ending σ τ ε β) : Ending σ τ ε β :=
  match first.result with
  | .error error => ⟨first.committed, first.history, .error error⟩
  | .ok value =>
      let last := next value first.committed
      ⟨last.committed, first.history ++ last.history, last.result⟩

end Ending

/-- The first statement of a transaction. -/
theorem Program.runFrom_execute_bind {store : Store σ ω} {run : σ → Except ε (List ω × α)}
    {rest : α → Program σ ω ε β} {db : σ} {own new : List ω} {value : α}
    (h : run (store.view db own) = .ok (new, value)) :
    Program.runFrom store (Program.execute run >>= rest) db own =
      Program.runFrom store (rest value) db (own ++ new) := by
  change Program.runFrom store (.statement run rest) db own = _
  rw [Program.runFrom, h]

theorem Program.runFrom_execute {store : Store σ ω} {run : σ → Except ε (List ω × α)} {db : σ}
    {own new : List ω} {value : α} (h : run (store.view db own) = .ok (new, value)) :
    Program.runFrom store (Program.execute run) db own = .ok (own ++ new, value) := by
  rw [Program.execute, Program.runFrom, h]
  rfl

namespace Script

def runAlone (store : Store σ ω) (env : ν) : Script σ ω ν τ ε β → σ → Ending σ τ ε β
  | .finished result, db => ⟨db, [], result⟩
  | .perform act next, db =>
      let last := runAlone store env (next (act env).1) db
      ⟨last.committed, (act env).2 ++ last.history, last.result⟩
  | .transaction body next, db =>
      match Program.runFrom store body db [] with
      | .ok (writes, value) => runAlone store env (next (.ok value)) (store.view db writes)
      | .error error => runAlone store env (next (.error error)) db

variable (store : Store σ ω) (env : ν) (db : σ)

theorem runAlone_bind (script : Script σ ω ν τ ε α) (rest : α → Script σ ω ν τ ε β) :
    runAlone store env (script >>= rest) db =
      (runAlone store env script db).andThen fun value => runAlone store env (rest value) := by
  change runAlone store env (script.bind rest) db = _
  induction script generalizing db with
  | finished result => cases result <;> rfl
  | perform act next ih =>
      rw [bind, runAlone, runAlone, ih]
      unfold Ending.andThen
      cases (runAlone store env (next (act env).1) db).result with
      | error error => rfl
      | ok value => simp
  | transaction body next ih =>
      rw [bind, runAlone, runAlone]
      cases Program.runFrom store body db [] with
      | error error => exact ih _ db
      | ok last => exact ih _ _

theorem runAlone_pure (value : β) :
    runAlone store env (pure value : Script σ ω ν τ ε β) db = ⟨db, [], .ok value⟩ := rfl

theorem runAlone_ask (answer : ν → Except ε β) :
    runAlone store env (ask answer : Script σ ω ν τ ε β) db = ⟨db, [], answer env⟩ := rfl

theorem runAlone_callOut (act : ν → Except ε β × List τ) :
    runAlone store env (callOut act : Script σ ω ν τ ε β) db =
      ⟨db, (act env).2, (act env).1⟩ := by
  rw [callOut, runAlone, runAlone, List.append_nil]

theorem runAlone_transact {body : Program σ ω ε β} {writes : List ω} {value : β}
    (h : Program.runFrom store body db [] = .ok (writes, value)) :
    runAlone store env (transact body : Script σ ω ν τ ε β) db =
      ⟨store.view db writes, [], .ok value⟩ := by
  rw [transact, runAlone, h]
  rfl

/-! ## On the machine -/

variable {store env} {script : κ → Script σ ω ν τ ε β} {permitted : σ → List ω → Bool}

/-- The steps of the only call. -/
def steps (env : ν) (count : Nat) : List (CallLabel ω ν ε κ) := List.replicate count (.advance 0 env)

theorem run_step {s next final : Calls σ ω ν τ ε β} {count : Nat}
    (hstep : Calls.step store script permitted s (.advance 0 env) = some next)
    (hrun : (callMachine store script permitted).run next (steps env count) = some final) :
    (callMachine store script permitted).run s (steps env (count + 1)) = some final := by
  rw [steps, List.replicate_succ, Machine.run_cons]
  change (Calls.step store script permitted s (.advance 0 env)).bind _ = _
  rw [hstep]
  exact hrun

theorem exists_run_inside {body : Program σ ω ε α} {next : Except ε α → Script σ ω ν τ ε β}
    {history : List τ} {final : Calls σ ω ν τ ε β} (own : List ω)
    (hok : ∀ writes value, Program.runFrom store body db own = .ok (writes, value) →
      ∃ count, (callMachine store script permitted).run
        ⟨store.view db writes, [.between (next (.ok value))], history⟩ (steps env count) =
          some final)
    (herror : ∀ error, Program.runFrom store body db own = .error error →
      ∃ count, (callMachine store script permitted).run
        ⟨db, [.between (next (.error error))], history⟩ (steps env count) = some final) :
    ∃ count, (callMachine store script permitted).run
      ⟨db, [.inside own body next], history⟩ (steps env count) = some final := by
  induction body generalizing own with
  | done result =>
      obtain ⟨count, hrun⟩ := hok own result rfl
      exact ⟨count + 1, run_step rfl hrun⟩
  | statement run rest ih =>
      cases hresult : run (store.view db own) with
      | error error =>
          have hfails : Program.runFrom store (.statement run rest) db own = .error error := by
            rw [Program.runFrom, hresult]
          obtain ⟨count, hrun⟩ := herror error hfails
          refine ⟨count + 1, run_step ?_ hrun⟩
          change Calls.advanceCall store _ 0 env (.inside own (.statement run rest) next) = _
          rw [Calls.advanceCall, hresult]
          rfl
      | ok last =>
          obtain ⟨new, value⟩ := last
          have hgoes : Program.runFrom store (.statement run rest) db own =
              Program.runFrom store (rest value) db (own ++ new) := by
            rw [Program.runFrom, hresult]
          rw [hgoes] at hok herror
          obtain ⟨count, hrun⟩ := ih value (own ++ new) hok herror
          refine ⟨count + 1, run_step ?_ hrun⟩
          change Calls.advanceCall store _ 0 env (.inside own (.statement run rest) next) = _
          rw [Calls.advanceCall, hresult]
          rfl

/-- The machine comes to the end of a script. -/
theorem exists_run_alone (body : Script σ ω ν τ ε β) (history : List τ) :
    ∃ count, (callMachine store script permitted).run ⟨db, [.between body], history⟩
      (steps env count) =
        some ⟨(runAlone store env body db).committed,
          [.between (.finished (runAlone store env body db).result)],
          history ++ (runAlone store env body db).history⟩ := by
  induction body generalizing db history with
  | finished result =>
      refine ⟨0, ?_⟩
      rw [runAlone, List.append_nil]
      rfl
  | perform act next ih =>
      obtain ⟨count, hrun⟩ := ih (act env).1 db (history ++ (act env).2)
      rw [List.append_assoc] at hrun
      exact ⟨count + 1, run_step rfl hrun⟩
  | transaction body next ih =>
      obtain ⟨count, hrun⟩ : ∃ count, (callMachine store script permitted).run
          ⟨db, [.inside [] body next], history⟩ (steps env count) =
            some ⟨(runAlone store env (.transaction body next) db).committed,
              [.between (.finished (runAlone store env (.transaction body next) db).result)],
              history ++ (runAlone store env (.transaction body next) db).history⟩ := by
        refine exists_run_inside db [] ?_ ?_
        · intro writes value hrun
          rw [runAlone, hrun]
          exact ih (.ok value) _ history
        · intro error hrun
          rw [runAlone, hrun]
          exact ih (.error error) db history
      exact ⟨count + 1, run_step rfl hrun⟩

end Script

end BrainCore.Foundation
