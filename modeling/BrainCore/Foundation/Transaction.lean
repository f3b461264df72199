import BrainCore.Foundation.Machine
import Mathlib.Logic.Function.Basic
import Mathlib.Data.List.Basic

/-!
# Transactions at READ COMMITTED

A program is a sequence of statements.  A statement reads the committed rows
under the transaction's own writes, and fails or writes rows and hands a value
to the rest of the program.  A row an open transaction wrote is locked: a
statement that would write it waits, and runs on what is committed by then.
Statements of different transactions interleave freely; a transaction ends in
a commit or is rolled back.
-/

namespace BrainCore.Foundation

/-- The statements of one transaction: `σ` is the database, `ω` a written row. -/
inductive Program (σ ω ε β : Type) : Type 1 where
  | done (result : β)
  | statement {α : Type} (run : σ → Except ε (List ω × α)) (next : α → Program σ ω ε β)

/-- How a written row enters the database, and which writes lock the same row. -/
structure Store (σ ω : Type) where
  write : σ → ω → σ
  clash : ω → ω → Bool

namespace Store

variable {σ ω : Type}

/-- The database under the writes of a transaction. -/
def view (store : Store σ ω) (db : σ) (writes : List ω) : σ := writes.foldl store.write db

@[simp]
theorem view_nil (store : Store σ ω) (db : σ) : store.view db [] = db := rfl

theorem view_append (store : Store σ ω) (db : σ) (first second : List ω) :
    store.view db (first ++ second) = store.view (store.view db first) second :=
  List.foldl_append

end Store

/-! ## One program alone -/

namespace Program

variable {σ ω ε β : Type} (store : Store σ ω)

/-- The rest of a program on a database nobody else writes, after the writes so far. -/
def runFrom : Program σ ω ε β → σ → List ω → Except ε (List ω × β)
  | .done result, _, writes => .ok (writes, result)
  | .statement run next, db, writes =>
      match run (store.view db writes) with
      | .error e => .error e
      | .ok (new, value) => runFrom (next value) db (writes ++ new)

/-- A whole program as one step of the database. -/
def runAlone : Program σ ω ε β → σ → Except ε (σ × β)
  | .done result, db => .ok (db, result)
  | .statement run next, db =>
      match run db with
      | .error e => .error e
      | .ok (new, value) => runAlone (next value) (store.view db new)

theorem runAlone_view (program : Program σ ω ε β) (db next : σ) (writes : List ω) (result : β) :
    runAlone store program (store.view db writes) = .ok (next, result) ↔
      ∃ all, runFrom store program db writes = .ok (all, result) ∧ next = store.view db all := by
  induction program generalizing writes with
  | done value =>
      simp only [runAlone, runFrom, Except.ok.injEq, Prod.mk.injEq]
      constructor
      · rintro ⟨rfl, rfl⟩
        exact ⟨writes, ⟨rfl, rfl⟩, rfl⟩
      · rintro ⟨_, ⟨rfl, rfl⟩, rfl⟩
        exact ⟨rfl, rfl⟩
  | statement run rest ih =>
      rw [runAlone, runFrom]
      cases run (store.view db writes) with
      | error e => simp
      | ok last =>
          obtain ⟨new, value⟩ := last
          dsimp only
          rw [← store.view_append, ih]

/-- A program alone on a database writes what it would from its first statement on. -/
theorem runAlone_ok {program : Program σ ω ε β} {db next : σ} {result : β} :
    runAlone store program db = .ok (next, result) ↔
      ∃ writes, runFrom store program db [] = .ok (writes, result) ∧
        next = store.view db writes := by
  rw [← runAlone_view, Store.view_nil]

/-- A first statement that succeeds hands over to the rest. -/
theorem runAlone_statement {α : Type} {run : σ → Except ε (List ω × α)}
    {rest : α → Program σ ω ε β} {db next : σ} {result : β} :
    runAlone store (.statement run rest) db = .ok (next, result) ↔
      ∃ new value, run db = .ok (new, value) ∧
        runAlone store (rest value) (store.view db new) = .ok (next, result) := by
  rw [runAlone]
  cases run db with
  | error e => simp
  | ok last =>
      obtain ⟨new, value⟩ := last
      simp only [Except.ok.injEq, Prod.mk.injEq]
      constructor
      · intro h
        exact ⟨new, value, ⟨rfl, rfl⟩, h⟩
      · rintro ⟨_, _, ⟨rfl, rfl⟩, h⟩
        exact h

end Program

/-! ## Interleaved transactions -/

/-- A caller of transactions. -/
inductive Session (σ ω ε β : Type) : Type 1 where
  | idle
  | running (program : Program σ ω ε β)
  | committed (result : β)

/-- The committed database, the uncommitted writes by session, and the sessions. -/
structure Sessions (σ ω ε β : Type) : Type 1 where
  committed : σ
  pending : List (Nat × ω) := []
  sessions : Nat → Session σ ω ε β := fun _ => .idle

namespace Sessions

variable {σ ω ε β : Type}

/-- The writes of one session so far. -/
def writesOf (s : Sessions σ ω ε β) (i : Nat) : List ω :=
  (s.pending.filter fun entry => entry.1 = i).map Prod.snd

/-- The session gives up its locks. -/
def release (s : Sessions σ ω ε β) (i : Nat) : List (Nat × ω) :=
  s.pending.filter fun entry => entry.1 ≠ i

def set (s : Sessions σ ω ε β) (i : Nat) (session : Session σ ω ε β) :
    Nat → Session σ ω ε β := Function.update s.sessions i session

/-- A new write is of a row another session has locked. -/
def Waits (store : Store σ ω) (s : Sessions σ ω ε β) (i : Nat) (new : List ω) : Prop :=
  ∃ entry ∈ s.pending, entry.1 ≠ i ∧ ∃ w ∈ new, store.clash entry.2 w = true

instance (store : Store σ ω) (s : Sessions σ ω ε β) (i : Nat) (new : List ω) :
    Decidable (Waits store s i new) :=
  inferInstanceAs (Decidable (∃ entry ∈ s.pending, _))

/-- Without its transaction; the failure reaches the caller. -/
def rollBack (s : Sessions σ ω ε β) (i : Nat) : Sessions σ ω ε β :=
  { s with pending := s.release i, sessions := s.set i .idle }

end Sessions

inductive SessionLabel (κ : Type) where
  | begin (i : Nat) (call : κ)
  | advance (i : Nat)
  | abort (i : Nat)
  | commit (i : Nat)
  | finish (i : Nat)

section Interleaving

variable {σ ω ε β κ : Type} (store : Store σ ω) (program : κ → Program σ ω ε β)

/-- The next statement of a session, unless it has to wait. -/
def advanceSession (s : Sessions σ ω ε β) (i : Nat) : Program σ ω ε β → Option (Sessions σ ω ε β)
  | .done _ => none
  | .statement run next =>
      match run (store.view s.committed (s.writesOf i)) with
      | .error _ => some (s.rollBack i)
      | .ok (new, value) =>
          if s.Waits store i new then none
          else some { s with
            pending := s.pending ++ new.map fun w => (i, w)
            sessions := s.set i (.running (next value)) }

def sessionStep (s : Sessions σ ω ε β) : SessionLabel κ → Option (Sessions σ ω ε β)
  | .begin i call =>
      match s.sessions i with
      | .idle => some { s with sessions := s.set i (.running (program call)) }
      | _ => none
  | .advance i =>
      match s.sessions i with
      | .running rest => advanceSession store s i rest
      | _ => none
  | .abort i =>
      match s.sessions i with
      | .running _ => some (s.rollBack i)
      | _ => none
  | .commit i =>
      match s.sessions i with
      | .running (.done result) =>
          some { committed := store.view s.committed (s.writesOf i)
                 pending := s.release i
                 sessions := s.set i (.committed result) }
      | _ => none
  | .finish i =>
      match s.sessions i with
      | .committed _ => some { s with sessions := s.set i .idle }
      | _ => none

/-- Sessions that call transactions one statement at a time. -/
def sessionMachine : Machine (Sessions σ ω ε β) (SessionLabel κ) := ⟨sessionStep store program⟩

end Interleaving

/-! ## The writes of a session -/

namespace Sessions

variable {σ ω ε β : Type} (s : Sessions σ ω ε β) (i j : Nat)

theorem set_self (session : Session σ ω ε β) : s.set i session i = session :=
  Function.update_self ..

theorem set_of_ne {i j : Nat} (hne : j ≠ i) (session : Session σ ω ε β) :
    s.set i session j = s.sessions j := Function.update_of_ne hne ..

theorem mem_writesOf {w : ω} : w ∈ s.writesOf i ↔ (i, w) ∈ s.pending := by
  unfold writesOf
  constructor
  · intro h
    obtain ⟨⟨owner, _⟩, hmem, rfl⟩ := List.mem_map.mp h
    obtain ⟨hpending, howner⟩ := List.mem_filter.mp hmem
    obtain rfl : owner = i := by simpa using howner
    exact hpending
  · intro h
    exact List.mem_map.mpr ⟨(i, w), List.mem_filter.mpr ⟨h, by simp⟩, rfl⟩

theorem writesOf_append (sessions : Nat → Session σ ω ε β) (new : List ω) :
    writesOf { s with pending := s.pending ++ new.map fun w => (i, w), sessions } j =
      if j = i then s.writesOf j ++ new else s.writesOf j := by
  unfold writesOf
  rw [List.filter_append, List.map_append]
  by_cases same : j = i
  · subst same
    have hall : (new.map fun w => (j, w)).filter (fun entry => decide (entry.1 = j)) =
        new.map fun w => (j, w) := by
      rw [List.filter_eq_self]
      intro entry hentry
      obtain ⟨w, _, rfl⟩ := List.mem_map.mp hentry
      simp
    rw [if_pos rfl, hall, List.map_map]
    exact congrArg _ (List.map_id _)
  · have hnone : (new.map fun w => (i, w)).filter (fun entry => decide (entry.1 = j)) = [] := by
      rw [List.filter_eq_nil_iff]
      intro entry hentry
      obtain ⟨w, _, rfl⟩ := List.mem_map.mp hentry
      simpa using Ne.symm same
    rw [if_neg same, hnone, List.map_nil, List.append_nil]

theorem writesOf_release (committed : σ) (sessions : Nat → Session σ ω ε β) :
    writesOf { committed, pending := s.release i, sessions } j =
      if j = i then [] else s.writesOf j := by
  unfold writesOf release
  rw [List.filter_filter]
  by_cases same : j = i
  · subst same
    rw [if_pos rfl, List.map_eq_nil_iff, List.filter_eq_nil_iff]
    simp
  · rw [if_neg same]
    congr 1
    refine List.filter_congr fun entry _ => ?_
    by_cases h : entry.1 = j
    · simp [h, same]
    · simp [h]

end Sessions

/-! ## What a step does -/

section Steps

variable {σ ω ε β κ : Type}

/-- The committed database after a session's writes. -/
def Sessions.commit (store : Store σ ω) (s : Sessions σ ω ε β) (i : Nat) (result : β) :
    Sessions σ ω ε β :=
  { committed := store.view s.committed (s.writesOf i)
    pending := s.release i
    sessions := s.set i (.committed result) }

variable (store : Store σ ω) (program : κ → Program σ ω ε β)

/-- The ways a session can go on. -/
inductive SessionStep (s : Sessions σ ω ε β) : SessionLabel κ → Sessions σ ω ε β → Prop where
  | begin (i : Nat) (call : κ) (idle : s.sessions i = .idle) :
      SessionStep s (.begin i call) { s with sessions := s.set i (.running (program call)) }
  | statement (i : Nat) {α : Type} (run : σ → Except ε (List ω × α)) (rest : α → Program σ ω ε β)
      (new : List ω) (value : α) (session : s.sessions i = .running (.statement run rest))
      (result : run (store.view s.committed (s.writesOf i)) = .ok (new, value))
      (free : ¬s.Waits store i new) :
      SessionStep s (.advance i)
        { s with pending := s.pending ++ new.map fun w => (i, w)
                 sessions := s.set i (.running (rest value)) }
  | fail (i : Nat) (rest : Program σ ω ε β) (session : s.sessions i = .running rest) :
      SessionStep s (.advance i) (s.rollBack i)
  | abort (i : Nat) (rest : Program σ ω ε β) (session : s.sessions i = .running rest) :
      SessionStep s (.abort i) (s.rollBack i)
  | commit (i : Nat) (result : β) (session : s.sessions i = .running (.done result)) :
      SessionStep s (.commit i) (s.commit store i result)
  | finish (i : Nat) (result : β) (session : s.sessions i = .committed result) :
      SessionStep s (.finish i) { s with sessions := s.set i .idle }

variable {store program}

theorem sessionStep_cases {s next : Sessions σ ω ε β} {label : SessionLabel κ}
    (hstep : sessionStep store program s label = some next) :
    SessionStep store program s label next := by
  cases label with
  | begin i call =>
      cases hsession : s.sessions i with
      | running rest => simp [sessionStep, hsession] at hstep
      | committed result => simp [sessionStep, hsession] at hstep
      | idle =>
          simp only [sessionStep, hsession, Option.some.injEq] at hstep
          exact hstep ▸ .begin i call hsession
  | advance i =>
      cases hsession : s.sessions i with
      | idle => simp [sessionStep, hsession] at hstep
      | committed result => simp [sessionStep, hsession] at hstep
      | running rest =>
          simp only [sessionStep, hsession] at hstep
          cases rest with
          | done result => cases hstep
          | statement run rest =>
              rw [advanceSession] at hstep
              cases hrun : run (store.view s.committed (s.writesOf i)) with
              | error e =>
                  rw [hrun] at hstep
                  exact Option.some.inj hstep ▸ .fail i _ hsession
              | ok last =>
                  obtain ⟨new, value⟩ := last
                  rw [hrun] at hstep
                  dsimp only at hstep
                  split at hstep
                  · cases hstep
                  · rename_i hfree
                    exact Option.some.inj hstep ▸ .statement i run rest new value hsession hrun hfree
  | abort i =>
      cases hsession : s.sessions i with
      | idle => simp [sessionStep, hsession] at hstep
      | committed result => simp [sessionStep, hsession] at hstep
      | running rest =>
          simp only [sessionStep, hsession] at hstep
          exact Option.some.inj hstep ▸ .abort i rest hsession
  | commit i =>
      cases hsession : s.sessions i with
      | idle => simp [sessionStep, hsession] at hstep
      | committed result => simp [sessionStep, hsession] at hstep
      | running rest =>
          cases rest with
          | statement run rest => simp [sessionStep, hsession] at hstep
          | done result =>
              simp only [sessionStep, hsession] at hstep
              exact Option.some.inj hstep ▸ .commit i result hsession
  | finish i =>
      cases hsession : s.sessions i with
      | idle => simp [sessionStep, hsession] at hstep
      | running rest => simp [sessionStep, hsession] at hstep
      | committed result =>
          simp only [sessionStep, hsession, Option.some.injEq] at hstep
          exact hstep ▸ .finish i result hsession

end Steps

end BrainCore.Foundation
