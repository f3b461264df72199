import BrainCore.Foundation.Transaction

/-!
# Transactions that do not see each other

A transaction is stable when nothing that another one commits, as long as their
writes do not clash, changes what its statements have read and written.  Stable
transactions run as if each were alone at its commit.
-/

namespace BrainCore.Foundation

variable {σ ω ε β κ : Type}

namespace Program

/-- A program that, alone on a database, comes to a point of itself with these writes. -/
inductive Passes (store : Store σ ω) (program : Program σ ω ε β) (db : σ) :
    Program σ ω ε β → List ω → Prop where
  | start : Passes store program db program []
  | statement {α : Type} (run : σ → Except ε (List ω × α)) (next : α → Program σ ω ε β)
      (writes new : List ω) (value : α) (before : Passes store program db (.statement run next) writes)
      (result : run (store.view db writes) = .ok (new, value)) :
      Passes store program db (next value) (writes ++ new)

variable {store : Store σ ω} {program rest : Program σ ω ε β} {db : σ} {writes : List ω}

/-- From there on it ends as it would from its start. -/
theorem Passes.runFrom_eq (h : Passes store program db rest writes) :
    program.runFrom store db [] = rest.runFrom store db writes := by
  induction h with
  | start => rfl
  | statement run next writes new value _ hresult ih => rw [ih, runFrom, hresult]

theorem Passes.runAlone {result : β} (h : Passes store program db (.done result) writes) :
    program.runAlone store db = .ok (store.view db writes, result) :=
  (runAlone_ok store).mpr ⟨writes, h.runFrom_eq, rfl⟩

end Program

open Program

/-- Two lists of writes without a row in common. -/
def Free (store : Store σ ω) (first second : List ω) : Prop :=
  ∀ w ∈ first, ∀ w' ∈ second, store.clash w w' = false

theorem free_nil_left {store : Store σ ω} (second : List ω) : Free store [] second :=
  fun _ hmem => (nomatch hmem)

theorem Free.append_left {store : Store σ ω} {first more second : List ω}
    (h : Free store first second) (hmore : Free store more second) :
    Free store (first ++ more) second := by
  intro w hw
  rcases List.mem_append.mp hw with hw | hw
  · exact h w hw
  · exact hmore w hw

theorem Free.symm {store : Store σ ω} {first second : List ω}
    (hsymm : ∀ w w', store.clash w w' = store.clash w' w) (h : Free store first second) :
    Free store second first := fun w hw w' hw' => (hsymm w w').trans (h w' hw' w hw)

/-- Two rows of one write each are the same row either way. -/
theorem any_any_comm {α : Type} (first second : Option α) {same : α → α → Bool}
    (hsymm : ∀ row other, same row other = same other row) :
    (first.any fun row => second.any (same row)) = second.any fun row => first.any (same row) := by
  cases first <;> cases second <;> simp [hsymm]

/-- What one call has done stays as it is under the writes of another that do not clash. -/
def Stable (store : Store σ ω) (program : κ → Program σ ω ε β) : Prop :=
  ∀ call call' db db' rest rest' writes writes',
    Passes store (program call) db rest writes → Passes store (program call') db' rest' writes' →
      Free store writes writes' → Passes store (program call) (store.view db writes') rest writes

/-- Each open transaction is where it would be alone on what is committed. -/
structure Isolated (store : Store σ ω) (program : κ → Program σ ω ε β) (s : Sessions σ ω ε β) :
    Prop where
  passes : ∀ i rest, s.sessions i = .running rest →
    ∃ call, Passes store (program call) s.committed rest (s.writesOf i)
  free : ∀ i j, i ≠ j → Free store (s.writesOf i) (s.writesOf j)
  owned : ∀ i, (∀ rest, s.sessions i ≠ .running rest) → s.writesOf i = []

variable {store : Store σ ω} {program : κ → Program σ ω ε β} {s next : Sessions σ ω ε β}

/-- A step that changes one session and nothing committed. -/
theorem Isolated.of_change (i : Nat) (hsymm : ∀ w w', store.clash w w' = store.clash w' w)
    (h : Isolated store program s) (hcommitted : next.committed = s.committed)
    (hframe : ∀ j, j ≠ i → next.sessions j = s.sessions j ∧ next.writesOf j = s.writesOf j)
    (hpasses : ∀ rest, next.sessions i = .running rest →
      ∃ call, Passes store (program call) s.committed rest (next.writesOf i))
    (hfree : ∀ j, j ≠ i → Free store (next.writesOf i) (s.writesOf j))
    (howned : (∀ rest, next.sessions i ≠ .running rest) → next.writesOf i = []) :
    Isolated store program next := by
  constructor
  · intro j rest hj
    rw [hcommitted]
    by_cases hji : j = i
    · subst hji
      exact hpasses rest hj
    · rw [(hframe j hji).1] at hj
      rw [(hframe j hji).2]
      exact h.passes j rest hj
  · intro j k hjk
    by_cases hji : j = i
    · subst hji
      rw [(hframe k hjk.symm).2]
      exact hfree k hjk.symm
    · rw [(hframe j hji).2]
      by_cases hki : k = i
      · subst hki
        exact (hfree j hji).symm hsymm
      · rw [(hframe k hki).2]
        exact h.free j k hjk
  · intro j hj
    by_cases hji : j = i
    · subst hji
      exact howned hj
    · rw [(hframe j hji).2]
      exact h.owned j fun rest => (hframe j hji).1 ▸ hj rest

/-- A session that is not in a transaction has no part in the others. -/
theorem Isolated.setSession (i : Nat) {session : Session σ ω ε β}
    (hsymm : ∀ w w', store.clash w w' = store.clash w' w) (h : Isolated store program s)
    (hnone : s.writesOf i = [])
    (hpasses : ∀ rest, session = .running rest →
      ∃ call, Passes store (program call) s.committed rest []) :
    Isolated store program { s with sessions := s.set i session } := by
  have hsame : ∀ j, ({ s with sessions := s.set i session } : Sessions σ ω ε β).writesOf j =
      s.writesOf j := fun _ => rfl
  refine h.of_change i hsymm rfl (fun j hj => ⟨s.set_of_ne hj _, hsame j⟩) ?_ ?_ (fun _ => hnone)
  · intro rest hrest
    rw [hsame, hnone]
    exact hpasses rest ((s.set_self i session).symm.trans hrest)
  · intro j _
    rw [hsame, hnone]
    exact free_nil_left _

theorem Isolated.rollBack (i : Nat) (hsymm : ∀ w w', store.clash w w' = store.clash w' w)
    (h : Isolated store program s) : Isolated store program (s.rollBack i) := by
  have hwrites : ∀ j, (s.rollBack i).writesOf j = if j = i then [] else s.writesOf j := fun j =>
    Sessions.writesOf_release s i j _ _
  have hnone : (s.rollBack i).writesOf i = [] := by rw [hwrites, if_pos rfl]
  refine h.of_change i hsymm rfl (fun j hj => ⟨s.set_of_ne hj _, ?_⟩) ?_ ?_ (fun _ => hnone)
  · rw [hwrites, if_neg hj]
  · intro rest hrest
    cases (s.set_self i .idle).symm.trans hrest
  · intro j _
    rw [hnone]
    exact free_nil_left _

theorem Isolated.statement (i : Nat) {α : Type} {run : σ → Except ε (List ω × α)}
    {rest : α → Program σ ω ε β} {new : List ω} {value : α}
    (hsymm : ∀ w w', store.clash w w' = store.clash w' w) (h : Isolated store program s)
    (hsession : s.sessions i = .running (.statement run rest))
    (hrun : run (store.view s.committed (s.writesOf i)) = .ok (new, value))
    (hfree : ¬s.Waits store i new) :
    Isolated store program
      { s with pending := s.pending ++ new.map fun w => (i, w)
               sessions := s.set i (.running (rest value)) } := by
  refine h.of_change i hsymm rfl (fun j hj => ⟨s.set_of_ne hj _, ?_⟩) ?_ ?_ ?_
  · rw [Sessions.writesOf_append, if_neg hj]
  · intro rest' hrest'
    obtain rfl : rest value = rest' :=
      Session.running.inj ((s.set_self i (.running (rest value))).symm.trans hrest')
    rw [Sessions.writesOf_append, if_pos rfl]
    obtain ⟨call, hpasses⟩ := h.passes i _ hsession
    exact ⟨call, .statement run rest _ new value hpasses hrun⟩
  · intro j hj
    rw [Sessions.writesOf_append, if_pos rfl]
    apply (h.free i j hj.symm).append_left
    intro w hw w' hw'
    by_contra hclash
    rw [Bool.not_eq_false, hsymm] at hclash
    exact hfree ⟨(j, w'), (s.mem_writesOf j).mp hw', hj, w, hw, hclash⟩
  · exact fun hidle => absurd (s.set_self i _) (hidle (rest value))

/-- A commit leaves the others where they are, since they are stable. -/
theorem Isolated.commit (i : Nat) {result : β} (hstable : Stable store program)
    (h : Isolated store program s) (hsession : s.sessions i = .running (.done result)) :
    Isolated store program (s.commit store i result) := by
  have hwrites : ∀ j, (s.commit store i result).writesOf j = if j = i then [] else s.writesOf j :=
    fun j => Sessions.writesOf_release s i j _ _
  obtain ⟨call', hpasses'⟩ := h.passes i _ hsession
  constructor
  · intro j rest hrest
    have hji : j ≠ i := by
      rintro rfl
      cases (s.set_self j (.committed result)).symm.trans hrest
    obtain ⟨call, hpasses⟩ := h.passes j rest ((s.set_of_ne hji _).symm.trans hrest)
    rw [hwrites, if_neg hji]
    exact ⟨call, hstable call call' _ _ _ _ _ _ hpasses hpasses' (h.free j i hji)⟩
  · intro j k hjk
    rw [hwrites, hwrites]
    by_cases hji : j = i
    · rw [if_pos hji]
      exact free_nil_left _
    · by_cases hki : k = i
      · rw [if_pos hki]
        exact fun _ _ _ hmem => (nomatch hmem)
      · rw [if_neg hji, if_neg hki]
        exact h.free j k hjk
  · intro j hidle
    rw [hwrites]
    by_cases hji : j = i
    · rw [if_pos hji]
    · rw [if_neg hji]
      exact h.owned j fun rest hrest => hidle rest ((s.set_of_ne hji _).trans hrest)

theorem Isolated.step {label : SessionLabel κ} (hstable : Stable store program)
    (hsymm : ∀ w w', store.clash w w' = store.clash w' w) (h : Isolated store program s)
    (hstep : sessionStep store program s label = some next) : Isolated store program next := by
  cases sessionStep_cases hstep with
  | begin i call hidle =>
      refine h.setSession i hsymm (h.owned i fun rest => by simp [hidle]) fun rest hrest => ?_
      obtain rfl := Session.running.inj hrest
      exact ⟨call, .start⟩
  | statement i run rest new value hsession hrun hfree =>
      exact h.statement i hsymm hsession hrun hfree
  | fail i rest _ => exact h.rollBack i hsymm
  | abort i rest _ => exact h.rollBack i hsymm
  | commit i result hsession => exact h.commit i hstable hsession
  | finish i result hsession =>
      exact h.setSession i hsymm (h.owned i fun rest => by simp [hsession]) nofun

theorem isolated_of_run {db : σ} {labels : List (SessionLabel κ)} (hstable : Stable store program)
    (hsymm : ∀ w w', store.clash w w' = store.clash w' w)
    (hrun : (sessionMachine store program).run { committed := db } labels = some s) :
    Isolated store program s := by
  have hstart : Isolated store program { committed := db } :=
    ⟨nofun, fun _ _ _ => free_nil_left _, fun _ _ => rfl⟩
  exact (sessionMachine store program).invariant_of_run
    (fun _ _ _ h hstep => h.step hstable hsymm hstep) hstart hrun

/-- Only a commit changes what is committed, to what its call makes of it alone. -/
theorem Isolated.committed_step {label : SessionLabel κ} (h : Isolated store program s)
    (hstep : sessionStep store program s label = some next) :
    next.committed = s.committed ∨ ∃ i call result, label = .commit i ∧
      s.sessions i = .running (.done result) ∧
      (program call).runAlone store s.committed = .ok (next.committed, result) := by
  cases sessionStep_cases hstep with
  | commit i result hsession =>
      obtain ⟨call, hpasses⟩ := h.passes i _ hsession
      exact .inr ⟨i, call, result, rfl, hsession, hpasses.runAlone⟩
  | begin => exact .inl rfl
  | statement => exact .inl rfl
  | fail => exact .inl rfl
  | abort => exact .inl rfl
  | finish => exact .inl rfl

/-- What each call keeps alone, every interleaving keeps. -/
theorem committed_invariant_of_run {db : σ} {labels : List (SessionLabel κ)} {invariant : σ → Prop}
    (hstable : Stable store program) (hsymm : ∀ w w', store.clash w w' = store.clash w' w)
    (hkeeps : ∀ call db next result, invariant db →
      (program call).runAlone store db = .ok (next, result) → invariant next)
    (holds : invariant db)
    (hrun : (sessionMachine store program).run { committed := db } labels = some s) :
    invariant s.committed := by
  have hboth : Isolated store program s ∧ invariant s.committed := by
    refine @Machine.invariant_of_run _ _ (sessionMachine store program)
      (fun s => Isolated store program s ∧ invariant s.committed) ?_ _ _ _ ?_ hrun
    · rintro state label next ⟨hisolated, hinvariant⟩ hstep
      refine ⟨hisolated.step hstable hsymm hstep, ?_⟩
      rcases hisolated.committed_step hstep with hsame | ⟨i, call, result, -, -, halone⟩
      · rw [hsame]
        exact hinvariant
      · exact hkeeps call _ _ result hinvariant halone
    · exact ⟨⟨nofun, fun _ _ _ => free_nil_left _, fun _ _ => rfl⟩, holds⟩
  exact hboth.2

end BrainCore.Foundation
