import BrainCore.Foundation.Isolation

/-!
# Pre- and postconditions under interference

A discipline says what a commit may do to the committed database and what holds
of it between commits.  A triple says what a program has read and written by its
end when every commit of another transaction in the meantime keeps to the
discipline and writes no row that the program has locked.
-/

namespace BrainCore.Foundation

/-! ## Programs in sequence -/

namespace Program

variable {σ ω ε α β : Type}

def bind : Program σ ω ε α → (α → Program σ ω ε β) → Program σ ω ε β
  | .done result, rest => rest result
  | .statement run next, rest => .statement run fun value => (next value).bind rest

instance instMonadProgram : Monad (Program σ ω ε) where
  pure := .done
  bind := bind

/-- One statement. -/
def execute (run : σ → Except ε (List ω × α)) : Program σ ω ε α := .statement run .done

/-- A statement that only reads. -/
def select (read : σ → α) : Program σ ω ε α := execute fun db => .ok ([], read db)

/-- Fails, and with it the transaction. -/
def throw (error : ε) : Program σ ω ε α := execute fun _ => .error error

/-- A check outside the database. -/
def ofExcept : Except ε α → Program σ ω ε α
  | .ok value => .done value
  | .error error => throw error

/-! ### Alone on the database -/

section Alone

variable {store : Store σ ω} {db next : σ}

theorem runAlone_bind {program : Program σ ω ε α} {rest : α → Program σ ω ε β} {result : β} :
    runAlone store (program >>= rest) db = .ok (next, result) ↔
      ∃ middle value, runAlone store program db = .ok (middle, value) ∧
        runAlone store (rest value) middle = .ok (next, result) := by
  change runAlone store (program.bind rest) db = _ ↔ _
  induction program generalizing db with
  | done value =>
      rw [bind]
      constructor
      · exact fun h => ⟨db, value, rfl, h⟩
      · rintro ⟨_, _, ⟨⟩, h⟩
        exact h
  | statement run after ih =>
      rw [bind, runAlone_statement]
      constructor
      · rintro ⟨new, value, hrun, hrest⟩
        obtain ⟨middle, last, hafter, hlast⟩ := (ih value).mp hrest
        exact ⟨middle, last, (runAlone_statement store).mpr ⟨new, value, hrun, hafter⟩, hlast⟩
      · rintro ⟨middle, last, hprogram, hlast⟩
        obtain ⟨new, value, hrun, hafter⟩ := (runAlone_statement store).mp hprogram
        exact ⟨new, value, hrun, (ih value).mpr ⟨middle, last, hafter, hlast⟩⟩

theorem runAlone_pure {value result : α} :
    runAlone store (pure value : Program σ ω ε α) db = .ok (next, result) ↔
      next = db ∧ result = value := by
  change (Except.ok (db, value) : Except ε (σ × α)) = _ ↔ _
  rw [Except.ok.injEq, Prod.mk.injEq, @eq_comm _ db, @eq_comm _ value]

theorem runAlone_execute {run : σ → Except ε (List ω × α)} {result : α} :
    runAlone store (execute run) db = .ok (next, result) ↔
      ∃ new, run db = .ok (new, result) ∧ next = store.view db new := by
  rw [execute, runAlone_statement]
  constructor
  · rintro ⟨new, value, hrun, hdone⟩
    cases hdone
    exact ⟨new, hrun, rfl⟩
  · rintro ⟨new, hrun, rfl⟩
    exact ⟨new, result, hrun, rfl⟩

theorem runAlone_select {read : σ → α} {result : α} :
    runAlone store (select read : Program σ ω ε α) db = .ok (next, result) ↔
      next = db ∧ result = read db := by
  rw [select, runAlone_execute]
  constructor
  · rintro ⟨new, ⟨⟩, rfl⟩
    exact ⟨rfl, rfl⟩
  · rintro ⟨rfl, rfl⟩
    exact ⟨[], rfl, rfl⟩

theorem not_runAlone_throw {error : ε} {result : α} :
    runAlone store (throw error : Program σ ω ε α) db ≠ .ok (next, result) := by
  rw [throw, ne_eq, runAlone_execute]
  rintro ⟨new, hrun, -⟩
  cases hrun

theorem runAlone_ofExcept {outcome : Except ε α} {result : α} :
    runAlone store (ofExcept outcome) db = .ok (next, result) ↔
      next = db ∧ outcome = .ok result := by
  cases outcome with
  | ok value =>
      change runAlone store (pure value) db = _ ↔ _
      rw [runAlone_pure, Except.ok.injEq, @eq_comm _ result]
  | error error =>
      constructor
      · exact fun h => absurd h not_runAlone_throw
      · rintro ⟨-, h⟩
        cases h

end Alone

end Program

open Program

/-- What commits may do, and what they keep. -/
structure Discipline {σ ω : Type} (store : Store σ ω) where
  invariant : σ → Prop
  permits : σ → List ω → Prop
  keeps : ∀ db writes, invariant db → permits db writes → invariant (store.view db writes)

namespace Discipline

variable {σ ω ε α β : Type} {store : Store σ ω} (d : Discipline store)

/-- No commit makes it false. -/
def Lasting (fact : σ → Prop) : Prop :=
  ∀ db writes, d.invariant db → fact db → d.permits db writes → fact (store.view db writes)

/-- No commit that leaves a transaction's own writes alone makes it false. -/
def Stable (fact : σ → List ω → Prop) : Prop :=
  ∀ db own theirs, d.invariant db → fact db own → d.permits db theirs → Free store theirs own →
    fact (store.view db theirs) own

/-- What holds of the committed database and the transaction's writes before the program holds
of them after it, with the result. -/
def Triple (pre : σ → List ω → Prop) : Program σ ω ε β → (β → σ → List ω → Prop) → Prop
  | .done result, post => ∀ db own, d.invariant db → pre db own → post result db own
  | .statement (α := α) run next, post =>
      ∃ mid : α → σ → List ω → Prop, (∀ value, d.Stable (mid value)) ∧
        (∀ db own new value, d.invariant db → pre db own →
          run (store.view db own) = .ok (new, value) → mid value db (own ++ new)) ∧
        ∀ value, Triple (mid value) (next value) post

variable {d}

/-! ## Lasting and stable facts -/

theorem lasting_true : d.Lasting fun _ => True := fun _ _ _ _ _ => trivial

theorem Lasting.and {first second : σ → Prop} (hfirst : d.Lasting first)
    (hsecond : d.Lasting second) : d.Lasting fun db => first db ∧ second db :=
  fun db writes hdb h hpermits =>
    ⟨hfirst db writes hdb h.1 hpermits, hsecond db writes hdb h.2 hpermits⟩

theorem Lasting.stable {fact : σ → Prop} (h : d.Lasting fact) : d.Stable fun db _ => fact db :=
  fun db _ theirs hdb hfact hpermits _ => h db theirs hdb hfact hpermits

theorem Stable.and {first second : σ → List ω → Prop} (hfirst : d.Stable first)
    (hsecond : d.Stable second) : d.Stable fun db own => first db own ∧ second db own :=
  fun db own theirs hdb h hpermits hfree =>
    ⟨hfirst db own theirs hdb h.1 hpermits hfree, hsecond db own theirs hdb h.2 hpermits hfree⟩

theorem stable_own (fact : List ω → Prop) : d.Stable fun _ own => fact own :=
  fun _ _ _ _ h _ _ => h

/-! ## The rules -/

namespace Triple

variable {pre pre' : σ → List ω → Prop} {post post' : β → σ → List ω → Prop}

theorem weaken {program : Program σ ω ε β} (h : d.Triple pre program post)
    (hpre : ∀ db own, d.invariant db → pre' db own → pre db own) : d.Triple pre' program post := by
  cases program with
  | done result => exact fun db own hdb hown => h db own hdb (hpre db own hdb hown)
  | statement run next =>
      obtain ⟨mid, hstable, hrun, hnext⟩ := h
      exact ⟨mid, hstable,
        fun db own new value hdb hown => hrun db own new value hdb (hpre db own hdb hown), hnext⟩

theorem mono {program : Program σ ω ε β} (h : d.Triple pre program post)
    (hpost : ∀ result db own, d.invariant db → post result db own → post' result db own) :
    d.Triple pre program post' := by
  induction program generalizing pre with
  | done result => exact fun db own hdb hown => hpost result db own hdb (h db own hdb hown)
  | statement run next ih =>
      obtain ⟨mid, hstable, hrun, hnext⟩ := h
      exact ⟨mid, hstable, hrun, fun value => ih value (hnext value)⟩

theorem done {result : β} (h : ∀ db own, d.invariant db → pre db own → post result db own) :
    d.Triple pre (.done result : Program σ ω ε β) post := h

theorem bind {program : Program σ ω ε α} {rest : α → Program σ ω ε β}
    {mid : α → σ → List ω → Prop} (h : d.Triple pre program mid)
    (hrest : ∀ value, d.Triple (mid value) (rest value) post) :
    d.Triple pre (program.bind rest) post := by
  induction program generalizing pre with
  | done result => exact (hrest result).weaken h
  | statement run next ih =>
      obtain ⟨between, hstable, hrun, hnext⟩ := h
      exact ⟨between, hstable, hrun, fun value => ih value (hnext value)⟩

/-- A statement ends in a fact that is stable and holds right after it. -/
theorem execute {run : σ → Except ε (List ω × β)} (hstable : ∀ value, d.Stable (post value))
    (hrun : ∀ db own new value, d.invariant db → pre db own →
      run (store.view db own) = .ok (new, value) → post value db (own ++ new)) :
    d.Triple pre (Program.execute run) post :=
  ⟨post, hstable, hrun, fun _ _ _ _ h => h⟩

theorem select {read : σ → β} (hstable : ∀ value, d.Stable (post value))
    (hread : ∀ db own, d.invariant db → pre db own → post (read (store.view db own)) db own) :
    d.Triple pre (Program.select (ε := ε) read) post := by
  apply execute hstable
  intro db own new value hdb hown hrun
  cases hrun
  rw [List.append_nil]
  exact hread db own hdb hown

theorem throw (error : ε) : d.Triple pre (Program.throw error : Program σ ω ε β) post := by
  refine ⟨fun _ _ _ => False, fun _ => stable_own fun _ => False, ?_, ?_⟩
  · intro db own new value _ _ hrun
    cases hrun
  · rintro value db own - ⟨⟩

theorem ofExcept {result : Except ε β}
    (h : ∀ value, result = .ok value → ∀ db own, d.invariant db → pre db own → post value db own) :
    d.Triple pre (Program.ofExcept result : Program σ ω ε β) post := by
  cases result with
  | ok value => exact done (h value rfl)
  | error error => exact throw error

theorem of_false {program : Program σ ω ε β} (h : ∀ db own, ¬pre db own) :
    d.Triple pre program post := by
  induction program generalizing pre with
  | done result => exact fun db own _ hown => absurd hown (h db own)
  | statement run next ih =>
      refine ⟨fun _ _ _ => False, fun _ => stable_own fun _ => False, ?_, ?_⟩
      · exact fun db own _ _ _ hown => absurd hown (h db own)
      · exact fun value => ih value fun _ _ => not_false

/-- A part of the precondition that is about neither the database nor the writes. -/
theorem assume {p : Prop} {program : Program σ ω ε β} (h : p → d.Triple pre program post) :
    d.Triple (fun db own => p ∧ pre db own) program post := by
  by_cases hp : p
  · exact (h hp).weaken fun _ _ _ => And.right
  · exact of_false fun _ _ hown => hp hown.1

/-- A lasting fact holds to the end. -/
theorem frame {fact : σ → Prop} {program : Program σ ω ε β} (hfact : d.Lasting fact)
    (h : d.Triple pre program post) :
    d.Triple (fun db own => fact db ∧ pre db own) program
      fun result db own => fact db ∧ post result db own := by
  induction program generalizing pre with
  | done result => exact fun db own hdb hown => ⟨hown.1, h db own hdb hown.2⟩
  | statement run next ih =>
      obtain ⟨mid, hstable, hrun, hnext⟩ := h
      exact ⟨fun value db own => fact db ∧ mid value db own,
        fun value => hfact.stable.and (hstable value),
        fun db own new value hdb hown hresult =>
          ⟨hown.1, hrun db own new value hdb hown.2 hresult⟩,
        fun value => ih value (hnext value)⟩

/-- What a triple says of a program that runs alone. -/
theorem alone {program : Program σ ω ε β} (h : d.Triple pre program post) {db next : σ}
    {result : β} (hdb : d.invariant db) (hpre : pre db [])
    (hrun : program.runAlone store db = .ok (next, result)) :
    ∃ own, next = store.view db own ∧ post result db own := by
  obtain ⟨writes, hwrites, rfl⟩ := (Program.runAlone_ok store).mp hrun
  suffices hall : ∀ own, pre db own → Program.runFrom store program db own = .ok (writes, result) →
      post result db writes from ⟨writes, rfl, hall [] hpre hwrites⟩
  clear hpre hwrites hrun
  induction program generalizing pre with
  | done value =>
      intro own hown hrun
      cases hrun
      exact h db _ hdb hown
  | statement run rest ih =>
      obtain ⟨mid, -, hstep, hrest⟩ := h
      intro own hown hrun
      rw [Program.runFrom] at hrun
      split at hrun
      · cases hrun
      · rename_i new value hresult
        exact ih value (hrest value) (own ++ new) (hstep db own new value hdb hown hresult) hrun

end Triple

end Discipline

end BrainCore.Foundation
