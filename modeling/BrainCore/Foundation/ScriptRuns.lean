import BrainCore.Foundation.ScriptRules

/-!
# Runs of sound scripts

Each call of a run relies on what the other calls and other components commit,
and commits only what is in its own share.  When what one commits is always what
the others rely on, what a call knows holds however the calls interleave; a call
may then know what its own commits would make false.  Calls that all rely on one
discipline are a case of it.
-/

namespace BrainCore.Foundation

variable {σ ω ν τ ε α β γ κ : Type} {store : Store σ ω}

namespace Discipline

variable (d : Discipline store)

/-- The call goes on to commit only what is in its share. -/
def KeepsAs (share : σ → List ω → Prop) (db : σ) : Call σ ω ν τ ε β → Prop
  | .between script =>
      ∃ (know : σ → Prop) (post : β → σ → Prop), d.Lasting know ∧ know db ∧
        d.SoundAs share know script post
  | .inside (α := α) own body next =>
      ∃ (know : σ → Prop) (pre : σ → List ω → Prop) (learn : Except ε α → σ → Prop)
        (post : β → σ → Prop), (d.Lasting know ∧ know db) ∧ (d.Stable pre ∧ pre db own) ∧
        (∀ result, d.Lasting (learn result)) ∧
        (∀ error db, d.invariant db → know db → learn (.error error) db) ∧
        d.Triple pre body (fun result db own =>
          share db own ∧ learn (.ok result) (store.view db own)) ∧
        ∀ result, d.SoundAs share (learn result) (next result) post
  | .crashed => True

variable {d}

theorem KeepsAs.of_commit {share : σ → List ω → Prop} {db : σ} {theirs : List ω}
    {call : Call σ ω ν τ ε β} (h : d.KeepsAs share db call) (hdb : d.invariant db)
    (hpermits : d.permits db theirs) (hfree : Free store theirs call.own) :
    d.KeepsAs share (store.view db theirs) call := by
  cases call with
  | crashed => trivial
  | between script =>
      obtain ⟨know, post, hlasting, hknow, hsound⟩ := h
      exact ⟨know, post, hlasting, hlasting db theirs hdb hknow hpermits, hsound⟩
  | inside own body next =>
      obtain ⟨know, pre, learn, post, ⟨hlasting, hknow⟩, ⟨hstable, hpre⟩, hrest⟩ := h
      exact ⟨know, pre, learn, post, ⟨hlasting, hlasting db theirs hdb hknow hpermits⟩,
        ⟨hstable, hstable db own theirs hdb hpre hpermits hfree⟩, hrest⟩

theorem free_of_locked {calls : List (Call σ ω ν τ ε β)} {writes : List ω}
    (h : Calls.locked store calls writes = false) {call : Call σ ω ν τ ε β} (hcall : call ∈ calls) :
    Free store call.own writes := by
  intro held hheld w hw
  rw [Calls.locked, List.any_eq_false] at h
  have hnone := h call hcall
  rw [Bool.not_eq_true, List.any_eq_false] at hnone
  have hwrites := hnone held hheld
  rw [Bool.not_eq_true, List.any_eq_false] at hwrites
  exact Bool.eq_false_iff.mpr (hwrites w hw)

end Discipline

/-! ## Roles -/

/-- What the call with a number relies on, what it commits, and what holds until it begins. -/
structure Roles (store : Store σ ω) where
  invariant : σ → Prop
  rely : Nat → σ → List ω → Prop
  share : Nat → σ → List ω → Prop
  start : Nat → σ → Prop
  relies : ∀ i db writes, invariant db → rely i db writes → invariant (store.view db writes)
  begins : ∀ i db writes, invariant db → start i db → rely i db writes →
    start i (store.view db writes)

namespace Roles

variable (r : Roles store)

def discipline (i : Nat) : Discipline store := ⟨r.invariant, r.rely i, r.relies i⟩

/-- What each call commits is what every other one relies on. -/
def Fit : Prop :=
  ∀ i j db writes, i ≠ j → r.invariant db → r.share i db writes → r.rely j db writes

/-- The invariant holds, no two calls have locked one row, and each call keeps to its role. -/
structure Held (s : Calls σ ω ν τ ε β) : Prop where
  invariant : r.invariant s.committed
  apart : ∀ (i j : Nat) (call call' : Call σ ω ν τ ε β), i ≠ j → s.calls[i]? = some call →
    s.calls[j]? = some call' → Free store call.own call'.own
  keeps : ∀ i call, s.calls[i]? = some call →
    (r.discipline i).KeepsAs (r.share i) s.committed call
  waits : ∀ i, s.calls.length ≤ i → r.start i s.committed

variable {r}

theorem Fit.keeps (h : r.Fit) {i : Nat} {db : σ} {writes : List ω} (hdb : r.invariant db)
    (hshare : r.share i db writes) : r.invariant (store.view db writes) :=
  r.relies (i + 1) db writes hdb (h i (i + 1) db writes (Nat.succ_ne_self i).symm hdb hshare)

namespace Held

variable {s : Calls σ ω ν τ ε β}

/-- One call goes on, with locks nobody else holds. -/
theorem set (h : r.Held s) (hsymm : ∀ w w', store.clash w w' = store.clash w' w) (i : Nat)
    (call : Call σ ω ν τ ε β)
    (hfree : ∀ j other, j ≠ i → s.calls[j]? = some other → Free store call.own other.own)
    (hkeeps : (r.discipline i).KeepsAs (r.share i) s.committed call) : r.Held (s.set i call) := by
  have hget : ∀ {j other}, (s.set i call).calls[j]? = some other →
      j = i ∧ other = call ∨ j ≠ i ∧ s.calls[j]? = some other := by
    intro j other hother
    change (s.calls.set i call)[j]? = some other at hother
    rw [List.getElem?_set] at hother
    split at hother
    · rename_i hij
      split at hother
      · exact .inl ⟨hij.symm, (Option.some.inj hother).symm⟩
      · cases hother
    · rename_i hij
      exact .inr ⟨Ne.symm hij, hother⟩
  constructor
  · exact h.invariant
  · intro j k first second hne hfirst hsecond
    rcases hget hfirst with ⟨rfl, rfl⟩ | ⟨hj, hbefore⟩
    · rcases hget hsecond with ⟨rfl, -⟩ | ⟨hk, hother⟩
      · exact absurd rfl hne
      · exact hfree k second hk hother
    · rcases hget hsecond with ⟨rfl, rfl⟩ | ⟨hk, hother⟩
      · exact (hfree j first hj hbefore).symm hsymm
      · exact h.apart j k first second hne hbefore hother
  · intro j other hother
    rcases hget hother with ⟨rfl, rfl⟩ | ⟨-, hj⟩
    · exact hkeeps
    · exact h.keeps j other hj
  · intro j hj
    refine h.waits j ?_
    change (s.calls.set i call).length ≤ j at hj
    rwa [List.length_set] at hj

/-- A call that holds no locks. -/
theorem set_nil (h : r.Held s) (hsymm : ∀ w w', store.clash w w' = store.clash w' w) (i : Nat)
    (call : Call σ ω ν τ ε β) (hnil : call.own = [])
    (hkeeps : (r.discipline i).KeepsAs (r.share i) s.committed call) : r.Held (s.set i call) :=
  h.set hsymm i call (fun _ _ _ _ => hnil ▸ free_nil_left _) hkeeps

/-- A commit that the calls rely on and that writes no row one of them has locked. -/
theorem commit (h : r.Held s) {writes : List ω} (own : Nat)
    (hrely : ∀ i, i ≠ own → r.rely i s.committed writes)
    (hown : own < s.calls.length → s.calls[own]? = some .crashed)
    (hinvariant : r.invariant (store.view s.committed writes))
    (hfree : ∀ call ∈ s.calls, Free store writes call.own)
    (hstart : s.calls.length ≤ own → r.start own (store.view s.committed writes)) :
    r.Held { s with committed := store.view s.committed writes } where
  invariant := hinvariant
  apart := h.apart
  keeps i call hcall := by
    by_cases hi : i = own
    · subst hi
      obtain ⟨hlt, -⟩ := List.getElem?_eq_some_iff.mp hcall
      rw [hown hlt] at hcall
      exact Option.some.inj hcall ▸ trivial
    · exact (h.keeps i call hcall).of_commit h.invariant (hrely i hi)
        (hfree call (List.mem_of_getElem? hcall))
  waits i hi := by
    by_cases hne : i = own
    · exact hne ▸ hstart (hne ▸ hi)
    · exact r.begins i _ _ h.invariant (h.waits i hi) (hrely i hne)

variable {script : κ → Script σ ω ν τ ε β} {permitted : σ → List ω → Bool}

theorem begin (h : r.Held s) (call : κ)
    (hkeeps : (r.discipline s.calls.length).KeepsAs (r.share s.calls.length) s.committed
      (Call.between (script call))) :
    r.Held { s with calls := s.calls ++ [.between (script call)] } := by
  have hget : ∀ {j : Nat} {other : Call σ ω ν τ ε β},
      (s.calls ++ [Call.between (script call)])[j]? = some other →
        s.calls[j]? = some other ∨ j = s.calls.length ∧ other = Call.between (script call) := by
    intro j other hother
    rw [List.getElem?_append] at hother
    split at hother
    · exact .inl hother
    · rename_i hj
      obtain ⟨hlast, hsame⟩ := List.getElem?_eq_some_iff.mp hother
      rw [List.length_singleton] at hlast
      refine .inr ⟨by omega, ?_⟩
      rw [← hsame, List.getElem_singleton]
  constructor
  · exact h.invariant
  · intro i j first second hne hfirst hsecond
    rcases hget hfirst with hfirst | ⟨-, rfl⟩
    · rcases hget hsecond with hsecond | ⟨-, rfl⟩
      · exact h.apart i j first second hne hfirst hsecond
      · exact fun _ _ w hw => by simp [Call.own] at hw
    · exact free_nil_left _
  · intro i other hother
    rcases hget hother with hother | ⟨rfl, rfl⟩
    · exact h.keeps i other hother
    · exact hkeeps
  · intro i hi
    refine h.waits i ?_
    change (s.calls ++ [Call.between (script call)]).length ≤ i at hi
    rw [List.length_append] at hi
    omega

/-- The committed database stays as it is, or the call that goes on commits within its share, or
another component commits. -/
theorem step (hsymm : ∀ w w', store.clash w w' = store.clash w' w) (hfit : r.Fit)
    (hpermitted : ∀ i db writes, r.invariant db → permitted db writes = true → r.rely i db writes)
    (h : r.Held s) {label : CallLabel ω ν ε κ} {next : Calls σ ω ν τ ε β}
    (hbegun : ∀ call, label = .begin call →
      ∃ post, (r.discipline s.calls.length).SoundAs (r.share s.calls.length)
        (r.start s.calls.length) (script call) post)
    (hstep : Calls.step store script permitted s label = some next) :
    r.Held next ∧ (next.committed = s.committed ∨
      (∃ i env writes, label = .advance i env ∧ r.share i s.committed writes ∧
        next.committed = store.view s.committed writes) ∨
      ∃ writes, label = .outside writes ∧ permitted s.committed writes = true ∧
        next.committed = store.view s.committed writes) := by
  cases callStep_cases hstep with
  | begin call =>
      obtain ⟨post, hpost⟩ := hbegun call rfl
      exact ⟨h.begin call ⟨_, post, fun db writes hdb hstart hrely =>
        r.begins s.calls.length db writes hdb hstart hrely, h.waits _ (Nat.le_refl _), hpost⟩, .inl rfl⟩
  | perform i env act rest hcall =>
      obtain ⟨know, post, hlasting, hknow, hsound⟩ := h.keeps _ _ hcall
      have hset := h.set_nil hsymm i (.between (rest (act env).1)) rfl
        ⟨know, post, hlasting, hknow, hsound env⟩
      exact ⟨⟨hset.invariant, hset.apart, hset.keeps, hset.waits⟩, .inl rfl⟩
  | «open» i env body rest hcall =>
      obtain ⟨know, post, hlasting, hknow, learn, hlearn, herror, hbody, hrest⟩ :=
        h.keeps _ _ hcall
      refine ⟨h.set_nil hsymm i (.inside [] body rest) rfl ?_, .inl rfl⟩
      exact ⟨know, _, learn, post, ⟨hlasting, hknow⟩,
        ⟨hlasting.stable.and (Discipline.stable_own fun own => own = []), hknow, rfl⟩, hlearn,
        herror, hbody, hrest⟩
  | statement i env own run body rest new value hcall hresult hfree =>
      obtain ⟨know, pre, learn, post, hknow, ⟨hstable, hpre⟩, hlearn, herror, hbody, hrest⟩ :=
        h.keeps _ _ hcall
      obtain ⟨mid, hmid, hrun, hnext⟩ := hbody
      refine ⟨h.set hsymm i (.inside (own ++ new) (body value) rest) ?_ ?_, .inl rfl⟩
      · intro j other hj hother
        have hmem : other ∈ s.calls.eraseIdx i :=
          List.mem_eraseIdx_iff_getElem?.mpr ⟨j, hj, hother⟩
        refine Free.append_left (h.apart i j _ _ (Ne.symm hj) hcall hother) ?_
        exact (Discipline.free_of_locked hfree hmem).symm hsymm
      · exact ⟨know, mid value, learn, post, hknow,
          ⟨hmid value, hrun _ _ _ _ h.invariant hpre hresult⟩, hlearn, herror, hnext value, hrest⟩
  | commit i env own result rest hcall =>
      obtain ⟨know, pre, learn, post, hknow, ⟨hstable, hpre⟩, hlearn, herror, hbody, hrest⟩ :=
        h.keeps _ _ hcall
      obtain ⟨hmine, hlearned⟩ := hbody _ _ h.invariant hpre
      obtain ⟨hlt, -⟩ := List.getElem?_eq_some_iff.mp hcall
      -- The locks are given up before the commit reaches the other calls.
      have hcrashed := h.set_nil hsymm i .crashed rfl trivial
      have hlength : (s.set i .crashed).calls.length = s.calls.length := List.length_set
      have hcommitted := hcrashed.commit i
        (fun j hj => hfit i j _ _ (Ne.symm hj) h.invariant hmine)
        (fun _ => List.getElem?_set_self hlt) (hfit.keeps h.invariant hmine)
        (fun other hother => by
          obtain ⟨j, hj⟩ := List.mem_iff_getElem?.mp hother
          change (s.calls.set i .crashed)[j]? = some other at hj
          rw [List.getElem?_set, if_pos hlt] at hj
          split at hj
          · cases hj
            exact fun _ _ w hw => by simp [Call.own] at hw
          · rename_i hij
            exact h.apart i j _ _ hij hcall hj)
        (fun hle => absurd hlt (by omega))
      have hnext := hcommitted.set_nil hsymm i (.between (rest (.ok result))) rfl
        ⟨_, post, hlearn _, hlearned, hrest _⟩
      refine ⟨?_, .inr (.inl ⟨i, env, own, rfl, hmine, rfl⟩)⟩
      simpa only [Calls.set, List.set_set] using hnext
  | rollBack i label own body rest error hcall =>
      obtain ⟨know, pre, learn, post, ⟨-, hknow⟩, -, hlearn, herror, -, hrest⟩ :=
        h.keeps _ _ hcall
      exact ⟨h.set_nil hsymm i _ rfl ⟨_, post, hlearn _, herror error _ h.invariant hknow, hrest _⟩,
        .inl rfl⟩
  | crash i => exact ⟨h.set_nil hsymm i .crashed rfl trivial, .inl rfl⟩
  | outside writes hallowed hfree =>
      refine ⟨?_, .inr (.inr ⟨writes, rfl, hallowed, rfl⟩)⟩
      have hrely := fun i => hpermitted i _ _ h.invariant hallowed
      exact h.commit s.calls.length (fun i _ => hrely i) (fun hlt => absurd hlt (Nat.lt_irrefl _))
        (r.relies 0 _ _ h.invariant (hrely 0))
        (fun call hcall => (Discipline.free_of_locked hfree hcall).symm hsymm)
        (fun hle => r.begins _ _ _ h.invariant (h.waits _ hle) (hrely _))

/-- Before the first call. -/
theorem start {db : σ} (hdb : r.invariant db) (hstart : ∀ i, r.start i db) :
    r.Held ({ committed := db } : Calls σ ω ν τ ε β) := by
  constructor
  · exact hdb
  · intro i j call call' _ hcall
    cases hcall
  · intro i call hcall
    cases hcall
  · exact fun i _ => hstart i

end Held

end Roles

/-! ## One discipline for all -/

namespace Discipline

variable (d : Discipline store)

/-- The invariant holds, no two calls have locked one row, and each call keeps to its share. -/
structure DisciplinedAs (share : Nat → σ → List ω → Prop) (s : Calls σ ω ν τ ε β) : Prop where
  invariant : d.invariant s.committed
  apart : ∀ (i j : Nat) (call call' : Call σ ω ν τ ε β), i ≠ j → s.calls[i]? = some call →
    s.calls[j]? = some call' → Free store call.own call'.own
  keeps : ∀ i call, s.calls[i]? = some call → d.KeepsAs (share i) s.committed call

/-- Each call keeps to the discipline. -/
abbrev Disciplined (s : Calls σ ω ν τ ε β) : Prop := d.DisciplinedAs (fun _ => d.permits) s

/-- Calls that all rely on one discipline. -/
def roles (share : Nat → σ → List ω → Prop) : Roles store where
  invariant := d.invariant
  rely _ := d.permits
  share := share
  start _ _ := True
  relies _ := d.keeps
  begins _ _ _ _ _ _ := trivial

variable {d}

namespace DisciplinedAs

variable {share : Nat → σ → List ω → Prop} {s : Calls σ ω ν τ ε β}

theorem held_iff : (d.roles share).Held s ↔ d.DisciplinedAs share s :=
  ⟨fun h => ⟨h.invariant, h.apart, h.keeps⟩,
    fun h => ⟨h.invariant, h.apart, h.keeps, fun _ _ => trivial⟩⟩

variable {script : κ → Script σ ω ν τ ε β} {permitted : σ → List ω → Bool}

/-- The committed database stays as it is, or the call that goes on commits within its share, or
another component commits. -/
theorem step (hsymm : ∀ w w', store.clash w w' = store.clash w' w)
    (hshare : ∀ i, d.Within (share i))
    (hpermitted : ∀ db writes, d.invariant db → permitted db writes = true → d.permits db writes)
    (h : d.DisciplinedAs share s) {label : CallLabel ω ν ε κ} {next : Calls σ ω ν τ ε β}
    (hbegun : ∀ call, label = .begin call →
      ∃ post, d.SoundAs (share s.calls.length) (fun _ => True) (script call) post)
    (hstep : Calls.step store script permitted s label = some next) :
    d.DisciplinedAs share next ∧ (next.committed = s.committed ∨
      (∃ i env writes, label = .advance i env ∧ share i s.committed writes ∧
        next.committed = store.view s.committed writes) ∨
      ∃ writes, label = .outside writes ∧ permitted s.committed writes = true ∧
        next.committed = store.view s.committed writes) := by
  obtain ⟨hnext, hchange⟩ := Roles.Held.step (r := d.roles share) hsymm
    (fun i _ db writes _ hdb hmine => hshare i db writes hdb hmine)
    (fun _ db writes hdb hallowed => hpermitted db writes hdb hallowed) (held_iff.mpr h) hbegun hstep
  exact ⟨held_iff.mp hnext, hchange⟩

/-- Before the first call. -/
theorem start {db : σ} (hdb : d.invariant db) :
    d.DisciplinedAs share ({ committed := db } : Calls σ ω ν τ ε β) :=
  held_iff.mp (Roles.Held.start hdb fun _ => trivial)

end DisciplinedAs

namespace Disciplined

variable {s : Calls σ ω ν τ ε β} {script : κ → Script σ ω ν τ ε β}
  {permitted : σ → List ω → Bool}

/-- The committed database stays as it is or changes by a permitted commit. -/
theorem step (hsymm : ∀ w w', store.clash w w' = store.clash w' w)
    (hpermitted : ∀ db writes, d.invariant db → permitted db writes = true → d.permits db writes)
    (h : d.Disciplined s) {label : CallLabel ω ν ε κ} {next : Calls σ ω ν τ ε β}
    (hbegun : ∀ call, label = .begin call → ∃ post, d.Sound (fun _ => True) (script call) post)
    (hstep : Calls.step store script permitted s label = some next) :
    d.Disciplined next ∧ (next.committed = s.committed ∨
      ∃ writes, d.permits s.committed writes ∧ next.committed = store.view s.committed writes) := by
  obtain ⟨hnext, hchange⟩ :=
    DisciplinedAs.step hsymm (fun _ _ _ _ => id) hpermitted h hbegun hstep
  refine ⟨hnext, ?_⟩
  obtain hsame | ⟨i, env, writes, -, hshare, hview⟩ | ⟨writes, -, hallowed, hview⟩ := hchange
  · exact .inl hsame
  · exact .inr ⟨writes, hshare, hview⟩
  · exact .inr ⟨writes, hpermitted _ _ h.invariant hallowed, hview⟩

/-- Runs in which every call that begins is sound keep to the discipline. -/
theorem of_run (hsymm : ∀ w w', store.clash w w' = store.clash w' w)
    (hpermitted : ∀ db writes, d.invariant db → permitted db writes = true → d.permits db writes)
    {db : σ} (hdb : d.invariant db) {labels : List (CallLabel ω ν ε κ)}
    {final : Calls σ ω ν τ ε β}
    (hbegun : ∀ call, .begin call ∈ labels →
      ∃ post, d.Sound (fun _ => True) (script call) post)
    (hrun : (callMachine store script permitted).run { committed := db } labels = some final) :
    d.Disciplined final := by
  have hlabels : ∀ label ∈ labels, ∀ call, label = .begin call →
      ∃ post, d.Sound (fun _ => True) (script call) post :=
    fun label hlabel call hcall => hbegun call (hcall ▸ hlabel)
  have hmeets := (callMachine store script permitted).meets_of_forall { committed := db } hlabels
  exact (callMachine store script permitted).invariant_of_meets
    (fun _ _ _ hlabel h hstep => (step hsymm hpermitted h hlabel hstep).1)
    (DisciplinedAs.start hdb) hmeets hrun

end Disciplined

end Discipline

end BrainCore.Foundation
