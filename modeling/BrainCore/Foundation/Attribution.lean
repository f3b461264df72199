import BrainCore.Foundation.ScriptRuns

/-!
# Which call a commit belongs to

Calls are numbered in the order they begin.  A commit of a run belongs to the
call that goes on in the step, or to another component.
-/

namespace BrainCore.Foundation

variable {σ ω ν τ ε β κ : Type} {store : Store σ ω}

def CallLabel.begun : CallLabel ω ν ε κ → Option κ
  | .begin call => some call
  | .advance _ _ | .fail _ _ | .crash _ | .outside _ => none

/-- The calls a run begins, in order. -/
def begunCalls (labels : List (CallLabel ω ν ε κ)) : List κ := labels.filterMap CallLabel.begun

theorem begunCalls_append (first second : List (CallLabel ω ν ε κ)) :
    begunCalls (first ++ second) = begunCalls first ++ begunCalls second :=
  List.filterMap_append

theorem mem_begunCalls {labels : List (CallLabel ω ν ε κ)} {call : κ} :
    call ∈ begunCalls labels ↔ .begin call ∈ labels := by
  rw [begunCalls, List.mem_filterMap]
  constructor
  · rintro ⟨label, hlabel, hcall⟩
    cases label with
    | begin other =>
        cases hcall
        exact hlabel
    | advance i env => cases hcall
    | fail i error => cases hcall
    | crash i => cases hcall
    | outside writes => cases hcall
  · exact fun hcall => ⟨_, hcall, rfl⟩

section Steps

variable {script : κ → Script σ ω ν τ ε β} {permitted : σ → List ω → Bool}

theorem length_calls_of_step {s next : Calls σ ω ν τ ε β} {label : CallLabel ω ν ε κ}
    (hstep : Calls.step store script permitted s label = some next) :
    next.calls.length = s.calls.length + (begunCalls [label]).length := by
  have hset : ∀ (i : Nat) (call : Call σ ω ν τ ε β),
      (s.set i call).calls.length = s.calls.length := fun i call => List.length_set
  cases label with
  | begin call =>
      cases hstep
      exact List.length_append
  | advance i env =>
      cases callStep_cases hstep with
      | perform _ _ act rest hcall => exact hset i _
      | «open» _ _ body rest hcall => exact hset i _
      | statement _ _ own run body rest new value hcall hresult hfree => exact hset i _
      | commit _ _ own result rest hcall => exact hset i _
      | rollBack _ _ own body rest error hcall => exact hset _ _
  | fail i error =>
      cases callStep_cases hstep with
      | rollBack _ _ own body rest error hcall => exact hset _ _
  | crash i =>
      cases callStep_cases hstep with
      | rollBack _ _ own body rest error hcall => exact hset _ _
      | crash => exact hset i _
  | outside writes =>
      cases callStep_cases hstep with
      | rollBack _ _ own body rest error hcall => exact hset _ _
      | outside _ hallowed hfree => rfl

/-- The writes of a call that is about to commit. -/
def Call.finishing : Call σ ω ν τ ε β → List ω
  | .inside own (.done _) _ => own
  | .inside _ (.statement _ _) _ | .between _ | .crashed => []

/-- What a step commits. -/
def Calls.committing (s : Calls σ ω ν τ ε β) : CallLabel ω ν ε κ → List ω
  | .advance i _ => (s.calls[i]?).elim [] Call.finishing
  | .outside writes => writes
  | .begin _ | .fail _ _ | .crash _ => []

theorem committed_of_step {s next : Calls σ ω ν τ ε β} {label : CallLabel ω ν ε κ}
    (hstep : Calls.step store script permitted s label = some next) :
    next.committed = store.view s.committed (s.committing label) := by
  cases label with
  | begin call =>
      cases hstep
      rfl
  | advance i env =>
      obtain ⟨call, hcall, hadvance⟩ := Option.bind_eq_some_iff.mp hstep
      have hcommitting : s.committing (.advance i env : CallLabel ω ν ε κ) = call.finishing := by
        rw [Calls.committing, hcall]
        rfl
      rw [hcommitting]
      unfold Calls.advanceCall at hadvance
      split at hadvance
      · cases hadvance
        rfl
      · cases hadvance
        rfl
      · cases hadvance
        rfl
      · split at hadvance
        · cases hadvance
          rfl
        · split at hadvance
          · cases hadvance
          · cases hadvance
            rfl
      · cases hadvance
      · cases hadvance
  | fail i error =>
      rw [Calls.step] at hstep
      split at hstep
      · cases hstep
        rfl
      · cases hstep
  | crash i =>
      obtain ⟨call, hcall, rfl⟩ := Option.map_eq_some_iff.mp hstep
      rfl
  | outside writes =>
      rw [Calls.step] at hstep
      split at hstep
      · cases hstep
        rfl
      · cases hstep

end Steps

namespace Discipline

variable {d : Discipline store} {script : κ → Script σ ω ν τ ε β}
  {permitted : σ → List ω → Bool} {share : κ → σ → List ω → Prop}

/-- The share of the call with a number. -/
def shareOf (share : κ → σ → List ω → Prop) (begun : List κ) (i : Nat) (db : σ)
    (writes : List ω) : Prop :=
  ∃ call, begun[i]? = some call ∧ share call db writes

/-- A script that is sound for a share is sound for a larger one. -/
theorem Sound.widen {small large : σ → List ω → Prop} {know : σ → Prop} {post : β → σ → Prop}
    {script : Script σ ω ν τ ε β} (h : d.SoundAs small know script post)
    (hlarge : ∀ db writes, d.invariant db → small db writes → large db writes) :
    d.SoundAs large know script post := by
  induction script generalizing know with
  | finished result => exact h
  | perform act next ih => exact fun env => ih _ (h env)
  | transaction body next ih =>
      obtain ⟨learn, hlasting, herror, hbody, hnext⟩ := h
      exact ⟨learn, hlasting, herror,
        Triple.mono hbody fun _ db own hdb hown => ⟨hlarge db own hdb hown.1, hown.2⟩,
        fun result => ih result (hnext result)⟩

/-- A commit of one step of a run, and whose it is. -/
inductive Attributed (store : Store σ ω) (share : κ → σ → List ω → Prop)
    (permitted : σ → List ω → Bool) (begun : List κ) (db next : σ) :
    CallLabel ω ν ε κ → Prop where
  | quiet {label : CallLabel ω ν ε κ} (same : next = db) :
      Attributed store share permitted begun db next label
  | own {i : Nat} {env : ν} {call : κ} {writes : List ω} (number : begun[i]? = some call)
      (mine : share call db writes) (commit : next = store.view db writes) :
      Attributed store share permitted begun db next (.advance i env)
  | outside {writes : List ω} (allowed : permitted db writes = true)
      (commit : next = store.view db writes) :
      Attributed store share permitted begun db next (.outside writes)

/-! ## Guarded runs -/

theorem Disciplined.permits_committing {d : Discipline store} {s next : Calls σ ω ν τ ε β}
    {script : κ → Script σ ω ν τ ε β} {permitted : σ → List ω → Bool}
    (h : d.Disciplined s)
    (hpermitted : ∀ db writes, d.invariant db → permitted db writes = true → d.permits db writes)
    {label : CallLabel ω ν ε κ} (hstep : Calls.step store script permitted s label = some next) :
    s.committing label = [] ∨ d.permits s.committed (s.committing label) := by
  cases label with
  | begin call => exact .inl rfl
  | fail i error => exact .inl rfl
  | crash i => exact .inl rfl
  | outside writes =>
      rw [Calls.step] at hstep
      split at hstep
      · rename_i hallowed
        rw [Bool.and_eq_true] at hallowed
        exact .inr (hpermitted _ _ h.invariant hallowed.1)
      · cases hstep
  | advance i env =>
      obtain ⟨call, hcall, -⟩ := Option.bind_eq_some_iff.mp hstep
      have hcommitting : s.committing (.advance i env : CallLabel ω ν ε κ) = call.finishing := by
        rw [Calls.committing, hcall]
        rfl
      rw [hcommitting]
      cases call with
      | crashed => exact .inl rfl
      | between rest => exact .inl rfl
      | inside own body next =>
          cases body with
          | statement run rest => exact .inl rfl
          | done result =>
              obtain ⟨know, pre, learn, post, -, ⟨-, hpre⟩, -, -, hbody, -⟩ := h.keeps _ _ hcall
              exact .inr (hbody _ _ h.invariant hpre).1

/-- What commits keep that meet a guard holds in every run whose commits meet it. -/
theorem Disciplined.invariant_of_guarded {d : Discipline store}
    {script : κ → Script σ ω ν τ ε β} {permitted : σ → List ω → Bool}
    (hsymm : ∀ w w', store.clash w w' = store.clash w' w)
    (hpermitted : ∀ db writes, d.invariant db → permitted db writes = true → d.permits db writes)
    (hsound : ∀ call, ∃ post, d.Sound (fun _ => True) (script call) post)
    {invariant : σ → Prop} {guard : σ → List ω → Prop}
    (hkeeps : ∀ db writes, d.invariant db → invariant db → d.permits db writes → guard db writes →
      invariant (store.view db writes))
    {db : σ} (hdb : d.invariant db) (hstart : invariant db) {labels : List (CallLabel ω ν ε κ)}
    {final : Calls σ ω ν τ ε β}
    (hmeets : (callMachine store script permitted).Meets
      (fun s label => guard s.committed (s.committing label)) { committed := db } labels)
    (hrun : (callMachine store script permitted).run { committed := db } labels = some final) :
    d.Disciplined final ∧ invariant final.committed := by
  refine (callMachine store script permitted).invariant_of_meets (?_ :
    (callMachine store script permitted).Keeps _ fun s => d.Disciplined s ∧ invariant s.committed)
    ⟨DisciplinedAs.start hdb, hstart⟩ hmeets hrun
  rintro s label next hguard ⟨h, hinvariant⟩ hstep
  refine ⟨(step hsymm hpermitted h (fun call _ => hsound call) hstep).1, ?_⟩
  rw [committed_of_step hstep]
  obtain hnil | hpermits := permits_committing h hpermitted hstep
  · rw [hnil]
    exact hinvariant
  · exact hkeeps _ _ h.invariant hinvariant hpermits hguard

end Discipline

end BrainCore.Foundation
