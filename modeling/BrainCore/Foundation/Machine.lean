import Mathlib.Data.List.Basic

/-!
# Labelled machines and guarded runs

A machine is an executable partial step function.  Every choice a scheduler, a
crash or the environment can make is carried by the label, so a run is a list
of labels and every interleaving is one such list.  A guard restricts the
labels a run may take in the state where it takes them.
-/

namespace BrainCore.Foundation

universe u v w

/-- An executable labelled transition system. -/
structure Machine (σ : Type u) (ℓ : Type v) where
  step : σ → ℓ → Option σ

namespace Machine

variable {σ : Type u} {ℓ : Type v} (machine : Machine σ ℓ)

/-- The state after a list of labels, if every one of them is enabled. -/
def run : σ → List ℓ → Option σ
  | state, [] => some state
  | state, label :: labels => (machine.step state label).bind fun next => run next labels

/-- Every step of the run meets `guard` in the state where it is taken. -/
def Meets (guard : σ → ℓ → Prop) : σ → List ℓ → Prop
  | _, [] => True
  | state, label :: labels =>
      guard state label ∧ ∀ next, machine.step state label = some next → Meets guard next labels

/-- A predicate that each guarded step keeps. -/
def Keeps (guard : σ → ℓ → Prop) (invariant : σ → Prop) : Prop :=
  ∀ state label next, guard state label → invariant state →
    machine.step state label = some next → invariant next

@[simp]
theorem run_nil (state : σ) : machine.run state [] = some state := rfl

theorem run_cons (state : σ) (label : ℓ) (labels : List ℓ) :
    machine.run state (label :: labels) =
      (machine.step state label).bind fun next => machine.run next labels := rfl

theorem run_cons_some {state final : σ} {label : ℓ} {labels : List ℓ}
    (hrun : machine.run state (label :: labels) = some final) :
    ∃ next, machine.step state label = some next ∧ machine.run next labels = some final := by
  rw [run_cons] at hrun
  exact Option.bind_eq_some_iff.mp hrun

theorem run_append (state : σ) (first second : List ℓ) :
    machine.run state (first ++ second) =
      (machine.run state first).bind fun middle => machine.run middle second := by
  induction first generalizing state with
  | nil => rfl
  | cons label labels ih =>
      rw [List.cons_append, run_cons, run_cons, Option.bind_assoc]
      cases machine.step state label with
      | none => rfl
      | some next => exact ih next

/-- An invariant of each guarded step holds at the end of every guarded run. -/
theorem invariant_of_meets {guard : σ → ℓ → Prop} {invariant : σ → Prop}
    (keeps : machine.Keeps guard invariant) {state final : σ} {labels : List ℓ}
    (holds : invariant state) (meets : machine.Meets guard state labels)
    (hrun : machine.run state labels = some final) : invariant final := by
  induction labels generalizing state with
  | nil =>
      cases hrun
      exact holds
  | cons label labels ih =>
      obtain ⟨next, hstep, hrest⟩ := machine.run_cons_some hrun
      exact ih (keeps state label next meets.1 holds hstep) (meets.2 next hstep) hrest

/-- The trivial guard admits every run. -/
theorem meets_true (state : σ) (labels : List ℓ) :
    machine.Meets (fun _ _ => True) state labels := by
  induction labels generalizing state with
  | nil => trivial
  | cons label labels ih => exact ⟨trivial, fun next _ => ih next⟩

/-- A guard on labels alone that each label of the list meets. -/
theorem meets_of_forall {guard : ℓ → Prop} {labels : List ℓ} (state : σ)
    (h : ∀ label ∈ labels, guard label) : machine.Meets (fun _ label => guard label) state labels := by
  induction labels generalizing state with
  | nil => trivial
  | cons label labels ih =>
      exact ⟨h label List.mem_cons_self,
        fun next _ => ih next fun label hlabel => h label (List.mem_cons_of_mem _ hlabel)⟩

/-- An invariant of every step holds at the end of every run. -/
theorem invariant_of_run {invariant : σ → Prop}
    (keeps : ∀ state label next, invariant state →
      machine.step state label = some next → invariant next)
    {state final : σ} {labels : List ℓ} (holds : invariant state)
    (hrun : machine.run state labels = some final) : invariant final :=
  machine.invariant_of_meets
    (fun state label next (_ : True) => keeps state label next) holds
    (machine.meets_true state labels) hrun

/-- What the enabled steps of a run emit. -/
def emitted {τ : Type w} (emit : σ → ℓ → Option τ) : σ → List ℓ → List τ
  | _, [] => []
  | state, label :: labels =>
      match machine.step state label with
      | none => []
      | some next => (emit state label).toList ++ emitted emit next labels

/-- Tags that are spent from the step that emits them on are emitted once. -/
theorem emitted_nodup {τ : Type w} {emit : σ → ℓ → Option τ} {spent : σ → τ → Prop}
    (fresh : ∀ state label next tag, machine.step state label = some next →
      emit state label = some tag → ¬spent state tag ∧ spent next tag)
    (stable : ∀ state label next tag, machine.step state label = some next →
      spent state tag → spent next tag)
    (state : σ) (labels : List ℓ) :
    (machine.emitted emit state labels).Nodup ∧
      ∀ tag ∈ machine.emitted emit state labels, ¬spent state tag := by
  induction labels generalizing state with
  | nil => exact ⟨List.nodup_nil, fun _ hmem => (nomatch hmem)⟩
  | cons label labels ih =>
      rw [emitted]
      cases hstep : machine.step state label with
      | none => exact ⟨List.nodup_nil, fun _ hmem => (nomatch hmem)⟩
      | some next =>
          obtain ⟨hnodup, hunspent⟩ := ih next
          have hlater : ∀ tag ∈ machine.emitted emit next labels, ¬spent state tag :=
            fun tag hmem hspent => hunspent tag hmem (stable _ _ _ _ hstep hspent)
          cases hemit : emit state label with
          | none => exact ⟨hnodup, hlater⟩
          | some tag =>
              obtain ⟨hfresh, hspent⟩ := fresh _ _ _ _ hstep hemit
              refine ⟨List.nodup_cons.mpr ⟨fun hmem => hunspent tag hmem hspent, hnodup⟩, ?_⟩
              intro other hother
              rcases List.mem_cons.mp hother with rfl | hmem
              · exact hfresh
              · exact hlater other hmem

/-- Two guards together are met when each of them is. -/
theorem Meets.mono {guard weaker : σ → ℓ → Prop} {state : σ} {labels : List ℓ}
    (weaken : ∀ state label, guard state label → weaker state label)
    (meets : machine.Meets guard state labels) : machine.Meets weaker state labels := by
  induction labels generalizing state with
  | nil => trivial
  | cons label labels ih =>
      exact ⟨weaken state label meets.1, fun next hstep => ih (meets.2 next hstep)⟩

/-- A guarded run splits at every point of its label list. -/
theorem Meets.split {guard : σ → ℓ → Prop} {state middle : σ} {first second : List ℓ}
    (meets : machine.Meets guard state (first ++ second))
    (hrun : machine.run state first = some middle) : machine.Meets guard middle second := by
  induction first generalizing state with
  | nil =>
      cases hrun
      exact meets
  | cons label labels ih =>
      obtain ⟨next, hstep, hrest⟩ := machine.run_cons_some hrun
      exact ih (meets.2 next hstep) hrest

theorem Meets.of_append {guard : σ → ℓ → Prop} {state : σ} {first second : List ℓ}
    (meets : machine.Meets guard state (first ++ second)) : machine.Meets guard state first := by
  induction first generalizing state with
  | nil => trivial
  | cons label labels ih => exact ⟨meets.1, fun next hstep => ih (meets.2 next hstep)⟩

/-- Whether each enabled step of the run meets a guard that can be computed. -/
def check (guard : σ → ℓ → Bool) : σ → List ℓ → Bool
  | _, [] => true
  | state, label :: labels =>
      guard state label && (machine.step state label).all fun next => check guard next labels

theorem meets_of_check {guard : σ → ℓ → Bool} {state : σ} {labels : List ℓ}
    (h : machine.check guard state labels = true) :
    machine.Meets (fun state label => guard state label = true) state labels := by
  induction labels generalizing state with
  | nil => trivial
  | cons label labels ih =>
      rw [check, Bool.and_eq_true] at h
      refine ⟨h.1, fun next hstep => ?_⟩
      rw [hstep] at h
      exact ih h.2

/-- A run and one more step. -/
theorem run_snoc {state middle final : σ} {labels : List ℓ} {label : ℓ}
    (hrun : machine.run state labels = some middle) (hstep : machine.step middle label = some final) :
    machine.run state (labels ++ [label]) = some final := by
  rw [run_append, hrun]
  change (machine.step middle label).bind _ = _
  rw [hstep]
  rfl

/-- The last step of a run. -/
theorem run_concat_some {state final : σ} {labels : List ℓ} {label : ℓ}
    (hrun : machine.run state (labels ++ [label]) = some final) :
    ∃ middle, machine.run state labels = some middle ∧ machine.step middle label = some final := by
  rw [run_append] at hrun
  obtain ⟨middle, hfirst, hlast⟩ := Option.bind_eq_some_iff.mp hrun
  obtain ⟨next, hstep, hnil⟩ := machine.run_cons_some hlast
  cases hnil
  exact ⟨middle, hfirst, hstep⟩

/-- A predicate that holds in every state of a run. -/
def Always (good : σ → Prop) : σ → List ℓ → Prop
  | state, [] => good state
  | state, label :: labels =>
      good state ∧ ∀ next, machine.step state label = some next → Always good next labels

theorem Always.start {good : σ → Prop} {state : σ} {labels : List ℓ}
    (h : machine.Always good state labels) : good state := by
  cases labels with
  | nil => exact h
  | cons label labels => exact h.1

/-- A guard that each step meets exactly when it leads to a good state is met by the runs that
are good throughout. -/
theorem always_iff_meets {good : σ → Prop} {guard : σ → ℓ → Prop}
    (decides : ∀ state label next, good state → machine.step state label = some next →
      (good next ↔ guard state label))
    {state final : σ} {labels : List ℓ} (holds : good state)
    (hrun : machine.run state labels = some final) :
    machine.Always good state labels ↔ machine.Meets guard state labels := by
  induction labels generalizing state with
  | nil => exact ⟨fun _ => trivial, fun _ => holds⟩
  | cons label labels ih =>
      obtain ⟨next, hstep, hrest⟩ := machine.run_cons_some hrun
      have honly : ∀ other, machine.step state label = some other → other = next := fun other h =>
        Option.some.inj (h.symm.trans hstep)
      constructor
      · rintro ⟨-, halways⟩
        have hnext := (halways next hstep).start
        refine ⟨(decides state label next holds hstep).mp hnext, fun other hother => ?_⟩
        rw [honly other hother]
        exact (ih hnext hrest).mp (halways next hstep)
      · rintro ⟨hguard, hmeets⟩
        have hnext := (decides state label next holds hstep).mpr hguard
        refine ⟨holds, fun other hother => ?_⟩
        rw [honly other hother]
        exact (ih hnext hrest).mpr (hmeets next hstep)

/-- The same over the states of an invariant. -/
theorem always_iff_meets_of {invariant good : σ → Prop} {guard : σ → ℓ → Prop}
    (keeps : ∀ state label next, invariant state →
      machine.step state label = some next → invariant next)
    (decides : ∀ state label next, invariant state → good state →
      machine.step state label = some next → (good next ↔ guard state label))
    {state final : σ} {labels : List ℓ} (holds : invariant state) (start : good state)
    (hrun : machine.run state labels = some final) :
    machine.Always good state labels ↔ machine.Meets guard state labels := by
  induction labels generalizing state with
  | nil => exact ⟨fun _ => trivial, fun _ => start⟩
  | cons label labels ih =>
      obtain ⟨next, hstep, hrest⟩ := machine.run_cons_some hrun
      have hkept := keeps state label next holds hstep
      have honly : ∀ other, machine.step state label = some other → other = next := fun other h =>
        Option.some.inj (h.symm.trans hstep)
      constructor
      · rintro ⟨-, halways⟩
        have hnext := (halways next hstep).start
        refine ⟨(decides state label next holds start hstep).mp hnext, fun other hother => ?_⟩
        rw [honly other hother]
        exact (ih hkept hnext hrest).mp (halways next hstep)
      · rintro ⟨hguard, hmeets⟩
        have hnext := (decides state label next holds start hstep).mpr hguard
        refine ⟨start, fun other hother => ?_⟩
        rw [honly other hother]
        exact (ih hkept hnext hrest).mpr (hmeets next hstep)

/-- What no step restores held throughout when it holds at the end. -/
theorem always_of_last {invariant good : σ → Prop}
    (keeps : ∀ state label next, invariant state →
      machine.step state label = some next → invariant next)
    (back : ∀ state label next, invariant state → machine.step state label = some next →
      good next → good state)
    {state final : σ} {labels : List ℓ} (holds : invariant state)
    (hrun : machine.run state labels = some final) (last : good final) :
    machine.Always good state labels := by
  induction labels generalizing state with
  | nil =>
      cases hrun
      exact last
  | cons label labels ih =>
      obtain ⟨next, hstep, hrest⟩ := machine.run_cons_some hrun
      have hlater := ih (keeps state label next holds hstep) hrest
      refine ⟨back state label next holds hstep hlater.start, fun other hother => ?_⟩
      rw [Option.some.inj (hother.symm.trans hstep)]
      exact hlater

/-- A good state is reached exactly by the runs that meet the guard, when the guard decides
whether a step keeps the state good and no step restores what was lost. -/
theorem last_iff_meets {invariant good : σ → Prop} {guard : σ → ℓ → Prop}
    (keeps : ∀ state label next, invariant state →
      machine.step state label = some next → invariant next)
    (back : ∀ state label next, invariant state → machine.step state label = some next →
      good next → good state)
    (decides : ∀ state label next, invariant state → good state →
      machine.step state label = some next → (good next ↔ guard state label))
    {state final : σ} {labels : List ℓ} (holds : invariant state) (start : good state)
    (hrun : machine.run state labels = some final) :
    good final ↔ machine.Meets guard state labels := by
  have hiff : machine.Always (fun s => invariant s ∧ good s) state labels ↔
      machine.Meets guard state labels := machine.always_iff_meets
    (fun s label next h hstep =>
      ⟨fun hnext => (decides s label next h.1 h.2 hstep).mp hnext.2, fun hguard =>
        ⟨keeps s label next h.1 hstep, (decides s label next h.1 h.2 hstep).mpr hguard⟩⟩)
    ⟨holds, start⟩ hrun
  have hfinal : invariant final := machine.invariant_of_run (fun s label next => keeps s label next)
    holds hrun
  constructor
  · intro hlast
    exact hiff.mp (machine.always_of_last keeps
      (fun s label next h hstep hnext => ⟨h, back s label next h hstep hnext.2⟩) holds hrun
      ⟨hfinal, hlast⟩)
  · intro hmeets
    have keepsGood : machine.Keeps guard fun s => invariant s ∧ good s :=
      fun s label next hguard h hstep =>
        ⟨keeps s label next h.1 hstep, (decides s label next h.1 h.2 hstep).mpr hguard⟩
    have hkept := machine.invariant_of_meets keepsGood ⟨holds, start⟩ hmeets hrun
    exact hkept.2

end Machine

end BrainCore.Foundation
