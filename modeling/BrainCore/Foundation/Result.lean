/-!
# Computations that may throw

What a sequence of steps says when it ends with a value: every step ended with
one.  For `Except`, and for a state on top of it.
-/

namespace BrainCore.Foundation

section

variable {ε σ α β : Type}

theorem bind_ok {first : Except ε α} {next : α → Except ε β} {result : β} :
    (first >>= next) = .ok result ↔ ∃ value, first = .ok value ∧ next value = .ok result := by
  cases first with
  | error e => exact ⟨fun h => (nomatch h), fun ⟨_, h, _⟩ => (nomatch h)⟩
  | ok value => exact ⟨fun h => ⟨value, rfl, h⟩, fun ⟨_, h, h'⟩ => by cases h; exact h'⟩

theorem pure_ok {value result : α} : (pure value : Except ε α) = .ok result ↔ value = result :=
  ⟨fun h => Except.ok.inj h, fun h => h ▸ rfl⟩

theorem map_ok {first : Except ε α} {f : α → β} {result : β} :
    first.map f = .ok result ↔ ∃ value, first = .ok value ∧ f value = result := by
  cases first <;> simp [Except.map]

theorem run_bind_ok {first : StateT σ (Except ε) α} {next : α → StateT σ (Except ε) β} {s s' : σ}
    {result : β} :
    (first >>= next) s = .ok (result, s') ↔
      ∃ value middle, first s = .ok (value, middle) ∧ next value middle = .ok (result, s') := by
  change (first s >>= fun v => next v.1 v.2) = _ ↔ _
  rw [bind_ok, Prod.exists]

theorem run_pure_ok {value result : α} {s s' : σ} :
    (pure value : StateT σ (Except ε) α) s = .ok (result, s') ↔ value = result ∧ s = s' := by
  change Except.ok (value, s) = .ok (result, s') ↔ _
  rw [Except.ok.injEq, Prod.mk.injEq]

end

/-! ## Two runs of one computation -/

section TwoRuns

variable {ε σ α β : Type} (onState : σ → σ → Prop) (onStop : ε → ε → Prop)

/-- Two runs end alike: with one value in related states, or stopped for related reasons. -/
def EndAlike : Except ε (α × σ) → Except ε (α × σ) → Prop
  | .ok (value, s), .ok (value', s') => value = value' ∧ onState s s'
  | .error stop, .error stop' => onStop stop stop'
  | _, _ => False

/-- From related states the two computations end alike. -/
structure RunAlike (first second : StateT σ (Except ε) α) : Prop where
  ends : ∀ s s', onState s s' → EndAlike onState onStop (first s) (second s')

variable {onState onStop}

namespace RunAlike

theorem pure (value : α) : RunAlike (ε := ε) onState onStop (Pure.pure value) (Pure.pure value) :=
  ⟨fun _ _ h => ⟨rfl, h⟩⟩

theorem bind {first second : StateT σ (Except ε) α} {next next' : α → StateT σ (Except ε) β}
    (h : RunAlike onState onStop first second)
    (hnext : ∀ value, RunAlike onState onStop (next value) (next' value)) :
    RunAlike onState onStop (first >>= next) (second >>= next') := by
  refine ⟨fun s s' hs => ?_⟩
  have hrun := h.ends s s' hs
  change EndAlike onState onStop (first s >>= fun v => next v.1 v.2)
    (second s' >>= fun v => next' v.1 v.2)
  revert hrun
  rcases first s with stop | ⟨value, t⟩ <;> rcases second s' with stop' | ⟨value', t'⟩ <;>
    intro hrun
  · exact hrun
  · exact hrun.elim
  · exact hrun.elim
  · obtain ⟨rfl, ht⟩ := hrun
    exact (hnext value).ends t t' ht

theorem ite {p : Prop} {_ : Decidable p} {first second first' second' : StateT σ (Except ε) α}
    (h : RunAlike onState onStop first first') (h' : RunAlike onState onStop second second') :
    RunAlike onState onStop (if p then first else second) (if p then first' else second') := by
  by_cases hp : p
  · rwa [if_pos hp, if_pos hp]
  · rwa [if_neg hp, if_neg hp]

end RunAlike

end TwoRuns

end BrainCore.Foundation
