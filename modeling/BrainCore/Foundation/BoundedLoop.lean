import Mathlib.Logic.Basic

/-!
# A loop with a bound on its rounds

`for (i = 0; i < n; i += 1) { … }` with a `return` inside: a round ends the loop
or hands the next round its state.  Where every round adds to a log, what all
entries of the final log meet is decided round by round.
-/

namespace BrainCore.Foundation.BoundedLoop

universe u v w

variable {σ : Type u} {ρ : Type v} {κ : Type w} {round : σ → ρ ⊕ σ} {exhausted : σ → ρ}

/-- At most `n` rounds; a loop that comes to its end returns `exhausted`. -/
def loop (round : σ → ρ ⊕ σ) (exhausted : σ → ρ) : Nat → σ → ρ
  | 0, x => exhausted x
  | n + 1, x =>
      match round x with
      | .inl result => result
      | .inr next => loop round exhausted n next

theorem loop_returns {x : σ} {result : ρ} (h : round x = .inl result) (n : Nat) :
    loop round exhausted (n + 1) x = result := by
  rw [loop, h]

theorem loop_continues {x next : σ} (h : round x = .inr next) (n : Nat) :
    loop round exhausted (n + 1) x = loop round exhausted n next := by
  rw [loop, h]

/-- Every round that is run starts from a state with the property. -/
def EveryRound (round : σ → ρ ⊕ σ) (P : σ → Prop) : Nat → σ → Prop
  | 0, _ => True
  | n + 1, x => P x ∧ ∀ next, round x = .inr next → EveryRound round P n next

/-- Under an invariant of the rounds, two properties the invariant makes equal are so in every round. -/
theorem everyRound_congr (inv : σ → Prop) {P Q : σ → Prop}
    (keeps : ∀ x next, inv x → round x = .inr next → inv next) (agree : ∀ x, inv x → (P x ↔ Q x)) :
    ∀ n x, inv x → (EveryRound round P n x ↔ EveryRound round Q n x) := by
  intro n
  induction n with
  | zero => exact fun _ _ => Iff.rfl
  | succ n ih =>
      intro x hx
      exact and_congr (agree x hx) (forall₂_congr fun next h => ih next (keeps x next hx h))

/-- What an invariant of the rounds gives holds in every round. -/
theorem everyRound_of_invariant (inv : σ → Prop) {P : σ → Prop}
    (keeps : ∀ x next, inv x → round x = .inr next → inv next) (gives : ∀ x, inv x → P x) :
    ∀ n x, inv x → EveryRound round P n x := by
  intro n
  induction n with
  | zero => exact fun _ _ => trivial
  | succ n ih => exact fun x hx => ⟨gives x hx, fun next h => ih next (keeps x next hx h)⟩

section Log

variable (log : σ → List κ) (final : ρ → List κ) (added : σ → List κ)

/-- All entries of the final log are good just when the first ones are and those of every round. -/
theorem final_good_iff (good : κ → Prop)
    (returns : ∀ x result, round x = .inl result → final result = log x ++ added x)
    (continues : ∀ x next, round x = .inr next → log next = log x ++ added x)
    (ends : ∀ x, final (exhausted x) = log x) :
    ∀ n x, (∀ entry ∈ final (loop round exhausted n x), good entry) ↔
      (∀ entry ∈ log x, good entry) ∧
        EveryRound round (fun x => ∀ entry ∈ added x, good entry) n x := by
  intro n
  induction n with
  | zero =>
      intro x
      rw [loop, ends]
      exact ⟨fun h => ⟨h, trivial⟩, And.left⟩
  | succ n ih =>
      intro x
      cases hround : round x with
      | inl result =>
          rw [loop_returns hround, returns x result hround, EveryRound, List.forall_mem_append]
          refine and_congr_right fun _ => ⟨fun h => ⟨h, fun next hnext => ?_⟩, And.left⟩
          rw [hround] at hnext
          cases hnext
      | inr next =>
          rw [loop_continues hround, ih next, continues x next hround, EveryRound,
            List.forall_mem_append, and_assoc]
          refine and_congr_right fun _ => and_congr_right fun _ => ⟨fun h other hother => ?_,
            fun h => h next hround⟩
          rw [hround] at hother
          cases hother
          exact h

end Log

end BrainCore.Foundation.BoundedLoop
