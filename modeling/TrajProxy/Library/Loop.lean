import Mathlib.Logic.Basic
import Mathlib.Tactic.Common

/-! `for i in range(n)` with a body that either continues with the next round or
ends the loop: a `return`, or an exception that no clause of the body takes. -/

namespace TrajProxy

variable {σ ρ : Type}

/-- The rounds `i, …, i + n - 1`; `none` when none of them ended the loop. -/
def forRange (body : Nat → σ → Option ρ × σ) : (n i : Nat) → σ → Option ρ × σ
  | 0, _, s => (none, s)
  | n + 1, i, s =>
    match body i s with
    | (some r, s') => (some r, s')
    | (none, s') => forRange body n (i + 1) s'

/-- What every round that continues keeps holds at the round that ends the loop,
or after the last one. -/
theorem forRange_cases {body : Nat → σ → Option ρ × σ} {Inv : Nat → σ → Prop}
    (continues : ∀ i s s', Inv i s → body i s = (none, s') → Inv (i + 1) s')
    (n i : Nat) (s : σ) (start : Inv i s) :
    (∃ k s₁ r s₂, k < i + n ∧ Inv k s₁ ∧ body k s₁ = (some r, s₂) ∧
        forRange body n i s = (some r, s₂)) ∨
      ∃ s₁, Inv (i + n) s₁ ∧ forRange body n i s = (none, s₁) := by
  induction n generalizing i s with
  | zero => exact Or.inr ⟨s, start, rfl⟩
  | succ n ih =>
    rw [forRange]
    obtain ⟨result, s', round⟩ : ∃ result s', body i s = (result, s') := ⟨_, _, rfl⟩
    cases result with
    | some r =>
      refine Or.inl ⟨i, s, r, s', by omega, start, round, ?_⟩
      rw [round]
    | none =>
      simp only [round]
      rcases ih (i + 1) s' (continues i s s' start round) with
        ⟨k, s₁, r, s₂, bound, inv, ended, ran⟩ | ⟨s₁, inv, ran⟩
      · exact Or.inl ⟨k, s₁, r, s₂, by omega, inv, ended, ran⟩
      · have same : i + 1 + n = i + (n + 1) := by omega
        exact Or.inr ⟨s₁, same ▸ inv, ran⟩

end TrajProxy
