/-
# Forward simulations

One system implements another if each of its steps is matched by some steps of the other, which show
exactly that part of what the first one shows that the other speaks about (`Lts.Simulation`).  Then
the same holds of whole runs (`Lts.Simulation.exec`), and what is always true of the other system is
true of this one.
-/
import Hookbox.Lib.Lts

namespace Lts

variable {σ ℓ ο τ m π : Type}

/-- **A forward simulation of `M` in `N`**, in the states and histories that `I` allows.  `see` picks
what `N` speaks about. -/
structure Simulation (M : Lts σ ℓ ο) (N : Lts τ m π) (see : ο → Option π)
    (I : List ο → σ → Prop) (R : List ο → σ → τ → Prop) : Prop where
  step : ∀ {h s l s' t}, I h s → R h s t → M.step s l = some s' →
    ∃ ms t', N.exec t ms = some t' ∧ N.trace t ms = (M.obs s l).filterMap see ∧
      R (h ++ M.obs s l) s' t'

/-- **A simulation carries runs over.** -/
theorem Simulation.exec {M : Lts σ ℓ ο} {N : Lts τ m π} {see : ο → Option π}
    {I : List ο → σ → Prop} {R : List ο → σ → τ → Prop} (sim : Simulation M N see I R)
    {s₀ : σ} {t₀ : τ} (hI : ∀ ls s, M.exec s₀ ls = some s → I (M.trace s₀ ls) s)
    (hR : R [] s₀ t₀) {ls : List ℓ} {s : σ} (h : M.exec s₀ ls = some s) :
    ∃ ms t, N.exec t₀ ms = some t ∧ N.trace t₀ ms = (M.trace s₀ ls).filterMap see ∧
      R (M.trace s₀ ls) s t := by
  induction ls using List.reverseRecOn generalizing s with
  | nil =>
    rw [exec_nil, Option.some.injEq] at h
    subst h
    exact ⟨[], t₀, rfl, rfl, hR⟩
  | append_singleton ls l ih =>
    obtain ⟨s₁, hs₁, hl⟩ := exec_snoc.mp h
    obtain ⟨ms, t₁, ht₁, htrace, hR₁⟩ := ih hs₁
    obtain ⟨ms', t, ht, htrace', hRt⟩ := sim.step (hI ls s₁ hs₁) hR₁ hl
    refine ⟨ms ++ ms', t, ?_, ?_, ?_⟩
    · rw [exec_append, ht₁, Option.bind_some, ht]
    · rw [trace_append ht₁, trace_snoc hs₁ hl, List.filterMap_append, htrace, htrace']
    · rw [trace_snoc hs₁ hl]
      exact hRt

end Lts
