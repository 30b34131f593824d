/-
# Ledgers over the runs of a transition system

A state has a balance `B`, and what is observed at a step earns `E` and pays `P`.  If no step leaves
the balance above what it was with what the step earned and without what it paid, neither does a run
(`Lts.ledger`).  Two readings of this carry the results about progress:

* a balance that some steps spend from and none adds to bounds how often these can come;
* a balance that every step spends from and some steps refill bounds how many steps there can be
  between two refills.
-/
import Mathlib
import Hookbox.Lib.Lts

namespace Lts

variable {σ ℓ ο : Type} {M : Lts σ ℓ ο}

/-- What a history amounts to. -/
def total (amount : ο → Nat) (h : List ο) : Nat := (h.map amount).sum

@[simp] theorem total_nil (amount : ο → Nat) : total amount [] = 0 := rfl

@[simp] theorem total_singleton (amount : ο → Nat) (ev : ο) : total amount [ev] = amount ev := by
  simp [total]

@[simp] theorem total_append (amount : ο → Nat) (h h' : List ο) :
    total amount (h ++ h') = total amount h + total amount h' := by
  rw [total, List.map_append, List.sum_append]
  rfl

/-- **The ledger rule.**  `I` is an invariant of the states and the histories. -/
theorem ledger_of_everyStep {C : List ο → σ → ℓ → Prop} {I : List ο → σ → Prop}
    {B : σ → Nat} {E P : ο → Nat} {s₀ : σ} (h₀ : I [] s₀)
    (hstep : ∀ h s l s', I h s → C h s l → M.step s l = some s' → I (h ++ M.obs s l) s' ∧
      B s' + total P (M.obs s l) ≤ B s + total E (M.obs s l))
    {ls : List ℓ} {s : σ} (hC : M.EveryStep C s₀ ls) (he : M.exec s₀ ls = some s) :
    I (M.trace s₀ ls) s ∧
      B s + total P (M.trace s₀ ls) ≤ B s₀ + total E (M.trace s₀ ls) := by
  refine exec_induction_of_everyStep (C := C)
    (I := fun h s => I h s ∧ B s + total P h ≤ B s₀ + total E h)
    ⟨h₀, Nat.le_refl _⟩ ?_ hC he
  rintro h s l s' ⟨hI, hle⟩ hCl hs
  obtain ⟨hI', hle'⟩ := hstep h s l s' hI hCl hs
  refine ⟨hI', ?_⟩
  simp only [total_append]
  omega

/-- The ledger rule without a condition on the steps. -/
theorem ledger {I : List ο → σ → Prop} {B : σ → Nat} {E P : ο → Nat} {s₀ : σ}
    (h₀ : I [] s₀)
    (hstep : ∀ h s l s', I h s → M.step s l = some s' → I (h ++ M.obs s l) s' ∧
      B s' + total P (M.obs s l) ≤ B s + total E (M.obs s l))
    {ls : List ℓ} {s : σ} (he : M.exec s₀ ls = some s) :
    I (M.trace s₀ ls) s ∧
      B s + total P (M.trace s₀ ls) ≤ B s₀ + total E (M.trace s₀ ls) :=
  ledger_of_everyStep (C := fun _ _ _ => True) h₀
    (fun h s l s' hI _ hs => hstep h s l s' hI hs) (fun _ _ _ _ _ _ => trivial) he

/-! ## Other observations of the same steps -/

/-- A run does not depend on what is observed. -/
theorem exec_congr {ο' : Type} {N : Lts σ ℓ ο'} (h : N.step = M.step) (s : σ) (ls : List ℓ) :
    N.exec s ls = M.exec s ls := by
  induction ls generalizing s with
  | nil => rfl
  | cons l ls ih =>
    rw [exec_cons, exec_cons, h]
    exact congrArg _ (funext ih)

/-- **Two observations that agree at each step agree on each run.** -/
theorem total_trace_eq {ο' : Type} {N : Lts σ ℓ ο'} (h : N.step = M.step) {a : ο' → Nat}
    {b : ο → Nat} (hobs : ∀ s l s', M.step s l = some s' → total a (N.obs s l) = total b (M.obs s l))
    {s s' : σ} {ls : List ℓ} (he : M.exec s ls = some s') :
    total a (N.trace s ls) = total b (M.trace s ls) := by
  induction ls generalizing s with
  | nil => rfl
  | cons l ls ih =>
    obtain ⟨t, ht, hr⟩ := exec_cons_eq_some.mp he
    rw [trace_cons (M := N) ((congrFun (congrFun h s) l).trans ht), trace_cons ht, total_append,
      total_append, hobs s l t ht, ih hr]

/-- The machine, observed by its labels. -/
def labelled (M : Lts σ ℓ ο) : Lts σ ℓ ℓ := ⟨M.step, fun _ l => [l]⟩

theorem labelled_exec (s : σ) (ls : List ℓ) : M.labelled.exec s ls = M.exec s ls :=
  exec_congr (M := M) (N := M.labelled) rfl s ls

theorem labelled_trace {s s' : σ} {ls : List ℓ} (h : M.exec s ls = some s') :
    M.labelled.trace s ls = ls := by
  induction ls generalizing s with
  | nil => rfl
  | cons l ls ih =>
    obtain ⟨t, ht, hr⟩ := exec_cons_eq_some.mp h
    rw [trace_cons (M := M.labelled) ht, ih hr]
    rfl

/-- **The invariant rule over labels**: an invariant of the state and of the steps so far. -/
theorem labels_induction {I : List ℓ → σ → Prop} {s₀ : σ} (h₀ : I [] s₀)
    (hstep : ∀ h s l s', M.exec s₀ h = some s → I h s → M.step s l = some s' → I (h ++ [l]) s')
    {ls : List ℓ} {s : σ} (he : M.exec s₀ ls = some s) : I ls s := by
  have hrun := exec_induction (M := M.labelled)
    (I := fun h s => M.exec s₀ h = some s ∧ I h s) ⟨rfl, h₀⟩ ?_ ((labelled_exec s₀ ls).trans he)
  · rw [labelled_trace he] at hrun
    exact hrun.2
  · rintro h s l s' ⟨hs, hI⟩ hl
    exact ⟨exec_snoc.mpr ⟨s, hs, hl⟩, hstep h s l s' hs hI hl⟩

/-- **The ledger rule over labels**, in the states of an invariant. -/
theorem ledger_labels {I : σ → Prop} {B : σ → Nat} {E P : ℓ → Nat} {s₀ : σ}
    (h₀ : I s₀)
    (hstep : ∀ s l s', I s → M.step s l = some s' →
      I s' ∧ B s' + P l ≤ B s + E l)
    {ls : List ℓ} {s : σ} (he : M.exec s₀ ls = some s) :
    B s + total P ls ≤ B s₀ + total E ls := by
  have hrun := ledger (M := M.labelled) (I := fun _ => I) (B := B) (E := E)
    (P := P) h₀ ?_ ((labelled_exec s₀ ls).trans he)
  · rw [labelled_trace he] at hrun
    exact hrun.2
  · intro h s l s' hI hl
    obtain ⟨hI', hle⟩ := hstep s l s' hI hl
    refine ⟨hI', ?_⟩
    simpa [labelled] using hle

end Lts
