/-
# Futures on one thread

Futures that one task polls, as a join of futures does, are interrupted only where they await.  So
what a future does from one await point to the next is atomic, whatever else is going on, although
it may read and write what it shares with the others in several steps.

`State.running` is the future that has the thread.  `machine_induction` is the rule: what every
section keeps, when it runs from an await point to the next one with nobody in between, holds
whenever nobody has the thread; and a future that has it is somewhere inside of one section.
-/
import Mathlib.Logic.Function.Basic
import Hookbox.Lib.Lts

/-- What a future does from one point of its code to the next, on what it shares with the others. -/
structure Cooperative (τ σ ι ο : Type) where
  step : τ → σ → ι → Option (τ × σ)
  obs : τ → σ → ι → List ο
  /-- The future awaits, or has completed. -/
  yields : τ → Bool

namespace Cooperative

variable {κ τ σ ι ο : Type}

/-! ## 1. The machine -/

structure State (κ τ σ : Type) where
  futures : κ → τ
  shared : σ
  running : Option κ

/-- Nobody has the thread. -/
def State.start (futures : κ → τ) (shared : σ) : State κ τ σ := ⟨futures, shared, none⟩

variable [DecidableEq κ] (C : Cooperative τ σ ι ο)

/-- A future goes on, if the thread is free or its own. -/
def run (s : State κ τ σ) (l : κ × ι) : Option (State κ τ σ) :=
  if s.running = none ∨ s.running = some l.1 then
    (C.step (s.futures l.1) s.shared l.2).map fun r =>
      { futures := Function.update s.futures l.1 r.1
        shared := r.2
        running := if C.yields r.1 then none else some l.1 }
  else none

def machine (κ : Type) [DecidableEq κ] : Lts (State κ τ σ) (κ × ι) ο where
  step := C.run
  obs s l := C.obs (s.futures l.1) s.shared l.2

/-! ## 2. Sections -/

/-- What a future does alone, without coming to an await point. -/
inductive Partial : τ → σ → List ο → τ → σ → Prop where
  | refl (t : τ) (v : σ) : Partial t v [] t v
  | snoc {t₀ t t' : τ} {v₀ v v' : σ} {es : List ο} {x : ι} (h : Partial t₀ v₀ es t v)
      (hstep : C.step t v x = some (t', v')) (hgo : C.yields t' = false) :
      Partial t₀ v₀ (es ++ C.obs t v x) t' v'

/-- What a future does alone, up to its next await point. -/
inductive Section : τ → σ → List ο → τ → σ → Prop where
  | mk {t₀ t t' : τ} {v₀ v v' : σ} {es : List ο} {x : ι} (h : C.Partial t₀ v₀ es t v)
      (hstep : C.step t v x = some (t', v')) (hyields : C.yields t' = true) :
      Section t₀ v₀ (es ++ C.obs t v x) t' v'

variable {C}

/-- Where a run is, after sections that keep `I`: between two of them, or inside of one. -/
inductive At (C : Cooperative τ σ ι ο) (I : List ο → (κ → τ) → σ → Prop) (h : List ο)
    (s : State κ τ σ) : Prop where
  | rest (hI : I h s.futures s.shared) (hrun : s.running = none)
  | inside (h₀ es : List ο) (futures : κ → τ) (v : σ) (k : κ) (hI : I h₀ futures v)
      (hrun : s.running = some k) (hhist : h = h₀ ++ es)
      (hfut : s.futures = Function.update futures k (s.futures k))
      (hpart : C.Partial (futures k) v es (s.futures k) s.shared)

/-- **The rule for futures on one thread.** -/
theorem machine_induction {I : List ο → (κ → τ) → σ → Prop} {futures : κ → τ} {v : σ}
    (h₀ : I [] futures v)
    (hsection : ∀ h futures v k es t v', I h futures v → C.Section (futures k) v es t v' →
      I (h ++ es) (Function.update futures k t) v')
    {ls : List (κ × ι)} {s : State κ τ σ}
    (h : (C.machine κ).exec (.start futures v) ls = some s) :
    At C I ((C.machine κ).trace (.start futures v) ls) s := by
  refine Lts.exec_induction (M := C.machine κ) (I := fun h s => At C I h s) (.rest h₀ rfl) ?_ h
  rintro h s ⟨k, x⟩ s' hs hstep
  simp only [machine, run] at hstep ⊢
  split at hstep
  · rename_i hfree
    obtain ⟨⟨t', v'⟩, hr, rfl⟩ := Option.map_eq_some_iff.mp hstep
    cases hs with
    | rest hI hrun =>
      have hpart := Partial.refl (C := C) (s.futures k) s.shared
      cases hy : C.yields t' with
      | true => exact .rest (hsection h _ _ k _ _ _ hI (.mk hpart hr hy)) rfl
      | false =>
        refine .inside h _ s.futures s.shared k hI ?_ rfl ?_ ?_
        · simp
        · simp
        · simpa using hpart.snoc hr hy
    | inside h₀ es futures v k' hI hrun hhist hfut hpart =>
      rw [hrun] at hfree
      obtain rfl : k' = k := by simpa using hfree
      have hupdate : Function.update s.futures k' t' = Function.update futures k' t' := by
        rw [hfut, Function.update_idem]
      cases hy : C.yields t' with
      | true =>
        refine .rest ?_ rfl
        rw [hhist, List.append_assoc, hupdate]
        exact hsection h₀ _ _ k' _ _ _ hI (.mk hpart hr hy)
      | false =>
        refine .inside h₀ _ futures v k' hI ?_ (by rw [hhist, List.append_assoc]) ?_ ?_
        · simp
        · simp [hupdate]
        · simpa using hpart.snoc hr hy
  · cases hstep

end Cooperative
