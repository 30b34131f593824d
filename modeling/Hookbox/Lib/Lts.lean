/-
# Labelled transition systems, their runs and their histories

A system is a partial step function together with what each step lets an observer see.  All
nondeterminism sits in the label, so a run is a list of labels and everything is executable.

* `exec` and `trace`: the state a list of labels leads to, and what was observed on the way.
* `exec_induction`: the invariant rule.  The invariant may mention the history, because a
  claim about "how often this has happened" is a claim about state AND history.
* `EveryStep`: a property of every single step of a run, and `exec_induction_of_everyStep`,
  the invariant rule for runs all of whose steps meet a condition.
* `Unwinding`: non-interference.  If a class of labels changes nothing that can be seen through
  `view`, and what every other label does to it depends only on what can be seen, then deleting
  those labels from a run changes nothing that can be seen, neither at the end
  (`Unwinding.exec_purge`) nor on the way (`Unwinding.path_purge`, `Unwinding.trace_purge`).
-/
import Mathlib.Data.List.Basic
import Mathlib.Data.List.Induction
import Mathlib.Data.List.Destutter

/-- A deterministic labelled transition system with observations. -/
structure Lts (σ ℓ ο : Type) where
  step : σ → ℓ → Option σ
  obs : σ → ℓ → List ο

namespace Lts

variable {σ ℓ ο : Type} (M : Lts σ ℓ ο)

/-! ## 1. Runs -/

/-- The state a list of labels leads to, if every label was enabled when its turn came. -/
def exec : σ → List ℓ → Option σ
  | s, [] => some s
  | s, l :: ls => (M.step s l).bind fun s' => exec s' ls

/-- What is observed along a list of labels. -/
def trace : σ → List ℓ → List ο
  | _, [] => []
  | s, l :: ls =>
    match M.step s l with
    | none => []
    | some s' => M.obs s l ++ trace s' ls

variable {M}

@[simp] theorem exec_nil (s : σ) : M.exec s [] = some s := rfl

@[simp] theorem trace_nil (s : σ) : M.trace s [] = [] := rfl

theorem exec_cons (s : σ) (l : ℓ) (ls : List ℓ) :
    M.exec s (l :: ls) = (M.step s l).bind fun s' => M.exec s' ls := rfl

theorem exec_cons_eq_some {s s' : σ} {l : ℓ} {ls : List ℓ} :
    M.exec s (l :: ls) = some s' ↔ ∃ t, M.step s l = some t ∧ M.exec t ls = some s' :=
  Option.bind_eq_some_iff

theorem trace_cons {s s' : σ} {l : ℓ} (h : M.step s l = some s') (ls : List ℓ) :
    M.trace s (l :: ls) = M.obs s l ++ M.trace s' ls := by
  simp only [trace, h]

theorem exec_append (s : σ) (ls ms : List ℓ) :
    M.exec s (ls ++ ms) = (M.exec s ls).bind fun s' => M.exec s' ms := by
  induction ls generalizing s with
  | nil => rfl
  | cons l ls ih =>
    simp only [List.cons_append, exec_cons, Option.bind_assoc]
    congr 1
    funext s'
    exact ih s'

theorem trace_append {s t : σ} {ls : List ℓ} (h : M.exec s ls = some t) (ms : List ℓ) :
    M.trace s (ls ++ ms) = M.trace s ls ++ M.trace t ms := by
  induction ls generalizing s with
  | nil =>
    rw [exec_nil, Option.some.injEq] at h
    subst h; rfl
  | cons l ls ih =>
    obtain ⟨s', hs, hr⟩ := exec_cons_eq_some.mp h
    rw [List.cons_append, trace_cons hs, trace_cons hs, ih hr, List.append_assoc]

theorem exec_snoc {s s' : σ} {ls : List ℓ} {l : ℓ} :
    M.exec s (ls ++ [l]) = some s' ↔ ∃ t, M.exec s ls = some t ∧ M.step t l = some s' := by
  rw [exec_append, Option.bind_eq_some_iff]
  simp only [exec_cons, exec_nil, Option.bind_fun_some]

theorem trace_snoc {s t t' : σ} {ls : List ℓ} {l : ℓ} (h : M.exec s ls = some t)
    (hl : M.step t l = some t') : M.trace s (ls ++ [l]) = M.trace s ls ++ M.obs t l := by
  rw [trace_append h, trace_cons hl, trace_nil, List.append_nil]

/-- A run that reaches a state passes through a state after each of its prefixes. -/
theorem exec_prefix {s s' : σ} {pre post : List ℓ} (h : M.exec s (pre ++ post) = some s') :
    ∃ t, M.exec s pre = some t ∧ M.exec t post = some s' := by
  rw [exec_append, Option.bind_eq_some_iff] at h
  exact h

/-- **Everything observed was observed at some step.** -/
theorem exists_step_of_mem_trace {s s' : σ} {ls : List ℓ} {ev : ο} (h : M.exec s ls = some s')
    (hev : ev ∈ M.trace s ls) :
    ∃ pre l post t t', ls = pre ++ l :: post ∧ M.exec s pre = some t ∧ M.step t l = some t' ∧
      ev ∈ M.obs t l ∧ M.exec t' post = some s' := by
  induction ls generalizing s with
  | nil => simp at hev
  | cons l ls ih =>
    obtain ⟨s₁, hs₁, hr⟩ := exec_cons_eq_some.mp h
    rw [trace_cons hs₁] at hev
    rcases List.mem_append.mp hev with hev | hev
    · exact ⟨[], l, ls, s, s₁, rfl, rfl, hs₁, hev, hr⟩
    · obtain ⟨pre, m, post, t, t', rfl, hpre, hm, hobs, hpost⟩ := ih hr hev
      exact ⟨l :: pre, m, post, t, t', rfl, by rw [exec_cons, hs₁, Option.bind_some, hpre], hm,
        hobs, hpost⟩

/-! ## 2. Invariants over states and histories -/

/-- A property of every step of a run: of the history so far, the state before the step and
the label. -/
def EveryStep (M : Lts σ ℓ ο) (P : List ο → σ → ℓ → Prop) (s₀ : σ) (ls : List ℓ) : Prop :=
  ∀ (pre : List ℓ) (l : ℓ) (post : List ℓ) (s : σ), ls = pre ++ l :: post →
    M.exec s₀ pre = some s → P (M.trace s₀ pre) s l

theorem everyStep_snoc {P : List ο → σ → ℓ → Prop} {s₀ : σ} {ls : List ℓ} {l : ℓ} :
    M.EveryStep P s₀ (ls ++ [l]) ↔
      M.EveryStep P s₀ ls ∧ ∀ s, M.exec s₀ ls = some s → P (M.trace s₀ ls) s l := by
  constructor
  · intro h
    refine ⟨fun pre m post s hs he => ?_, fun s he => h ls l [] s rfl he⟩
    exact h pre m (post ++ [l]) s (by rw [hs, List.append_assoc, List.cons_append]) he
  · rintro ⟨h, hl⟩ pre m post s hs he
    rcases List.eq_nil_or_concat post with rfl | ⟨post', b, rfl⟩
    · obtain ⟨rfl, hlm⟩ := List.append_inj' hs rfl
      obtain rfl : l = m := List.singleton_inj.mp hlm
      exact hl s he
    · rw [List.concat_eq_append, ← List.cons_append, ← List.append_assoc] at hs
      obtain ⟨rfl, -⟩ := List.append_inj' hs rfl
      exact h pre m post' s rfl he

theorem EveryStep.mono {P Q : List ο → σ → ℓ → Prop} {s₀ : σ} {ls : List ℓ}
    (h : M.EveryStep P s₀ ls) (hPQ : ∀ h s l, P h s l → Q h s l) : M.EveryStep Q s₀ ls :=
  fun pre l post s hs he => hPQ _ _ _ (h pre l post s hs he)

theorem EveryStep.of_append {P : List ο → σ → ℓ → Prop} {s₀ : σ} {ls ms : List ℓ}
    (h : M.EveryStep P s₀ (ls ++ ms)) : M.EveryStep P s₀ ls :=
  fun pre l post s hs he => h pre l (post ++ ms) s (by rw [hs, List.append_assoc, List.cons_append]) he

/-- **The invariant rule under a condition on the steps.**  What holds at the start with an
empty history, and survives every step that meets `C`, holds after every run all of whose
steps meet `C`. -/
theorem exec_induction_of_everyStep {C : List ο → σ → ℓ → Prop} {I : List ο → σ → Prop} {s₀ : σ}
    (h₀ : I [] s₀)
    (hstep : ∀ h s l s', I h s → C h s l → M.step s l = some s' → I (h ++ M.obs s l) s')
    {ls : List ℓ} {s : σ} (hC : M.EveryStep C s₀ ls) (he : M.exec s₀ ls = some s) :
    I (M.trace s₀ ls) s := by
  induction ls using List.reverseRecOn generalizing s with
  | nil =>
    rw [exec_nil, Option.some.injEq] at he
    subst he; exact h₀
  | append_singleton ls l ih =>
    obtain ⟨t, ht, hl⟩ := exec_snoc.mp he
    obtain ⟨hC', hCl⟩ := everyStep_snoc.mp hC
    rw [trace_snoc ht hl]
    exact hstep _ _ _ _ (ih hC' ht) (hCl t ht) hl

/-- **The invariant rule.** -/
theorem exec_induction {I : List ο → σ → Prop} {s₀ : σ} (h₀ : I [] s₀)
    (hstep : ∀ h s l s', I h s → M.step s l = some s' → I (h ++ M.obs s l) s')
    {ls : List ℓ} {s : σ} (he : M.exec s₀ ls = some s) : I (M.trace s₀ ls) s :=
  exec_induction_of_everyStep (C := fun _ _ _ => True) h₀
    (fun h s l s' hI _ hs => hstep h s l s' hI hs) (fun _ _ _ _ _ _ => trivial) he

/-- The invariant rule for properties of the state alone. -/
theorem exec_invariant {I : σ → Prop} {s₀ : σ} (h₀ : I s₀)
    (hstep : ∀ s l s', I s → M.step s l = some s' → I s')
    {ls : List ℓ} {s : σ} (he : M.exec s₀ ls = some s) : I s :=
  exec_induction (I := fun _ s => I s) h₀ (fun _ s l s' hI hs => hstep s l s' hI hs) he

/-! ## 3. Non-interference -/

/-- The states passed through after each label. -/
def path (M : Lts σ ℓ ο) : σ → List ℓ → List σ
  | _, [] => []
  | s, l :: ls =>
    match M.step s l with
    | none => []
    | some s' => s' :: path M s' ls

theorem path_cons {s s' : σ} {l : ℓ} (h : M.step s l = some s') (ls : List ℓ) :
    M.path s (l :: ls) = s' :: M.path s' ls := by
  simp only [path, h]

/-- Unwinding conditions.  Part of a state can be seen through `view`.  A `hidden` label changes
nothing that can be seen, and what a visible label does to it depends only on what can be seen. -/
structure Unwinding (M : Lts σ ℓ ο) (υ : Type) where
  view : σ → υ
  hidden : ℓ → Bool
  Inv : σ → Prop
  inv_step : ∀ {s l s'}, Inv s → M.step s l = some s' → Inv s'
  hide : ∀ {s l s'}, Inv s → hidden l = true → M.step s l = some s' → view s' = view s
  visible : ∀ {s t l}, Inv s → Inv t → view s = view t → hidden l = false →
    (M.step s l).map view = (M.step t l).map view

namespace Unwinding

variable {M : Lts σ ℓ ο} {υ : Type} (U : M.Unwinding υ)

/-- Delete the hidden labels of a run. -/
def purge (ls : List ℓ) : List ℓ := ls.filter fun l => !U.hidden l

theorem purge_cons_hidden {l : ℓ} (hl : U.hidden l = true) (ls : List ℓ) :
    U.purge (l :: ls) = U.purge ls := by
  simp [purge, hl]

theorem purge_cons_visible {l : ℓ} (hl : U.hidden l = false) (ls : List ℓ) :
    U.purge (l :: ls) = l :: U.purge ls := by
  simp [purge, hl]

/-- A visible step can be taken in every state that looks the same, with the same result. -/
theorem step_congr {s t s' : σ} {l : ℓ} (hs : U.Inv s) (ht : U.Inv t)
    (hst : U.view s = U.view t) (hl : U.hidden l = false) (h : M.step s l = some s') :
    ∃ t', M.step t l = some t' ∧ U.view s' = U.view t' := by
  have hmap := U.visible hs ht hst hl
  rw [h, Option.map_some] at hmap
  obtain ⟨t', ht', heq⟩ := Option.map_eq_some_iff.mp hmap.symm
  exact ⟨t', ht', heq.symm⟩

/-- **Deleting the hidden labels.**  From any state that looks the same, the visible labels of a
run form a run of their own and lead to a state that looks the same. -/
theorem exec_purge {s t s' : σ} {ls : List ℓ} (hs : U.Inv s) (ht : U.Inv t)
    (hst : U.view s = U.view t) (h : M.exec s ls = some s') :
    ∃ t', M.exec t (U.purge ls) = some t' ∧ U.view s' = U.view t' := by
  induction ls generalizing s t with
  | nil =>
    rw [exec_nil, Option.some.injEq] at h
    subst h
    exact ⟨t, rfl, hst⟩
  | cons l ls ih =>
    obtain ⟨s₁, hs₁, hr⟩ := exec_cons_eq_some.mp h
    cases hl : U.hidden l with
    | true =>
      rw [U.purge_cons_hidden hl]
      exact ih (U.inv_step hs hs₁) ht ((U.hide hs hl hs₁).trans hst) hr
    | false =>
      obtain ⟨t₁, ht₁, hst₁⟩ := U.step_congr hs ht hst hl hs₁
      obtain ⟨t', ht', he⟩ := ih (U.inv_step hs hs₁) (U.inv_step ht ht₁) hst₁ hr
      exact ⟨t', by rw [U.purge_cons_visible hl, exec_cons, ht₁, Option.bind_some, ht'], he⟩

theorem inv_exec {s s' : σ} {ls : List ℓ} (hs : U.Inv s) (h : M.exec s ls = some s') : U.Inv s' :=
  exec_invariant hs (fun _ _ _ hI hstep => U.inv_step hI hstep) h

/-- **Replacing the hidden labels.**  Whatever hidden labels stand between the visible labels of a
run, no visible label is ever disabled. -/
theorem enabled_of_purge_eq {s s' u : σ} {ls ms before after : List ℓ} {l : ℓ} (hs : U.Inv s)
    (h : M.exec s ls = some s') (hp : U.purge ms = U.purge ls) (hms : ms = before ++ l :: after)
    (hu : M.exec s before = some u) (hl : U.hidden l = false) : ∃ u', M.step u l = some u' := by
  obtain ⟨t', ht', -⟩ := U.exec_purge hs hs rfl h
  have hsplit : U.purge ls = U.purge before ++ l :: U.purge after := by
    rw [← hp, hms, ← U.purge_cons_visible hl]
    exact List.filter_append _ _
  rw [hsplit] at ht'
  obtain ⟨t, ht, hrest⟩ := exec_prefix ht'
  obtain ⟨t₁, ht₁, -⟩ := exec_cons_eq_some.mp hrest
  -- The visible labels before `l` lead to a state that looks like `u`.
  obtain ⟨t₂, ht₂, hview⟩ := U.exec_purge hs hs rfl hu
  rw [ht, Option.some.injEq] at ht₂
  subst ht₂
  obtain ⟨u', hu', -⟩ := U.step_congr (U.inv_exec hs ht) (U.inv_exec hs hu) hview.symm hl ht₁
  exact ⟨u', hu'⟩

/-- Two runs that start out alike, seen after some content `c` that both show. -/
theorem path_purge_from {γ : Type} [DecidableEq γ] (content : υ → γ) {c : γ} {s t s' : σ}
    {ls : List ℓ} (hs : U.Inv s) (ht : U.Inv t) (hst : U.view s = U.view t)
    (hc : content (U.view s) = c) (h : M.exec s ls = some s') :
    ((M.path s ls).map fun u => content (U.view u)).destutter' (· ≠ ·) c
      = ((M.path t (U.purge ls)).map fun u => content (U.view u)).destutter' (· ≠ ·) c := by
  induction ls generalizing s t c with
  | nil => rfl
  | cons l ls ih =>
    obtain ⟨s₁, hs₁, hr⟩ := exec_cons_eq_some.mp h
    have hinv := U.inv_step hs hs₁
    rw [path_cons hs₁, List.map_cons]
    cases hl : U.hidden l with
    | true =>
      have hview := U.hide hs hl hs₁
      have hsame : content (U.view s₁) = c := by rw [hview, hc]
      rw [U.purge_cons_hidden hl, List.destutter'_cons_neg _ (not_not.mpr hsame.symm)]
      exact ih hinv ht (hview.trans hst) hsame hr
    | false =>
      obtain ⟨t₁, ht₁, hst₁⟩ := U.step_congr hs ht hst hl hs₁
      have hinv' := U.inv_step ht ht₁
      rw [U.purge_cons_visible hl, path_cons ht₁, List.map_cons, ← hst₁]
      by_cases hsame : content (U.view s₁) = c
      · rw [List.destutter'_cons_neg _ (not_not.mpr hsame.symm),
          List.destutter'_cons_neg _ (not_not.mpr hsame.symm)]
        exact ih hinv hinv' hst₁ hsame hr
      · rw [List.destutter'_cons_pos _ (Ne.symm hsame), List.destutter'_cons_pos _ (Ne.symm hsame),
          ih hinv hinv' hst₁ rfl hr]

/-- **What can be seen goes through the same contents**, up to repetitions. -/
theorem path_purge {γ : Type} [DecidableEq γ] (content : υ → γ) {s t s' : σ} {ls : List ℓ}
    (hs : U.Inv s) (ht : U.Inv t) (hst : U.view s = U.view t) (h : M.exec s ls = some s') :
    ((s :: M.path s ls).map fun u => content (U.view u)).destutter (· ≠ ·)
      = ((t :: M.path t (U.purge ls)).map fun u => content (U.view u)).destutter (· ≠ ·) := by
  rw [List.map_cons, List.map_cons, List.destutter_cons', List.destutter_cons', ← hst]
  exact U.path_purge_from content hs ht hst rfl h

/-- **What can be heard.**  When a hidden step is silent for `hear` and a visible step sounds the
same in states that look the same, deleting the hidden labels leaves what is heard as it was. -/
theorem trace_purge {hear : ο → Bool}
    (hhid : ∀ s l, U.hidden l = true → (M.obs s l).filter hear = [])
    (hvis : ∀ s t l, U.Inv s → U.Inv t → U.view s = U.view t → U.hidden l = false →
      M.obs s l = M.obs t l)
    {s t s' : σ} {ls : List ℓ} (hs : U.Inv s) (ht : U.Inv t)
    (hst : U.view s = U.view t) (h : M.exec s ls = some s') :
    (M.trace s ls).filter hear = (M.trace t (U.purge ls)).filter hear := by
  induction ls generalizing s t with
  | nil => rfl
  | cons l ls ih =>
    obtain ⟨s₁, hs₁, hr⟩ := exec_cons_eq_some.mp h
    rw [trace_cons hs₁, List.filter_append]
    cases hl : U.hidden l with
    | true =>
      rw [U.purge_cons_hidden hl, hhid s l hl, List.nil_append]
      exact ih (U.inv_step hs hs₁) ht ((U.hide hs hl hs₁).trans hst) hr
    | false =>
      obtain ⟨t₁, ht₁, hst₁⟩ := U.step_congr hs ht hst hl hs₁
      rw [U.purge_cons_visible hl, trace_cons ht₁, List.filter_append, hvis s t l hs ht hst hl,
        ih (U.inv_step hs hs₁) (U.inv_step ht ht₁) hst₁ hr]

end Unwinding

end Lts
