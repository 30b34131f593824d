/-
# Capped exponential growth with symmetric jitter

The arithmetic of a retry delay over an ordered field: `base i m cap n` grows like `i * m ^ n` until
it meets `cap`, and `delay` multiplies it by a factor drawn from `[1 - j, 1 + j)` and caps the
product again.  The draw is a number `u` of `[0, 1)`.

* `delay_lower`, `delay_upper`, `delay_mem_Icc`: the range of a delay.
* `delay_mono_draw`, `delay_mono_attempt`, `delay_eq_of_base_eq`: more of the draw, or of the
  exponent, never gives less, and a base that has met the cap stays there.
* `roundedDelay_mono`: more of the draw never gives less, also where each result is rounded.
-/
import Mathlib.Algebra.Order.Field.Basic
import Mathlib.Tactic.Linarith
import Mathlib.Tactic.Positivity
import Mathlib.Tactic.Ring

namespace Backoff

variable {K : Type*} [Field K]

/-! ## 1. Definitions -/

/-- The factor a draw stands for. -/
def factor (j u : K) : K := 1 + (2 * u - 1) * j

@[simp] theorem factor_zero (j : K) : factor j 0 = 1 - j := by
  unfold factor; ring

@[simp] theorem factor_no_jitter (u : K) : factor 0 u = 1 := by
  unfold factor; ring

variable [LinearOrder K]

/-- Growth by `m` in each step, capped. -/
def base (i m cap : K) (n : ℕ) : K := min (i * m ^ n) cap

/-- The jittered value, capped again. -/
def delay (i m j cap : K) (n : ℕ) (u : K) : K := min (base i m cap n * factor j u) cap

variable {i m j cap u v : K} {n k : ℕ}

theorem base_le_cap : base i m cap n ≤ cap := min_le_right _ _

/-- Without jitter the delay is the base. -/
theorem delay_no_jitter : delay i m 0 cap n u = base i m cap n := by
  rw [delay, factor_no_jitter, mul_one]
  exact min_eq_left base_le_cap

variable [IsStrictOrderedRing K]

/-! ## 2. The base and the factor -/

theorem base_nonneg (hi : 0 ≤ i) (hm : 0 < m) (hcap : 0 ≤ cap) : 0 ≤ base i m cap n :=
  le_min (by positivity) hcap

theorem base_mono (hi : 0 ≤ i) (hm : 1 ≤ m) (hnk : n ≤ k) : base i m cap n ≤ base i m cap k :=
  min_le_min_right _ (mul_le_mul_of_nonneg_left (pow_le_pow_right₀ hm hnk) hi)

/-- A base that has met the cap stays there. -/
theorem base_eq_cap (hi : 0 ≤ i) (hm : 1 ≤ m) (hnk : n ≤ k) (h : base i m cap n = cap) :
    base i m cap k = cap :=
  le_antisymm base_le_cap (h.symm.le.trans (base_mono hi hm hnk))

theorem factor_mono (hj : 0 ≤ j) (huv : u ≤ v) : factor j u ≤ factor j v := by
  have h : (2 * u - 1) * j ≤ (2 * v - 1) * j := mul_le_mul_of_nonneg_right (by linarith) hj
  unfold factor
  linarith

theorem factor_lower (hj : 0 ≤ j) (hu : 0 ≤ u) : 1 - j ≤ factor j u :=
  factor_zero j ▸ factor_mono hj hu

theorem factor_upper (hj : 0 ≤ j) (hu : u ≤ 1) : factor j u ≤ 1 + j := by
  refine (factor_mono hj hu).trans (le_of_eq ?_)
  unfold factor
  ring

theorem factor_nonneg (hj : 0 ≤ j) (hj1 : j ≤ 1) (hu : 0 ≤ u) : 0 ≤ factor j u :=
  (sub_nonneg.mpr hj1).trans (factor_lower hj hu)

/-! ## 3. The delay -/

section Range

variable (hi : 0 ≤ i) (hm : 0 < m) (hcap : 0 ≤ cap) (hj : 0 ≤ j)
include hi hm hcap hj

theorem delay_lower (hu : 0 ≤ u) : base i m cap n * (1 - j) ≤ delay i m j cap n u := by
  have hb := base_nonneg (n := n) hi hm hcap
  refine le_min (mul_le_mul_of_nonneg_left (factor_lower hj hu) hb) ?_
  calc base i m cap n * (1 - j) ≤ base i m cap n * 1 := mul_le_mul_of_nonneg_left (by linarith) hb
    _ = base i m cap n := mul_one _
    _ ≤ cap := base_le_cap

theorem delay_upper (hu : u ≤ 1) : delay i m j cap n u ≤ min cap (base i m cap n * (1 + j)) := by
  have hb := base_nonneg (n := n) hi hm hcap
  exact le_min (min_le_right _ _)
    ((min_le_left _ _).trans (mul_le_mul_of_nonneg_left (factor_upper hj hu) hb))

theorem delay_mem_Icc (hj1 : j ≤ 1) (hu : 0 ≤ u) : 0 ≤ delay i m j cap n u ∧ delay i m j cap n u ≤ cap :=
  ⟨le_min (mul_nonneg (base_nonneg hi hm hcap) (factor_nonneg hj hj1 hu)) hcap, min_le_right _ _⟩

/-- **More of the draw never gives less.** -/
theorem delay_mono_draw (huv : u ≤ v) : delay i m j cap n u ≤ delay i m j cap n v :=
  min_le_min_right _
    (mul_le_mul_of_nonneg_left (factor_mono hj huv) (base_nonneg hi hm hcap))

end Range

/-- **One more failure never gives less.** -/
theorem delay_mono_attempt (hi : 0 ≤ i) (hm : 1 ≤ m) (hj : 0 ≤ j) (hj1 : j ≤ 1) (hu : 0 ≤ u)
    (hnk : n ≤ k) : delay i m j cap n u ≤ delay i m j cap k u :=
  min_le_min_right _
    (mul_le_mul_of_nonneg_right (base_mono hi hm hnk) (factor_nonneg hj hj1 hu))

/-- Once the base has met the cap, the delay is constant. -/
theorem delay_eq_of_base_eq (hi : 0 ≤ i) (hm : 1 ≤ m) (hnk : n ≤ k) (h : base i m cap n = cap) :
    delay i m j cap k u = delay i m j cap n u := by
  rw [delay, delay, h, base_eq_cap hi hm hnk h]

/-! ## 4. The delay, with each result rounded -/

/-- The factor a draw stands for, by two fused operations. -/
def roundedFactor (r : K → K) (j u : K) : K := r (1 + r (u * r (2 * j) + -j))

/-- The delay of a base. -/
def roundedDelay (r : K → K) (b j cap u : K) : K := min (r (b * roundedFactor r j u)) cap

section Rounded

variable {r : K → K} (hr : Monotone r) (hr0 : r 0 = 0)
include hr hr0

omit [IsStrictOrderedRing K] in
theorem rounded_nonneg {x : K} (h : 0 ≤ x) : 0 ≤ r x := hr0.symm.le.trans (hr h)

theorem roundedFactor_mono (hj : 0 ≤ j) (huv : u ≤ v) : roundedFactor r j u ≤ roundedFactor r j v := by
  have hdouble : 0 ≤ r (2 * j) := rounded_nonneg hr hr0 (mul_nonneg two_pos.le hj)
  have hprod := mul_le_mul_of_nonneg_right huv hdouble
  exact hr (add_le_add_right (hr (add_le_add_left hprod _)) _)

/-- The factor is not negative, if `-1` is not rounded. -/
theorem roundedFactor_nonneg (hr1 : r (-1) = -1) (hj : 0 ≤ j) (hj1 : j ≤ 1) (hu : 0 ≤ u) :
    0 ≤ roundedFactor r j u := by
  have hdouble : 0 ≤ r (2 * j) := rounded_nonneg hr hr0 (mul_nonneg two_pos.le hj)
  have hlow : -1 ≤ r (u * r (2 * j) + -j) :=
    hr1.symm.le.trans (hr (by linarith [mul_nonneg hu hdouble]))
  exact rounded_nonneg hr hr0 (by linarith)

theorem roundedDelay_nonneg {b : K} (hr1 : r (-1) = -1) (hb : 0 ≤ b) (hcap : 0 ≤ cap) (hj : 0 ≤ j)
    (hj1 : j ≤ 1) (hu : 0 ≤ u) : 0 ≤ roundedDelay r b j cap u :=
  le_min (rounded_nonneg hr hr0 (mul_nonneg hb (roundedFactor_nonneg hr hr0 hr1 hj hj1 hu))) hcap

/-- **More of the draw never gives less.** -/
theorem roundedDelay_mono {b : K} (hb : 0 ≤ b) (hj : 0 ≤ j) (huv : u ≤ v) :
    roundedDelay r b j cap u ≤ roundedDelay r b j cap v :=
  min_le_min_right _ (hr (mul_le_mul_of_nonneg_left (roundedFactor_mono hr hr0 hj huv) hb))

end Rounded

end Backoff
