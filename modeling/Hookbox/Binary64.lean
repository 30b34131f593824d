/-
# The arithmetic of the machine

`compute_backoff` in the arithmetic of IEEE 754's binary64: every result is rounded to the nearest
`f64` and may overflow.  Rounding keeps the order and leaves an `f64` alone, and no more is used of
it: a result that lies between two numbers of the format is not moved past them.

The precision of `powi` is left open; that it is not negative for a positive number is all that is
asked of it.  It may be infinite, and zero times that is NaN: `f64::min` then takes the cap.

* `F64.rounded_not_lt`, `F64.mul_not_lt`, `F64.min_of_not_lt`: what is not negative stays so, and under
  a cap it is a number.
* `BackoffPolicy.exists_delay`: for a policy that passes the assertions, all the guards and clamps
  come to one formula, `Backoff.roundedDelay`.
-/
import Hookbox.Backoff

namespace Hookbox

/-! ## 1. Rounding to an `f64` -/

theorem binary64_precision : 0 < binary64.precision := by decide

theorem contains_div {n : ℤ} {k : ℕ} (hn : |n| < 2 ^ 53) (hk : k ≤ 1074) :
    binary64.Contains (n / 2 ^ k : ℚ) := by
  refine ⟨n, -k, hn, ?_, ?_⟩
  · show (-1074 : ℤ) ≤ -k
    omega
  · rw [zpow_neg, zpow_natCast, div_eq_mul_inv]

theorem contains_int {n : ℤ} (hn : |n| < 2 ^ 53) : binary64.Contains (n : ℚ) := by
  simpa using contains_div (k := 0) hn (by decide)

theorem contains_pow (k : ℕ) : binary64.Contains (2 ^ k : ℚ) :=
  ⟨1, k, by decide, (by decide : (-1074 : ℤ) ≤ 0).trans (Int.natCast_nonneg k), by simp⟩

theorem nearest_monotone : Monotone (binary64.nearest : ℚ → ℚ) :=
  fun _ _ h => Rounding.Format.nearest_mono binary64_precision h

theorem nearest_int {n : ℤ} (hn : |n| < 2 ^ 53) : binary64.nearest (n : ℚ) = n :=
  Rounding.Format.nearest_eq_self (contains_int hn)

theorem nearest_zero : binary64.nearest (0 : ℚ) = 0 := by
  exact_mod_cast nearest_int (n := 0) (by decide)

theorem nearest_neg_one : binary64.nearest (-1 : ℚ) = -1 := by
  exact_mod_cast nearest_int (n := -1) (by decide)

section Bounds

variable {q d : ℚ} (hd : binary64.Contains d)
include hd

theorem nearest_le (h : q ≤ d) : binary64.nearest q ≤ d :=
  Rounding.Format.nearest_le binary64_precision hd h

theorem le_nearest (h : d ≤ q) : d ≤ binary64.nearest q :=
  Rounding.Format.le_nearest binary64_precision hd h

theorem lt_of_nearest_lt (h : binary64.nearest q < d) : q < d :=
  Rounding.Format.lt_of_nearest_lt binary64_precision hd h

theorem lt_of_lt_nearest (h : d < binary64.nearest q) : d < q :=
  Rounding.Format.lt_of_lt_nearest binary64_precision hd h

end Bounds

namespace F64

/-- A number that is not too large is rounded to a number. -/
theorem rounded_finite {q : ℚ} (hlow : -2 ^ 100 ≤ q) (hhigh : q ≤ 2 ^ 100) :
    (finite q).rounded = finite (binary64.nearest q) := by
  have hle := nearest_le (contains_pow 100) hhigh
  have hge := le_nearest (contains_pow 100).neg hlow
  have hpow : (2 : ℚ) ^ 100 < 2 ^ 1024 := pow_lt_pow_right₀ one_lt_two (by decide)
  simp only [rounded]
  rw [if_neg (not_le.mpr (hle.trans_lt hpow)),
    if_neg (not_le.mpr ((neg_lt_neg hpow).trans_le hge))]

/-- A number that is not negative, an infinity or NaN, is a number again under a cap. -/
theorem min_of_not_lt {x : F64} (hx : x.lt (finite 0) = false) {c : ℚ} (hc : 0 ≤ c) :
    ∃ b, x.min (finite c) = finite b ∧ 0 ≤ b ∧ b ≤ c := by
  cases x with
  | finite q =>
    have hq : 0 ≤ q := by simpa using hx
    exact ⟨Min.min q c, min_finite q c, le_min hq hc, min_le_right _ _⟩
  | negInf => simp [lt] at hx
  | posInf | nan => exact ⟨c, by simp [min, isNan, lt], hc, le_rfl⟩

theorem min_le_finite {x : F64} {c l : ℚ} (h : c ≤ l) :
    (x.min (finite c)).le (finite l) = true := by
  cases x with
  | finite q =>
    rw [min_finite, le_finite, decide_eq_true_eq]
    exact (min_le_right _ _).trans h
  | posInf | negInf | nan => simp [min, isNan, lt, le, h, decide_eq_true_eq, ← le_iff_lt_or_eq]

theorem rounded_not_lt {x : F64} (hx : x.lt (finite 0) = false) :
    x.rounded.lt (finite 0) = false := by
  cases x with
  | finite q =>
    have hq : 0 ≤ q := by simpa using hx
    have hr : 0 ≤ binary64.nearest q := Backoff.rounded_nonneg nearest_monotone nearest_zero hq
    have hpow : (-2 ^ 1024 : ℚ) < 0 := neg_lt_zero.mpr (by positivity)
    simp only [rounded]
    split
    · rfl
    · rw [if_neg (not_le.mpr (hpow.trans_le hr)), lt_finite]
      exact decide_eq_false (not_lt.mpr hr)
  | posInf | negInf | nan => exact hx

theorem mul_not_lt {x y : F64} (hx : x.lt (finite 0) = false) (hy : y.lt (finite 0) = false) :
    (x.mul y).lt (finite 0) = false := by
  have hsign : ∀ {q : ℚ}, (finite q).lt (finite 0) = false → q = 0 ∨ 0 < q := by
    intro q hq
    exact (eq_or_lt_of_le (show 0 ≤ q by simpa using hq)).imp Eq.symm id
  cases x with
  | negInf => simp [lt] at hx
  | nan => rfl
  | finite p =>
    cases y with
    | negInf => simp [lt] at hy
    | nan => rfl
    | finite q =>
      have hp : 0 ≤ p := by simpa using hx
      have hq : 0 ≤ q := by simpa using hy
      rw [mul_finite, lt_finite]
      exact decide_eq_false (not_lt.mpr (mul_nonneg hp hq))
    | posInf =>
      rcases hsign hx with rfl | hp
      · simp [mul, sign, infinity, lt]
      · simp [mul, sign, infinity, sign_pos hp, lt]
  | posInf =>
    cases y with
    | negInf => simp [lt] at hy
    | nan => rfl
    | posInf => simp [mul, sign, infinity, lt]
    | finite q =>
      rcases hsign hy with rfl | hq
      · simp [mul, sign, infinity, lt]
      · simp [mul, sign, infinity, sign_pos hq, lt]

end F64

/-! ## 2. `powi` and the draws -/

/-- `powi` of a positive number is not negative.  Its precision is not specified, and it may be
infinite. -/
def PowiNotNegative (powi : F64 → Nat → F64) : Prop :=
  ∀ (m : ℚ) (n : Nat), 0 < m → (powi (.finite m) n).lt (.finite 0) = false

/-- The loop of `powi` in the compiler's runtime library. -/
def powiLoop : Nat → F64 → F64 → Nat → F64
  | 0, r, _, _ => r
  | fuel + 1, r, a, b =>
    let r := if b % 2 = 1 then (r.mul a).rounded else r
    if b / 2 = 0 then r else powiLoop fuel r (a.mul a).rounded (b / 2)

/-- `powi` by repeated squaring; the exponent is an `i32`. -/
def runtimePowi (a : F64) (b : Nat) : F64 := powiLoop 32 (.finite 1) a b

theorem powiLoop_not_lt : ∀ (fuel : Nat) {r a : F64} (b : Nat), r.lt (.finite 0) = false →
    a.lt (.finite 0) = false → (powiLoop fuel r a b).lt (.finite 0) = false := by
  intro fuel
  induction fuel with
  | zero => exact fun b hr _ => hr
  | succ fuel ih =>
    intro r a b hr ha
    have hr' : (if b % 2 = 1 then (r.mul a).rounded else r).lt (.finite 0) = false := by
      split
      · exact F64.rounded_not_lt (F64.mul_not_lt hr ha)
      · exact hr
    rw [powiLoop]
    split
    · exact hr'
    · exact ih _ hr' (F64.rounded_not_lt (F64.mul_not_lt ha ha))

theorem runtimePowi_notNegative : PowiNotNegative runtimePowi :=
  fun m n hm => powiLoop_not_lt 32 n (by simp) (by simpa using hm.le)

/-- A draw of `fastrand::f64`: an `f64` in `[0, 1)`. -/
structure Draw (u : ℚ) : Prop where
  double : binary64.Contains u
  nonneg : 0 ≤ u
  lt_one : u < 1

/-- The greatest draw. -/
def lastDraw : ℚ := 1 - 1 / 2 ^ 53

theorem Draw.first : Draw 0 :=
  ⟨by exact_mod_cast contains_int (n := 0) (by decide), le_rfl, one_pos⟩

theorem Draw.last : Draw lastDraw := by
  have hval : lastDraw = ((2 ^ 53 - 1 : ℤ) : ℚ) / 2 ^ 53 := by norm_num [lastDraw]
  refine ⟨hval ▸ contains_div (by decide) (by decide), ?_, ?_⟩ <;> norm_num [lastDraw]

theorem Draw.le_last {u : ℚ} (h : Draw u) : u ≤ lastDraw := by
  have hle := h.double.le_pred_one binary64_precision h.lt_one
  have hprecision : binary64.precision = 53 := rfl
  rwa [hprecision] at hle

/-! ## 3. `compute_backoff` -/

/-- A duration is read as a number. -/
theorem StdDuration.asSecsF64_ieee (powi : F64 → Nat → F64) (d : StdDuration) :
    ∃ c, d.asSecsF64 (.ieee powi) = .finite c ∧ 0 ≤ c ∧ c ≤ 2 ^ 65 := by
  have hsecs : ((d.nanos / 10 ^ 9 : Nat) : ℚ) ≤ 2 ^ 64 := by
    have := Nat.div_lt_of_lt_mul (mul_comm (2 ^ 64) (10 ^ 9) ▸ d.inRange)
    exact_mod_cast this.le
  have hfrac : ((d.nanos % 10 ^ 9 : Nat) : ℚ) / 10 ^ 9 ≤ 1 := by
    rw [div_le_one (by norm_num)]
    exact_mod_cast (Nat.mod_lt d.nanos (by decide)).le
  have hsecs0 : (0 : ℚ) ≤ (d.nanos / 10 ^ 9 : Nat) := Nat.cast_nonneg _
  have hfrac0 : (0 : ℚ) ≤ (d.nanos % 10 ^ 9 : Nat) / 10 ^ 9 := by positivity
  have hnonneg : ∀ {q : ℚ}, 0 ≤ q → 0 ≤ binary64.nearest q :=
    Backoff.rounded_nonneg nearest_monotone nearest_zero
  have hone : binary64.Contains (1 : ℚ) := by simpa using contains_pow 0
  have hs := nearest_le (contains_pow 64) hsecs
  have hf := nearest_le hone hfrac
  have hsum := add_nonneg (hnonneg hsecs0) (hnonneg hfrac0)
  refine ⟨binary64.nearest (binary64.nearest ((d.nanos / 10 ^ 9 : Nat) : ℚ) +
    binary64.nearest (((d.nanos % 10 ^ 9 : Nat) : ℚ) / 10 ^ 9)), ?_, hnonneg hsum,
    nearest_le (contains_pow 65) (by linarith)⟩
  simp only [asSecsF64, FloatArith.add, FloatArith.ofRat, FloatArith.ieee]
  rw [F64.rounded_finite (by linarith) (by linarith), F64.rounded_finite (by linarith) (by linarith),
    F64.add_finite, F64.rounded_finite (by linarith) (by linarith)]

section Values

variable {powi : F64 → Nat → F64} {policy : BackoffPolicy} {m j : ℚ}

/-- The cap and the base of an attempt are numbers, whatever `powi` has come to. -/
theorem BackoffPolicy.base_ieee (policy : BackoffPolicy) (hpowi : PowiNotNegative powi)
    (hm0 : 0 < m) (n : Nat) :
    ∃ b c : ℚ, policy.maxBackoff.asSecsF64 (.ieee powi) = .finite c ∧
      ((FloatArith.ieee powi).mul (policy.initialBackoff.asSecsF64 (.ieee powi))
        (powi (.finite m) n)).min (.finite c) = .finite b ∧ 0 ≤ b ∧ b ≤ c ∧ c ≤ 2 ^ 65 := by
  obtain ⟨c, hcap, hc, hc'⟩ := policy.maxBackoff.asSecsF64_ieee powi
  obtain ⟨i, hinitial, hi, -⟩ := policy.initialBackoff.asSecsF64_ieee powi
  have hi' : (F64.finite i).lt (.finite 0) = false := decide_eq_false (not_lt.mpr hi)
  obtain ⟨b, hb, hb0, hbc⟩ :=
    F64.min_of_not_lt (F64.rounded_not_lt (F64.mul_not_lt hi' (hpowi m n hm0))) hc
  exact ⟨b, c, hcap, by rw [hinitial]; exact hb, hb0, hbc, hc'⟩

section Draws

variable {b c u : ℚ} (hj0 : 0 ≤ j) (hj1 : j ≤ 1) (hu : 0 ≤ u) (hu1 : u ≤ 1)
include hj0 hj1 hu hu1

/-- The factor of a draw, operation by operation. -/
theorem factor_ieee (powi : F64 → Nat → F64) :
    (FloatArith.ieee powi).add (.finite 1) ((FloatArith.ieee powi).mulAdd (.finite u)
        ((FloatArith.ieee powi).mul (.finite 2) (.finite j)) (F64.finite j).neg)
      = .finite (Backoff.roundedFactor binary64.nearest j u) ∧
    Backoff.roundedFactor binary64.nearest j u ≤ 3 := by
  have htwo : binary64.Contains (2 : ℚ) := by simpa using contains_pow 1
  have hthree : binary64.Contains (3 : ℚ) := by exact_mod_cast contains_int (n := 3) (by decide)
  have hdouble : binary64.nearest (2 * j) ≤ 2 := nearest_le htwo (by linarith)
  have hdouble0 : 0 ≤ binary64.nearest (2 * j) :=
    Backoff.rounded_nonneg nearest_monotone nearest_zero (by linarith)
  have hprod : u * binary64.nearest (2 * j) ≤ 2 := by nlinarith
  have hprod0 := mul_nonneg hu hdouble0
  have hfma := nearest_le htwo (show u * binary64.nearest (2 * j) + -j ≤ 2 by linarith)
  have hfma1 : -1 ≤ binary64.nearest (u * binary64.nearest (2 * j) + -j) :=
    nearest_neg_one.symm.le.trans (nearest_monotone (by linarith))
  refine ⟨?_, nearest_le hthree (by linarith)⟩
  simp only [FloatArith.add, FloatArith.mul, FloatArith.mulAdd, FloatArith.ieee, F64.mul_finite,
    F64.neg_finite]
  rw [F64.rounded_finite (by linarith) (by linarith), F64.mulAdd_finite,
    F64.rounded_finite (by linarith) (by linarith), F64.add_finite,
    F64.rounded_finite (by linarith) (by linarith)]
  rfl

/-- The delay of a draw, operation by operation. -/
theorem delay_ieee (powi : F64 → Nat → F64) (hb : 0 ≤ b) (hbc : b ≤ c) (hc : c ≤ 2 ^ 65) :
    ((FloatArith.ieee powi).mul (.finite b) (.finite (Backoff.roundedFactor binary64.nearest j u))).min
        (.finite c)
      = .finite (Backoff.roundedDelay binary64.nearest b j c u) := by
  have hle := (factor_ieee hj0 hj1 hu hu1 powi).2
  have hnonneg := Backoff.roundedFactor_nonneg nearest_monotone nearest_zero nearest_neg_one hj0 hj1 hu
  have hprod0 := mul_nonneg hb hnonneg
  have hprod : b * Backoff.roundedFactor binary64.nearest j u ≤ 2 ^ 65 * 3 :=
    mul_le_mul (hbc.trans hc) hle hnonneg (by positivity)
  simp only [FloatArith.mul, FloatArith.ieee, F64.mul_finite]
  rw [F64.rounded_finite (by linarith) (by linarith), F64.min_finite]
  rfl

/-- **What the guards and clamps come to**: the delay of the base. -/
theorem BackoffPolicy.jitteredSecs_ieee (hj : policy.jitter = .finite j)
    (hm : policy.backoffMultiplier = .finite m) {n : Int32} (hn : 0 < n)
    (hcap : policy.maxBackoff.asSecsF64 (.ieee powi) = .finite c)
    (hbase : ((FloatArith.ieee powi).mul (policy.initialBackoff.asSecsF64 (.ieee powi))
      (powi (.finite m) (n.toInt - 1).toNat)).min (.finite c) = .finite b)
    (hb : 0 ≤ b) (hbc : b ≤ c) (hc : c ≤ 2 ^ 65) :
    policy.jitteredSecs (.ieee powi) n u
      = .finite (Backoff.roundedDelay binary64.nearest b j c u) := by
  have hnonneg := Backoff.roundedFactor_nonneg nearest_monotone nearest_zero nearest_neg_one hj0 hj1 hu
  have hone : binary64.nearest (1 : ℚ) = 1 := by exact_mod_cast nearest_int (n := 1) (by decide)
  -- Without jitter the factor is one, as the formula has it.
  have hfactor : (if (F64.finite 0).lt (.finite j) then
      (FloatArith.ieee powi).add (.finite 1) ((FloatArith.ieee powi).mulAdd (.finite u)
        ((FloatArith.ieee powi).mul (.finite 2) (.finite j)) (F64.finite j).neg)
      else .finite 1).max (.finite 0) = .finite (Backoff.roundedFactor binary64.nearest j u) := by
    split
    · rw [(factor_ieee hj0 hj1 hu hu1 powi).1, F64.max_finite, max_eq_left hnonneg]
    · rename_i hzero
      obtain rfl : j = 0 := le_antisymm (not_lt.mp (by simpa using hzero)) hj0
      rw [F64.max_finite, max_eq_left zero_le_one, Backoff.roundedFactor]
      simp only [mul_zero, nearest_zero, neg_zero, add_zero, hone]
  have hdelay := delay_ieee hj0 hj1 hu hu1 powi hb hbc hc
  have hdelay0 := Backoff.roundedDelay_nonneg nearest_monotone nearest_zero nearest_neg_one hb
    (hb.trans hbc) hj0 hj1 hu
  unfold jitteredSecs
  simp only [toInt_sub_one hn, hj, hm, hcap, hfactor, FloatArith.ieee_powi, hbase, hdelay,
    F64.isFinite_finite, if_true]
  exact F64.clamp_finite hdelay0 (min_le_right _ _)

end Draws

end Values

/-- The values of an attempt, for all of its draws. -/
theorem BackoffPolicy.exists_delay {powi : F64 → Nat → F64} (hpowi : PowiNotNegative powi)
    {policy : BackoffPolicy} {j m : ℚ} (hj : policy.jitter = .finite j)
    (hm : policy.backoffMultiplier = .finite m) (hj0 : 0 ≤ j) (hj1 : j ≤ 1) (hm0 : 0 < m)
    {n : Int32} (hn : 0 < n) :
    ∃ b c : ℚ, policy.maxBackoff.asSecsF64 (.ieee powi) = .finite c ∧
      ((FloatArith.ieee powi).mul (policy.initialBackoff.asSecsF64 (.ieee powi))
        (powi (.finite m) (n.toInt - 1).toNat)).min (.finite c) = .finite b ∧
      0 ≤ b ∧ b ≤ c ∧ c ≤ 2 ^ 65 ∧ ∀ u, Draw u →
        policy.jitteredSecs (.ieee powi) n u
          = .finite (Backoff.roundedDelay binary64.nearest b j c u) ∧
        0 ≤ Backoff.roundedDelay binary64.nearest b j c u := by
  obtain ⟨b, c, hcap, hbase, hb, hbc, hc⟩ :=
    policy.base_ieee hpowi hm0 (n.toInt - 1).toNat
  refine ⟨b, c, hcap, hbase, hb, hbc, hc, fun u hu => ⟨?_, ?_⟩⟩
  · exact policy.jitteredSecs_ieee hj0 hj1 hu.nonneg hu.lt_one.le hj hm hn hcap hbase hb hbc hc
  · exact Backoff.roundedDelay_nonneg nearest_monotone nearest_zero nearest_neg_one hb
      (hb.trans hbc) hj0 hj1 hu.nonneg

end Hookbox
