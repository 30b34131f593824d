/-
# The backoff of a failed dispatch

`compute_backoff` (`hookbox/src/transitions.rs`).  An `f64` is a rational, an infinity or NaN.  An
operation has an exact result first, with what IEEE 754 says about NaN and the infinities, because a
TOML file may contain them and the guards of `compute_backoff` are about them.  What then becomes of
this result is up to a `FloatArith`: `ieee` rounds it to the nearest `f64` and lets it overflow,
`exact` does neither.  The law is about the exact arithmetic; whether a retry can panic
(`RetrySafety`) is asked of the other.

The draw of `fastrand::f64` is an argument, and a failed assertion is an error.

* `jitteredSecs_eq`: for a policy that passes the assertions, all the guards and clamps come to one
  formula, `Backoff.delay`, in exact arithmetic.
* `backoff_law`: its range and its monotonicity.
-/
import Hookbox.Config
import Hookbox.Lib.Backoff
import Hookbox.Lib.Rounding

namespace Hookbox

/-! ## 1. Floating-point arithmetic -/

/-- The numbers that an `f64` can be, but for the upper end of their exponent. -/
def binary64 : Rounding.Format := ⟨53, -1074⟩

namespace F64

def isNan : F64 → Bool
  | nan => true
  | _ => false

def isFinite : F64 → Bool
  | finite _ => true
  | _ => false

/-- `<=` of IEEE 754. -/
def le (x y : F64) : Bool := x.lt y || (x = y && !x.isNan)

def neg : F64 → F64
  | finite q => finite (-q)
  | posInf => negInf
  | negInf => posInf
  | nan => nan

def add : F64 → F64 → F64
  | finite p, finite q => finite (p + q)
  | nan, _ | _, nan => nan
  | posInf, negInf | negInf, posInf => nan
  | posInf, _ | _, posInf => posInf
  | negInf, _ | _, negInf => negInf

/-- The sign of a number that is not NaN. -/
def sign : F64 → SignType
  | finite q => SignType.sign q
  | posInf => 1
  | negInf => -1
  | nan => 0

/-- The infinity of a sign; zero times an infinity is NaN. -/
def infinity : SignType → F64
  | 1 => posInf
  | -1 => negInf
  | 0 => nan

def mul : F64 → F64 → F64
  | finite p, finite q => finite (p * q)
  | nan, _ | _, nan => nan
  | x, y => infinity (x.sign * y.sign)

/-- `f64::mul_add`. -/
def mulAdd (x y z : F64) : F64 := (x.mul y).add z

/-- `f64::powi`, for an exponent that is not negative. -/
def powi (x : F64) : Nat → F64
  | 0 => finite 1
  | n + 1 => (powi x n).mul x

/-- `f64::min`: a NaN argument is ignored. -/
def min (x y : F64) : F64 :=
  if x.isNan then y else if y.isNan then x else if y.lt x then y else x

/-- `f64::max`: a NaN argument is ignored. -/
def max (x y : F64) : F64 :=
  if x.isNan then y else if y.isNan then x else if x.lt y then y else x

/-- `f64::clamp`. -/
def clamp (x lo hi : F64) : F64 :=
  let x := if x.lt lo then lo else x
  if hi.lt x then hi else x

variable (p q : ℚ)

@[simp] theorem lt_finite : (finite p).lt (finite q) = decide (p < q) := rfl

@[simp] theorem neg_finite : (finite p).neg = finite (-p) := rfl

@[simp] theorem add_finite : (finite p).add (finite q) = finite (p + q) := rfl

@[simp] theorem mul_finite : (finite p).mul (finite q) = finite (p * q) := rfl

@[simp] theorem mulAdd_finite (r : ℚ) :
    (finite p).mulAdd (finite q) (finite r) = finite (p * q + r) := rfl

@[simp] theorem isFinite_finite : (finite p).isFinite = true := rfl

@[simp] theorem le_finite : (finite p).le (finite q) = decide (p ≤ q) := by
  simp only [le, lt_finite, isNan, Bool.not_false, Bool.and_true, finite.injEq]
  rw [← Bool.decide_or, decide_eq_decide]
  exact le_iff_lt_or_eq.symm

@[simp] theorem powi_finite (n : Nat) : (finite p).powi n = finite (p ^ n) := by
  induction n with
  | zero => rw [pow_zero]; rfl
  | succ n ih => rw [powi, ih, mul_finite, pow_succ]

@[simp] theorem min_finite : (finite p).min (finite q) = finite (Min.min p q) := by
  by_cases h : q < p
  · simp [min, isNan, h, min_eq_right h.le]
  · simp [min, isNan, h, min_eq_left (not_lt.mp h)]

@[simp] theorem max_finite : (finite p).max (finite q) = finite (Max.max p q) := by
  by_cases h : p < q
  · simp [max, isNan, h, max_eq_right h.le]
  · simp [max, isNan, h, max_eq_left (not_lt.mp h)]

/-- An exact result as IEEE 754 rounds it: to the nearest `f64`, and from `2 ^ 1024` on to an
infinity. -/
def rounded : F64 → F64
  | finite q =>
    let r := binary64.nearest q
    if 2 ^ 1024 ≤ r then posInf else if r ≤ -2 ^ 1024 then negInf else finite r
  | x => x

/-- Clamping to an interval that a number is in. -/
theorem clamp_finite {x lo hi : ℚ} (h : lo ≤ x) (h' : x ≤ hi) :
    (finite x).clamp (finite lo) (finite hi) = finite x := by
  simp [clamp, not_lt.mpr h, not_lt.mpr h']

end F64

/-- What becomes of an exact result, and `f64::powi`, whose precision Rust leaves open. -/
structure FloatArith where
  rnd : F64 → F64
  powi : F64 → Nat → F64

namespace FloatArith

/-- No result is rounded and none overflows. -/
def exact : FloatArith := ⟨id, F64.powi⟩

/-- The arithmetic of the machine, with its `powi`. -/
def ieee (powi : F64 → Nat → F64) : FloatArith := ⟨F64.rounded, powi⟩

variable (ar : FloatArith)

def ofRat (q : ℚ) : F64 := ar.rnd (.finite q)

def add (x y : F64) : F64 := ar.rnd (x.add y)

def mul (x y : F64) : F64 := ar.rnd (x.mul y)

/-- `f64::mul_add`: one rounding. -/
def mulAdd (x y z : F64) : F64 := ar.rnd (x.mulAdd y z)

@[simp] theorem exact_add (x y : F64) : exact.add x y = x.add y := rfl

@[simp] theorem exact_mul (x y : F64) : exact.mul x y = x.mul y := rfl

@[simp] theorem exact_mulAdd (x y z : F64) : exact.mulAdd x y z = x.mulAdd y z := rfl

@[simp] theorem exact_powi : exact.powi = F64.powi := rfl

@[simp] theorem ieee_powi (powi : F64 → Nat → F64) : (ieee powi).powi = powi := rfl

end FloatArith

/-! ## 2. Durations -/

/-- `std::time::Duration`, in nanoseconds: a `u64` of seconds and a fraction. -/
structure StdDuration where
  nanos : Nat
  inRange : nanos < 2 ^ 64 * 10 ^ 9
deriving DecidableEq

/-- The length of a duration in seconds. -/
def StdDuration.secs (d : StdDuration) : ℚ := d.nanos / 10 ^ 9

/-- `Duration::from_secs`. -/
def StdDuration.fromSecs (secs : UInt64) : StdDuration where
  nanos := secs.toNat * 10 ^ 9
  inRange := Nat.mul_lt_mul_of_pos_right secs.toNat_lt (by decide)

/-- `Duration::as_secs_f64`: the whole seconds and the fraction are converted and added. -/
def StdDuration.asSecsF64 (ar : FloatArith) (d : StdDuration) : F64 :=
  ar.add (ar.ofRat (d.nanos / 10 ^ 9 : Nat)) (ar.ofRat ((d.nanos % 10 ^ 9 : Nat) / 10 ^ 9))

/-- `Ord::min`. -/
def StdDuration.min (d e : StdDuration) : StdDuration := if e.nanos < d.nanos then e else d

/-- What a worker task can die of while it schedules a retry. -/
inductive Panic where
  /-- The `debug_assert!`s of `compute_backoff`. -/
  | attempt
  | jitter
  | multiplier
  /-- `Duration::from_secs_f64`. -/
  | negativeSecs
  | secsTooBigOrNan
  /-- `DateTime + TimeDelta`. -/
  | dateTimeOverflow
deriving DecidableEq

/-- `Duration::from_secs_f64`, which rounds to the nearest nanosecond. -/
def fromSecsF64 : F64 → Except Panic StdDuration
  | .finite q =>
    if q < 0 then .error .negativeSecs
    else if h : (Rounding.tiesEven (q * 10 ^ 9)).toNat < 2 ^ 64 * 10 ^ 9 then .ok ⟨_, h⟩
    else .error .secsTooBigOrNan
  | .negInf => .error .negativeSecs
  | _ => .error .secsTooBigOrNan

/-! ## 3. `compute_backoff` -/

/-- `RetryPolicy`, with the fields that `compute_backoff` reads. -/
structure BackoffPolicy extends RetryPolicy where
  initialBackoff : StdDuration
  maxBackoff : StdDuration
  backoffMultiplier : F64
  jitter : F64

/-- `RetryPolicyConfig::into_policy`, with those fields; the seconds of the section are `u64`. -/
def RetryPolicyConfig.intoBackoffPolicy (retry : RetryPolicyConfig) : BackoffPolicy where
  toRetryPolicy := retry.intoPolicy
  initialBackoff := .fromSecs (.ofNat retry.initialBackoffSeconds)
  maxBackoff := .fromSecs (.ofNat retry.maxBackoffSeconds)
  backoffMultiplier := retry.backoffMultiplier
  jitter := retry.jitter

namespace BackoffPolicy

variable (policy : BackoffPolicy)

/-- `policy.jitter >= 0.0 && policy.jitter <= 1.0`. -/
def JitterOk : Prop :=
  ((F64.finite 0).le policy.jitter && policy.jitter.le (.finite 1)) = true

/-- `policy.backoff_multiplier.is_finite() && policy.backoff_multiplier > 0.0`. -/
def MultiplierOk : Prop :=
  (policy.backoffMultiplier.isFinite && (F64.finite 0).lt policy.backoffMultiplier) = true

instance : Decidable policy.JitterOk := by unfold JitterOk; infer_instance

instance : Decidable policy.MultiplierOk := by unfold MultiplierOk; infer_instance

/-- The value that `compute_backoff` hands to `Duration::from_secs_f64`; `u` is the draw. -/
def jitteredSecs (ar : FloatArith) (attempt : Int32) (u : ℚ) : F64 :=
  let exponent := attempt - 1
  let maxSecs := policy.maxBackoff.asSecsF64 ar
  let baseSecs := ar.mul (policy.initialBackoff.asSecsF64 ar)
    (ar.powi policy.backoffMultiplier exponent.toInt.toNat)
  let baseSecs := baseSecs.min maxSecs
  let jitterFactor :=
    if (F64.finite 0).lt policy.jitter then
      ar.add (.finite 1)
        (ar.mulAdd (.finite u) (ar.mul (.finite 2) policy.jitter) policy.jitter.neg)
    else .finite 1
  let jitterFactor := jitterFactor.max (.finite 0)
  let jittered := (ar.mul baseSecs jitterFactor).min maxSecs
  if jittered.isFinite then jittered.clamp (.finite 0) maxSecs else maxSecs

end BackoffPolicy

/-- `debug_assert!`. -/
def debugAssert (debug : Bool) (p : Prop) [Decidable p] (panic : Panic) : Except Panic Unit :=
  if debug ∧ ¬ p then .error panic else .ok ()

/-- `compute_backoff`, in a build with or without debug assertions. -/
def computeBackoff (ar : FloatArith) (debug : Bool) (attempt : Int32) (policy : BackoffPolicy)
    (u : ℚ) : Except Panic StdDuration := do
  debugAssert debug (0 < attempt) .attempt
  debugAssert debug policy.JitterOk .jitter
  debugAssert debug policy.MultiplierOk .multiplier
  if attempt ≤ 0 then return policy.initialBackoff
  if !policy.backoffMultiplier.isFinite || policy.backoffMultiplier.le (.finite 0) then
    return policy.initialBackoff.min policy.maxBackoff
  fromSecsF64 (policy.jitteredSecs ar attempt u)

/-! ## 4. What the guards and clamps come to -/

theorem StdDuration.secs_nonneg (d : StdDuration) : 0 ≤ d.secs := by
  unfold secs; positivity

theorem StdDuration.asSecsF64_exact (d : StdDuration) : d.asSecsF64 .exact = .finite d.secs := by
  have hpos : (10 ^ 9 : ℚ) ≠ 0 := by norm_num
  have hsplit : ((10 ^ 9 * (d.nanos / 10 ^ 9) + d.nanos % 10 ^ 9 : Nat) : ℚ) = d.nanos :=
    congrArg _ (Nat.div_add_mod d.nanos (10 ^ 9))
  have hsum : ((d.nanos / 10 ^ 9 : Nat) : ℚ) + (d.nanos % 10 ^ 9 : Nat) / 10 ^ 9 = d.secs := by
    rw [secs, ← hsplit, Nat.cast_add, Nat.cast_mul, Nat.cast_pow, Nat.cast_ofNat, add_div,
      mul_div_cancel_left₀ _ hpos]
  exact congrArg F64.finite hsum

/-- The exponent of the first attempt is zero. -/
theorem toInt_sub_one {n : Int32} (hn : 0 < n) : (n - 1).toInt = n.toInt - 1 := by
  have h0 : (0 : Int32).toInt = 0 := rfl
  have h1 : (1 : Int32).toInt = 1 := rfl
  have hpos : 0 < n.toInt := h0 ▸ Int32.lt_iff_toInt_lt.mp hn
  rw [Int32.toInt_sub_of_le n 1 (by decide) (Int32.le_iff_toInt_le.mpr (by omega)), h1]

/-- The policies that pass the assertions. -/
theorem BackoffPolicy.assertions_iff {policy : BackoffPolicy} :
    policy.JitterOk ∧ policy.MultiplierOk ↔
      ∃ j m : ℚ, policy.jitter = .finite j ∧ policy.backoffMultiplier = .finite m ∧
        0 ≤ j ∧ j ≤ 1 ∧ 0 < m := by
  unfold JitterOk MultiplierOk
  constructor
  · rintro ⟨hj, hm⟩
    cases hjv : policy.jitter with
    | finite j =>
      cases hmv : policy.backoffMultiplier with
      | finite m =>
        rw [hjv, F64.le_finite, F64.le_finite, Bool.and_eq_true, decide_eq_true_eq,
          decide_eq_true_eq] at hj
        rw [hmv, F64.lt_finite, Bool.and_eq_true, decide_eq_true_eq] at hm
        exact ⟨j, m, rfl, rfl, hj.1, hj.2, hm.2⟩
      | posInf | negInf | nan => rw [hmv] at hm; exact absurd hm (by decide)
    | posInf | negInf | nan => rw [hjv] at hj; exact absurd hj (by decide)
  · rintro ⟨j, m, hj, hm, hj0, hj1, hm0⟩
    rw [hj, hm]
    simp [hj0, hj1, hm0]

section Law

variable {policy : BackoffPolicy} {m j : ℚ} (hm : policy.backoffMultiplier = .finite m)
  (hj : policy.jitter = .finite j) (hm0 : 0 < m) (hj0 : 0 ≤ j) (hj1 : j ≤ 1)
include hm hj hm0 hj0 hj1

/-- **The guards and clamps come to one formula.** -/
theorem BackoffPolicy.jitteredSecs_eq (attempt : Int32) {u : ℚ} (hu : 0 ≤ u) :
    policy.jitteredSecs .exact attempt u = .finite (Backoff.delay policy.initialBackoff.secs m j
      policy.maxBackoff.secs (attempt - 1).toInt.toNat u) := by
  have hi := policy.initialBackoff.secs_nonneg
  have hcap := policy.maxBackoff.secs_nonneg
  -- The factor is the one of the formula, and never negative.
  have hfactor : (if (F64.finite 0).lt policy.jitter then
      (F64.finite 1).add ((F64.finite u).mulAdd ((F64.finite 2).mul policy.jitter) policy.jitter.neg)
      else .finite 1).max (.finite 0) = .finite (Backoff.factor j u) := by
    rw [hj, F64.lt_finite]
    split
    · have hval : 1 + (u * (2 * j) + -j) = Backoff.factor j u := by unfold Backoff.factor; ring
      rw [F64.mul_finite, F64.neg_finite, F64.mulAdd_finite, F64.add_finite, F64.max_finite, hval,
        max_eq_left (Backoff.factor_nonneg hj0 hj1 hu)]
    · rename_i hzero
      obtain rfl : j = 0 := le_antisymm (not_lt.mp (by simpa using hzero)) hj0
      rw [F64.max_finite, Backoff.factor_no_jitter, max_eq_left zero_le_one]
  have hrange := Backoff.delay_mem_Icc (n := (attempt - 1).toInt.toNat) hi hm0 hcap hj0 hj1 hu
  unfold jitteredSecs
  simp only [StdDuration.asSecsF64_exact, FloatArith.exact_add, FloatArith.exact_mul,
    FloatArith.exact_mulAdd, FloatArith.exact_powi, hfactor, hm, F64.powi_finite, F64.mul_finite,
    F64.min_finite, F64.isFinite_finite, if_true]
  exact F64.clamp_finite hrange.1 hrange.2

/-- A policy that passes the assertions gets what `Duration::from_secs_f64` makes of that value, in
either build. -/
theorem computeBackoff_eq (ar : FloatArith) (debug : Bool) {attempt : Int32} (ha : 0 < attempt)
    (u : ℚ) :
    computeBackoff ar debug attempt policy u = fromSecsF64 (policy.jitteredSecs ar attempt u) := by
  obtain ⟨hjok, hmok⟩ := BackoffPolicy.assertions_iff.mpr ⟨j, m, hj, hm, hj0, hj1, hm0⟩
  have hle : ¬ attempt ≤ 0 := by
    rw [Int32.le_iff_toInt_le]
    exact not_le.mpr (Int32.lt_iff_toInt_lt.mp ha)
  have hvalid : ¬ (!policy.backoffMultiplier.isFinite ||
      policy.backoffMultiplier.le (.finite 0)) = true := by
    rw [hm]
    simpa using hm0
  have hassert : ∀ (p : Prop) [Decidable p] (panic : Panic), p → debugAssert debug p panic = .ok () :=
    fun p _ panic hp => if_neg (by simp [hp])
  rw [computeBackoff, hassert _ _ ha, hassert _ _ hjok, hassert _ _ hmok, if_neg hle, if_neg hvalid]
  rfl

end Law

/-! ## 5. The law -/

/-- A later attempt has a greater exponent. -/
theorem exponent_mono {n k : Int32} (hnk : n ≤ k) :
    (n.toInt - 1).toNat ≤ (k.toInt - 1).toNat := by
  have h := Int32.le_iff_toInt_le.mp hnk
  omega

/-- **The backoff law**, in exact arithmetic.  With jitter in `[0, 1]` and a positive multiplier,
`compute_backoff` hands a rational number of seconds to `Duration::from_secs_f64`.  It lies within
the jitter of the base and within the cap; it is the base when there is no jitter; it grows with the
draw; and when the multiplier is at least one it grows with the attempt until the base meets the
cap. -/
theorem backoff_law {policy : BackoffPolicy} {m j : ℚ}
    (hm : policy.backoffMultiplier = .finite m) (hj : policy.jitter = .finite j) (hm0 : 0 < m)
    (hj0 : 0 ≤ j) (hj1 : j ≤ 1) :
    let max := policy.maxBackoff.secs
    let base := fun n : Int32 => min (policy.initialBackoff.secs * m ^ (n.toInt - 1).toNat) max
    ∃ delay : Int32 → ℚ → ℚ,
      (∀ n u, 0 < n → 0 ≤ u → u < 1 → policy.jitteredSecs .exact n u = .finite (delay n u) ∧
        ∀ debug, computeBackoff .exact debug n policy u = fromSecsF64 (.finite (delay n u))) ∧
      (∀ n u, 0 < n → 0 ≤ u → u < 1 →
        base n * (1 - j) ≤ delay n u ∧ delay n u ≤ min max (base n * (1 + j)) ∧
          0 ≤ delay n u ∧ delay n u ≤ max) ∧
      (j = 0 → ∀ n u, 0 < n → 0 ≤ u → u < 1 → delay n u = base n) ∧
      (∀ n u v, 0 < n → 0 ≤ u → u ≤ v → v < 1 → delay n u ≤ delay n v) ∧
      (1 ≤ m → ∀ n k u, 0 < n → n ≤ k → 0 ≤ u → u < 1 →
        delay n u ≤ delay k u ∧ (base n = max → delay k u = delay n u)) := by
  intro max base
  have hi := policy.initialBackoff.secs_nonneg
  have hcap := policy.maxBackoff.secs_nonneg
  refine ⟨fun n u => Backoff.delay policy.initialBackoff.secs m j max (n.toInt - 1).toNat u,
    ?_, ?_, ?_, ?_, ?_⟩
  · intro n u hn hu _
    have hval := policy.jitteredSecs_eq hm hj hm0 hj0 hj1 n hu
    rw [toInt_sub_one hn] at hval
    exact ⟨hval, fun debug => by rw [computeBackoff_eq hm hj hm0 hj0 hj1 .exact debug hn, hval]⟩
  · intro n u _ hu hu1
    obtain ⟨h0, hle⟩ := Backoff.delay_mem_Icc (n := (n.toInt - 1).toNat) hi hm0 hcap hj0 hj1 hu
    exact ⟨Backoff.delay_lower hi hm0 hcap hj0 hu, Backoff.delay_upper hi hm0 hcap hj0 hu1.le, h0,
      hle⟩
  · rintro rfl n u _ _ _
    exact Backoff.delay_no_jitter
  · intro n u v _ _ huv _
    exact Backoff.delay_mono_draw hi hm0 hcap hj0 huv
  · intro hm1 n k u _ hnk hu _
    have hexp := exponent_mono hnk
    exact ⟨Backoff.delay_mono_attempt hi hm1 hj0 hj1 hu hexp,
      fun hmet => Backoff.delay_eq_of_base_eq hi hm1 hexp hmet⟩

/-- The law at the default policy: the third delay is 120 seconds, give or take a fifth. -/
theorem backoff_law_default :
    ∃ x : ℚ, ({} : RetryPolicyConfig).intoBackoffPolicy.jitteredSecs .exact 3 (1 / 4) = .finite x ∧
      96 ≤ x ∧ x ≤ 144 := by
  obtain ⟨delay, hval, hrange, -⟩ := @backoff_law ({} : RetryPolicyConfig).intoBackoffPolicy 2 (1 / 5)
    rfl rfl (by norm_num) (by norm_num) (by norm_num)
  have h30 : ({} : RetryPolicyConfig).intoBackoffPolicy.initialBackoff.secs = 30 := by decide +kernel
  have h3600 : ({} : RetryPolicyConfig).intoBackoffPolicy.maxBackoff.secs = 3600 := by
    decide +kernel
  have hexp : ((3 : Int32).toInt - 1).toNat = 2 := by decide
  obtain ⟨hlo, hhi, -⟩ := hrange 3 (1 / 4) (by decide) (by norm_num) (by norm_num)
  simp only [h30, h3600, hexp] at hlo hhi
  norm_num at hlo hhi
  exact ⟨_, (hval 3 (1 / 4) (by decide) (by norm_num) (by norm_num)).1, hlo, hhi⟩

end Hookbox
