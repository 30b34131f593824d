/-
# Whether scheduling a retry can panic

The failure branch of `dispatch_one` (`hookbox-server/src/worker.rs`) for a policy that
`validate_emitter_entries` let through: the assertions of `compute_backoff`, the conversion to a
`Duration`, and `Utc::now() + next_delta`.  A panic there ends the worker task for good.

* `scheduleFailure_mark`: when nothing panics, the branch asks for the mark that the worker machine
  takes as its step.
* `retry_scheduling_iff`: it never panics exactly when the multiplier is a positive number, the jitter
  is a number, and no attempt can draw a delay that fits a `chrono::Duration` but not the calendar, or
  that does not fit a `std::time::Duration`.

The arithmetic is that of the machine (`Binary64`): each result is rounded and may overflow, so a
base can be infinite or NaN, and a cap can be rounded up to `2 ^ 64` seconds.

Three checks are missing.  The comparisons with which the validator rejects a jitter are all false for
NaN, it does not look at the multiplier, and nothing bounds the delay: `from_std` saturates only where
`chrono::Duration` ends, which is a thousand times farther than where `DateTime` ends.
-/
import Hookbox.Binary64
import Hookbox.Worker

namespace Hookbox

/-! ## 1. The calendar -/

/-- `DateTime::<Utc>::MIN_UTC`, in nanoseconds since the epoch: the first instant of the year
-262143. -/
def minUtc : ℤ := -8334601228800 * 10 ^ 9

/-- `DateTime::<Utc>::MAX_UTC`: the last nanosecond of the year 262142. -/
def maxUtc : ℤ := 8210266876800 * 10 ^ 9 - 1

/-- The first instant of the year 10000. -/
def year10000 : ℤ := 253402300800 * 10 ^ 9

/-- `chrono::Duration::from_std`, in nanoseconds: at most `i64::MAX` milliseconds. -/
def fromStd (d : StdDuration) : Option ℕ :=
  if d.nanos ≤ (2 ^ 63 - 1) * 10 ^ 6 then some d.nanos else none

/-- `next_delta`: a backoff that does not fit is replaced by one day. -/
def StdDuration.nextDelta (backoff : StdDuration) : ℕ := (fromStd backoff).getD (86400 * 10 ^ 9)

/-- `DateTime + TimeDelta`. -/
def addDelta (utcNow : ℤ) (delta : ℕ) : Except Panic ℤ :=
  if minUtc ≤ utcNow + delta ∧ utcNow + delta ≤ maxUtc then .ok (utcNow + delta)
  else .error .dateTimeOverflow

/-! ## 2. The failure branch of `dispatch_one` -/

/-- `next_at`. -/
def nextAt (ar : FloatArith) (debug : Bool) (policy : BackoffPolicy) (nextAttempt : Int32) (u : ℚ)
    (utcNow : ℤ) : Except Panic ℤ := do
  let backoff ← computeBackoff ar debug nextAttempt policy u
  addDelta utcNow backoff.nextDelta

/-- The failure branch up to its `mark_*`; a bound `DateTime` keeps its microseconds. -/
def scheduleFailure (ar : FloatArith) (debug : Bool) (policy : BackoffPolicy)
    (delivery : WebhookDelivery) (err : EmitError) (u : ℚ) (utcNow : ℤ) :
    Except Panic DeliveryUpdate.Mark :=
  let nextAttempt := delivery.attemptCount + 1
  if nextAttempt ≥ policy.maxAttempts then .ok (.deadLettered err.toString)
  else do
    let next ← nextAt ar debug policy nextAttempt u utcNow
    return .failed nextAttempt (next / 1000) err.toString

/-- **A branch that does not panic** asks for the mark that the worker machine makes its step, for some
delay. -/
theorem scheduleFailure_mark {ar : FloatArith} {debug : Bool} {policy : BackoffPolicy}
    {delivery : WebhookDelivery} {err : EmitError} {u : ℚ} {utcNow : ℤ} {mark : DeliveryUpdate.Mark}
    {cfg : WorkerConfig} (hcfg : cfg.policy = policy.toRetryPolicy)
    (h : scheduleFailure ar debug policy delivery err u utcNow = .ok mark) (input : MarkInput)
    (hnow : input.utcNow = utcNow / 1000) :
    ∃ delta : Duration,
      mark = dispatchMark cfg delivery (.error err) { input with nextDelta := delta } := by
  simp only [scheduleFailure] at h
  simp only [dispatchMark, hcfg]
  split at h
  · rename_i hmax
    cases h
    exact ⟨0, by rw [if_pos hmax]⟩
  · rename_i hmax
    obtain ⟨next, hnext, h⟩ := Except.bind_eq_ok.mp h
    cases h
    obtain ⟨backoff, -, hadd⟩ := Except.bind_eq_ok.mp hnext
    unfold addDelta at hadd
    split at hadd
    · cases hadd
      have hle : utcNow / 1000 ≤ (utcNow + backoff.nextDelta) / 1000 :=
        Int.ediv_le_ediv (by decide) (by omega)
      refine ⟨((utcNow + backoff.nextDelta) / 1000 - utcNow / 1000).toNat, ?_⟩
      rw [if_neg hmax, hnow, Int.toNat_of_nonneg (Int.sub_nonneg.mpr hle), add_sub_cancel]
    · exact absurd hadd (by simp)

/-! ## 3. What can go wrong -/

/-- What the scheduling of a retry relies on, for one attempt, one draw and one date. -/
structure RetrySafe (ar : FloatArith) (policy : BackoffPolicy) (attempt : Int32) (u : ℚ)
    (utcNow : ℤ) : Prop where
  /-- The assertions of `compute_backoff`. -/
  positive : 0 < attempt
  jitter : policy.JitterOk
  multiplier : policy.MultiplierOk
  /-- The value for `Duration::from_secs_f64` is finite, not negative, and in range. -/
  seconds : ∃ (x : ℚ) (d : StdDuration),
    policy.jitteredSecs ar attempt u = .finite x ∧ 0 ≤ x ∧ fromSecsF64 (.finite x) = .ok d
  /-- `Utc::now() + next_delta` is in the calendar. -/
  date : ∀ d, fromSecsF64 (policy.jitteredSecs ar attempt u) = .ok d →
    minUtc ≤ utcNow + d.nextDelta ∧ utcNow + d.nextDelta ≤ maxUtc

section Values

variable {powi : F64 → Nat → F64} (hpowi : PowiNotNegative powi) {policy : BackoffPolicy}
include hpowi

/-- **Nothing panics exactly when all of it holds**, in a build with assertions. -/
theorem retrySafe_iff {attempt : Int32} {u : ℚ} (hu : Draw u) {utcNow : ℤ} :
    RetrySafe (.ieee powi) policy attempt u utcNow ↔
      ∃ next, nextAt (.ieee powi) true policy attempt u utcNow = .ok next := by
  constructor
  · rintro ⟨ha, hj, hm, ⟨x, d, hx, -, hd⟩, hdate⟩
    obtain ⟨j, m, hjv, hmv, hj0, hj1, hm0⟩ := BackoffPolicy.assertions_iff.mp ⟨hj, hm⟩
    have hcompute := computeBackoff_eq hmv hjv hm0 hj0 hj1 (.ieee powi) true ha u
    rw [hx, hd] at hcompute
    refine ⟨utcNow + d.nextDelta, Except.bind_eq_ok.mpr ⟨d, hcompute, ?_⟩⟩
    exact if_pos (hdate d (hx ▸ hd))
  · rintro ⟨next, h⟩
    obtain ⟨d, hcompute, hadd⟩ := Except.bind_eq_ok.mp h
    obtain ⟨_, ha, hrest⟩ := Except.bind_eq_ok.mp hcompute
    obtain ⟨_, hj, hrest⟩ := Except.bind_eq_ok.mp hrest
    obtain ⟨_, hm, -⟩ := Except.bind_eq_ok.mp hrest
    have hassert : ∀ (p : Prop) [Decidable p] (panic : Panic) (r : Unit),
        debugAssert true p panic = .ok r → p := by
      intro p _ panic r hp
      by_contra hn
      rw [debugAssert, if_pos ⟨rfl, hn⟩] at hp
      exact absurd hp (by simp)
    have ha := hassert _ _ _ ha
    have hj := hassert _ _ _ hj
    have hm := hassert _ _ _ hm
    obtain ⟨j, m, hjv, hmv, hj0, hj1, hm0⟩ := BackoffPolicy.assertions_iff.mp ⟨hj, hm⟩
    rw [computeBackoff_eq hmv hjv hm0 hj0 hj1 (.ieee powi) true ha u] at hcompute
    obtain ⟨b, c, -, -, -, -, -, hdelay⟩ :=
      BackoffPolicy.exists_delay hpowi hjv hmv hj0 hj1 hm0 ha
    obtain ⟨hval, h0⟩ := hdelay u hu
    refine ⟨ha, hj, hm, ⟨_, d, hval, h0, hval ▸ hcompute⟩, fun d' hd' => ?_⟩
    rw [hcompute] at hd'
    cases hd'
    unfold addDelta at hadd
    split at hadd
    · assumption
    · exact absurd hadd (by simp)

end Values

/-- The whole seconds from the end of the year 9999 to the end of the calendar. -/
def calendarSecs : ℕ := 7956864576000

/-- **When the date stays in the calendar**: the delay is within 252143 years, or too long for a
`chrono::Duration`. -/
theorem StdDuration.nextDelta_fits_iff {d : StdDuration} :
    (∀ utcNow, minUtc ≤ utcNow → utcNow < year10000 →
      minUtc ≤ utcNow + d.nextDelta ∧ utcNow + d.nextDelta ≤ maxUtc) ↔
      d.nanos ≤ calendarSecs * 10 ^ 9 ∨ (2 ^ 63 - 1) * 10 ^ 6 < d.nanos := by
  unfold StdDuration.nextDelta fromStd calendarSecs minUtc maxUtc year10000
  constructor
  · intro h
    have hlast := h (253402300800 * 10 ^ 9 - 1) (by omega) (by omega)
    split at hlast
    · rw [Option.getD_some] at hlast
      omega
    · omega
  · intro h utcNow hmin hmax
    split
    · rw [Option.getD_some]
      omega
    · rw [Option.getD_none]
      omega

/-! ## 4. Which delays are safe -/

/-- The longest delay with which every date before the year 10000 stays in the calendar, in seconds:
half a nanosecond is rounded away. -/
def longestDelay : ℚ := calendarSecs + 1 / (2 * 10 ^ 9)

/-- The longest delay that fits a `chrono::Duration`, in seconds. -/
def saturationDelay : ℚ := (2 ^ 63 - 1) / 1000 + 1 / (2 * 10 ^ 9)

/-- The shortest delay that does not fit a `std::time::Duration`, in seconds. -/
def overflowDelay : ℚ := 2 ^ 64 - 1 / (2 * 10 ^ 9)

/-- A delay that fits the calendar, or is too long for a `chrono::Duration` only. -/
def SafeDelay (x : ℚ) : Prop := x ≤ longestDelay ∨ saturationDelay < x ∧ x < overflowDelay

/-- `Duration::from_secs_f64` takes what is rounded to less than `2 ^ 64` seconds. -/
theorem fromSecsF64_ok_iff {x : ℚ} (h0 : 0 ≤ x) :
    (∃ d, fromSecsF64 (.finite x) = .ok d) ↔ x < overflowDelay := by
  have hwindow := Rounding.tiesEven_lt_iff (q := x * 10 ^ 9) (n := 2 ^ 64 * 10 ^ 9) (by decide)
  have hnonneg : 0 ≤ Rounding.tiesEven (x * 10 ^ 9) := Rounding.tiesEven_nonneg (by positivity)
  have hrange : (Rounding.tiesEven (x * 10 ^ 9)).toNat < 2 ^ 64 * 10 ^ 9 ↔ x < overflowDelay := by
    have hnat : (Rounding.tiesEven (x * 10 ^ 9)).toNat < 2 ^ 64 * 10 ^ 9 ↔
        Rounding.tiesEven (x * 10 ^ 9) < 2 ^ 64 * 10 ^ 9 := by omega
    rw [hnat, hwindow, overflowDelay]
    push_cast
    constructor <;> intro hx <;> linarith
  rw [fromSecsF64, if_neg (not_lt.mpr h0), ← hrange]
  split
  · exact iff_of_true ⟨_, rfl⟩ ‹_›
  · exact iff_of_false (by simp) ‹_›

theorem fromSecsF64_nanos {x : ℚ} {d : StdDuration} (h : fromSecsF64 (.finite x) = .ok d) :
    (d.nanos : ℤ) = Rounding.tiesEven (x * 10 ^ 9) := by
  unfold fromSecsF64 at h
  split at h
  · rename_i q hq
    cases hq
    split at h
    · exact absurd h (by simp)
    · rename_i h0
      split at h
      · cases h
        have hx : 0 ≤ x := not_lt.mp h0
        exact Int.toNat_of_nonneg (Rounding.tiesEven_nonneg (by positivity))
      · exact absurd h (by simp)
  · exact absurd h (by simp)
  · rename_i hother _
    exact absurd rfl (hother x)

/-- Rounding moves a delay across neither end of the window. -/
theorem nanos_window_iff {x : ℚ} {d : StdDuration}
    (hd : (d.nanos : ℤ) = Rounding.tiesEven (x * 10 ^ 9)) :
    (d.nanos ≤ calendarSecs * 10 ^ 9 ∨ (2 ^ 63 - 1) * 10 ^ 6 < d.nanos) ↔
      ¬ (longestDelay < x ∧ x ≤ saturationDelay) := by
  have hlow : d.nanos ≤ calendarSecs * 10 ^ 9 ↔ x ≤ longestDelay := by
    have h := Rounding.tiesEven_le_iff (q := x * 10 ^ 9) (n := 7956864576000 * 10 ^ 9) (by decide)
    rw [← hd] at h
    rw [longestDelay, calendarSecs, ← Int.ofNat_le]
    push_cast at h ⊢
    rw [h]
    constructor <;> intro hx <;> linarith
  have hhigh : d.nanos ≤ (2 ^ 63 - 1) * 10 ^ 6 ↔ x ≤ saturationDelay := by
    have h := Rounding.tiesEven_le_iff (q := x * 10 ^ 9) (n := (2 ^ 63 - 1) * 10 ^ 6) (by decide)
    rw [← hd] at h
    rw [saturationDelay, ← Int.ofNat_le]
    push_cast at h ⊢
    rw [h]
    constructor <;> intro hx <;> linarith
  rw [hlow, ← not_le, hhigh]
  constructor
  · rintro (h | h) ⟨h1, h2⟩
    · exact absurd h1 (not_lt.mpr h)
    · exact h h2
  · intro h
    by_cases hx : x ≤ longestDelay
    · exact Or.inl hx
    · exact Or.inr fun h2 => h ⟨not_le.mp hx, h2⟩

/-- **Which delays are safe**, for every date before the year 10000. -/
theorem safeDelay_iff {x : ℚ} (h0 : 0 ≤ x) :
    SafeDelay x ↔ ∃ d, fromSecsF64 (.finite x) = .ok d ∧
      ∀ utcNow, minUtc ≤ utcNow → utcNow < year10000 →
        minUtc ≤ utcNow + d.nextDelta ∧ utcNow + d.nextDelta ≤ maxUtc := by
  have horder : longestDelay < saturationDelay ∧ longestDelay < overflowDelay := by
    norm_num [longestDelay, saturationDelay, overflowDelay, calendarSecs]
  constructor
  · intro hsafe
    have hin : x < overflowDelay := by
      rcases hsafe with h | ⟨-, h⟩
      · exact h.trans_lt horder.2
      · exact h
    obtain ⟨d, hd⟩ := (fromSecsF64_ok_iff h0).mpr hin
    refine ⟨d, hd, StdDuration.nextDelta_fits_iff.mpr ?_⟩
    rw [nanos_window_iff (fromSecsF64_nanos hd)]
    rintro ⟨hlong, hsat⟩
    rcases hsafe with h | ⟨h, -⟩
    · exact absurd hlong (not_lt.mpr h)
    · exact absurd hsat (not_le.mpr h)
  · rintro ⟨d, hd, hfits⟩
    have hwindow := (nanos_window_iff (fromSecsF64_nanos hd)).mp
      (StdDuration.nextDelta_fits_iff.mp hfits)
    by_cases hlong : x ≤ longestDelay
    · exact Or.inl hlong
    · exact Or.inr ⟨not_le.mp fun h => hwindow ⟨not_le.mp hlong, h⟩,
        (fromSecsF64_ok_iff h0).mp ⟨d, hd⟩⟩

section Between

variable {b c j u : ℚ}

/-- The power of two by which a base exceeds `2 ^ 49` seconds. -/
theorem exists_scale (hlow : 2 ^ 51 ≤ b) (hhigh : b ≤ 2 ^ 65) :
    ∃ k : ℕ, 2 ≤ k ∧ k ≤ 16 ∧ 2 ^ 49 ≤ b * (1 / 2 ^ k) ∧ b * (1 / 2 ^ k) < 2 ^ 50 := by
  obtain ⟨k, hk, hk'⟩ := exists_nat_pow_near
    (show 1 ≤ b / 2 ^ 49 by rw [one_le_div (by positivity)]; linarith) one_lt_two
  rw [le_div_iff₀ (by positivity)] at hk
  rw [div_lt_iff₀ (by positivity)] at hk'
  have hpow : (0 : ℚ) < 2 ^ k := by positivity
  refine ⟨k, ?_, ?_, ?_, ?_⟩
  · have hless : (2 : ℚ) ^ 2 < 2 ^ (k + 1) := by linarith
    have := (pow_lt_pow_iff_right₀ one_lt_two).mp hless
    omega
  · have hle : (2 : ℚ) ^ k ≤ 2 ^ 16 := by linarith
    exact (pow_le_pow_iff_right₀ one_lt_two).mp hle
  · rw [mul_one_div, le_div_iff₀ hpow]
    linarith
  · rw [mul_one_div, div_lt_iff₀ hpow]
    rw [pow_succ] at hk'
    linarith

/-- The numbers near a draw `u` that are not rounded. -/
structure Near (u : ℚ) : Prop where
  unit : binary64.Contains u
  triple : binary64.Contains (3 * u)
  below : binary64.Contains (u - 1)
  above : binary64.Contains (3 * u - 1)
  pos : 0 < u
  small : u ≤ 1 / 4

/-- A small power of two is such a draw. -/
theorem Near.pow {k : ℕ} (hk : 2 ≤ k) (hk' : k ≤ 16) : Near (1 / 2 ^ k) := by
  have hpow : (2 : ℚ) ^ k ≠ 0 := by positivity
  have hfour : (4 : ℚ) ≤ 2 ^ k := (by norm_num : (4 : ℚ) = 2 ^ 2).le.trans
    (pow_le_pow_right₀ one_le_two hk)
  have hint : (1 : ℤ) ≤ 2 ^ k ∧ (2 : ℤ) ^ k ≤ 2 ^ 16 :=
    ⟨one_le_pow₀ (by decide), pow_le_pow_right₀ (by decide) hk'⟩
  have hdigits : ∀ n : ℤ, |n| ≤ 2 ^ 17 → binary64.Contains (n * (1 / 2 ^ k) : ℚ) := by
    intro n hn
    rw [mul_one_div]
    exact contains_div (hn.trans_lt (by decide)) (by omega)
  have hone : (((2 : ℤ) ^ k : ℤ) : ℚ) * (1 / 2 ^ k) = 1 := by
    rw [Int.cast_pow, Int.cast_ofNat, mul_one_div_cancel hpow]
  refine ⟨?_, ?_, ?_, ?_, by positivity, one_div_le_one_div_of_le (by norm_num) hfour⟩
  · simpa using hdigits 1 (by decide)
  · exact hdigits 3 (by decide)
  · have h := hdigits (1 - 2 ^ k) (by rw [abs_le]; omega)
    rwa [Int.cast_sub, sub_mul, hone, Int.cast_one, one_mul] at h
  · have h := hdigits (3 - 2 ^ k) (by rw [abs_le]; omega)
    rwa [Int.cast_sub, sub_mul, hone, Int.cast_ofNat] at h

/-- A long base whose first delay is short has much jitter. -/
theorem jitter_of_short_first (hu : Near u) (hb : 0 ≤ b) (hbu : 2 ^ 49 ≤ b * u)
    (hshort : binary64.nearest (b * Backoff.roundedFactor binary64.nearest j 0) < 2 ^ 43) :
    1 - u < j := by
  have hprod := lt_of_nearest_lt (contains_pow 43) hshort
  have hfactor : Backoff.roundedFactor binary64.nearest j 0 < u :=
    lt_of_mul_lt_mul_left (by linarith) hb
  rw [Backoff.roundedFactor, zero_mul, zero_add] at hfactor
  have hsum := lt_of_nearest_lt hu.unit hfactor
  have hneg := lt_of_nearest_lt hu.below (q := -j) (by linarith)
  linarith

/-- Then the factor of the draw is near it: between numbers that are not rounded. -/
theorem factor_near (hu : Near u) (hj : 1 - u < j) (hj1 : j ≤ 1) :
    u ≤ Backoff.roundedFactor binary64.nearest j u ∧
      Backoff.roundedFactor binary64.nearest j u ≤ 3 * u := by
  have hpos := hu.pos
  have hsmall := hu.small
  have hlow : 1 ≤ binary64.nearest (2 * j) := le_nearest (by simpa using contains_pow 0) (by linarith)
  have hhigh : binary64.nearest (2 * j) ≤ 2 := nearest_le (by simpa using contains_pow 1) (by linarith)
  have hprod := mul_le_mul_of_nonneg_left hlow hpos.le
  have hprod' := mul_le_mul_of_nonneg_left hhigh hpos.le
  have hfma := le_nearest hu.below (q := u * binary64.nearest (2 * j) + -j) (by linarith)
  have hfma' := nearest_le hu.above (q := u * binary64.nearest (2 * j) + -j) (by linarith)
  exact ⟨le_nearest hu.unit (by linarith), nearest_le hu.triple (by linarith)⟩

/-- **The delays of an attempt do not skip the window.**  If the first draw stays within the calendar
and the last goes beyond `chrono::Duration`, some draw is between: a power of two, whose delay the
rounding hardly moves. -/
theorem exists_draw_between (hb : 0 ≤ b) (hbc : b ≤ c) (hc : c ≤ 2 ^ 65) (hj0 : 0 ≤ j) (hj1 : j ≤ 1)
    (hfirst : Backoff.roundedDelay binary64.nearest b j c 0 ≤ longestDelay)
    (hlast : saturationDelay < Backoff.roundedDelay binary64.nearest b j c lastDraw) :
    ∃ u, Draw u ∧ longestDelay < Backoff.roundedDelay binary64.nearest b j c u ∧
      Backoff.roundedDelay binary64.nearest b j c u ≤ saturationDelay := by
  have hlong : longestDelay < 2 ^ 43 := by norm_num [longestDelay, calendarSecs]
  have hsat : (2 : ℚ) ^ 53 < saturationDelay := by norm_num [saturationDelay]
  have hcap : saturationDelay < c := hlast.trans_le (min_le_right _ _)
  have hbig : 2 ^ 51 ≤ b := by
    have hprod := lt_of_lt_nearest (contains_pow 53) (hsat.trans (hlast.trans_le (min_le_left _ _)))
    have hthree := (factor_ieee hj0 hj1 Draw.last.nonneg Draw.last.lt_one.le fun x _ => x).2
    have := hprod.trans_le (mul_le_mul_of_nonneg_left hthree hb)
    linarith
  obtain ⟨k, hk, hk', hlow, hhigh⟩ := exists_scale hbig (hbc.trans hc)
  have hu := Near.pow hk hk'
  have hshort : binary64.nearest (b * Backoff.roundedFactor binary64.nearest j 0) < 2 ^ 43 := by
    rcases min_le_iff.mp hfirst with h | h
    · exact h.trans_lt hlong
    · linarith
  obtain ⟨hmin, hmax⟩ := factor_near hu (jitter_of_short_first hu hb hlow hshort) hj1
  have hmin' := mul_le_mul_of_nonneg_left hmin hb
  have hmax' := mul_le_mul_of_nonneg_left hmax hb
  have hdelay := le_nearest (contains_pow 49) (hlow.trans hmin')
  have hdelay' := nearest_le (contains_pow 52) (hmax'.trans (by linarith))
  refine ⟨1 / 2 ^ k, ⟨hu.unit, hu.pos.le, by linarith [hu.small]⟩, lt_min (by linarith) (by linarith),
    ?_⟩
  exact (min_le_left _ _).trans (by linarith)

/-- **All delays are safe** when the first and the last of them are. -/
theorem forall_safeDelay_iff (hb : 0 ≤ b) (hbc : b ≤ c) (hc : c ≤ 2 ^ 65) (hj0 : 0 ≤ j) (hj1 : j ≤ 1) :
    (∀ u, Draw u → SafeDelay (Backoff.roundedDelay binary64.nearest b j c u)) ↔
      Backoff.roundedDelay binary64.nearest b j c lastDraw ≤ longestDelay ∨
        saturationDelay < Backoff.roundedDelay binary64.nearest b j c 0 ∧
          Backoff.roundedDelay binary64.nearest b j c lastDraw < overflowDelay := by
  have hmono : ∀ {u v : ℚ}, u ≤ v → Backoff.roundedDelay binary64.nearest b j c u ≤
      Backoff.roundedDelay binary64.nearest b j c v :=
    Backoff.roundedDelay_mono nearest_monotone nearest_zero hb hj0
  constructor
  · intro hsafe
    rcases hsafe lastDraw Draw.last with hlast | ⟨hlast, hover⟩
    · exact Or.inl hlast
    · rcases hsafe 0 Draw.first with hfirst | ⟨hfirst, -⟩
      · -- Some draw between them would not be safe.
        obtain ⟨u, hu, hlong, hsat⟩ := exists_draw_between hb hbc hc hj0 hj1 hfirst hlast
        rcases hsafe u hu with hle | ⟨hlt, -⟩
        · exact absurd hlong (not_lt.mpr hle)
        · exact absurd hlt (not_lt.mpr hsat)
      · exact Or.inr ⟨hfirst, hover⟩
  · rintro (hlast | ⟨hfirst, hover⟩) u hu
    · exact Or.inl ((hmono hu.le_last).trans hlast)
    · exact Or.inr ⟨hfirst.trans_le (hmono hu.nonneg), (hmono hu.le_last).trans_lt hover⟩

end Between

/-! ## 5. Which policies are safe -/

/-- **Attempt `n` draws safe delays only.**  With the operations of the machine: its longest delay, for
the greatest draw, is within the calendar; or its shortest, for the draw `0`, is beyond
`chrono::Duration` and its longest fits a `std::time::Duration`. -/
def BackoffPolicy.DelaysFit (policy : BackoffPolicy) (powi : F64 → Nat → F64) (n : Int32) : Prop :=
  let ar := FloatArith.ieee powi
  let cap := policy.maxBackoff.asSecsF64 ar
  let base := (ar.mul (policy.initialBackoff.asSecsF64 ar)
    (powi policy.backoffMultiplier (n.toInt - 1).toNat)).min cap
  let delay (u : ℚ) := (ar.mul base (ar.add (.finite 1)
    (ar.mulAdd (.finite u) (ar.mul (.finite 2) policy.jitter) policy.jitter.neg))).min cap
  (delay lastDraw).le (.finite longestDelay) = true ∨
    (F64.finite saturationDelay).lt (delay 0) = true ∧
      (delay lastDraw).lt (.finite overflowDelay) = true

instance (policy : BackoffPolicy) (powi : F64 → Nat → F64) (n : Int32) :
    Decidable (policy.DelaysFit powi n) := by unfold BackoffPolicy.DelaysFit; infer_instance

/-- As an `f64`, 9223372036854775 seconds are one more, and too long for a `chrono::Duration`. -/
example : (RetryPolicyConfig.intoBackoffPolicy
    { initialBackoffSeconds := 9223372036854775, maxBackoffSeconds := 9223372036854775,
      jitter := .finite 0 }).DelaysFit runtimePowi 1 := by decide +kernel

/-- **The policies with which no retry can panic**: there is nothing to retry, or the jitter and the
multiplier are numbers, the multiplier is positive, and the delays of every attempt fit. -/
def BackoffPolicy.Schedulable (policy : BackoffPolicy) (powi : F64 → Nat → F64) : Prop :=
  policy.maxAttempts ≤ 1 ∨
    ∃ j m : ℚ, policy.jitter = .finite j ∧ policy.backoffMultiplier = .finite m ∧ 0 < m ∧
      ∀ n, 0 < n → n < policy.maxAttempts → policy.DelaysFit powi n

section Policies

variable {powi : F64 → Nat → F64} {policy : BackoffPolicy} {n : Int32}

/-- **One draw** of an attempt, for every date. -/
theorem retrySafe_draw_iff (hjok : policy.JitterOk) (hmok : policy.MultiplierOk) (hn : 0 < n)
    {u x : ℚ} (hval : policy.jitteredSecs (.ieee powi) n u = .finite x) (h0 : 0 ≤ x) :
    (∀ utcNow, minUtc ≤ utcNow → utcNow < year10000 →
      RetrySafe (.ieee powi) policy n u utcNow) ↔ SafeDelay x := by
  rw [safeDelay_iff h0]
  constructor
  · intro h
    obtain ⟨x', d, hx, -, hd⟩ := (h 0 (by decide) (by decide)).seconds
    rw [hval] at hx
    cases hx
    exact ⟨d, hd, fun utcNow hmin hmax => (h utcNow hmin hmax).date d (by rw [hval, hd])⟩
  · rintro ⟨d, hd, hfits⟩ utcNow hmin hmax
    refine ⟨hn, hjok, hmok, ⟨_, d, hval, h0, hd⟩, fun d' hd' => ?_⟩
    rw [hval, hd] at hd'
    cases hd'
    exact hfits utcNow hmin hmax

/-- What `DelaysFit` says of the delays of an attempt. -/
theorem BackoffPolicy.delaysFit_iff {j m b c : ℚ} (hj : policy.jitter = .finite j)
    (hm : policy.backoffMultiplier = .finite m) (hj0 : 0 ≤ j) (hj1 : j ≤ 1)
    (hcap : policy.maxBackoff.asSecsF64 (.ieee powi) = .finite c)
    (hbase : ((FloatArith.ieee powi).mul (policy.initialBackoff.asSecsF64 (.ieee powi))
      (powi (.finite m) (n.toInt - 1).toNat)).min (.finite c) = .finite b)
    (hb : 0 ≤ b) (hbc : b ≤ c) (hc : c ≤ 2 ^ 65) :
    policy.DelaysFit powi n ↔
      Backoff.roundedDelay binary64.nearest b j c lastDraw ≤ longestDelay ∨
        saturationDelay < Backoff.roundedDelay binary64.nearest b j c 0 ∧
          Backoff.roundedDelay binary64.nearest b j c lastDraw < overflowDelay := by
  have hvalue : ∀ u, Draw u → ((FloatArith.ieee powi).mul (.finite b)
      ((FloatArith.ieee powi).add (.finite 1) ((FloatArith.ieee powi).mulAdd (.finite u)
        ((FloatArith.ieee powi).mul (.finite 2) (.finite j)) (F64.finite j).neg))).min (.finite c)
      = .finite (Backoff.roundedDelay binary64.nearest b j c u) := by
    intro u hu
    rw [(factor_ieee hj0 hj1 hu.nonneg hu.lt_one.le powi).1]
    exact delay_ieee hj0 hj1 hu.nonneg hu.lt_one.le powi hb hbc hc
  simp only [BackoffPolicy.DelaysFit, hj, hm, hcap, hbase, hvalue _ Draw.first,
    hvalue _ Draw.last, F64.le_finite, F64.lt_finite, decide_eq_true_eq]

/-- **One attempt** of a policy whose jitter and multiplier are right. -/
theorem retrySafe_attempt_iff (hpowi : PowiNotNegative powi) {j m : ℚ}
    (hj : policy.jitter = .finite j) (hm : policy.backoffMultiplier = .finite m) (hj0 : 0 ≤ j)
    (hj1 : j ≤ 1) (hm0 : 0 < m) (hn : 0 < n) :
    (∀ u utcNow, Draw u → minUtc ≤ utcNow → utcNow < year10000 →
      RetrySafe (.ieee powi) policy n u utcNow) ↔ policy.DelaysFit powi n := by
  obtain ⟨hjok, hmok⟩ := BackoffPolicy.assertions_iff.mpr ⟨j, m, hj, hm, hj0, hj1, hm0⟩
  obtain ⟨b, c, hcap, hbase, hb, hbc, hc, hdelay⟩ :=
    BackoffPolicy.exists_delay hpowi hj hm hj0 hj1 hm0 hn
  rw [BackoffPolicy.delaysFit_iff hj hm hj0 hj1 hcap hbase hb hbc hc,
    ← forall_safeDelay_iff hb hbc hc hj0 hj1]
  have hdraw : ∀ u, Draw u → ((∀ utcNow, minUtc ≤ utcNow → utcNow < year10000 →
      RetrySafe (.ieee powi) policy n u utcNow) ↔
        SafeDelay (Backoff.roundedDelay binary64.nearest b j c u)) :=
    fun u hu => retrySafe_draw_iff hjok hmok hn (hdelay u hu).1 (hdelay u hu).2
  constructor
  · intro h u hu
    exact (hdraw u hu).mp fun utcNow => h u utcNow hu
  · intro h u utcNow hu
    exact (hdraw u hu).mpr (h u hu) utcNow

end Policies

/-! ## 6. Validated policies -/

/-- What validation leaves of the assertion about the jitter: a number passes, NaN does not. -/
theorem EmitterEntry.Valid.jitter_range {e : EmitterEntry} (h : e.Valid) {j : ℚ}
    (hj : e.retry.jitter = .finite j) : 0 ≤ j ∧ j ≤ 1 := by
  have hlt := h.jitter
  rw [hj] at hlt
  simpa using hlt

/-- **Retry scheduling of a validated policy.**  In the arithmetic of the machine, whatever the
precision of its `powi`: scheduling is safe for every attempt, every draw and every date before the
year 10000 exactly when the policy is schedulable. -/
theorem retry_scheduling_iff {powi : F64 → Nat → F64} (hpowi : PowiNotNegative powi)
    {entries : List EmitterEntry} (h : validateEmitterEntries entries = .ok ()) {e : EmitterEntry}
    (he : e ∈ entries) :
    (∀ n u utcNow, 0 < n → n < e.retry.maxAttempts → Draw u → minUtc ≤ utcNow →
      utcNow < year10000 → RetrySafe (.ieee powi) e.retry.intoBackoffPolicy n u utcNow) ↔
      e.retry.intoBackoffPolicy.Schedulable powi := by
  have hvalid := (validateEmitterEntries_eq_ok_iff.mp h).1 e he
  constructor
  · intro hsafe
    rcases Int32.lt_or_le 1 e.retry.maxAttempts with hmax | hmax
    · -- The first attempt passes the assertions.
      have hfirst := hsafe 1 0 0 (by decide) hmax Draw.first (by decide) (by decide)
      obtain ⟨j, m, hj, hm, hj0, hj1, hm0⟩ :=
        BackoffPolicy.assertions_iff.mp ⟨hfirst.jitter, hfirst.multiplier⟩
      refine Or.inr ⟨j, m, hj, hm, hm0, fun n hn hlt => ?_⟩
      exact (retrySafe_attempt_iff hpowi hj hm hj0 hj1 hm0 hn).mp
        fun u utcNow hu hmin hmax => hsafe n u utcNow hn hlt hu hmin hmax
    · exact Or.inl hmax
  · rintro (hmax | ⟨j, m, hj, hm, hm0, hfit⟩) n u utcNow hn hlt hu hmin hy
    · have hmax' : e.retry.maxAttempts ≤ 1 := hmax
      have h0 : (0 : Int32).toInt = 0 := rfl
      have h1 : (1 : Int32).toInt = 1 := rfl
      rw [Int32.lt_iff_toInt_lt] at hn hlt
      rw [Int32.le_iff_toInt_le] at hmax'
      omega
    · obtain ⟨hj0, hj1⟩ := hvalid.jitter_range hj
      exact (retrySafe_attempt_iff hpowi hj hm hj0 hj1 hm0 hn).mpr (hfit n hn hlt) u utcNow hu hmin hy

/-- An entry with the given retry section. -/
def entryWith (retry : RetryPolicyConfig) : EmitterEntry :=
  { name := "orders", emitterType := "channel", retry := retry }

/-- The default section, whose jitter is the `f64` nearest to a fifth. -/
def defaultRetry : RetryPolicyConfig := { jitter := .finite (3602879701896397 / 2 ^ 54) }

theorem defaultRetry_fits (n : Int32) :
    defaultRetry.intoBackoffPolicy.DelaysFit runtimePowi n := by
  have hcap : defaultRetry.intoBackoffPolicy.maxBackoff.asSecsF64 (.ieee runtimePowi)
      = .finite 3600 := by decide +kernel
  simp only [BackoffPolicy.DelaysFit, hcap]
  exact Or.inl (F64.min_le_finite (by norm_num [longestDelay, calendarSecs]))

/-- The default policy is safe on its first retry. -/
theorem retry_scheduling_default :
    ∃ next, nextAt (.ieee runtimePowi) true defaultRetry.intoBackoffPolicy 1 (1 / 2) 0 = .ok next := by
  have hhalf : Draw (1 / 2) := ⟨⟨1, -1, by decide, by decide, by norm_num⟩, by norm_num, by norm_num⟩
  refine (retrySafe_iff runtimePowi_notNegative hhalf).mp
    ((@retry_scheduling_iff runtimePowi runtimePowi_notNegative [entryWith defaultRetry]
      (by decide +kernel) (entryWith defaultRetry) (List.mem_singleton.mpr rfl)).mpr
      (Or.inr ⟨_, 2, rfl, rfl, by norm_num, fun n _ _ => defaultRetry_fits n⟩) 1 (1 / 2) 0
      (by decide) (by decide) hhalf (by decide) (by decide))

/-- Scheduling after `attempt`, one that is not the last, panics though the section was validated: with
the draw `0`, at the start of the year 2026. -/
def RetryPolicyConfig.PanicsAfter (retry : RetryPolicyConfig) (attempt : Int32) : Prop :=
  validateEmitterEntries [entryWith retry] = .ok () ∧ 0 < attempt ∧ attempt < retry.maxAttempts ∧
    ¬ RetrySafe (.ieee runtimePowi) retry.intoBackoffPolicy attempt 0 (1767225600 * 10 ^ 9)

theorem not_retrySafe_of_panic {policy : BackoffPolicy} {n : Int32} {utcNow : ℤ} (panic : Panic)
    (h : nextAt (.ieee runtimePowi) true policy n 0 utcNow = .error panic) :
    ¬ RetrySafe (.ieee runtimePowi) policy n 0 utcNow := by
  intro hsafe
  obtain ⟨next, hnext⟩ := (retrySafe_iff runtimePowi_notNegative Draw.first).mp hsafe
  rw [h] at hnext
  cases hnext

/-- **Validated policies that panic.**  With a NaN jitter or a zero multiplier an assertion fails; a
delay of ten trillion seconds, which a base of zero reaches too when the power overflows, overflows
the calendar; and `u64::MAX` seconds do not fit a duration once they are an `f64`. -/
theorem retry_scheduling_panics :
    RetryPolicyConfig.PanicsAfter { jitter := .nan } 1 ∧
      RetryPolicyConfig.PanicsAfter { backoffMultiplier := .finite 0 } 1 ∧
      RetryPolicyConfig.PanicsAfter
        { initialBackoffSeconds := 10 ^ 13, maxBackoffSeconds := 10 ^ 13, jitter := .finite 0 } 1 ∧
      RetryPolicyConfig.PanicsAfter
        { initialBackoffSeconds := 0, maxBackoffSeconds := 10 ^ 13, jitter := .finite 0,
          backoffMultiplier := .finite (2 ^ 700) } 3 ∧
      RetryPolicyConfig.PanicsAfter
        { initialBackoffSeconds := 2 ^ 64 - 1, maxBackoffSeconds := 2 ^ 64 - 1,
          jitter := .finite 0 } 1 := by
  refine ⟨?_, ?_, ?_, ?_, ?_⟩ <;> refine ⟨by decide +kernel, by decide, by decide, ?_⟩
  · exact not_retrySafe_of_panic .jitter (by decide +kernel)
  · exact not_retrySafe_of_panic .multiplier (by decide +kernel)
  · exact not_retrySafe_of_panic .dateTimeOverflow (by decide +kernel)
  · exact not_retrySafe_of_panic .dateTimeOverflow (by decide +kernel)
  · exact not_retrySafe_of_panic .secsTooBigOrNan (by decide +kernel)

end Hookbox
