/-
# Rounding to nearest, ties to even

IEEE 754's `roundTiesToEven`, of an ordered field to the integers and then of the rationals to the
numbers of a binary floating-point format.  The exponent of the format has no upper end here; what
overflows is for its user to say.

* `tiesEven_mono`, `tiesEven_nonneg`, `tiesEven_le`: a number is not rounded beyond a whole one.
* `tiesEven_le_iff`, `tiesEven_lt_iff`: an even number takes the lower half of what is above it and
  the upper half of what is below it, the middles included.
* `Format.nearest_mono`, `Format.nearest_eq_self`: rounding keeps the order and leaves the numbers of
  the format alone, so a number is not rounded beyond one of the format either
  (`Format.nearest_le`, `Format.le_nearest`).
-/
import Mathlib.Algebra.Order.Floor.Ring
import Mathlib.Data.Int.Log
import Mathlib.Data.Rat.Floor
import Mathlib.Tactic.Linarith
import Mathlib.Tactic.NormNum
import Mathlib.Tactic.Positivity
import Mathlib.Tactic.Ring

namespace Rounding

/-! ## 1. To the integers -/

variable {K : Type*} [Field K] [LinearOrder K] [FloorRing K]

/-- The nearest integer, and of two the even one. -/
def tiesEven (q : K) : ℤ :=
  if q - ⌊q⌋ < ⌊q⌋ + 1 - q then ⌊q⌋
  else if ⌊q⌋ + 1 - q < q - ⌊q⌋ then ⌊q⌋ + 1
  else if ⌊q⌋ % 2 = 0 then ⌊q⌋ else ⌊q⌋ + 1

/-- The two integers a number can be rounded to. -/
theorem tiesEven_cases (q : K) :
    tiesEven q = ⌊q⌋ ∨ (tiesEven q = ⌊q⌋ + 1 ∧ ¬ q - ⌊q⌋ < ⌊q⌋ + 1 - q) := by
  unfold tiesEven
  split
  · exact Or.inl rfl
  · rename_i hhalf
    split
    · exact Or.inr ⟨rfl, hhalf⟩
    · split
      · exact Or.inl rfl
      · exact Or.inr ⟨rfl, hhalf⟩

variable {q : K} {n : ℤ}

theorem tiesEven_nonneg (h : 0 ≤ q) : 0 ≤ tiesEven q := by
  have hfloor : 0 ≤ ⌊q⌋ := Int.floor_nonneg.mpr h
  rcases tiesEven_cases q with hq | ⟨hq, -⟩ <;> omega

variable [IsStrictOrderedRing K]

/-- A number is not rounded beyond a whole one. -/
theorem tiesEven_le (h : q ≤ n) : tiesEven q ≤ n := by
  have hfloor : ⌊q⌋ ≤ n := by
    have := (Int.floor_le q).trans h
    exact_mod_cast this
  rcases tiesEven_cases q with hq | ⟨hq, hhalf⟩
  · omega
  · rcases lt_or_eq_of_le hfloor with hless | heq
    · omega
    · rw [heq] at hhalf
      linarith

/-- **An even number takes the lower half** of what is above it. -/
theorem tiesEven_le_iff (hn : n % 2 = 0) : tiesEven q ≤ n ↔ q ≤ n + 1 / 2 := by
  have hlt := Int.lt_floor_add_one q
  constructor
  · intro h
    have hfloor : ⌊q⌋ ≤ n := by
      rcases tiesEven_cases q with hq | ⟨hq, -⟩ <;> omega
    rcases lt_or_eq_of_le hfloor with hless | rfl
    · have : (⌊q⌋ : K) + 1 ≤ n := by exact_mod_cast hless
      linarith
    · -- Above the middle it would have been rounded up.
      by_contra hq
      have hup : tiesEven q = ⌊q⌋ + 1 := by
        unfold tiesEven
        rw [if_neg (by linarith), if_pos (by linarith)]
      omega
  · intro h
    rcases lt_trichotomy ⌊q⌋ n with hless | rfl | hgt
    · have : (⌊q⌋ : K) + 1 ≤ n := by exact_mod_cast hless
      exact tiesEven_le (by linarith)
    · rcases tiesEven_cases q with hq | ⟨hq, hhalf⟩
      · omega
      · -- The middle itself goes to the even neighbour.
        have hdown : tiesEven q = ⌊q⌋ := by
          unfold tiesEven
          rw [if_neg hhalf, if_neg (by linarith), if_pos hn]
        omega
    · have h1 : (n : K) + 1 ≤ ⌊q⌋ := by exact_mod_cast hgt
      have := Int.floor_le q
      linarith

omit [IsStrictOrderedRing K] in
/-- Neither is it rounded below one. -/
theorem le_tiesEven (h : n ≤ q) : n ≤ tiesEven q := by
  have hfloor : n ≤ ⌊q⌋ := Int.le_floor.mpr h
  rcases tiesEven_cases q with hq | ⟨hq, -⟩ <;> omega

@[simp] theorem tiesEven_intCast (n : ℤ) : tiesEven (n : K) = n :=
  le_antisymm (tiesEven_le le_rfl) (le_tiesEven le_rfl)

/-- **Rounding keeps the order.** -/
theorem tiesEven_mono {p q : K} (h : p ≤ q) : tiesEven p ≤ tiesEven q := by
  rcases lt_or_eq_of_le (Int.floor_mono h) with hless | hfloor
  · have hlow := le_tiesEven (Int.floor_le q)
    rcases tiesEven_cases p with hp | ⟨hp, -⟩ <;> omega
  · -- Between the same neighbours, what is above the middle stays above it.
    unfold tiesEven
    rw [hfloor]
    split_ifs
    all_goals first
      | omega
      | (exfalso; linarith)

/-- **An even number takes the upper half** of what is below it, its middle included. -/
theorem tiesEven_lt_iff (hn : n % 2 = 0) : tiesEven q < n ↔ q < n - 1 / 2 := by
  have hlt := Int.lt_floor_add_one q
  have hle := Int.floor_le q
  constructor
  · intro h
    by_contra hq
    have hfloor : n - 1 ≤ ⌊q⌋ := by
      rw [Int.le_floor]
      push_cast
      linarith
    rcases lt_or_eq_of_le hfloor with hless | heq
    · have := le_tiesEven (n := n) (q := q) ((Int.cast_le.mpr (by omega : n ≤ ⌊q⌋)).trans hle)
      omega
    · -- In the middle the lower neighbour is the odd one.
      have hcast : (⌊q⌋ : K) = n - 1 := by rw [← heq]; push_cast; ring
      have hup : tiesEven q = ⌊q⌋ + 1 := by
        unfold tiesEven
        rw [if_neg (by linarith)]
        split_ifs <;> omega
      omega
  · intro h
    have hfloor : ⌊q⌋ < n := by
      have : (⌊q⌋ : K) < n := by linarith
      exact_mod_cast this
    rcases tiesEven_cases q with hq | ⟨hq, hhalf⟩
    · omega
    · have hless : ⌊q⌋ < n - 1 := by
        have : (⌊q⌋ : K) < ((n - 1 : ℤ) : K) := by push_cast; linarith
        exact_mod_cast this
      omega

/-! ## 2. To a binary format -/

/-- A binary floating-point format: the numbers `n * 2 ^ e` with `|n| < 2 ^ precision` and
`minExp ≤ e`. -/
structure Format where
  precision : ℕ
  minExp : ℤ

namespace Format

variable (F : Format)

def Contains (q : ℚ) : Prop := ∃ n e : ℤ, |n| < 2 ^ F.precision ∧ F.minExp ≤ e ∧ q = n * 2 ^ e

/-- The exponent of the last digit that the format has room for. -/
def lastDigit (q : ℚ) : ℤ := max (Int.log 2 q - (F.precision - 1)) F.minExp

/-- The nearest number of the format to one that is not negative. -/
def nearestAbs (q : ℚ) : ℚ := tiesEven (q / 2 ^ F.lastDigit q) * 2 ^ F.lastDigit q

/-- The nearest number of the format, and of two the one whose last digit is even. -/
def nearest (q : ℚ) : ℚ := if q < 0 then -F.nearestAbs (-q) else F.nearestAbs q

variable {F} {p q : ℚ} {n e : ℤ}

theorem two_zpow_pos (e : ℤ) : (0 : ℚ) < 2 ^ e := zpow_pos two_pos e

/-- A number with its last digit at `e` is a whole number of those at an earlier place. -/
theorem exists_digits {l : ℤ} (h : l ≤ e) (n : ℤ) : ∃ k : ℤ, (n : ℚ) * 2 ^ e = k * 2 ^ l := by
  refine ⟨n * 2 ^ (e - l).toNat, ?_⟩
  have hexp : ((e - l).toNat : ℤ) + l = e := by omega
  push_cast
  rw [mul_assoc, ← zpow_natCast, ← zpow_add₀ two_ne_zero, hexp]

/-! ### Numbers that are not negative -/

theorem nearestAbs_le (h : q ≤ n * 2 ^ e) (he : F.lastDigit q ≤ e) :
    F.nearestAbs q ≤ n * 2 ^ e := by
  obtain ⟨k, hk⟩ := exists_digits he n
  have hpos := two_zpow_pos (F.lastDigit q)
  rw [hk] at h ⊢
  refine mul_le_mul_of_nonneg_right ?_ hpos.le
  exact_mod_cast tiesEven_le ((div_le_iff₀ hpos).mpr h)

theorem le_nearestAbs (h : n * 2 ^ e ≤ q) (he : F.lastDigit q ≤ e) :
    n * 2 ^ e ≤ F.nearestAbs q := by
  obtain ⟨k, hk⟩ := exists_digits he n
  have hpos := two_zpow_pos (F.lastDigit q)
  rw [hk] at h ⊢
  refine mul_le_mul_of_nonneg_right ?_ hpos.le
  exact_mod_cast le_tiesEven ((le_div_iff₀ hpos).mpr h)

theorem nearestAbs_nonneg (h : 0 ≤ q) : 0 ≤ F.nearestAbs q := by
  have hpos := two_zpow_pos (F.lastDigit q)
  refine mul_nonneg ?_ hpos.le
  exact_mod_cast tiesEven_nonneg (div_nonneg h hpos.le)

@[simp] theorem nearestAbs_zero : F.nearestAbs (0 : ℚ) = 0 := by
  have hzero : tiesEven (0 : ℚ) = 0 := by exact_mod_cast tiesEven_intCast 0
  rw [nearestAbs, zero_div, hzero, Int.cast_zero, zero_mul]

/-- A greater number has its last digit no earlier. -/
theorem lastDigit_mono (hp : 0 < p) (h : p ≤ q) : F.lastDigit p ≤ F.lastDigit q := by
  have hlog := Int.log_mono_right (b := 2) hp h
  unfold lastDigit
  omega

theorem nearestAbs_mono (hF : 0 < F.precision) (hp : 0 ≤ p) (h : p ≤ q) :
    F.nearestAbs p ≤ F.nearestAbs q := by
  rcases lt_or_eq_of_le hp with hp | rfl
  · rcases lt_or_eq_of_le (lastDigit_mono (F := F) hp h) with hless | heq
    · -- A power of two lies between them, and both have room for it.
      have hq := hp.trans_le h
      have hbetween : Int.log 2 p + 1 ≤ Int.log 2 q ∧ F.lastDigit q ≤ Int.log 2 q := by
        unfold lastDigit at hless ⊢
        omega
      have hlow : p ≤ (1 : ℤ) * 2 ^ Int.log 2 q := by
        rw [Int.cast_one, one_mul]
        exact (Int.lt_zpow_succ_log_self Nat.one_lt_two p).le.trans
          (zpow_le_zpow_right₀ one_le_two hbetween.1)
      have hhigh : (1 : ℤ) * 2 ^ Int.log 2 q ≤ q := by
        rw [Int.cast_one, one_mul]
        exact_mod_cast Int.zpow_log_le_self Nat.one_lt_two hq
      exact (nearestAbs_le hlow (hless.le.trans hbetween.2)).trans
        (le_nearestAbs hhigh hbetween.2)
    · have hpos := two_zpow_pos (F.lastDigit q)
      unfold nearestAbs
      rw [heq]
      refine mul_le_mul_of_nonneg_right ?_ hpos.le
      exact_mod_cast tiesEven_mono (div_le_div_of_nonneg_right h hpos.le)
  · rw [nearestAbs_zero]
    exact nearestAbs_nonneg h

/-- A number of the format is left alone. -/
theorem nearestAbs_eq_self (hq : 0 ≤ q) (h : F.Contains q) : F.nearestAbs q = q := by
  obtain ⟨n, e, hn, he, rfl⟩ := h
  rcases lt_or_eq_of_le hq with hq | hq
  · have hlog : Int.log 2 ((n : ℚ) * 2 ^ e) < F.precision + e := by
      refine (Int.lt_zpow_iff_log_lt Nat.one_lt_two hq).mp ?_
      rw [Nat.cast_two, zpow_add₀ two_ne_zero, zpow_natCast]
      refine mul_lt_mul_of_pos_right ?_ (two_zpow_pos e)
      exact_mod_cast (le_abs_self n).trans_lt hn
    have hdigit : F.lastDigit ((n : ℚ) * 2 ^ e) ≤ e := by
      unfold lastDigit
      omega
    exact le_antisymm (nearestAbs_le le_rfl hdigit) (le_nearestAbs le_rfl hdigit)
  · rw [← hq, nearestAbs_zero]

/-! ### All numbers -/

theorem nearest_of_nonneg (h : 0 ≤ q) : F.nearest q = F.nearestAbs q := if_neg (not_lt.mpr h)

theorem nearest_neg (q : ℚ) : F.nearest (-q) = -F.nearest q := by
  unfold nearest
  rcases lt_trichotomy q 0 with h | rfl | h
  · rw [if_neg (by linarith), if_pos h, neg_neg]
  · simp
  · rw [if_pos (by linarith), if_neg (not_lt.mpr h.le), neg_neg]

theorem nearest_nonneg (h : 0 ≤ q) : 0 ≤ F.nearest q :=
  nearest_of_nonneg (F := F) h ▸ nearestAbs_nonneg h

/-- **Rounding keeps the order.** -/
theorem nearest_mono (hF : 0 < F.precision) (h : p ≤ q) : F.nearest p ≤ F.nearest q := by
  rcases le_or_gt 0 p with hp | hp
  · rw [nearest_of_nonneg hp, nearest_of_nonneg (hp.trans h)]
    exact nearestAbs_mono hF hp h
  · rcases le_or_gt 0 q with hq | hq
    · have hneg := nearest_nonneg (F := F) (neg_nonneg.mpr hp.le)
      rw [nearest_neg] at hneg
      linarith [nearest_nonneg (F := F) hq]
    · have habs := nearestAbs_mono hF (neg_nonneg.mpr hq.le) (neg_le_neg h)
      rw [nearest, nearest, if_pos hp, if_pos hq]
      exact neg_le_neg habs

theorem Contains.neg (h : F.Contains q) : F.Contains (-q) := by
  obtain ⟨n, e, hn, he, rfl⟩ := h
  exact ⟨-n, e, by rwa [abs_neg], he, by push_cast; ring⟩

/-- **A number of the format is left alone.** -/
theorem nearest_eq_self (h : F.Contains q) : F.nearest q = q := by
  rcases le_or_gt 0 q with hq | hq
  · rw [nearest_of_nonneg hq, nearestAbs_eq_self hq h]
  · have hneg := nearestAbs_eq_self (neg_nonneg.mpr hq.le) h.neg
    rw [nearest, if_pos hq, hneg, neg_neg]

section Bounds

variable (hF : 0 < F.precision) {d : ℚ} (hd : F.Contains d)
include hF hd

/-- A number is not rounded beyond one of the format. -/
theorem nearest_le (h : q ≤ d) : F.nearest q ≤ d :=
  (nearest_mono hF h).trans (nearest_eq_self hd).le

theorem le_nearest (h : d ≤ q) : d ≤ F.nearest q :=
  (nearest_eq_self hd).ge.trans (nearest_mono hF h)

/-- What is rounded to less was less. -/
theorem lt_of_nearest_lt (h : F.nearest q < d) : q < d :=
  not_le.mp fun hle => not_lt.mpr (le_nearest hF hd hle) h

theorem lt_of_lt_nearest (h : d < F.nearest q) : d < q :=
  not_le.mp fun hle => not_lt.mpr (nearest_le hF hd hle) h

end Bounds

/-- The greatest number of the format below one. -/
theorem Contains.le_pred_one (hF : 0 < F.precision) (h : F.Contains q) (hq : q < 1) :
    q ≤ 1 - 1 / 2 ^ F.precision := by
  obtain ⟨n, e, hn, -, rfl⟩ := h
  have hpos : (0 : ℚ) < 2 ^ F.precision := by positivity
  rcases le_or_gt (-F.precision : ℤ) e with he | he
  · -- It is a multiple of the last place below one.
    obtain ⟨k, hk⟩ := exists_digits he n
    rw [zpow_neg, zpow_natCast, ← div_eq_mul_inv] at hk
    rw [hk, div_lt_one hpos] at hq
    have hless : k < 2 ^ F.precision := by exact_mod_cast hq
    have hle : (k : ℚ) ≤ 2 ^ F.precision - 1 := by
      exact_mod_cast Int.le_sub_one_of_lt hless
    rw [hk, one_sub_div hpos.ne']
    exact div_le_div_of_nonneg_right hle hpos.le
  · -- It is at most a half.
    have hhalf : (n : ℚ) * 2 ^ e ≤ 2 ^ F.precision * 2 ^ (-F.precision - 1 : ℤ) := by
      have hn' : (n : ℚ) ≤ 2 ^ F.precision := by exact_mod_cast (le_abs_self n).trans hn.le
      exact mul_le_mul hn' (zpow_le_zpow_right₀ one_le_two (by omega)) (two_zpow_pos e).le hpos.le
    have hpow : (2 : ℚ) ≤ 2 ^ F.precision := le_self_pow₀ one_le_two hF.ne'
    have hsum : (2 : ℚ) ^ F.precision * 2 ^ (-F.precision - 1 : ℤ) = 1 / 2 := by
      rw [← zpow_natCast, ← zpow_add₀ two_ne_zero, add_sub, add_neg_cancel, zero_sub, zpow_neg_one,
        one_div]
    have hlast : 1 / (2 : ℚ) ^ F.precision ≤ 1 / 2 := one_div_le_one_div_of_le two_pos hpow
    linarith

end Format

end Rounding
