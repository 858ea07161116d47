import Mathlib.Algebra.Order.Field.Basic
import Mathlib.Algebra.Order.Field.Power
import Mathlib.Algebra.Order.Ring.Rat
import Mathlib.Data.Rat.Floor
import Mathlib.Tactic.FieldSimp
import Mathlib.Tactic.Linarith
import Mathlib.Tactic.Positivity
import Mathlib.Tactic.Ring
import Mathlib.Data.Nat.Cast.Order.Field

/-! # Nearest representable numbers

What rounding to nearest promises about a result, apart from how the result is computed.  Ties may
go either way: nothing here depends on them.
-/

namespace SensorBar.Double

theorem two_pow_mul_zpow (k : ℕ) (e : ℤ) : (2 : ℚ) ^ k * 2 ^ e = 2 ^ (k + e) := by
  rw [zpow_add₀ two_ne_zero, zpow_natCast]

/-! ## Representable numbers -/

/-- A multiple of a power of two with 53 bits at most.  There is no greatest exponent here: a number
above the greatest double is told apart when it is packed. -/
def Representable (w : ℚ) : Prop :=
  ∃ n f : ℤ, |n| < 2 ^ 53 ∧ -1074 ≤ f ∧ w = n * 2 ^ f

namespace Representable

theorem neg {w : ℚ} (h : Representable w) : Representable (-w) := by
  obtain ⟨n, f, hn, hf, rfl⟩ := h
  exact ⟨-n, f, by rwa [abs_neg], hf, by push_cast; ring⟩

theorem zero : Representable 0 :=
  ⟨0, 0, by simp, by omega, by simp⟩

theorem one : Representable 1 :=
  ⟨1, 0, by norm_num, by omega, by simp⟩

theorem two_zpow {j : ℤ} (h : -1074 ≤ j) : Representable (2 ^ j) :=
  ⟨1, j, by norm_num, h, by simp⟩

theorem natCast {n : ℕ} (h : n ≤ 2 ^ 53) : Representable n := by
  rcases h.lt_or_eq with h | rfl
  · exact ⟨n, 0, by rw [Nat.abs_cast]; exact_mod_cast h, by omega, by simp⟩
  · exact ⟨1, 53, by norm_num, by omega, by norm_num⟩

theorem mul_two_pow {w : ℚ} (h : Representable w) (k : ℕ) : Representable (w * 2 ^ k) := by
  obtain ⟨n, f, hn, hf, rfl⟩ := h
  refine ⟨n, f + k, hn, by omega, ?_⟩
  rw [zpow_add₀ two_ne_zero, zpow_natCast, mul_assoc]

/-- All of the multiples of a unit up to `2 ^ 53` of them. -/
theorem natCast_mul {n : ℕ} {f : ℤ} (h : n ≤ 2 ^ 53) (hf : -1074 ≤ f) :
    Representable (n * 2 ^ f) := by
  rcases h.lt_or_eq with h | rfl
  · exact ⟨n, f, by rw [Nat.abs_cast]; exact_mod_cast h, hf, by simp⟩
  · refine ⟨2 ^ 52, f + 1, by norm_num, by omega, ?_⟩
    rw [zpow_add_one₀ two_ne_zero]
    push_cast
    ring

/-- The least positive double keeps all of them apart. -/
theorem least_le_sub {v w : ℚ} (hv : Representable v) (hw : Representable w) (h : v < w) :
    2 ^ (-1074 : ℤ) ≤ w - v := by
  have hmultiple : ∀ u, Representable u → ∃ n : ℤ, u = n * 2 ^ (-1074 : ℤ) := by
    rintro - ⟨n, f, -, hf, rfl⟩
    obtain ⟨d, rfl⟩ : ∃ d : ℕ, f = d + (-1074) := ⟨(f + 1074).toNat, by omega⟩
    refine ⟨n * 2 ^ d, ?_⟩
    rw [← two_pow_mul_zpow, Int.cast_mul, Int.cast_pow, Int.cast_ofNat, mul_assoc]
  obtain ⟨m, rfl⟩ := hmultiple v hv
  obtain ⟨n, rfl⟩ := hmultiple w hw
  have hunit : (0 : ℚ) < 2 ^ (-1074 : ℤ) := by positivity
  have hint : m < n := by exact_mod_cast lt_of_mul_lt_mul_right h hunit.le
  have hone : (1 : ℚ) ≤ n - m := by
    rw [le_sub_iff_add_le']
    exact_mod_cast hint
  rw [← sub_mul]
  exact le_mul_of_one_le_left hunit.le hone

/-- Above a power of two comes nothing before the next unit of its last place. -/
theorem add_le_of_lt {w : ℚ} (h : Representable w) {k : ℕ} (hlt : 2 ^ k < w) :
    (2 : ℚ) ^ k + 2 ^ ((k : ℤ) - 52) ≤ w := by
  obtain ⟨n, f, hn, -, rfl⟩ := h
  have hpow : (2 : ℚ) ^ k = 2 ^ 52 * 2 ^ ((k : ℤ) - 52) := by
    rw [two_pow_mul_zpow, ← zpow_natCast]
    congr 1
    push_cast
    ring
  have hunit : (0 : ℚ) < 2 ^ ((k : ℤ) - 52) := by positivity
  by_cases hf : (k : ℤ) - 52 ≤ f
  · -- Both numbers are multiples of the unit.
    obtain ⟨d, rfl⟩ : ∃ d : ℕ, f = d + (k - 52) := ⟨(f - (k - 52)).toNat, by omega⟩
    have hw : (n : ℚ) * 2 ^ (d + ((k : ℤ) - 52)) = ((n * 2 ^ d : ℤ) : ℚ) * 2 ^ ((k : ℤ) - 52) := by
      rw [← two_pow_mul_zpow]
      push_cast
      ring
    rw [hw, hpow] at hlt ⊢
    have hint : (2 : ℤ) ^ 52 < n * 2 ^ d := by exact_mod_cast lt_of_mul_lt_mul_right hlt hunit.le
    have hle : (2 : ℚ) ^ 52 + 1 ≤ ((n * 2 ^ d : ℤ) : ℚ) := by exact_mod_cast hint
    nlinarith
  · have hn' : (n : ℚ) < 2 ^ 53 := by exact_mod_cast (abs_lt.mp hn).2
    have hbound : (n : ℚ) * 2 ^ f < 2 ^ k := calc
      (n : ℚ) * 2 ^ f < 2 ^ 53 * 2 ^ f := by gcongr
      _ = 2 ^ (53 + f) := two_pow_mul_zpow 53 f
      _ ≤ 2 ^ (k : ℤ) := zpow_le_zpow_right₀ one_le_two (by omega)
      _ = 2 ^ k := zpow_natCast 2 k
    exact absurd hlt hbound.le.not_gt

end Representable

/-! ## Nearest representable numbers -/

/-- A representable number that none other is closer to `y` than. -/
structure Nearest (z y : ℚ) : Prop where
  representable : Representable z
  closest : ∀ w, Representable w → |z - y| ≤ |w - y|

namespace Nearest

variable {z y w : ℚ}

theorem of_representable (h : Representable z) : Nearest z z :=
  ⟨h, fun w _ => by simp⟩

theorem neg (h : Nearest z y) : Nearest (-z) (-y) := by
  refine ⟨h.representable.neg, fun w hw => ?_⟩
  have hclosest := h.closest (-w) hw.neg
  rwa [show -z - -y = -(z - y) by ring, show w - -y = -(-w - y) by ring, abs_neg, abs_neg]

/-- Rounding does not pass a representable number. -/
theorem le_of_le (h : Nearest z y) (hw : Representable w) (hyw : y ≤ w) : z ≤ w := by
  by_contra! hlt
  have hclosest := h.closest w hw
  rw [abs_of_nonneg (by linarith), abs_of_nonneg (by linarith)] at hclosest
  linarith

theorem ge_of_ge (h : Nearest z y) (hw : Representable w) (hwy : w ≤ y) : w ≤ z := by
  have := h.neg.le_of_le hw.neg (by linarith)
  linarith

theorem abs_le_of_abs_le (h : Nearest z y) (hw : Representable w) (hyw : |y| ≤ w) : |z| ≤ w := by
  have hy := abs_le.mp hyw
  have := h.ge_of_ge hw.neg hy.1
  exact abs_le.mpr ⟨this, h.le_of_le hw hy.2⟩

theorem eq_of_representable (h : Nearest z y) (hy : Representable y) : z = y :=
  le_antisymm (h.le_of_le hy le_rfl) (h.ge_of_ge hy le_rfl)

/-- Between zero and one the error is at most half a unit of the last place. -/
theorem abs_sub_le (h : Nearest z y) (hzero : 0 ≤ y) (hone : y ≤ 1) :
    |z - y| ≤ 1 / 2 * 2 ^ (-53 : ℤ) := by
  have hunit : (0 : ℚ) < 2 ^ (-53 : ℤ) := by positivity
  have hscaled : y * 2 ^ 53 * 2 ^ (-53 : ℤ) = y := by
    rw [mul_assoc, two_pow_mul_zpow]
    norm_num
  have hnonneg : 0 ≤ y * 2 ^ 53 := by positivity
  have hle : y * 2 ^ 53 ≤ 2 ^ 53 := mul_le_of_le_one_left (by positivity) hone
  obtain ⟨n, hnear⟩ : ∃ n : ℤ, |y * 2 ^ 53 - n| ≤ 1 / 2 := ⟨_, abs_sub_round _⟩
  obtain ⟨hlow, hhigh⟩ := abs_le.mp hnear
  have hpos : 0 ≤ n := by
    have : (0 : ℚ) < n + 1 := by linarith
    exact Int.lt_add_one_iff.mp (by exact_mod_cast this)
  lift n to ℕ using hpos
  rw [Int.cast_natCast] at hnear hlow
  have hbound : n ≤ 2 ^ 53 := by
    have : (n : ℚ) < 2 ^ 53 + 1 := by linarith
    exact Nat.lt_succ_iff.mp (by exact_mod_cast this)
  calc |z - y| ≤ |n * 2 ^ (-53 : ℤ) - y| := h.closest _ (.natCast_mul hbound (by omega))
    _ = |n - y * 2 ^ 53| * 2 ^ (-53 : ℤ) := by
      rw [← abs_of_pos hunit, ← abs_mul, abs_of_pos hunit, sub_mul, hscaled]
    _ ≤ 1 / 2 * 2 ^ (-53 : ℤ) := by
      rw [abs_sub_comm]
      gcongr

/-- Less than half a unit of the last place above a power of two still rounds down to it. -/
theorem le_two_pow (h : Nearest z y) {k : ℕ} (hy : y < 2 ^ k + 2 ^ ((k : ℤ) - 53)) : z ≤ 2 ^ k := by
  by_contra! hlt
  have hgap := h.representable.add_le_of_lt hlt
  have hunit : (2 : ℚ) ^ ((k : ℤ) - 52) = 2 * 2 ^ ((k : ℤ) - 53) := by
    rw [show (k : ℤ) - 52 = k - 53 + 1 by ring, zpow_add_one₀ two_ne_zero, mul_comm]
  have hclosest := h.closest (2 ^ k) (by simpa using Representable.two_zpow (j := k) (by omega))
  rw [abs_of_nonneg (by linarith), le_abs] at hclosest
  rcases hclosest with hclosest | hclosest <;> linarith

theorem abs_le_two_pow (h : Nearest z y) {k : ℕ} (hy : |y| < 2 ^ k + 2 ^ ((k : ℤ) - 53)) :
    |z| ≤ 2 ^ k := by
  obtain ⟨hlow, hhigh⟩ := abs_lt.mp hy
  have := h.neg.le_two_pow (k := k) (by linarith)
  exact abs_le.mpr ⟨by linarith, h.le_two_pow hhigh⟩

end Nearest

/--
The nearest multiple `r` of a unit of the last place is a nearest representable number, if that unit
belongs to the size of the number or is the least one.
-/
theorem nearest_of_unit {r : ℕ} {x : ℚ} {t : ℤ} (hr : |(r : ℚ) - x| ≤ 1 / 2) (hr' : r ≤ 2 ^ 53)
    (ht : -1074 ≤ t) (hx : 2 ^ 52 ≤ x ∨ t = -1074) : Nearest (r * 2 ^ t) (x * 2 ^ t) := by
  have hunit : (0 : ℚ) < 2 ^ t := by positivity
  have hscale : ∀ v : ℚ, |v * 2 ^ t - x * 2 ^ t| = |v - x| * 2 ^ t := fun v => by
    rw [← sub_mul, abs_mul, abs_of_pos hunit]
  -- Among the multiples of the unit, `r` is the closest one.
  have hmultiple : ∀ N : ℤ, |(r : ℚ) - x| ≤ |(N : ℚ) - x| := fun N => by
    by_cases hN : N = r
    · subst hN
      simp
    · have hapart : (1 : ℚ) ≤ |(N : ℚ) - r| := by
        exact_mod_cast Int.one_le_abs (sub_ne_zero.mpr hN)
      have := abs_sub_le (N : ℚ) x r
      rw [abs_sub_comm x] at this
      linarith
  refine ⟨.natCast_mul hr' ht, fun w hw => ?_⟩
  obtain ⟨n, f, hn, hf, rfl⟩ := hw
  by_cases hft : t ≤ f
  · obtain ⟨d, rfl⟩ : ∃ d : ℕ, f = d + t := ⟨(f - t).toNat, by omega⟩
    rw [← two_pow_mul_zpow, ← mul_assoc, hscale, hscale]
    have := hmultiple (n * 2 ^ d)
    push_cast at this
    gcongr
  · -- A finer unit belongs to smaller numbers, and `2 ^ 52` units lie between.
    have hx : 2 ^ 52 ≤ x := hx.resolve_right (by omega)
    have hn' : (n : ℚ) < 2 ^ 53 := by exact_mod_cast (abs_lt.mp hn).2
    have hsmall : (n : ℚ) * 2 ^ f < 2 ^ 52 * 2 ^ t := calc
      (n : ℚ) * 2 ^ f < 2 ^ 53 * 2 ^ f := by gcongr
      _ = 2 ^ (53 + f) := two_pow_mul_zpow 53 f
      _ ≤ 2 ^ (52 + t) := zpow_le_zpow_right₀ one_le_two (by omega)
      _ = 2 ^ 52 * 2 ^ t := (two_pow_mul_zpow 52 t).symm
    have hbetween := hmultiple (2 ^ 52)
    rw [Int.cast_pow, Int.cast_ofNat] at hbetween
    calc |(r : ℚ) * 2 ^ t - x * 2 ^ t| = |(r : ℚ) - x| * 2 ^ t := hscale r
      _ ≤ |(2 : ℚ) ^ 52 - x| * 2 ^ t := mul_le_mul_of_nonneg_right hbetween hunit.le
      _ = x * 2 ^ t - 2 ^ 52 * 2 ^ t := by rw [abs_of_nonpos (by linarith)]; ring
      _ ≤ x * 2 ^ t - n * 2 ^ f := by linarith
      _ ≤ |(n : ℚ) * 2 ^ f - x * 2 ^ t| := by rw [abs_sub_comm]; exact le_abs_self _

end SensorBar.Double
