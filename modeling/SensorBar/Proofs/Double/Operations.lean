import SensorBar.Proofs.Double.Rounding

/-! # Arithmetic on the fields of doubles

Sums, products and quotients of finite fields in canonical form are rounded to nearest, and their
order is the order of the numbers.
-/

namespace SensorBar.Double

open Float.Model (Format UnpackedFloat totalExponent)
open Float.Model.UnpackedFloat

/-- The fields of a finite double. -/
structure Proper (u : UnpackedFloat) : Prop where
  finite : u.isFinite
  canonical : Canonical u

namespace Proper

variable {u : UnpackedFloat}

theorem zero (s : Sign) : Proper (.zero s) :=
  ⟨rfl, trivial⟩

theorem eq_zero_or_finite (h : Proper u) :
    (∃ s, u = .zero s) ∨ ∃ s m e hm, u = .finite s m e hm := by
  obtain ⟨hfinite, -⟩ := h
  cases u with
  | notANumber => cases hfinite
  | infinity s => cases hfinite
  | zero s => exact .inl ⟨s, rfl⟩
  | finite s m e hm => exact .inr ⟨s, m, e, hm, rfl⟩

theorem representable (h : Proper u) : Representable (valueOf u) := by
  obtain ⟨s, rfl⟩ | ⟨s, m, e, hm, rfl⟩ := h.eq_zero_or_finite
  · exact .zero
  · have hmagnitude := Representable.natCast_mul h.canonical.1.le h.canonical.2.1
    cases s with
    | negative => simpa [valueOf, signum] using hmagnitude.neg
    | positive => simpa [valueOf, signum] using hmagnitude

theorem rounds (h : Proper u) : Rounds u (valueOf u) :=
  ⟨h.finite, h.canonical, .of_representable h.representable⟩

theorem neg (h : Proper u) : Proper u.neg := by
  obtain ⟨s, rfl⟩ | ⟨s, m, e, hm, rfl⟩ := h.eq_zero_or_finite
  · exact .zero _
  · exact ⟨rfl, h.canonical⟩

theorem abs (h : Proper u) : Proper u.abs := by
  obtain ⟨s, rfl⟩ | ⟨s, m, e, hm, rfl⟩ := h.eq_zero_or_finite
  · exact .zero _
  · exact ⟨rfl, h.canonical⟩

end Proper

theorem rounds_zero (s : Sign) : Rounds (.zero s) 0 :=
  (Proper.zero s).rounds

/-! ## Signs -/

theorem signum_ne_zero (s : Sign) : signum s ≠ 0 := by
  cases s <;> norm_num [signum]

@[simp]
theorem signum_neg (s : Sign) : signum (-s) = -signum s := by
  cases s
  · exact (neg_neg _).symm
  · rfl

@[simp]
theorem signum_mul (s t : Sign) : signum (s * t) = signum s * signum t := by
  cases s <;> cases t <;> norm_num [signum]

@[simp]
theorem signum_div (s t : Sign) : signum (s / t) = signum s / signum t := by
  have hmul : s / t = s * t := by cases s <;> cases t <;> rfl
  rw [hmul, signum_mul]
  cases s <;> cases t <;> norm_num [signum]

theorem valueOf_neg (u : UnpackedFloat) : valueOf u.neg = -valueOf u := by
  cases u <;> simp [UnpackedFloat.neg, valueOf]

theorem valueOf_abs (u : UnpackedFloat) : valueOf u.abs = |valueOf u| := by
  cases u with
  | finite s m e hm =>
    have hmagnitude : (0 : ℚ) ≤ m * 2 ^ e := by positivity
    cases s <;> simp [UnpackedFloat.abs, valueOf, signum, abs_of_nonneg hmagnitude]
  | _ => simp [UnpackedFloat.abs, valueOf]

/-! ## Sums and differences -/

theorem sub_eq_add (u v : UnpackedFloat) :
    sub Format.binary64 u v = add Format.binary64 u v.neg := by
  cases u with
  | finite s m e hm =>
    cases v with
    | finite t n f hn =>
      cases t <;> simp [sub, add, UnpackedFloat.neg, Sign.apply, sub_eq_add_neg]
    | _ => rfl
  | _ => cases v <;> rfl

theorem decreaseExponent_of_le {e t : ℤ} (m : ℕ) (h : t ≤ e) :
    ((decreaseExponent m e t).1 : ℚ) * 2 ^ t = m * 2 ^ e := by
  have hvalue := decreaseExponent_eq m e t
  rwa [show (decreaseExponent m e t).2 = t by simp only [decreaseExponent]; omega] at hvalue

variable {u v : UnpackedFloat}

theorem rounds_add (hu : Proper u) (hv : Proper v) :
    Rounds (add Format.binary64 u v) (valueOf u + valueOf v) := by
  obtain ⟨s, rfl⟩ | ⟨s, m, e, hm, rfl⟩ := hu.eq_zero_or_finite <;>
    obtain ⟨t, rfl⟩ | ⟨t, n, f, hn, rfl⟩ := hv.eq_zero_or_finite
  · rw [show valueOf (.zero s) + valueOf (.zero t) = 0 from add_zero 0]
    simp only [add]
    split_ifs
    · exact rounds_zero s
    · exact rounds_zero .positive
  · rw [show valueOf (.zero s) = 0 from rfl, zero_add]
    exact hv.rounds
  · rw [show valueOf (.zero t) = 0 from rfl, add_zero]
    exact hu.rounds
  · have h := rounds_normalize
      (s.apply (decreaseExponent m e (min e f)).1 + t.apply (decreaseExponent n f (min e f)).1)
      (min e f) .positive
    push_cast [cast_apply] at h
    rw [add_mul, mul_assoc, mul_assoc, decreaseExponent_of_le m (min_le_left e f),
      decreaseExponent_of_le n (min_le_right e f)] at h
    exact h

theorem rounds_sub (hu : Proper u) (hv : Proper v) :
    Rounds (sub Format.binary64 u v) (valueOf u - valueOf v) := by
  rw [sub_eq_add, sub_eq_add_neg, ← valueOf_neg]
  exact rounds_add hu hv.neg

/-! ## Products -/

theorem rounds_mul (hu : Proper u) (hv : Proper v) :
    Rounds (mul Format.binary64 u v) (valueOf u * valueOf v) := by
  obtain ⟨s, rfl⟩ | ⟨s, m, e, hm, rfl⟩ := hu.eq_zero_or_finite
  · rw [show valueOf (.zero s) = 0 from rfl, zero_mul]
    obtain ⟨t, rfl⟩ | ⟨t, n, f, hn, rfl⟩ := hv.eq_zero_or_finite <;> exact rounds_zero _
  obtain ⟨t, rfl⟩ | ⟨t, n, f, hn, rfl⟩ := hv.eq_zero_or_finite
  · rw [show valueOf (.zero t) = 0 from rfl, mul_zero]
    exact rounds_zero _
  obtain ⟨-, -, hm'⟩ := hu.canonical
  obtain ⟨-, -, hn'⟩ := hv.canonical
  -- Only two subnormal factors have a short product, and its exponent is below the least one.
  have hlong : 2 ^ 52 ≤ m * n ∨ e + f ≤ -1074 := by
    rcases hm' with hm' | hm'
    · exact .inl (hm'.trans (Nat.le_mul_of_pos_right m hn))
    · rcases hn' with hn' | hn'
      · exact .inl (hn'.trans (Nat.le_mul_of_pos_left n hm))
      · exact .inr (by omega)
  have hvalue : valueOf (.finite s m e hm) * valueOf (.finite t n f hn) =
      signum (s * t) * ((m * n : ℕ) * 2 ^ (e + f)) := by
    rw [signum_mul, zpow_add₀ two_ne_zero, Nat.cast_mul]
    simp only [valueOf]
    ring
  rw [hvalue]
  exact rounds_roundWithAccuracy_exact (s * t) hlong

/-! ## Quotients -/

/-- A remainder locates the exact quotient. -/
theorem Tracks.fraction (q : ℕ) {num den : ℕ} (h : num < den) :
    Tracks (.ofMantissaAndAccuracy q (accuracyOfFraction num den)) (q + num / den) := by
  have hden : (0 : ℚ) < den := by exact_mod_cast (Nat.zero_le num).trans_lt h
  unfold accuracyOfFraction
  split_ifs with hzero
  · subst hzero
    simpa using Tracks.exact q
  have hpos : (0 : ℚ) < num / den := by positivity
  have hone : (num : ℚ) / den < 1 := (div_lt_one hden).mpr (by exact_mod_cast h)
  rcases lt_trichotomy (2 * num) den with hhalf | hhalf | hhalf
  · rw [Nat.compare_eq_lt.mpr hhalf]
    have hhalf' : (num : ℚ) / den < 1 / 2 := by
      rw [div_lt_div_iff₀ hden two_pos]
      exact_mod_cast (by omega : num * 2 < 1 * den)
    constructor <;> simp [ExtendedMantissa.ofMantissaAndAccuracy, truncated] <;> grind
  · rw [Nat.compare_eq_eq.mpr hhalf]
    have hhalf' : (num : ℚ) / den = 1 / 2 := by
      rw [div_eq_div_iff hden.ne' two_ne_zero]
      exact_mod_cast (by omega : num * 2 = 1 * den)
    constructor <;> simp [ExtendedMantissa.ofMantissaAndAccuracy, truncated, hhalf']
  · rw [Nat.compare_eq_gt.mpr hhalf]
    have hhalf' : 1 / 2 < (num : ℚ) / den := by
      rw [div_lt_div_iff₀ two_pos hden]
      exact_mod_cast (by omega : 1 * den < num * 2)
    constructor <;> simp [ExtendedMantissa.ofMantissaAndAccuracy, truncated] <;> grind

/-- Significands of any length are divided. -/
theorem rounds_div_finite (s t : Sign) {m n : ℕ} (e f : ℤ) (hm : 0 < m) (hn : 0 < n) :
    Rounds (div Format.binary64 (.finite s m e hm) (.finite t n f hn))
      (valueOf (.finite s m e hm) / valueOf (.finite t n f hn)) := by
  set c := min (e - f) (Format.binary64.targetExponent (totalExponent m e - totalExponent n f))
    with hc
  obtain ⟨k, hk⟩ : ∃ k : ℕ, e - f - c = k := ⟨(e - f - c).toNat, by omega⟩
  have hcore : divCore Format.binary64 m e n f =
      (m * 2 ^ k / n, c, accuracyOfFraction (m * 2 ^ k % n) n) := by
    simp only [divCore, ← hc, hk, Int.toNat_natCast, Nat.shiftLeft_eq]
  have hlong : 2 ^ 52 ≤ m * 2 ^ k / n ∨ c ≤ -1074 := by
    have htarget : Format.binary64.targetExponent (totalExponent m e - totalExponent n f) =
        max (m.log2 + e - (n.log2 + f) - 53) (-1074) := by
      change max ((m.log2 : ℤ) + 1 + e - (n.log2 + 1 + f) - 53) (-1074) = _
      congr 1
      ring
    by_cases hleast : c ≤ -1074
    · exact .inr hleast
    left
    rw [Nat.le_div_iff_mul_le hn]
    calc 2 ^ 52 * n ≤ 2 ^ 52 * 2 ^ (n.log2 + 1) := Nat.mul_le_mul_left _ Nat.lt_log2_self.le
      _ = 2 ^ (52 + (n.log2 + 1)) := (pow_add ..).symm
      _ ≤ 2 ^ (m.log2 + k) := Nat.pow_le_pow_right two_pos (by omega)
      _ = 2 ^ m.log2 * 2 ^ k := pow_add ..
      _ ≤ m * 2 ^ k := Nat.mul_le_mul_right _ (Nat.log2_self_le hm.ne')
  have hquotient : ((m * 2 ^ k / n : ℕ) : ℚ) + (m * 2 ^ k % n : ℕ) / n = m * 2 ^ k / n := by
    have hn' : (n : ℚ) ≠ 0 := by exact_mod_cast hn.ne'
    have hdiv : ((n * (m * 2 ^ k / n) + m * 2 ^ k % n : ℕ) : ℚ) = m * 2 ^ k := by
      rw [Nat.div_add_mod]
      push_cast
      rfl
    push_cast at hdiv
    field_simp
    linarith
  have hvalue : valueOf (.finite s m e hm) / valueOf (.finite t n f hn) =
      signum (s / t) * (m * 2 ^ k / n * 2 ^ c) := by
    have hpow : (2 : ℚ) ^ e = 2 ^ k * 2 ^ c * 2 ^ f := by
      rw [two_pow_mul_zpow, ← zpow_add₀ two_ne_zero]
      congr 1
      omega
    have hsign := signum_ne_zero t
    simp only [valueOf, signum_div, hpow]
    field_simp
  have h := rounds_roundWithAccuracy (s / t) (.fraction _ (Nat.mod_lt (m * 2 ^ k) hn)) hlong
  rw [hquotient, ← hvalue] at h
  simpa only [div, hcore] using h

theorem rounds_div (hu : Proper u) (hv : Proper v) (hne : valueOf v ≠ 0) :
    Rounds (div Format.binary64 u v) (valueOf u / valueOf v) := by
  obtain ⟨t, rfl⟩ | ⟨t, n, f, hn, rfl⟩ := hv.eq_zero_or_finite
  · exact absurd rfl hne
  obtain ⟨s, rfl⟩ | ⟨s, m, e, hm, rfl⟩ := hu.eq_zero_or_finite
  · rw [show valueOf (.zero s) = 0 from rfl, zero_div]
    exact rounds_zero _
  · exact rounds_div_finite s t e f hm hn

/-! ## Order -/

/-- A greater exponent belongs to a greater magnitude. -/
theorem magnitude_lt {m n : ℕ} {e f : ℤ} (hm : m < 2 ^ 53) (hn : 2 ^ 52 ≤ n) (h : e < f) :
    (m : ℚ) * 2 ^ e < n * 2 ^ f := by
  have hm' : (m : ℚ) < 2 ^ 53 := by exact_mod_cast hm
  have hn' : (2 : ℚ) ^ 52 ≤ n := by exact_mod_cast hn
  calc (m : ℚ) * 2 ^ e < 2 ^ 53 * 2 ^ e := by gcongr
    _ = 2 ^ (53 + e) := two_pow_mul_zpow 53 e
    _ ≤ 2 ^ (52 + f) := zpow_le_zpow_right₀ one_le_two (by omega)
    _ = 2 ^ 52 * 2 ^ f := (two_pow_mul_zpow 52 f).symm
    _ ≤ n * 2 ^ f := by gcongr

theorem compare_magnitude {s t : Sign} {m n : ℕ} {e f : ℤ} {hm : 0 < m} {hn : 0 < n}
    (hu : Canonical (.finite s m e hm)) (hv : Canonical (.finite t n f hn)) :
    (compare e f).then (compare m n) = compare ((m : ℚ) * 2 ^ e) (n * 2 ^ f) := by
  obtain ⟨hm53, he, hm52⟩ := hu
  obtain ⟨hn53, hf, hn52⟩ := hv
  rcases lt_trichotomy e f with hef | rfl | hef
  · have hlt := magnitude_lt hm53 (hn52.resolve_right (by omega)) hef
    rw [compare_lt_iff_lt.mpr hef, compare_lt_iff_lt.mpr hlt]
    rfl
  · have hunit : (0 : ℚ) < 2 ^ e := by positivity
    rw [compare_eq_iff_eq.mpr rfl]
    change compare m n = _
    rcases lt_trichotomy m n with hmn | rfl | hmn
    · have hlt : (m : ℚ) * 2 ^ e < n * 2 ^ e := by gcongr
      rw [compare_lt_iff_lt.mpr hmn, compare_lt_iff_lt.mpr hlt]
    · rw [compare_eq_iff_eq.mpr rfl, compare_eq_iff_eq.mpr rfl]
    · have hlt : (n : ℚ) * 2 ^ e < m * 2 ^ e := by gcongr
      rw [compare_gt_iff_gt.mpr hmn, compare_gt_iff_gt.mpr hlt]
  · have hlt := magnitude_lt hn53 (hm52.resolve_right (by omega)) hef
    rw [compare_gt_iff_gt.mpr hef, compare_gt_iff_gt.mpr hlt]
    rfl

theorem compare_neg_neg (a b : ℚ) : compare (-a) (-b) = (compare a b).swap := by
  rcases lt_trichotomy a b with h | rfl | h
  · rw [compare_lt_iff_lt.mpr h, compare_gt_iff_gt.mpr (neg_lt_neg h)]
    rfl
  · rw [compare_eq_iff_eq.mpr rfl, compare_eq_iff_eq.mpr rfl]
    rfl
  · rw [compare_gt_iff_gt.mpr h, compare_lt_iff_lt.mpr (neg_lt_neg h)]
    rfl

/-- The order of fields is the order of the numbers they stand for. -/
theorem compare_eq (hu : Proper u) (hv : Proper v) :
    u.compare v = some (compare (valueOf u) (valueOf v)) := by
  obtain ⟨s, rfl⟩ | ⟨s, m, e, hm, rfl⟩ := hu.eq_zero_or_finite <;>
    obtain ⟨t, rfl⟩ | ⟨t, n, f, hn, rfl⟩ := hv.eq_zero_or_finite
  · exact congrArg some (compare_eq_iff_eq.mpr rfl).symm
  · have hpos : (0 : ℚ) < n * 2 ^ f := by positivity
    cases t with
    | negative =>
      exact congrArg some (compare_gt_iff_gt.mpr (by simpa [valueOf, signum] using hpos)).symm
    | positive =>
      exact congrArg some (compare_lt_iff_lt.mpr (by simpa [valueOf, signum] using hpos)).symm
  · have hpos : (0 : ℚ) < m * 2 ^ e := by positivity
    cases s with
    | negative =>
      exact congrArg some (compare_lt_iff_lt.mpr (by simpa [valueOf, signum] using hpos)).symm
    | positive =>
      exact congrArg some (compare_gt_iff_gt.mpr (by simpa [valueOf, signum] using hpos)).symm
  · have hposm : (0 : ℚ) < m * 2 ^ e := by positivity
    have hposn : (0 : ℚ) < n * 2 ^ f := by positivity
    cases s <;> cases t
    · change some ((compare e f).then (compare m n)).swap = _
      rw [compare_magnitude hu.canonical hv.canonical, ← compare_neg_neg]
      simp [valueOf, signum]
    · exact congrArg some (compare_lt_iff_lt.mpr (by simp [valueOf, signum]; linarith)).symm
    · exact congrArg some (compare_gt_iff_gt.mpr (by simp [valueOf, signum]; linarith)).symm
    · change some ((compare e f).then (compare m n)) = _
      rw [compare_magnitude hu.canonical hv.canonical]
      simp [valueOf, signum]

end SensorBar.Double
