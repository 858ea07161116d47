import SensorBar.Decimal.Read
import SensorBar.Proofs.Double.Arithmetic

/-! # Decimals as doubles

A decimal is read as the double nearest to it.  Where both its coefficient and its power of ten are
doubles themselves, one product or quotient of them is all; otherwise the same is done with
significands of any length.  Decimals of too many or too few digits are told apart beforehand, and
those are the ones that round to an infinity or to zero.
-/

namespace SensorBar.Double

open Float.Model (Format UnpackedFloat totalExponent)
open Float.Model.UnpackedFloat

theorem RoundedTo.neg {x : Float} {y : ℚ} (h : RoundedTo x y) : RoundedTo (-x) (-y) := by
  obtain ⟨u, hu, hx⟩ := h
  have hproper : Proper u.neg := Proper.neg ⟨hu.finite, hu.canonical⟩
  refine ⟨u.neg, ⟨hproper.finite, hproper.canonical, ?_⟩, ?_⟩
  · rw [valueOf_neg]
    exact hu.nearest.neg
  · rw [fields_neg, hx, capped_neg]

/-! ## Powers of ten -/

theorem isFinite_powerOfTen (k : Fin 23) : (Float.exactlyRepresentablePowersOfTen[k]).isFinite := by
  revert k
  decide

theorem value_powerOfTen (k : Fin 23) :
    value Float.exactlyRepresentablePowersOfTen[k] = 10 ^ k.val := by
  revert k
  decide +kernel

/-- A product or quotient with a power of ten that is a double. -/
theorem ofScientific_roundedTo_of_short {m : ℕ} {e : ℤ} (hm : m < 2 ^ 53) (he : e.natAbs ≤ 22) :
    RoundedTo (Float.ofScientific m (e < 0) e.natAbs) (m * 10 ^ e) := by
  have hshort := toFloat_roundedTo hm
  have hrepresentable : Representable (m : ℚ) := .natCast hm.le
  have hfinite := hshort.isFinite (by
    rw [Nat.abs_cast]
    exact (by exact_mod_cast hm.le : (m : ℚ) ≤ 2 ^ 53).trans (two_pow_le_summit (by omega)))
  have hvalue := (hshort.nearest hfinite).eq_of_representable hrepresentable
  have hpower := isFinite_powerOfTen ⟨e.natAbs, by omega⟩
  have htens := value_powerOfTen ⟨e.natAbs, by omega⟩
  rw [Float.ofScientific, dif_pos ⟨hm, he⟩]
  by_cases hneg : e < 0
  · have hdiv := div_roundedTo hfinite hpower (by rw [htens]; positivity)
    have hexp : (10 : ℚ) ^ e = (10 ^ e.natAbs)⁻¹ := by
      rw [← zpow_natCast, ← zpow_neg]
      congr 1
      omega
    rw [hvalue, htens] at hdiv
    rw [hexp, ← div_eq_mul_inv]
    simpa [hneg] using hdiv
  · have hmul := mul_roundedTo hfinite hpower
    have hexp : (10 : ℚ) ^ e = 10 ^ e.natAbs := by
      rw [← zpow_natCast]
      congr 1
      omega
    rw [hvalue, htens] at hmul
    rw [hexp]
    simpa [hneg] using hmul

/-! ## Significands of any length -/

/-- A product or quotient of whole numbers, before it is packed. -/
def scaled (m : ℕ) (hm : 0 < m) (e : ℤ) : UnpackedFloat :=
  if 0 ≤ e then
    mul Format.binary64
      (.finite .positive (m <<< 53) (-53) (by rw [Nat.shiftLeft_eq]; positivity))
      (.finite .positive (10 ^ e.toNat) 0 (by positivity))
  else
    div Format.binary64 (.finite .positive m 0 hm)
      (.finite .positive (10 ^ (-e).toNat) 0 (by positivity))

theorem rounds_scaled {m : ℕ} (hm : 0 < m) (e : ℤ) : Rounds (scaled m hm e) (m * 10 ^ e) := by
  unfold scaled
  split_ifs with he
  · obtain ⟨n, rfl⟩ := Int.eq_ofNat_of_zero_le he
    have hlong : 2 ^ 52 ≤ m <<< 53 * 10 ^ n := by
      rw [Nat.shiftLeft_eq]
      calc 2 ^ 52 ≤ 2 ^ 53 := Nat.pow_le_pow_right two_pos (by omega)
        _ ≤ m * 2 ^ 53 := Nat.le_mul_of_pos_left _ hm
        _ ≤ m * 2 ^ 53 * 10 ^ n := Nat.le_mul_of_pos_right _ (by positivity)
    have h := rounds_roundWithAccuracy_exact (e := -53 + 0) .positive (.inl hlong)
    have hvalue : signum .positive * ((m <<< 53 * 10 ^ n : ℕ) * 2 ^ (-53 + 0 : ℤ)) =
        m * (10 : ℚ) ^ (n : ℤ) := by
      rw [Nat.shiftLeft_eq, zpow_natCast]
      push_cast [signum]
      ring
    rwa [hvalue] at h
  · obtain ⟨n, rfl⟩ : ∃ n : ℕ, e = -n := ⟨(-e).toNat, by omega⟩
    have h := rounds_div_finite .positive .positive 0 0 hm (n := 10 ^ n) (by positivity)
    have hvalue : valueOf (.finite .positive m 0 hm) /
        valueOf (.finite .positive (10 ^ n) 0 (by positivity)) = m * (10 : ℚ) ^ (-n : ℤ) := by
      simp [valueOf, signum, div_eq_mul_inv]
    rw [hvalue] at h
    simpa using h

theorem ofScientific_eq_scaled {m : ℕ} (hm : 0 < m) {e : ℤ} (hle : e ≤ 2 ^ 11)
    (hge : -(2 ^ 11 + (m.log2 : ℤ)) ≤ e) :
    UnpackedFloat.ofScientific Format.binary64 m e = scaled m hm e := by
  unfold UnpackedFloat.ofScientific
  rw [dif_neg hm.ne', if_neg (not_lt.mpr hle), if_neg (not_lt.mpr hge)]
  rfl

/-! ## Extremes -/

/-- At most half of the least double. -/
theorem rounds_zero_of_le {y : ℚ} (hy : 0 ≤ y) (hle : y ≤ 2 ^ (-1075 : ℤ)) :
    Rounds (.zero .positive) y := by
  refine ⟨rfl, trivial, ?_⟩
  have hunit : (0 : ℚ) < 2 ^ (-1074 : ℤ) := by positivity
  have hhalf : (2 : ℚ) ^ (-1075 : ℤ) = 1 / 2 * 2 ^ (-1074 : ℤ) := by
    rw [show (-1074 : ℤ) = -1075 + 1 by norm_num, zpow_add_one₀ two_ne_zero]
    ring
  have hnear : |((0 : ℕ) : ℚ) - y / 2 ^ (-1074 : ℤ)| ≤ 1 / 2 := by
    rw [Nat.cast_zero, zero_sub, abs_neg, abs_of_nonneg (by positivity), div_le_iff₀ hunit, ← hhalf]
    exact hle
  have h := nearest_of_unit hnear (Nat.zero_le _) le_rfl (.inr rfl)
  rw [div_mul_cancel₀ _ hunit.ne', Nat.cast_zero, zero_mul] at h
  exact h

/-- Past the greatest double by more than its last place. -/
theorem capped_of_le {u : UnpackedFloat} {y : ℚ} (h : Rounds u y) (hle : 2 ^ (1024 : ℤ) ≤ y) :
    capped u = .infinity .positive := by
  have hvalue : 2 ^ (1024 : ℤ) ≤ valueOf u := h.nearest.ge_of_ge (.two_zpow (by omega)) hle
  have hpos : 0 < valueOf u := (show (0 : ℚ) < 2 ^ (1024 : ℤ) by positivity).trans_le hvalue
  obtain ⟨s, rfl⟩ | ⟨s, m, e, hm, rfl⟩ := Proper.eq_zero_or_finite ⟨h.finite, h.canonical⟩
  · exact absurd hpos (lt_irrefl 0)
  cases s with
  | negative =>
    have hmagnitude : (0 : ℚ) < m * 2 ^ e := by positivity
    simp only [valueOf, signum] at hpos
    linarith
  | positive =>
    have hlarge : 971 < e := by
      by_contra! hsmall
      have hm' : (m : ℚ) < 2 ^ 53 := by exact_mod_cast h.canonical.1
      have : (m : ℚ) * 2 ^ e < 2 ^ (1024 : ℤ) := calc
        (m : ℚ) * 2 ^ e < 2 ^ 53 * 2 ^ e := by gcongr
        _ = 2 ^ (53 + e) := two_pow_mul_zpow 53 e
        _ ≤ 2 ^ (1024 : ℤ) := zpow_le_zpow_right₀ one_le_two (by omega)
      simp only [valueOf, signum, one_mul] at hvalue
      linarith
    rw [capped_finite, if_pos hlarge]

end SensorBar.Double

namespace SensorBar.Decimal

open Double (RoundedTo)

/-- The number that a decimal is. -/
def value (d : Decimal) : ℚ :=
  (if d.negative then -1 else 1) * (d.coefficient * 10 ^ d.exponent)

theorem pow_length_toDigits {m : ℕ} (hm : 0 < m) :
    10 ^ ((Nat.toDigits 10 m).length - 1) ≤ m ∧ m < 10 ^ (Nat.toDigits 10 m).length := by
  have hlength := Nat.length_toDigits_pos (b := 10) (n := m)
  refine ⟨?_, (Nat.length_toDigits_le_iff (by decide) hlength).mp le_rfl⟩
  rcases Nat.lt_or_eq_of_le hlength with hlong | hone
  · by_contra! hlt
    have := (Nat.length_toDigits_le_iff (by decide) (by omega)).mpr hlt
    omega
  · rw [← hone]
    exact hm

/-- The magnitude of a decimal with digits, located by their number. -/
theorem magnitude_bounds {m : ℕ} (hm : 0 < m) (e : ℤ) :
    let size : ℤ := (Nat.toDigits 10 m).length
    (10 : ℚ) ^ (size - 1 + e) ≤ m * 10 ^ e ∧ (m : ℚ) * 10 ^ e < 10 ^ (size + e) := by
  intro size
  obtain ⟨hle, hlt⟩ := pow_length_toDigits hm
  have hlength := Nat.length_toDigits_pos (b := 10) (n := m)
  have hle' : (10 : ℚ) ^ (size - 1) ≤ m := by
    rw [show size - 1 = (((Nat.toDigits 10 m).length - 1 : ℕ) : ℤ) by omega, zpow_natCast]
    exact_mod_cast hle
  have hlt' : (m : ℚ) < 10 ^ size := by
    rw [zpow_natCast]
    exact_mod_cast hlt
  have hscale : (0 : ℚ) < 10 ^ e := by positivity
  rw [zpow_add₀ (by norm_num), zpow_add₀ (by norm_num)]
  exact ⟨mul_le_mul_of_nonneg_right hle' hscale.le, mul_lt_mul_of_pos_right hlt' hscale⟩

theorem two_pow_le_ten_pow : (2 : ℚ) ^ (1024 : ℤ) ≤ 10 ^ (309 : ℤ) := by
  exact_mod_cast (by decide +kernel : (2 : ℕ) ^ 1024 ≤ 10 ^ 309)

theorem ten_pow_neg_le_two_pow_neg : (10 : ℚ) ^ (-324 : ℤ) ≤ 2 ^ (-1075 : ℤ) := by
  rw [zpow_neg, zpow_neg, inv_le_inv₀ (by positivity) (by positivity)]
  exact_mod_cast (by decide +kernel : (2 : ℕ) ^ 1075 ≤ 10 ^ 324)

theorem ofScientific_roundedTo {m : ℕ} (hm : 0 < m) {e : ℤ}
    (hlow : -324 < ((Nat.toDigits 10 m).length : ℤ) + e)
    (hhigh : ((Nat.toDigits 10 m).length : ℤ) + e < 310) :
    RoundedTo (Float.ofScientific m (e < 0) e.natAbs) (m * 10 ^ e) := by
  by_cases hshort : m < 2 ^ 53 ∧ e.natAbs ≤ 22
  · exact Double.ofScientific_roundedTo_of_short hshort.1 hshort.2
  have hlength := Nat.length_toDigits_pos (b := 10) (n := m)
  have hlog : (Nat.toDigits 10 m).length ≤ m.log2 + 1 := by
    have hlt : 2 ^ ((Nat.toDigits 10 m).length - 1) < 2 ^ (m.log2 + 1) := calc
      2 ^ ((Nat.toDigits 10 m).length - 1) ≤ 10 ^ ((Nat.toDigits 10 m).length - 1) :=
        Nat.pow_le_pow_left (by omega) _
      _ ≤ m := (pow_length_toDigits hm).1
      _ < 2 ^ (m.log2 + 1) := Nat.lt_log2_self
    have := (Nat.pow_lt_pow_iff_right (by omega)).mp hlt
    omega
  have hexp :
      (if decide (e < 0) = true then Int.negOfNat e.natAbs else Int.ofNat e.natAbs) = e := by
    by_cases hneg : e < 0
    · simp [hneg, Int.negOfNat_eq, abs_of_neg hneg]
    · simp [hneg, abs_of_nonneg (not_lt.mp hneg)]
  rw [Float.ofScientific, dif_neg hshort]
  simp only [hexp]
  refine .of_pack (Double.rounds_scaled hm e) ?_
  rw [← Double.ofScientific_eq_scaled hm (by omega) (by omega)]
  rfl

/-- A decimal is read as a double nearest to it, or as an infinity where it is past the greatest
one. -/
theorem toFloat_roundedTo (d : Decimal) : RoundedTo d.toFloat d.value := by
  obtain ⟨negative, m, e⟩ := d
  set magnitude : Float :=
    if m = 0 ∨ ((Nat.toDigits 10 m).length : ℤ) + e ≤ -324 then 0.0
    else if 310 ≤ ((Nat.toDigits 10 m).length : ℤ) + e then 1.0 / 0.0
    else Float.ofScientific m (e < 0) e.natAbs with hmagnitude
  have hrounded : RoundedTo magnitude (m * 10 ^ e) := by
    rw [hmagnitude]
    split_ifs with hsmall hlarge
    · refine ⟨.zero .positive, Double.rounds_zero_of_le (by positivity) ?_, rfl⟩
      rcases Nat.eq_zero_or_pos m with rfl | hm
      · rw [Nat.cast_zero, zero_mul]
        positivity
      · calc (m : ℚ) * 10 ^ e ≤ 10 ^ (((Nat.toDigits 10 m).length : ℤ) + e) :=
              (magnitude_bounds hm e).2.le
          _ ≤ 10 ^ (-324 : ℤ) := zpow_le_zpow_right₀ (by norm_num) (by omega)
          _ ≤ 2 ^ (-1075 : ℤ) := ten_pow_neg_le_two_pow_neg
    · have hm : 0 < m := by omega
      have hle : (2 : ℚ) ^ (1024 : ℤ) ≤ m * 10 ^ e := calc
        (2 : ℚ) ^ (1024 : ℤ) ≤ 10 ^ (309 : ℤ) := two_pow_le_ten_pow
        _ ≤ 10 ^ (((Nat.toDigits 10 m).length : ℤ) - 1 + e) :=
          zpow_le_zpow_right₀ (by norm_num) (by omega)
        _ ≤ m * 10 ^ e := (magnitude_bounds hm e).1
      exact ⟨_, Double.rounds_scaled hm e,
        (Double.capped_of_le (Double.rounds_scaled hm e) hle).symm⟩
    · exact ofScientific_roundedTo (by omega) (by omega) (by omega)
  cases negative with
  | false => simpa [toFloat, value] using hrounded
  | true => simpa [toFloat, value] using hrounded.neg

end SensorBar.Decimal
