import SensorBar.Proofs.Double.Fields
import SensorBar.Proofs.Double.Nearest

/-! # Rounding to the nearest double

A significand that has lost its last places is kept with a round bit and a sticky bit.  These locate
the exact number to within half a unit of the last place, which is all that the choice of a nearest
representable number depends on.
-/

namespace SensorBar.Double

open Float.Model (Format UnpackedFloat totalExponent)
open Float.Model.UnpackedFloat

/-! ## Truncated significands -/

/-- A truncated significand with its round bit, in units of the last place. -/
def truncated (em : ExtendedMantissa) : ℚ :=
  em.mantissa + if em.roundBit then 1 / 2 else 0

theorem truncated_le (em : ExtendedMantissa) : truncated em ≤ em.mantissa + 1 / 2 := by
  unfold truncated
  split_ifs <;> linarith

theorem le_truncated (em : ExtendedMantissa) : em.mantissa ≤ truncated em := by
  unfold truncated
  split_ifs <;> linarith

theorem truncated_shiftRightOne (em : ExtendedMantissa) :
    truncated em.shiftRightOne = em.mantissa / 2 := by
  have hdiv : ((2 * (em.mantissa / 2) + em.mantissa % 2 : ℕ) : ℚ) = em.mantissa := by
    rw [Nat.div_add_mod]
  push_cast at hdiv
  unfold truncated ExtendedMantissa.shiftRightOne
  rcases Nat.mod_two_eq_zero_or_one em.mantissa with h | h <;> rw [h] at hdiv ⊢ <;>
    norm_num at hdiv ⊢ <;> linarith

/-- Where in its unit a number lies whose significand is truncated to `em`. -/
structure Tracks (em : ExtendedMantissa) (x : ℚ) : Prop where
  lower : truncated em ≤ x
  upper : x < truncated em + 1 / 2
  exact_iff : em.stickyBit = false ↔ x = truncated em

namespace Tracks

variable {em : ExtendedMantissa} {x : ℚ}

theorem lt_succ (h : Tracks em x) : x < em.mantissa + 1 := by
  linarith [h.upper, truncated_le em]

theorem le (h : Tracks em x) : em.mantissa ≤ x :=
  (le_truncated em).trans h.lower

theorem exact (m : ℕ) : Tracks (.ofMantissaAndAccuracy m .exact) m := by
  constructor <;> simp [ExtendedMantissa.ofMantissaAndAccuracy, truncated]

theorem shiftRightOne (h : Tracks em x) : Tracks em.shiftRightOne (x / 2) := by
  constructor
  · rw [truncated_shiftRightOne]
    linarith [h.le]
  · rw [truncated_shiftRightOne]
    linarith [h.lt_succ]
  · rw [truncated_shiftRightOne, div_left_inj' two_ne_zero]
    change (em.roundBit || em.stickyBit) = false ↔ _
    rw [Bool.or_eq_false_iff, h.exact_iff]
    have hlower := h.lower
    unfold truncated at hlower ⊢
    cases hround : em.roundBit
    · simp
    · simp only [hround, if_true] at hlower ⊢
      constructor
      · rintro ⟨hfalse, -⟩
        cases hfalse
      · intro hx
        linarith

theorem shiftRight (h : Tracks em x) (k : ℕ) : Tracks (em >>> k) (x / 2 ^ k) := by
  change Tracks (k.repeat ExtendedMantissa.shiftRightOne em) _
  induction k with
  | zero => simpa [Nat.repeat] using h
  | succ k ih =>
    rw [pow_succ, ← div_div]
    exact ih.shiftRightOne

/-- The bits suffice to round to a nearest whole number. -/
theorem roundedMantissa (h : Tracks em x) : |(em.roundedMantissa : ℚ) - x| ≤ 1 / 2 := by
  obtain ⟨m, r, s⟩ := em
  obtain ⟨hlower, hupper, hexact⟩ := h
  rw [abs_le]
  cases r <;> cases s <;>
    simp only [truncated, Bool.false_eq_true, if_false, if_true, true_iff,
      ExtendedMantissa.roundedMantissa, ExtendedMantissa.accuracy,
      Accuracy.roundToNearestEven] at *
  · constructor <;> linarith
  · constructor <;> linarith
  · -- On a tie the significand is kept or increased by one.
    have hmod : ((m % 2 : ℕ) : ℚ) ≤ 1 := by exact_mod_cast Nat.lt_succ_iff.mp (Nat.mod_lt m two_pos)
    push_cast
    constructor <;> linarith [Nat.cast_nonneg (α := ℚ) (m % 2)]
  · push_cast
    constructor <;> linarith

end Tracks

/-! ## Values -/

/-- The sign of a number as a factor. -/
def signum : Sign → ℚ
  | .negative => -1
  | .positive => 1

theorem cast_apply (s : Sign) (n : ℤ) : ((s.apply n : ℤ) : ℚ) = signum s * n := by
  cases s <;> simp [Sign.apply, signum]

theorem Nearest.signum_mul {z y : ℚ} (h : Nearest z y) (s : Sign) :
    Nearest (signum s * z) (signum s * y) := by
  cases s with
  | negative => simpa [signum] using h.neg
  | positive => simpa [signum] using h

/-- The number that finite fields stand for. -/
def valueOf : UnpackedFloat → ℚ
  | .finite s m e _ => signum s * (m * 2 ^ e)
  | _ => 0

/-- The result of rounding `y`, before it is packed. -/
structure Rounds (u : UnpackedFloat) (y : ℚ) : Prop where
  finite : u.isFinite
  canonical : Canonical u
  nearest : Nearest (valueOf u) y

/-! ## Rounding a significand -/

theorem targetExponent_eq (m : ℕ) (e : ℤ) :
    Format.binary64.targetExponent (totalExponent m e) = max (m.log2 + e - 52) (-1074) := by
  have hleast : Format.binary64.minExponent = -1074 := rfl
  have hbits : Format.binary64.mantissaBits = 53 := rfl
  unfold Format.targetExponent totalExponent
  rw [hleast, hbits]
  congr 1
  push_cast
  ring

@[simp]
theorem mantissa_ofMantissaAndAccuracy (m : ℕ) (acc : Accuracy) :
    (ExtendedMantissa.ofMantissaAndAccuracy m acc).mantissa = m := by
  cases acc with
  | exact => rfl
  | inexact half => cases half <;> rfl

variable {m : ℕ} {e : ℤ} {acc : Accuracy} {x : ℚ}

/-- A significand that is long enough is shifted to the unit that belongs to its size. -/
theorem exists_shiftToTargetExponent (h : Tracks (.ofMantissaAndAccuracy m acc) x)
    (hlong : 2 ^ 52 ≤ m ∨ e ≤ -1074) :
    ∃ k : ℕ, shiftToTargetExponent Format.binary64 m e acc =
        (ExtendedMantissa.ofMantissaAndAccuracy m acc >>> k, e + k) ∧
      -1074 ≤ e + k ∧ x / 2 ^ k < 2 ^ 53 ∧ (2 ^ 52 ≤ x / 2 ^ k ∨ e + k = -1074) := by
  have hlog : 2 ^ 52 ≤ m → 52 ≤ m.log2 := fun hm => (Nat.le_log2 (by omega)).mpr hm
  have htarget := targetExponent_eq m e
  refine ⟨(Format.binary64.targetExponent (totalExponent m e) - e).toNat, rfl, by omega, ?_, ?_⟩
  all_goals
    rw [htarget]
    generalize hk : (max ((m.log2 : ℤ) + e - 52) (-1074) - e).toNat = k
    have hpow : (0 : ℚ) < 2 ^ k := by positivity
  · rw [div_lt_iff₀ hpow]
    have hupper := h.lt_succ
    rw [mantissa_ofMantissaAndAccuracy] at hupper
    have hm : m + 1 ≤ 2 ^ 53 * 2 ^ k := by
      rw [← pow_add]
      exact (Nat.lt_log2_self (n := m)).trans_le (Nat.pow_le_pow_right two_pos (by omega))
    have hm' : (m : ℚ) + 1 ≤ 2 ^ 53 * 2 ^ k := by exact_mod_cast hm
    linarith
  · by_cases hleast : e + k = -1074
    · exact .inr hleast
    left
    rw [le_div_iff₀ hpow]
    have hlower := h.le
    rw [mantissa_ofMantissaAndAccuracy] at hlower
    have hm0 : m ≠ 0 := by
      rintro rfl
      rw [Nat.log2_zero] at hk
      omega
    have hm : 2 ^ 52 * 2 ^ k ≤ m := by
      rw [← pow_add]
      exact (Nat.pow_le_pow_right two_pos (by omega)).trans (Nat.log2_self_le hm0)
    have hm' : (2 : ℚ) ^ 52 * 2 ^ k ≤ m := by exact_mod_cast hm
    linarith

/-- Rounding may carry into a further bit, which one more shift takes back. -/
theorem shiftToTargetExponent_rounded {r : ℕ} {t : ℤ} (hr : r ≤ 2 ^ 53) (ht : -1074 ≤ t)
    (hfull : 2 ^ 52 ≤ r ∨ t = -1074) :
    ∃ em t', shiftToTargetExponent Format.binary64 r t .exact = (em, t') ∧
      (em.mantissa : ℚ) * 2 ^ t' = r * 2 ^ t ∧
      em.mantissa < 2 ^ 53 ∧ -1074 ≤ t' ∧ (2 ^ 52 ≤ em.mantissa ∨ t' = -1074) := by
  have htarget := targetExponent_eq r t
  rcases hr.lt_or_eq with hlt | rfl
  · have hlog : r.log2 ≤ 52 := by
      by_cases h : r = 0
      · simp [h]
      · exact Nat.lt_succ_iff.mp ((Nat.log2_lt h).mpr hlt)
    have hshift : (Format.binary64.targetExponent (totalExponent r t) - t).toNat = 0 := by omega
    refine ⟨⟨r, false, false⟩, t, ?_, rfl, hlt, ht, hfull⟩
    simp only [shiftToTargetExponent, shiftToExponent, hshift, Nat.cast_zero, add_zero]
    rfl
  · rw [Nat.log2_two_pow] at htarget
    have hshift : (Format.binary64.targetExponent (totalExponent (2 ^ 53) t) - t).toNat = 1 := by
      omega
    refine ⟨⟨2 ^ 52, false, false⟩, t + 1, ?_, ?_, by norm_num, by omega, .inl le_rfl⟩
    · simp only [shiftToTargetExponent, shiftToExponent, hshift]
      rfl
    · rw [zpow_add_one₀ two_ne_zero]
      push_cast
      ring

theorem rounds_roundWithAccuracy (s : Sign) (h : Tracks (.ofMantissaAndAccuracy m acc) x)
    (hlong : 2 ^ 52 ≤ m ∨ e ≤ -1074) :
    Rounds (roundWithAccuracy Format.binary64 s m e acc) (signum s * (x * 2 ^ e)) := by
  obtain ⟨k, hshift, hleast, hlt, hfull⟩ := exists_shiftToTargetExponent h hlong
  have htracks := (h.shiftRight k).roundedMantissa
  have hexact : x * 2 ^ e = x / 2 ^ k * 2 ^ (e + k) := by
    rw [add_comm e, ← two_pow_mul_zpow]
    field_simp
  set r := (ExtendedMantissa.ofMantissaAndAccuracy m acc >>> k).roundedMantissa with hr
  obtain ⟨hnear, hnear'⟩ := abs_le.mp htracks
  have hbound : r ≤ 2 ^ 53 := by
    have : (r : ℚ) < 2 ^ 53 + 1 := by linarith
    exact Nat.lt_succ_iff.mp (by exact_mod_cast this)
  have hfull' : 2 ^ 52 ≤ r ∨ e + k = -1074 := hfull.imp_left fun hx => by
    have : (2 : ℚ) ^ 52 < r + 1 := by linarith
    exact Nat.lt_succ_iff.mp (by exact_mod_cast this)
  obtain ⟨em, t, hcarry, hvalue, hmant', hleast', hfull''⟩ :=
    shiftToTargetExponent_rounded hbound hleast hfull'
  have hnearest : Nearest (em.mantissa * 2 ^ t) (x * 2 ^ e) := by
    rw [hvalue, hexact]
    exact nearest_of_unit htracks hbound hleast hfull
  unfold roundWithAccuracy
  simp only [hshift, ← hr, hcarry]
  split_ifs with hzero
  · refine ⟨rfl, trivial, ?_⟩
    rw [hzero, Nat.cast_zero, zero_mul] at hnearest
    simpa [valueOf] using hnearest.signum_mul s
  · exact ⟨rfl, ⟨hmant', hleast', hfull''⟩, hnearest.signum_mul s⟩

theorem rounds_roundWithAccuracy_exact (s : Sign) (hlong : 2 ^ 52 ≤ m ∨ e ≤ -1074) :
    Rounds (roundWithAccuracy Format.binary64 s m e .exact) (signum s * (m * 2 ^ e)) :=
  rounds_roundWithAccuracy s (.exact m) hlong

/-! ## Rounding a number that may be short -/

theorem decreaseExponent_eq (m : ℕ) (e t : ℤ) :
    ((decreaseExponent m e t).1 : ℚ) * 2 ^ (decreaseExponent m e t).2 = m * 2 ^ e := by
  simp only [decreaseExponent, Nat.shiftLeft_eq, Nat.cast_mul, Nat.cast_pow, Nat.cast_ofNat]
  rw [mul_assoc, two_pow_mul_zpow]
  congr 2
  omega

theorem rounds_round (s : Sign) (hm : m ≠ 0) :
    Rounds (UnpackedFloat.round Format.binary64 s m e) (signum s * (m * 2 ^ e)) := by
  have htarget := targetExponent_eq m e
  set t := Format.binary64.targetExponent (totalExponent m e) with ht
  have hlong : 2 ^ 52 ≤ (decreaseExponent m e t).1 ∨ (decreaseExponent m e t).2 ≤ -1074 := by
    simp only [decreaseExponent, Nat.shiftLeft_eq]
    by_cases hleast : e - (e - t).toNat ≤ -1074
    · exact .inr hleast
    · left
      calc 2 ^ 52 ≤ 2 ^ (m.log2 + (e - t).toNat) := Nat.pow_le_pow_right two_pos (by omega)
        _ = 2 ^ m.log2 * 2 ^ (e - t).toNat := pow_add ..
        _ ≤ m * 2 ^ (e - t).toNat := Nat.mul_le_mul_right _ (Nat.log2_self_le hm)
  have h := rounds_roundWithAccuracy_exact s hlong
  rwa [decreaseExponent_eq] at h

theorem rounds_normalize (n e : ℤ) (s : Sign) :
    Rounds (Float.Model.UnpackedFloat.normalize Format.binary64 n e s) (n * 2 ^ e) := by
  unfold Float.Model.UnpackedFloat.normalize
  rcases lt_trichotomy n 0 with hn | rfl | hn
  · rw [Int.compare_eq_lt.mpr hn]
    have h := rounds_round (e := e) .negative (m := (-n).toNat) (by omega)
    have hcast : (((-n).toNat : ℕ) : ℚ) = -n := by exact_mod_cast Int.toNat_of_nonneg (by omega)
    rw [hcast] at h
    simpa [signum] using h
  · rw [Int.compare_eq_eq.mpr rfl]
    exact ⟨rfl, trivial, by simpa [valueOf] using Nearest.of_representable .zero⟩
  · rw [Int.compare_eq_gt.mpr hn]
    have h := rounds_round (e := e) .positive (m := n.toNat) (by omega)
    have hcast : ((n.toNat : ℕ) : ℚ) = n := by exact_mod_cast Int.toNat_of_nonneg (by omega)
    rw [hcast] at h
    simpa [signum] using h

end SensorBar.Double
