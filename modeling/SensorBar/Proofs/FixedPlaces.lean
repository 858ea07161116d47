import SensorBar.Decimal.Fixed
import SensorBar.Proofs.Double.Decimals
import SensorBar.Proofs.Double.Decoded
import SensorBar.Proofs.Numerals

/-! # Decimals with a fixed number of places

A finite double is written as the decimal of so many places that is nearest to its exact value.
Rounding may carry over into the digits before the point, which is why it comes before the digits
are divided there.
-/

namespace SensorBar.Decimal

/-! ## Rounding -/

/-- Rounding to a whole number is off by half at most. -/
theorem abs_roundHalfEven_sub_le (num : ℕ) {den : ℕ} (hden : 0 < den) :
    |(roundHalfEven num den : ℚ) - num / den| ≤ 1 / 2 := by
  have hdiv := Nat.div_add_mod num den
  have hmod := Nat.mod_lt num hden
  have hround : 2 * (roundHalfEven num den * den) ≤ 2 * num + den ∧
      2 * num ≤ 2 * (roundHalfEven num den * den) + den := by
    have hsucc : (num / den + 1) * den = den * (num / den) + den := by ring
    have hquot : num / den * den = den * (num / den) := Nat.mul_comm _ _
    unfold roundHalfEven
    dsimp only
    split_ifs <;> simp only [hsucc, hquot] <;> omega
  have hden' : (0 : ℚ) < den := by exact_mod_cast hden
  obtain ⟨hupper, hlower⟩ := hround
  have hupper' : 2 * ((roundHalfEven num den : ℚ) * den) ≤ 2 * num + den := by exact_mod_cast hupper
  have hlower' : 2 * (num : ℚ) ≤ 2 * (roundHalfEven num den * den) + den := by exact_mod_cast hlower
  rw [abs_le, le_sub_iff_add_le, sub_le_iff_le_add]
  constructor
  · rw [← le_sub_iff_add_le', div_le_iff₀ hden']
    linarith
  · rw [← sub_le_iff_le_add', le_div_iff₀ hden']
    linarith

/-- A magnitude in units of the last place. -/
theorem abs_scaled_sub_le (places m : ℕ) (e : ℤ) :
    |(scaled places m e : ℚ) - m * 2 ^ e * 10 ^ places| ≤ 1 / 2 := by
  unfold scaled
  split_ifs with he
  · obtain ⟨k, rfl⟩ := Int.eq_ofNat_of_zero_le he
    simp
  · obtain ⟨k, rfl⟩ : ∃ k : ℕ, e = -k := ⟨(-e).toNat, by omega⟩
    have h := abs_roundHalfEven_sub_le (m * 10 ^ places) (Nat.two_pow_pos k)
    have hexact : ((m * 10 ^ places : ℕ) : ℚ) / (2 ^ k : ℕ) = m * 2 ^ (-k : ℤ) * 10 ^ places := by
      rw [zpow_neg, zpow_natCast]
      push_cast
      ring
    rw [hexact] at h
    simpa using h

/-! ## Digits -/

theorem digits_toDigits (n : ℕ) : Digits (Nat.toDigits 10 n) :=
  ⟨Nat.toDigits_ne_nil, fun _ hc => Nat.isDigit_of_mem_toDigits (by decide) (by decide) hc⟩

theorem digits_padded (width n : ℕ) : Digits (padded width n) := by
  refine ⟨List.append_ne_nil_of_right_ne_nil _ Nat.toDigits_ne_nil, ?_⟩
  refine List.forall_mem_append.mpr ⟨fun c hc => ?_, (digits_toDigits n).2⟩
  rw [List.eq_of_mem_replicate hc]
  rfl

theorem length_padded {width n : ℕ} (hwidth : 0 < width) (h : n < 10 ^ width) :
    (padded width n).length = width := by
  have hle := (Nat.length_toDigits_le_iff (b := 10) (by decide) hwidth).mpr h
  rw [padded, List.length_append, List.length_replicate]
  omega

theorem ofDigitChars_padded (width n init : ℕ) :
    Nat.ofDigitChars 10 (padded width n) init = 10 ^ (padded width n).length * init + n := by
  rw [Nat.ofDigitChars_eq_ofDigitChars_zero, padded, Nat.ofDigitChars_append,
    Nat.ofDigitChars_replicate_zero, Nat.mul_zero, Nat.ofDigitChars_ten_toDigits]

/-! ## Written decimals -/

/-- Text of a decimal with so many places. -/
def SpelledTo (places : ℕ) (text : List Char) (d : Decimal) : Prop :=
  ∃ sign whole fraction, Sign sign d.negative ∧ Digits whole ∧ Digits fraction ∧
    fraction.length = places ∧ text = sign ++ (whole ++ '.' :: fraction) ∧
    d.coefficient = Nat.ofDigitChars 10 (whole ++ fraction) 0 ∧ d.exponent = -places

namespace FixedFormat

variable (f : FixedFormat)

theorem exists_magnitude (hplaces : 0 < f.places) (units : ℕ) :
    ∃ whole fraction, f.magnitude units = whole ++ '.' :: fraction ∧ Digits whole ∧
      Digits fraction ∧ fraction.length = f.places ∧
      Nat.ofDigitChars 10 (whole ++ fraction) 0 = units := by
  have hlength : (padded f.places (units % Nat.pow 10 f.places)).length = f.places :=
    length_padded hplaces (Nat.mod_lt units (Nat.pow_pos (by decide)))
  refine ⟨_, _, rfl, digits_toDigits _, digits_padded _ _, hlength, ?_⟩
  rw [Nat.ofDigitChars_append, Nat.ofDigitChars_ten_toDigits, ofDigitChars_padded, hlength]
  exact Nat.div_add_mod ..

/-- The decimal is within half a unit of its last place. -/
theorem exists_spelled (hplaces : 0 < f.places) (negative : Bool) (m : ℕ) (e : ℤ) :
    ∃ d, SpelledTo f.places (f.writeExact (.finite negative m e)) d ∧
      |d.value - Double.exactValue (.finite negative m e)| ≤ 1 / 2 / 10 ^ f.places := by
  obtain ⟨whole, fraction, htext, hwhole, hfraction, hlength, hunits⟩ :=
    f.exists_magnitude hplaces (scaled f.places m e)
  refine ⟨⟨negative, scaled f.places m e, -f.places⟩,
    ⟨sign negative, whole, fraction, ?_, hwhole, hfraction, hlength, ?_, hunits.symm, rfl⟩, ?_⟩
  · cases negative
    · exact .absent
    · exact .minus
  · rw [writeExact, htext]
  · have hpow : (0 : ℚ) < 10 ^ f.places := by positivity
    have hscaled := abs_scaled_sub_le f.places m e
    have hsign : ∀ x : ℚ, |(if negative then -1 else 1) * x| = |x| := fun x => by
      cases negative <;> simp
    rw [value, Double.exactValue, ← mul_sub, hsign, le_div_iff₀ hpow, ← abs_of_pos hpow, ← abs_mul,
      sub_mul, zpow_neg, zpow_natCast, mul_assoc, inv_mul_cancel₀ hpow.ne', mul_one]
    exact hscaled

/-- Text of a double with so many places. -/
structure Writes (text : List Char) (x : Float) : Prop where
  nan : x.isNaN → text = f.nan.toList
  infinite : ¬ x.isNaN → ¬ x.isFinite →
    text = (if x < 0 then ['-'] else []) ++ f.infinity.toList
  finite : x.isFinite → ∃ d, SpelledTo f.places text d ∧
    |d.value - Double.value x| ≤ 1 / 2 / 10 ^ f.places

theorem writes_write (hplaces : 0 < f.places) (x : Float) : f.Writes (f.write x).toList x := by
  rw [write, String.toList_ofList]
  constructor
  · intro h
    rw [Double.ofFloat_of_isNaN h]
    rfl
  · intro hnan hfinite
    obtain ⟨s, hs⟩ := (Double.isFinite_or_infinite hnan).resolve_left hfinite
    rw [Double.ofFloat_eq, hs]
    cases s with
    | negative => rw [if_pos (Double.infinite_lt hs (by decide))]; rfl
    | positive => rw [if_neg (Double.not_lt_of_infinite hs)]; rfl
  · intro h
    obtain ⟨negative, m, e, hx⟩ := Double.exists_ofFloat_eq_finite h
    rw [← Double.exactValue_ofFloat, hx]
    exact f.exists_spelled hplaces negative m e

end FixedFormat

end SensorBar.Decimal
