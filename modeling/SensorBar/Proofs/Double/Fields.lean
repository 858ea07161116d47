import Mathlib

/-! # The fields of a double

A double is packed into 64 bits, and every operation unpacks its arguments into sign, significand
and exponent, works on these, and packs the result.  Packing keeps a result that is in canonical
form, except that an exponent above the greatest one becomes an infinity.
-/

namespace SensorBar.Double

open Float.Model (Format UnpackedFloat)
open Float.Model.UnpackedFloat

/-! ## Bits -/

theorem toNat_implicit (m : BitVec 52) : (1#1 ++ m).toNat = 2 ^ 52 + m.toNat := by
  rw [BitVec.toNat_append, ← Nat.shiftLeft_add_eq_or_of_lt m.isLt]
  simp [Nat.shiftLeft_eq]

/-- What three bit fields stand for.  The exponent of all ones marks the values that are not finite,
and the exponent zero the subnormal ones, which lack the implicit leading bit. -/
def decode (s : Sign) (e : BitVec 11) (m : BitVec 52) : UnpackedFloat :=
  if e = -1#11 then if m = 0#52 then .infinity s else .notANumber
  else if e = 0#11 then
    if h : m = 0#52 then .zero s
    else .finite s m.toNat (-1074) (by simpa [BitVec.toNat_pos, BitVec.pos_iff_ne_zero])
  else .finite s (2 ^ 52 + m.toNat) (e.toNat - 1075) (by omega)

theorem unpack_eq_decode (b : BitVec 64) :
    unpack Format.binary64 b =
      decode (.ofBitVec (@unpackSign Format.binary64 b)) (@unpackExponent Format.binary64 b)
        (@unpackMantissa Format.binary64 b) := by
  unfold unpack decode
  dsimp only
  split
  · rfl
  · split
    next h =>
      rw [h]
      rfl
    next =>
      simp only [toNat_implicit]
      rfl

theorem unpack_packComponents (s : Sign) (e : BitVec 11) (m : BitVec 52) :
    unpack Format.binary64 (packComponents Format.binary64 s e m) = decode s e m := by
  rw [unpack_eq_decode]
  simp

theorem decode_normal (s : Sign) {b m : ℕ} (hb : 0 < b) (hb' : b < 2047) (hm : 2 ^ 52 ≤ m)
    (hm' : m < 2 ^ 53) :
    decode s (BitVec.ofNat 11 b) (BitVec.ofNat 52 m) = .finite s m (b - 1075) (by omega) := by
  have hbits : (BitVec.ofNat 11 b).toNat = b := by
    rw [BitVec.toNat_ofNat]
    omega
  have hsignificand : 2 ^ 52 + (BitVec.ofNat 52 m).toNat = m := by
    rw [BitVec.toNat_ofNat]
    omega
  have hlast : BitVec.ofNat 11 b ≠ -1#11 := fun h => by
    have := congrArg BitVec.toNat h
    rw [hbits] at this
    exact hb'.ne this
  have hfirst : BitVec.ofNat 11 b ≠ 0#11 := fun h => by
    have := congrArg BitVec.toNat h
    rw [hbits] at this
    exact hb.ne' this
  simp only [decode, if_neg hlast, if_neg hfirst, hsignificand, hbits]

theorem decode_subnormal (s : Sign) {m : ℕ} (hm : 0 < m) (hm' : m < 2 ^ 52) :
    decode s 0#11 (BitVec.ofNat 52 m) = .finite s m (-1074) hm := by
  have hsignificand : (BitVec.ofNat 52 m).toNat = m := by
    rw [BitVec.toNat_ofNat]
    omega
  have hzero : BitVec.ofNat 52 m ≠ 0#52 := fun h => by
    have := congrArg BitVec.toNat h
    rw [hsignificand] at this
    exact hm.ne' this
  simp only [decode, dif_neg hzero, hsignificand, if_neg (by decide : (0#11) ≠ -1#11), if_pos]

/-! ## Canonical form -/

/-- The significand fits into 53 bits, and fills them unless the exponent is the least one. -/
def Canonical : UnpackedFloat → Prop
  | .finite _ m e _ => m < 2 ^ 53 ∧ -1074 ≤ e ∧ (2 ^ 52 ≤ m ∨ e = -1074)
  | _ => True

/-- An exponent above the greatest one leaves an infinity. -/
def capped : UnpackedFloat → UnpackedFloat
  | .finite s m e h => if 971 < e then .infinity s else .finite s m e h
  | u => u

theorem capped_finite (s : Sign) (m : ℕ) (e : ℤ) (h : 0 < m) :
    capped (.finite s m e h) = if 971 < e then .infinity s else .finite s m e h :=
  rfl

/-! Both depend on the magnitude alone. -/

theorem Canonical.neg {u : UnpackedFloat} (h : Canonical u) : Canonical u.neg := by
  cases u <;> exact h

theorem Canonical.abs {u : UnpackedFloat} (h : Canonical u) : Canonical u.abs := by
  cases u <;> exact h

theorem capped_neg (u : UnpackedFloat) : capped u.neg = (capped u).neg := by
  cases u with
  | finite s m e hm =>
    rw [UnpackedFloat.neg, capped_finite, capped_finite, apply_ite UnpackedFloat.neg]
    rfl
  | _ => rfl

theorem capped_abs (u : UnpackedFloat) : capped u.abs = (capped u).abs := by
  cases u with
  | finite s m e hm =>
    rw [UnpackedFloat.abs, capped_finite, capped_finite, apply_ite UnpackedFloat.abs]
    rfl
  | _ => rfl

theorem canonical_decode (s : Sign) (e : BitVec 11) (m : BitVec 52) :
    Canonical (decode s e m) := by
  have hm := m.isLt
  unfold decode
  split_ifs with hall hm0 hzero hm0
  all_goals try trivial
  · exact ⟨by omega, le_rfl, .inr rfl⟩
  · have hpos : e.toNat ≠ 0 := fun h => hzero (BitVec.eq_of_toNat_eq h)
    exact ⟨by omega, by omega, .inl (by omega)⟩

theorem capped_decode (s : Sign) (e : BitVec 11) (m : BitVec 52) :
    capped (decode s e m) = decode s e m := by
  have he := e.isLt
  unfold decode
  split_ifs with hall hm0 hzero hm0
  all_goals try rfl
  have hlast : e.toNat ≠ 2047 := fun h => hall (BitVec.eq_of_toNat_eq h)
  exact if_neg (by omega)

theorem unpack_pack_finite (s : Sign) {m : ℕ} {e : ℤ} (hm : 0 < m)
    (h : Canonical (.finite s m e hm)) :
    (Float.Model.pack (.finite s m e hm)).unpack = capped (.finite s m e hm) := by
  obtain ⟨hlt, hleast, hfull⟩ := h
  obtain ⟨b, rfl⟩ : ∃ b : ℕ, e = b - 1075 := ⟨(e + 1075).toNat, by omega⟩
  have hlog : m.log2 + 1 = Format.binary64.mantissaBits ↔ 2 ^ 52 ≤ m := by
    change m.log2 + 1 = 53 ↔ _
    have := Nat.log2_lt (k := 53) hm.ne'
    have := Nat.le_log2 (k := 52) hm.ne'
    omega
  have hbiased : ((b : ℤ) - 1075 + Format.binary64.exponentBias + (52 : ℕ)).toNat = b := by
    change ((b : ℤ) - 1075 + (1023 : ℕ) + (52 : ℕ)).toNat = b
    omega
  change unpack Format.binary64 (pack Format.binary64 _) = _
  simp only [pack, hbiased, hlog, capped]
  by_cases hcap : 2 ^ 11 ≤ b + 1
  · rw [if_pos hcap, if_pos (by omega)]
    cases s <;> rfl
  rw [if_neg hcap, if_neg (show ¬ 971 < (b : ℤ) - 1075 by omega)]
  by_cases hnormal : 2 ^ 52 ≤ m
  · rw [if_pos hnormal, unpack_packComponents, decode_normal s (by omega) (by omega) hnormal hlt]
  · have hb : b = 1 := by omega
    subst hb
    rw [if_neg hnormal, unpack_packComponents, decode_subnormal s hm (by omega)]
    rfl

/-- Packing loses nothing but exponents that are too large. -/
theorem unpack_pack {u : UnpackedFloat} (h : Canonical u) :
    (Float.Model.pack u).unpack = capped u := by
  cases u with
  | notANumber => rfl
  | infinity s => cases s <;> rfl
  | zero s => cases s <;> rfl
  | finite s m e hm => exact unpack_pack_finite s hm h

end SensorBar.Double
