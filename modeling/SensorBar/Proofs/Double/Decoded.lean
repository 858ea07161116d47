import SensorBar.Decimal.Binary64
import SensorBar.Proofs.Double.Arithmetic

/-! # Doubles read off their bits

The exact value that is read off the bits of a double is the one that its arithmetic unpacks.
-/

namespace SensorBar.Double

open Float.Model (Format UnpackedFloat)
open Float.Model.UnpackedFloat

/-! ## Bit fields -/

theorem toNat_unpackSign (b : BitVec 64) :
    (@unpackSign Format.binary64 b).toNat = b.toNat / 2 ^ 63 % 2 := by
  unfold unpackSign
  rw [BitVec.toNat_cast, BitVec.extractLsb_toNat, Nat.shiftRight_eq_div_pow]
  rfl

theorem toNat_unpackExponent (b : BitVec 64) :
    (@unpackExponent Format.binary64 b).toNat = b.toNat / 2 ^ 52 % 2 ^ 11 := by
  unfold unpackExponent
  rw [BitVec.toNat_cast, BitVec.extractLsb_toNat, Nat.shiftRight_eq_div_pow]
  rfl

theorem toNat_unpackMantissa (b : BitVec 64) :
    (@unpackMantissa Format.binary64 b).toNat = b.toNat % 2 ^ 52 := by
  unfold unpackMantissa
  rw [BitVec.toNat_cast, BitVec.extractLsb_toNat, Nat.shiftRight_zero]
  rfl

/-! ## Exact values -/

/-- What fields stand for, with the sign of zero. -/
def exactOf : UnpackedFloat → Binary64
  | .notANumber => .nan
  | .infinity s => .infinite (s matches .negative)
  | .zero s => .finite (s matches .negative) 0 (-1074)
  | .finite s m e _ => .finite (s matches .negative) m e

theorem exactOf_decode (s : Sign) (e : BitVec 11) (m : BitVec 52) :
    exactOf (decode s e m) =
      if e.toNat = 2047 then if m.toNat = 0 then .infinite (s matches .negative) else .nan
      else if e.toNat = 0 then .finite (s matches .negative) m.toNat (-1074)
      else .finite (s matches .negative) (2 ^ 52 + m.toNat) (e.toNat - 1075) := by
  have hlast : e = -1#11 ↔ e.toNat = 2047 := BitVec.toNat_inj.symm
  have hfirst : e = 0#11 ↔ e.toNat = 0 := BitVec.toNat_inj.symm
  have hzero : m = 0#52 ↔ m.toNat = 0 := BitVec.toNat_inj.symm
  unfold decode
  simp only [hlast, hfirst, hzero]
  split_ifs with _ _ _ hm
  · rfl
  · rfl
  · rw [hm]
    rfl
  · rfl
  · rfl

theorem ofFloat_eq (x : Float) : Binary64.ofFloat x = exactOf (fields x) := by
  have hsign : ∀ b : BitVec 1, (b.toNat == 1) = (Sign.ofBitVec b matches .negative) := by decide
  unfold fields Float.Model.unpack
  rw [unpack_eq_decode, exactOf_decode, toNat_unpackExponent, toNat_unpackMantissa, ← hsign,
    toNat_unpackSign]
  rfl

/-- The number that a finite value is. -/
def exactValue : Binary64 → ℚ
  | .finite negative m e => (if negative then -1 else 1) * (m * 2 ^ e)
  | _ => 0

theorem exactValue_ofFloat (x : Float) : exactValue (.ofFloat x) = value x := by
  rw [ofFloat_eq, value]
  cases fields x with
  | finite s m e hm => cases s <;> simp [exactOf, exactValue, valueOf, signum]
  | zero s => simp [exactOf, exactValue, valueOf]
  | _ => rfl

theorem exists_ofFloat_eq_finite {x : Float} (h : x.isFinite) :
    ∃ negative m e, Binary64.ofFloat x = .finite negative m e := by
  rw [ofFloat_eq]
  obtain ⟨s, hs⟩ | ⟨s, m, e, hm, hs⟩ := (proper_fields h).eq_zero_or_finite <;> rw [hs]
  · exact ⟨_, _, _, rfl⟩
  · exact ⟨_, _, _, rfl⟩

theorem ofFloat_of_isNaN {x : Float} (h : x.isNaN) : Binary64.ofFloat x = .nan := by
  rw [ofFloat_eq, fields_of_isNaN h]
  rfl

end SensorBar.Double
