import SensorBar.Proofs.Double.Operations

/-! # Arithmetic of doubles

What each operation on doubles makes of finite arguments, of infinities and of the value that is not
a number.
-/

namespace SensorBar.Double

open Float.Model (Format UnpackedFloat)
open Float.Model.UnpackedFloat

def fields (x : Float) : UnpackedFloat :=
  x.toModel.unpack

/-- The number that a finite double stands for. -/
def value (x : Float) : ℚ :=
  valueOf (fields x)

theorem fields_canonical (x : Float) : Canonical (fields x) := by
  unfold fields Float.Model.unpack
  rw [unpack_eq_decode]
  exact canonical_decode ..

theorem capped_fields (x : Float) : capped (fields x) = fields x := by
  unfold fields Float.Model.unpack
  rw [unpack_eq_decode]
  exact capped_decode ..

theorem proper_fields {x : Float} (h : x.isFinite) : Proper (fields x) :=
  ⟨h, fields_canonical x⟩

theorem isFinite_of_proper {x : Float} (h : Proper (fields x)) : x.isFinite :=
  h.finite

theorem representable_value {x : Float} (h : x.isFinite) : Representable (value x) :=
  (proper_fields h).representable

/-- The greatest power of two among the doubles. -/
def summit : ℚ :=
  2 ^ (1023 : ℤ)

theorem representable_summit : Representable summit :=
  .two_zpow (by omega)

theorem two_pow_le_summit {k : ℕ} (h : k ≤ 1023) : (2 : ℚ) ^ k ≤ summit := by
  rw [← zpow_natCast]
  exact zpow_le_zpow_right₀ one_le_two (by omega)

theorem one_le_summit : 1 ≤ summit := by
  simpa using two_pow_le_summit (Nat.zero_le 1023)

/-! ## Rounded results -/

/-- `x` results from rounding `y`: to a nearest double, or to an infinity past the greatest one. -/
def RoundedTo (x : Float) (y : ℚ) : Prop :=
  ∃ u, Rounds u y ∧ fields x = capped u

namespace RoundedTo

variable {x : Float} {y w : ℚ}

theorem of_pack {u : UnpackedFloat} (h : Rounds u y) (hx : fields x = (Float.Model.pack u).unpack) :
    RoundedTo x y :=
  ⟨u, h, hx.trans (unpack_pack h.canonical)⟩

theorem not_nan (h : RoundedTo x y) : ¬ x.isNaN := by
  obtain ⟨u, hu, hx⟩ := h
  change ¬ (fields x).isNaN
  rw [hx]
  obtain ⟨s, rfl⟩ | ⟨s, m, e, hm, rfl⟩ := Proper.eq_zero_or_finite ⟨hu.finite, hu.canonical⟩
  · exact Bool.false_ne_true
  · rw [capped_finite]
    split_ifs <;> exact Bool.false_ne_true

theorem nearest (h : RoundedTo x y) (hx : x.isFinite) : Nearest (value x) y := by
  obtain ⟨u, hu, hfields⟩ := h
  have hcapped : capped u = u := by
    obtain ⟨s, rfl⟩ | ⟨s, m, e, hm, rfl⟩ := Proper.eq_zero_or_finite ⟨hu.finite, hu.canonical⟩
    · rfl
    · rw [capped_finite] at hfields ⊢
      split_ifs at hfields ⊢
      · have hfinite := (proper_fields hx).finite
        rw [hfields] at hfinite
        cases hfinite
      · rfl
  rw [value, hfields, hcapped]
  exact hu.nearest

/-- No number up to that power is rounded to an infinity. -/
theorem isFinite (h : RoundedTo x y) (hy : |y| ≤ summit) : x.isFinite := by
  obtain ⟨u, hu, hfields⟩ := h
  have hbound := hu.nearest.abs_le_of_abs_le representable_summit hy
  change (fields x).isFinite
  rw [hfields]
  obtain ⟨s, rfl⟩ | ⟨s, m, e, hm, rfl⟩ := Proper.eq_zero_or_finite ⟨hu.finite, hu.canonical⟩
  · rfl
  have hsmall : ¬ 971 < e := fun hlarge => by
    have hm' : (2 : ℚ) ^ 52 ≤ m := by exact_mod_cast hu.canonical.2.2.resolve_right (by omega)
    have hmagnitude : |valueOf (.finite s m e hm)| = m * 2 ^ e := by
      rw [← valueOf_abs]
      simp [valueOf, UnpackedFloat.abs, signum]
    have hgreat : summit < m * 2 ^ e := calc
      summit < 2 ^ (52 + e) := zpow_lt_zpow_right₀ one_lt_two (by omega)
      _ = 2 ^ 52 * 2 ^ e := (two_pow_mul_zpow 52 e).symm
      _ ≤ m * 2 ^ e := by gcongr
    linarith
  rw [capped_finite, if_neg hsmall]
  rfl

theorem ne_negative_infinity (h : RoundedTo x y) (hy : 0 ≤ y) : fields x ≠ .infinity .negative := by
  obtain ⟨u, hu, hfields⟩ := h
  rw [hfields]
  obtain ⟨s, rfl⟩ | ⟨s, m, e, hm, rfl⟩ := Proper.eq_zero_or_finite ⟨hu.finite, hu.canonical⟩
  · simp [capped]
  · have hsign := hu.nearest.ge_of_ge .zero hy
    have hpos : (0 : ℚ) < m * 2 ^ e := by positivity
    cases s with
    | negative =>
      have : valueOf (.finite .negative m e hm) = -(m * 2 ^ e) := by simp [valueOf, signum]
      linarith
    | positive =>
      rw [capped_finite]
      split_ifs <;> simp

end RoundedTo

/-! ## Finite arguments -/

variable {a b : Float}

theorem add_roundedTo (ha : a.isFinite) (hb : b.isFinite) :
    RoundedTo (a + b) (value a + value b) :=
  .of_pack (rounds_add (proper_fields ha) (proper_fields hb)) rfl

theorem sub_roundedTo (ha : a.isFinite) (hb : b.isFinite) :
    RoundedTo (a - b) (value a - value b) :=
  .of_pack (rounds_sub (proper_fields ha) (proper_fields hb)) rfl

theorem mul_roundedTo (ha : a.isFinite) (hb : b.isFinite) :
    RoundedTo (a * b) (value a * value b) :=
  .of_pack (rounds_mul (proper_fields ha) (proper_fields hb)) rfl

theorem div_roundedTo (ha : a.isFinite) (hb : b.isFinite) (hne : value b ≠ 0) :
    RoundedTo (a / b) (value a / value b) :=
  .of_pack (rounds_div (proper_fields ha) (proper_fields hb) hne) rfl

@[simp]
theorem fields_neg (a : Float) : fields (-a) = (fields a).neg := by
  change (Float.Model.pack (fields a).neg).unpack = _
  rw [unpack_pack (fields_canonical a).neg, capped_neg, capped_fields]

@[simp]
theorem fields_abs (a : Float) : fields a.abs = (fields a).abs := by
  change (Float.Model.pack (fields a).abs).unpack = _
  rw [unpack_pack (fields_canonical a).abs, capped_abs, capped_fields]

theorem isFinite_neg (ha : a.isFinite) : (-a).isFinite :=
  isFinite_of_proper (fields_neg a ▸ (proper_fields ha).neg)

theorem isFinite_abs (ha : a.isFinite) : a.abs.isFinite :=
  isFinite_of_proper (fields_abs a ▸ (proper_fields ha).abs)

@[simp]
theorem value_neg (a : Float) : value (-a) = -value a := by
  rw [value, fields_neg, valueOf_neg]
  rfl

@[simp]
theorem value_abs (a : Float) : value a.abs = |value a| := by
  rw [value, fields_abs, valueOf_abs]
  rfl

theorem lt_iff_compare : a < b ↔ (fields a).compare (fields b) = some .lt := by
  change decide (((fields a).compare (fields b) == some .lt) = true) = true ↔ _
  rw [decide_eq_true_iff, beq_iff_eq]

theorem le_iff_compare : a ≤ b ↔ ((fields a).compare (fields b)).any (·.isLE) = true := by
  change decide (((fields a).compare (fields b)).any (·.isLE) = true) = true ↔ _
  rw [decide_eq_true_iff]

theorem lt_iff (ha : a.isFinite) (hb : b.isFinite) : a < b ↔ value a < value b := by
  rw [lt_iff_compare, compare_eq (proper_fields ha) (proper_fields hb), Option.some_inj]
  exact compare_lt_iff_lt

theorem le_iff (ha : a.isFinite) (hb : b.isFinite) : a ≤ b ↔ value a ≤ value b := by
  rw [le_iff_compare, compare_eq (proper_fields ha) (proper_fields hb), Option.any_some,
    Ordering.isLE_iff_ne_gt]
  exact compare_le_iff_le

/-! ## Whole numbers -/

theorem fields_one :
    fields (Float.ofBits 0x3FF0000000000000) = .finite .positive (2 ^ 52) (-52) (by decide) := by
  rfl

theorem toFloat_roundedTo {n : ℕ} (h : n < 2 ^ 53) : RoundedTo n.toUInt64.toFloat n := by
  have hn : n.toUInt64.toNat = n := by
    rw [Nat.toUInt64_eq, UInt64.toNat_ofNat']
    omega
  have hrounded : RoundedTo n.toUInt64.toFloat (((n.toUInt64.toNat : ℕ) : ℤ) * 2 ^ (0 : ℤ)) :=
    .of_pack (rounds_normalize _ 0 .positive) rfl
  rwa [zpow_zero, mul_one, hn, Int.cast_natCast] at hrounded

/-- A whole number that fits the significand is a double. -/
theorem natCast_spec {n : ℕ} (h : n < 2 ^ 53) :
    (Float.ofNat n).isFinite ∧ value (Float.ofNat n) = n := by
  have hn : Representable (n : ℚ) := .natCast h.le
  have hbound : |(n : ℚ)| ≤ summit := by
    rw [Nat.abs_cast]
    exact (by exact_mod_cast h.le : (n : ℚ) ≤ 2 ^ 53).trans (two_pow_le_summit (by omega))
  have hfloat := toFloat_roundedTo h
  have hfinite := hfloat.isFinite hbound
  have hvalue := (hfloat.nearest hfinite).eq_of_representable hn
  have hone : value (Float.ofBits 0x3FF0000000000000) = 1 := by
    rw [value, fields_one]
    norm_num [valueOf, signum]
  have hcast : Float.ofNat n = n.toUInt64.toFloat * Float.ofBits 0x3FF0000000000000 := by
    change Float.ofScientific n false 0 = _
    rw [Float.ofScientific, dif_pos ⟨h, by omega⟩]
    rfl
  have hproduct := mul_roundedTo hfinite (b := Float.ofBits 0x3FF0000000000000) rfl
  rw [← hcast, hvalue, hone, mul_one] at hproduct
  have hfinite' := hproduct.isFinite hbound
  exact ⟨hfinite', (hproduct.nearest hfinite').eq_of_representable hn⟩

/-! ## Infinite arguments -/

theorem not_nan_of_isFinite (h : a.isFinite) : ¬ a.isNaN := by
  change ¬ (fields a).isNaN
  obtain ⟨s, hs⟩ | ⟨s, m, e, hm, hs⟩ := (proper_fields h).eq_zero_or_finite <;> rw [hs] <;>
    exact Bool.false_ne_true

theorem not_nan_of_infinite {s : Sign} (h : fields a = .infinity s) : ¬ a.isNaN := by
  change ¬ (fields a).isNaN
  rw [h]
  exact Bool.false_ne_true

theorem isFinite_or_infinite (h : ¬ a.isNaN) : a.isFinite ∨ ∃ s, fields a = .infinity s := by
  change (fields a).isFinite ∨ _
  change ¬ (fields a).isNaN at h
  cases hs : fields a with
  | notANumber =>
    rw [hs] at h
    exact absurd rfl h
  | infinity s => exact .inr ⟨s, rfl⟩
  | zero s => exact .inl rfl
  | finite s m e hm => exact .inl rfl

/-- An operation whose result is infinite before it is packed. -/
theorem infinite_of_pack {x : Float} {u : UnpackedFloat} {s : Sign} (h : u = .infinity s)
    (hx : fields x = (Float.Model.pack u).unpack) : fields x = .infinity s := by
  subst h
  exact hx.trans (unpack_pack trivial)

theorem sub_infinite {s : Sign} (ha : a.isFinite) (hb : fields b = .infinity s) :
    fields (a - b) = .infinity (-s) := by
  refine infinite_of_pack (u := sub Format.binary64 (fields a) (fields b)) ?_ rfl
  obtain ⟨t, ht⟩ | ⟨t, m, e, hm, ht⟩ := (proper_fields ha).eq_zero_or_finite <;> rw [ht, hb] <;> rfl

theorem add_not_nan (ha : a.isFinite) (hb : ¬ b.isNaN) : ¬ (a + b).isNaN := by
  obtain hb | ⟨s, hs⟩ := isFinite_or_infinite hb
  · exact (add_roundedTo ha hb).not_nan
  · refine not_nan_of_infinite (s := s)
      (infinite_of_pack (u := add Format.binary64 (fields a) (fields b)) ?_ rfl)
    obtain ⟨t, ht⟩ | ⟨t, m, e, hm, ht⟩ := (proper_fields ha).eq_zero_or_finite <;> rw [ht, hs] <;>
      rfl

theorem sub_not_nan (ha : a.isFinite) (hb : ¬ b.isNaN) : ¬ (a - b).isNaN := by
  obtain hb | ⟨s, hs⟩ := isFinite_or_infinite hb
  · exact (sub_roundedTo ha hb).not_nan
  · exact not_nan_of_infinite (sub_infinite ha hs)

theorem mul_not_nan (ha : ¬ a.isNaN) (hb : b.isFinite) (hne : value b ≠ 0) : ¬ (a * b).isNaN := by
  obtain ha | ⟨s, hs⟩ := isFinite_or_infinite ha
  · exact (mul_roundedTo ha hb).not_nan
  obtain ⟨t, ht⟩ | ⟨t, m, e, hm, ht⟩ := (proper_fields hb).eq_zero_or_finite
  · rw [value, ht] at hne
    exact absurd rfl hne
  · refine not_nan_of_infinite (s := s * t)
      (infinite_of_pack (u := mul Format.binary64 (fields a) (fields b)) ?_ rfl)
    rw [hs, ht]
    rfl

theorem div_not_nan (ha : ¬ a.isNaN) (hb : b.isFinite) (hne : value b ≠ 0) : ¬ (a / b).isNaN := by
  obtain ha | ⟨s, hs⟩ := isFinite_or_infinite ha
  · exact (div_roundedTo ha hb hne).not_nan
  obtain ⟨t, ht⟩ | ⟨t, m, e, hm, ht⟩ := (proper_fields hb).eq_zero_or_finite
  · rw [value, ht] at hne
    exact absurd rfl hne
  · refine not_nan_of_infinite (s := s / t)
      (infinite_of_pack (u := div Format.binary64 (fields a) (fields b)) ?_ rfl)
    rw [hs, ht]
    rfl

/-- Only finite numbers are a finite distance apart. -/
theorem isFinite_of_sub_isFinite (h : (a - b).isFinite) : a.isFinite ∧ b.isFinite := by
  change (Float.Model.pack (sub Format.binary64 (fields a) (fields b))).unpack.isFinite at h
  change (fields a).isFinite ∧ (fields b).isFinite
  have hnan : ¬ (Float.Model.pack .notANumber).unpack.isFinite := nofun
  have hinfinite : ∀ s, ¬ (Float.Model.pack (.infinity s)).unpack.isFinite := fun s => by
    rw [unpack_pack (u := .infinity s) trivial]
    nofun
  cases hs : fields a with
  | notANumber =>
    rw [hs] at h
    exact absurd h hnan
  | infinity s =>
    rw [hs] at h
    cases ht : fields b with
    | notANumber =>
      rw [ht] at h
      exact absurd h hnan
    | infinity t =>
      rw [ht] at h
      simp only [sub] at h
      split_ifs at h
      · exact absurd h (hinfinite s)
      · exact absurd h hnan
    | zero t =>
      rw [ht] at h
      exact absurd h (hinfinite s)
    | finite t m e hm =>
      rw [ht] at h
      exact absurd h (hinfinite s)
  | _ =>
    rw [hs] at h
    cases ht : fields b with
    | notANumber =>
      rw [ht] at h
      exact absurd h hnan
    | infinity t =>
      rw [ht] at h
      exact absurd h (hinfinite (-t))
    | _ => exact ⟨rfl, rfl⟩

/-! ### Order -/

theorem not_lt_of_infinite (h : fields a = .infinity .positive) : ¬ a < b := by
  rw [lt_iff_compare, h]
  cases fields b with
  | infinity t => cases t <;> nofun
  | _ => nofun

theorem lt_infinite (ha : a.isFinite) (hb : fields b = .infinity .positive) : a < b := by
  rw [lt_iff_compare, hb]
  obtain ⟨s, hs⟩ | ⟨s, m, e, hm, hs⟩ := (proper_fields ha).eq_zero_or_finite <;> rw [hs] <;> rfl

theorem infinite_lt (ha : fields a = .infinity .negative) (hb : b.isFinite) : a < b := by
  rw [lt_iff_compare, ha]
  obtain ⟨s, hs⟩ | ⟨s, m, e, hm, hs⟩ := (proper_fields hb).eq_zero_or_finite <;> rw [hs] <;> rfl

theorem not_le_infinite (ha : a.isFinite) (hb : fields b = .infinity .negative) : ¬ a ≤ b := by
  rw [le_iff_compare, hb]
  obtain ⟨s, hs⟩ | ⟨s, m, e, hm, hs⟩ := (proper_fields ha).eq_zero_or_finite <;> rw [hs] <;> nofun

theorem not_lt_infinite (h : fields b = .infinity .negative) : ¬ a < b := by
  rw [lt_iff_compare, h]
  cases fields a with
  | infinity t => cases t <;> nofun
  | finite t m e hm => cases t <;> nofun
  | _ => nofun

theorem not_infinite_le (ha : fields a = .infinity .positive) (hb : b.isFinite) : ¬ a ≤ b := by
  rw [le_iff_compare, ha]
  obtain ⟨s, hs⟩ | ⟨s, m, e, hm, hs⟩ := (proper_fields hb).eq_zero_or_finite <;> rw [hs] <;> nofun

theorem not_nan_of_lt (h : a < b) : ¬ a.isNaN ∧ ¬ b.isNaN := by
  rw [lt_iff_compare] at h
  change ¬ (fields a).isNaN ∧ ¬ (fields b).isNaN
  cases hs : fields a <;> cases ht : fields b <;> rw [hs, ht] at h <;>
    first | cases h | exact ⟨nofun, nofun⟩

theorem infinite_le (ha : fields a = .infinity .negative) (hb : ¬ b.isNaN) : a ≤ b := by
  change ¬ (fields b).isNaN at hb
  rw [le_iff_compare, ha]
  cases hs : fields b with
  | notANumber =>
    rw [hs] at hb
    exact absurd rfl hb
  | infinity s => cases s <;> rfl
  | _ => rfl

theorem le_infinite (ha : ¬ a.isNaN) (hb : fields b = .infinity .positive) : a ≤ b := by
  change ¬ (fields a).isNaN at ha
  rw [le_iff_compare, hb]
  cases hs : fields a with
  | notANumber =>
    rw [hs] at ha
    exact absurd rfl ha
  | infinity s => cases s <;> rfl
  | finite s m e hm => cases s <;> rfl
  | _ => rfl

/-- Numbers are in one order or the other. -/
theorem lt_of_not_le (ha : ¬ a.isNaN) (hb : ¬ b.isNaN) (h : ¬ b ≤ a) : a < b := by
  obtain ha' | ⟨s, hs⟩ := isFinite_or_infinite ha <;>
    obtain hb' | ⟨t, ht⟩ := isFinite_or_infinite hb
  · rw [le_iff hb' ha', not_le] at h
    exact (lt_iff ha' hb').mpr h
  · cases t with
    | negative => exact absurd (infinite_le ht ha) h
    | positive => exact lt_infinite ha' ht
  · cases s with
    | negative => exact infinite_lt hs hb'
    | positive => exact absurd (le_infinite hb hs) h
  · cases s with
    | negative =>
      cases t with
      | negative => exact absurd (infinite_le ht ha) h
      | positive =>
        rw [lt_iff_compare, hs, ht]
        rfl
    | positive => exact absurd (le_infinite hb hs) h

/-- The place of a number in the order of numbers, with the infinities at its ends. -/
def grade (x : Float) : WithBot (WithTop ℚ) :=
  match fields x with
  | .infinity .negative => ⊥
  | .infinity .positive => (⊤ : WithTop ℚ)
  | u => (valueOf u : WithTop ℚ)

theorem grade_of_isFinite (h : a.isFinite) : grade a = (value a : WithTop ℚ) := by
  obtain ⟨s, hs⟩ | ⟨s, m, e, hm, hs⟩ := (proper_fields h).eq_zero_or_finite <;>
    simp only [grade, value, hs]

theorem lt_iff_grade (ha : ¬ a.isNaN) (hb : ¬ b.isNaN) : a < b ↔ grade a < grade b := by
  obtain ha' | ⟨s, hs⟩ := isFinite_or_infinite ha <;>
    obtain hb' | ⟨t, ht⟩ := isFinite_or_infinite hb
  · rw [lt_iff ha' hb', grade_of_isFinite ha', grade_of_isFinite hb']
    norm_cast
  · rw [grade_of_isFinite ha']
    cases t with
    | negative => simp [not_lt_infinite ht, grade, ht]
    | positive =>
      simp only [lt_infinite ha' ht, grade, ht, true_iff]
      exact WithBot.coe_lt_coe.mpr (WithTop.coe_lt_top (value a))
  · rw [grade_of_isFinite hb']
    cases s with
    | negative => simp [infinite_lt hs hb', grade, hs]
    | positive => simp [not_lt_of_infinite hs, grade, hs]
  · have hsigns : compare Sign.negative Sign.positive = .lt := rfl
    rw [lt_iff_compare, hs, ht]
    cases s <;> cases t <;> simp [grade, hs, ht, UnpackedFloat.compare, hsigns]

theorem not_nan_of_beq_self (h : (a == a) = true) : ¬ a.isNaN := by
  simpa using h

theorem isFinite_of_between {c : Float} (ha : a.isFinite) (hac : a ≤ c) (hcb : c < b) :
    c.isFinite := by
  obtain hc | ⟨s, hs⟩ := isFinite_or_infinite (not_nan_of_lt hcb).1
  · exact hc
  · cases s with
    | negative => exact absurd hac (not_le_infinite ha hs)
    | positive => exact absurd hcb (not_lt_of_infinite hs)

theorem isFinite_of_lt_of_le {c : Float} (hb : b.isFinite) (hac : a < c) (hcb : c ≤ b) :
    c.isFinite := by
  obtain hc | ⟨s, hs⟩ := isFinite_or_infinite (not_nan_of_lt hac).2
  · exact hc
  · cases s with
    | negative => exact absurd hac (not_lt_infinite hs)
    | positive => exact absurd hcb (not_infinite_le hs hb)

/-! ### Lengths -/

theorem square_infinite {s : Sign} (h : fields a = .infinity s) :
    fields (a * a) = .infinity .positive := by
  refine infinite_of_pack (u := mul Format.binary64 (fields a) (fields a)) ?_ rfl
  rw [h]
  cases s <;> rfl

/-- A square is a number and not below zero. -/
theorem square_cases (h : ¬ a.isNaN) :
    fields (a * a) = .infinity .positive ∨ (a * a).isFinite := by
  obtain ha | ⟨s, hs⟩ := isFinite_or_infinite h
  · have hrounded := mul_roundedTo ha ha
    obtain hfinite | ⟨s, hs⟩ := isFinite_or_infinite hrounded.not_nan
    · exact .inr hfinite
    · cases s with
      | negative => exact absurd hs (hrounded.ne_negative_infinity (mul_self_nonneg _))
      | positive => exact .inl hs
  · exact .inl (square_infinite hs)

theorem add_infinite (ha : fields a = .infinity .positive ∨ a.isFinite)
    (hb : fields b = .infinity .positive ∨ b.isFinite)
    (h : fields a = .infinity .positive ∨ fields b = .infinity .positive) :
    fields (a + b) = .infinity .positive := by
  refine infinite_of_pack (u := add Format.binary64 (fields a) (fields b)) ?_ rfl
  rcases h with h | h
  · rcases hb with hb | hb
    · rw [h, hb]
      rfl
    · obtain ⟨t, ht⟩ | ⟨t, m, e, hm, ht⟩ := (proper_fields hb).eq_zero_or_finite <;> rw [h, ht] <;>
        rfl
  · rcases ha with ha | ha
    · rw [h, ha]
      rfl
    · obtain ⟨t, ht⟩ | ⟨t, m, e, hm, ht⟩ := (proper_fields ha).eq_zero_or_finite <;> rw [h, ht] <;>
        rfl

/-- The length of a vector with an infinite coordinate is below no bound. -/
theorem not_length_lt {s : Sign} (ha : ¬ a.isNaN) (hb : ¬ b.isNaN)
    (h : fields a = .infinity s ∨ fields b = .infinity s) (r : Float) :
    ¬ (a * a + b * b).sqrt < r := by
  have hsum : fields (a * a + b * b) = .infinity .positive :=
    add_infinite (square_cases ha) (square_cases hb) (h.imp square_infinite square_infinite)
  have hroot : fields (a * a + b * b).sqrt = .infinity .positive := by
    refine infinite_of_pack (u := sqrt Format.binary64 (fields (a * a + b * b))) ?_ rfl
    rw [hsum]
    rfl
  exact not_lt_of_infinite hroot

/-! ### Distances -/

/-- An operation whose result is not a number before it is packed. -/
theorem isNaN_of_pack {x : Float} {u : UnpackedFloat} (h : u = .notANumber)
    (hx : fields x = (Float.Model.pack u).unpack) : x.isNaN := by
  change (fields x).isNaN
  rw [hx, h]
  rfl

theorem fields_of_isNaN (h : a.isNaN) : fields a = .notANumber := by
  change (fields a).isNaN at h
  cases hs : fields a <;> rw [hs] at h <;> first | rfl | cases h

theorem isNaN_mul_self (h : a.isNaN) : (a * a).isNaN := by
  refine isNaN_of_pack (u := mul Format.binary64 (fields a) (fields a)) ?_ rfl
  rw [fields_of_isNaN h]
  rfl

theorem isNaN_add (h : a.isNaN ∨ b.isNaN) : (a + b).isNaN := by
  refine isNaN_of_pack (u := add Format.binary64 (fields a) (fields b)) ?_ rfl
  rcases h with h | h
  · rw [fields_of_isNaN h]
    rfl
  · rw [fields_of_isNaN h]
    cases fields a <;> rfl

theorem isNaN_sub (h : a.isNaN) : (a - b).isNaN := by
  refine isNaN_of_pack (u := sub Format.binary64 (fields a) (fields b)) ?_ rfl
  rw [fields_of_isNaN h]
  rfl

theorem isNaN_div (h : a.isNaN) : (a / b).isNaN := by
  refine isNaN_of_pack (u := div Format.binary64 (fields a) (fields b)) ?_ rfl
  rw [fields_of_isNaN h]
  rfl

theorem isNaN_sqrt (h : a.isNaN) : a.sqrt.isNaN := by
  refine isNaN_of_pack (u := sqrt Format.binary64 (fields a)) ?_ rfl
  rw [fields_of_isNaN h]
  rfl

theorem isNaN_abs (h : a.isNaN) : a.abs.isNaN := by
  change (fields a.abs).isNaN
  rw [fields_abs, fields_of_isNaN h]
  rfl

/-- No number is compared with what is not one. -/
theorem not_le_of_isNaN (h : a.isNaN) : ¬ a ≤ b := by
  rw [le_iff_compare, fields_of_isNaN h]
  nofun

theorem RoundedTo.zero {x : Float} (h : RoundedTo x 0) : x.isFinite ∧ value x = 0 := by
  have hfinite := h.isFinite (by simpa using zero_le_one.trans one_le_summit)
  exact ⟨hfinite, (h.nearest hfinite).eq_of_representable .zero⟩

/-- A number is at no distance from itself, unless it is not finite. -/
theorem sub_self_cases (a : Float) : (a - a).isNaN ∨ (a - a).isFinite ∧ value (a - a) = 0 := by
  by_cases h : a.isFinite
  · have hsub := sub_roundedTo h h
    rw [sub_self] at hsub
    exact .inr hsub.zero
  · refine .inl (isNaN_of_pack (u := sub Format.binary64 (fields a) (fields a)) ?_ rfl)
    change ¬ (fields a).isFinite at h
    cases hs : fields a with
    | notANumber => rfl
    | infinity s => cases s <;> rfl
    | _ => exact absurd (by rw [hs]; rfl) h

/-- No number is far from itself. -/
theorem not_lt_distance_self {c : Float} (hc : Float.ofNat 0 ≤ c) (a b : Float) :
    ¬ c < (a - a) * (a - a) + (b - b) * (b - b) := by
  intro h
  have hnan := (not_nan_of_lt h).2
  obtain ha | ⟨ha, ha0⟩ := sub_self_cases a
  · exact hnan (isNaN_add (.inl (isNaN_mul_self ha)))
  obtain hb | ⟨hb, hb0⟩ := sub_self_cases b
  · exact hnan (isNaN_add (.inr (isNaN_mul_self hb)))
  have hx := mul_roundedTo ha ha
  have hy := mul_roundedTo hb hb
  rw [ha0, mul_zero] at hx
  rw [hb0, mul_zero] at hy
  have hsum := add_roundedTo hx.zero.1 hy.zero.1
  rw [hx.zero.2, hy.zero.2, add_zero] at hsum
  obtain ⟨hzero, hzero0⟩ := natCast_spec (n := 0) (by norm_num)
  have hfinite := isFinite_of_between hzero hc h
  rw [lt_iff hfinite hsum.zero.1, hsum.zero.2] at h
  rw [le_iff hzero hfinite, hzero0, Nat.cast_zero] at hc
  exact hc.not_gt h

end SensorBar.Double
