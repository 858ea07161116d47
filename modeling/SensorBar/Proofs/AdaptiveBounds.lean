import SensorBar.Proofs.Accepted
import SensorBar.Proofs.NumericTranslation

/-! # Adaptive smoothing of doubles

The weight of a new value lies between zero and one, so a blend lies between its two values up to
rounding.  Rounding could let a stream of blends creep past every bound.  It does not: a blend
exceeds a power of two by less than half a unit of the last place, and is rounded back to it.  So
coordinates up to a power of two stay there for ever, and the speeds and cutoffs computed from them
stay finite.
-/

namespace SensorBar

namespace Double

/-! ## Bounds -/

/-- A finite double between two bounds. -/
structure Between (lower upper : ℚ) (a : Float) : Prop where
  finite : a.isFinite
  lower : lower ≤ value a
  upper : value a ≤ upper

theorem Representable.two_pow (k : ℕ) : Representable (2 ^ k) := by
  rw [← zpow_natCast]
  exact .two_zpow (by omega)

namespace Between

variable {a b : Float} {u v w y : ℚ}

theorem abs_value_le (h : Between (-w) w a) : |value a| ≤ w :=
  abs_le.mpr ⟨h.lower, h.upper⟩

theorem natCast {n : ℕ} (h : n < 2 ^ 53) : Between n n (Float.ofNat n) :=
  ⟨(natCast_spec h).1, (natCast_spec h).2.ge, (natCast_spec h).2.le⟩

theorem mono (h : Between u y a) (hv : v ≤ u) (hw : y ≤ w) : Between v w a :=
  ⟨h.finite, hv.trans h.lower, h.upper.trans hw⟩

theorem of_natCast_le {m n : ℕ} (hm : m < 2 ^ 53) (hn : n < 2 ^ 53) (ha : a.isFinite)
    (hlower : Float.ofNat m ≤ a) (hupper : a ≤ Float.ofNat n) : Between m n a := by
  rw [le_iff (natCast_spec hm).1 ha, (natCast_spec hm).2] at hlower
  rw [le_iff ha (natCast_spec hn).1, (natCast_spec hn).2] at hupper
  exact ⟨ha, hlower, hupper⟩

/-- A result stays between representable bounds on the exact one. -/
theorem of_roundedTo (h : RoundedTo a y) (hv : Representable v) (hw : Representable w)
    (hv' : -summit ≤ v) (hw' : w ≤ summit) (hvy : v ≤ y) (hyw : y ≤ w) : Between v w a := by
  have hfinite := h.isFinite (abs_le.mpr ⟨hv'.trans hvy, hyw.trans hw'⟩)
  have hnearest := h.nearest hfinite
  exact ⟨hfinite, hnearest.ge_of_ge hv hvy, hnearest.le_of_le hw hyw⟩

theorem of_abs_le (h : RoundedTo a y) (hw : Representable w) (hw' : w ≤ summit) (hy : |y| ≤ w) :
    Between (-w) w a :=
  of_roundedTo h hw.neg hw (neg_le_neg hw') hw' (abs_le.mp hy).1 (abs_le.mp hy).2

theorem of_nonneg (h : RoundedTo a y) (hw : Representable w) (hw' : w ≤ summit) (hy : 0 ≤ y)
    (hyw : y ≤ w) : Between 0 w a :=
  of_roundedTo h .zero hw (neg_nonpos.mpr (hy.trans (hyw.trans hw'))) hw' hy hyw

theorem mul {i j : ℕ} (ha : Between 0 (2 ^ i) a) (hb : Between 0 (2 ^ j) b) (h : i + j ≤ 1023) :
    Between 0 (2 ^ (i + j)) (a * b) := by
  refine of_nonneg (mul_roundedTo ha.finite hb.finite) (.two_pow _) (two_pow_le_summit h)
    (mul_nonneg ha.lower hb.lower) ?_
  rw [pow_add]
  exact mul_le_mul ha.upper hb.upper hb.lower (by positivity)

theorem mul_of_abs (ha : Between 0 1 a) {k : ℕ} (hk : k ≤ 1023) (hb : Between (-2 ^ k) (2 ^ k) b) :
    |value (a * b)| ≤ value a * 2 ^ k ∧ (a * b).isFinite := by
  have hbound : |value a * value b| ≤ value a * 2 ^ k := by
    rw [abs_mul, abs_of_nonneg ha.lower]
    exact mul_le_mul_of_nonneg_left hb.abs_value_le ha.lower
  have hle : value a * 2 ^ k ≤ summit :=
    (mul_le_of_le_one_left (by positivity) ha.upper).trans (two_pow_le_summit hk)
  have h := of_abs_le (mul_roundedTo ha.finite hb.finite)
    ((representable_value ha.finite).mul_two_pow k) hle hbound
  exact ⟨h.abs_value_le, h.finite⟩

end Between

theorem two_pi_between : Between 0 (2 ^ 3) (Float.ofNat 2 * 3.141592653589793) := by
  have htwo : Between 2 2 (Float.ofNat 2) := .natCast (by norm_num)
  have hpi : Between 0 4 (3.141592653589793 : Float) :=
    .of_natCast_le (m := 0) (n := 4) (by norm_num) (by norm_num) (by decide +kernel)
      (by decide +kernel) (by decide +kernel)
  exact Between.mul (i := 1) (j := 2) (htwo.mono (by norm_num) (by norm_num))
    (hpi.mono le_rfl (by norm_num)) (by norm_num)

/-- A coordinate moves through its whole range in one step at most. -/
theorem slope_between {x old dt : Float} {k : ℕ} (hk : k ≤ 990)
    (hdt : Between (2 ^ (-30 : ℤ)) 1 dt) (hx : Between (-2 ^ k) (2 ^ k) x)
    (hold : Between (-2 ^ k) (2 ^ k) old) :
    Between (-2 ^ (k + 31)) (2 ^ (k + 31)) ((x - old) / dt) := by
  have hshift : Between (-2 ^ (k + 1)) (2 ^ (k + 1)) (x - old) := by
    refine .of_abs_le (sub_roundedTo hx.finite hold.finite) (.two_pow _)
      (two_pow_le_summit (by omega)) ?_
    rw [pow_succ]
    have := abs_sub (value x) (value old)
    linarith [hx.abs_value_le, hold.abs_value_le]
  have hleast : (0 : ℚ) < 2 ^ (-30 : ℤ) := by positivity
  have hpos := hleast.trans_le hdt.lower
  refine .of_abs_le (div_roundedTo hshift.finite hdt.finite hpos.ne') (.two_pow _)
    (two_pow_le_summit (by omega)) ?_
  rw [abs_div, abs_of_pos hpos, div_le_iff₀ hpos]
  calc |value (x - old)| ≤ 2 ^ (k + 1) := hshift.abs_value_le
    _ = 2 ^ (k + 31) * 2 ^ (-30 : ℤ) := by
      rw [two_pow_mul_zpow, ← zpow_natCast]
      congr 1
      push_cast
      ring
    _ ≤ 2 ^ (k + 31) * value dt := mul_le_mul_of_nonneg_left hdt.lower (by positivity)

end Double

open Double

/-- Both coordinates are finite and at most `2 ^ k` from zero. -/
structure Point.Within (k : ℕ) (p : Point Float) : Prop where
  x : Between (-2 ^ k) (2 ^ k) p.x
  y : Between (-2 ^ k) (2 ^ k) p.y

theorem Point.Within.finite {k : ℕ} {p : Point Float} (h : p.Within k) : p.Finite :=
  ⟨h.x.finite, h.y.finite⟩

variable [Trigonometry Float]

namespace Filter

open LowPass (blend weight)

/-! ## Blends -/

/-- Blends of values up to a power of two do not exceed it. -/
theorem blend_between {a new old : Float} {k : ℕ} (hk : k ≤ 1022) (ha : Between 0 1 a)
    (hnew : Between (-2 ^ k) (2 ^ k) new) (hold : Between (-2 ^ k) (2 ^ k) old) :
    Between (-2 ^ k) (2 ^ k) (blend a new old) := by
  have hone := Between.natCast (n := 1) (by norm_num)
  have hrest : RoundedTo (Float.ofNat 1 - a) (1 - value a) := by
    have h := sub_roundedTo hone.finite ha.finite
    rwa [(natCast_spec (n := 1) (by norm_num)).2, Nat.cast_one] at h
  have hb : Between 0 1 (Float.ofNat 1 - a) :=
    .of_nonneg hrest .one one_le_summit (by linarith [ha.upper]) (by linarith [ha.lower])
  have hweights : value a + value (Float.ofNat 1 - a) ≤ 1 + 1 / 2 * 2 ^ (-53 : ℤ) := by
    have := (hrest.nearest hb.finite).abs_sub_le (by linarith [ha.upper]) (by linarith [ha.lower])
    linarith [(abs_le.mp this).2]
  obtain ⟨hp, hpfinite⟩ := ha.mul_of_abs (by omega) hnew
  obtain ⟨hq, hqfinite⟩ := hb.mul_of_abs (by omega) hold
  have hsum := add_roundedTo hpfinite hqfinite
  have hpow : (0 : ℚ) < 2 ^ k := by positivity
  have hexact : |value (a * new) + value ((Float.ofNat 1 - a) * old)| ≤
      2 ^ k + 1 / 2 * 2 ^ ((k : ℤ) - 53) := calc
    |value (a * new) + value ((Float.ofNat 1 - a) * old)|
      ≤ |value (a * new)| + |value ((Float.ofNat 1 - a) * old)| := abs_add_le ..
    _ ≤ value a * 2 ^ k + value (Float.ofNat 1 - a) * 2 ^ k := add_le_add hp hq
    _ = (value a + value (Float.ofNat 1 - a)) * 2 ^ k := (add_mul ..).symm
    _ ≤ (1 + 1 / 2 * 2 ^ (-53 : ℤ)) * 2 ^ k := by gcongr
    _ = 2 ^ k + 1 / 2 * 2 ^ ((k : ℤ) - 53) := by
      rw [sub_eq_add_neg, ← two_pow_mul_zpow]
      ring
  have hroom : (0 : ℚ) < 2 ^ ((k : ℤ) - 53) := by positivity
  have hfinite := hsum.isFinite (hexact.trans ?_)
  · have hbound := (hsum.nearest hfinite).abs_le_two_pow (k := k) (by linarith)
    exact ⟨hfinite, (abs_le.mp hbound).1, (abs_le.mp hbound).2⟩
  · have hsmall : (2 : ℚ) ^ ((k : ℤ) - 53) ≤ 2 ^ k := by
      rw [← zpow_natCast]
      exact zpow_le_zpow_right₀ one_le_two (by omega)
    have hdouble := two_pow_le_summit (k := k + 1) (by omega)
    rw [pow_succ] at hdouble
    linarith

/-! ## Weights -/

/-- The weight of a value lies between zero and one. -/
theorem weight_between {dt cutoff : Float} {j : ℕ} (hj : j ≤ 1018) (hdt : Between 0 1 dt)
    (hcutoff : Between 0 (2 ^ j) cutoff) : Between 0 1 (weight dt cutoff) := by
  have hone := Between.natCast (n := 1) (by norm_num)
  have hdt' : Between 0 (2 ^ 0) dt := by simpa using hdt
  have hr : Between 0 (2 ^ (3 + j)) (Float.ofNat 2 * 3.141592653589793 * cutoff * dt) :=
    (two_pi_between.mul hcutoff (by omega)).mul hdt' (by omega)
  change Between 0 1 (_ / (_ + Float.ofNat 1))
  generalize Float.ofNat 2 * 3.141592653589793 * cutoff * dt = r at *
  have hd : RoundedTo (r + Float.ofNat 1) (value r + 1) := by
    have h := add_roundedTo hr.finite hone.finite
    rwa [(natCast_spec (n := 1) (by norm_num)).2, Nat.cast_one] at h
  have hfinite : (r + Float.ofNat 1).isFinite := by
    refine hd.isFinite ?_
    have hpow := one_le_pow₀ (one_le_two : (1 : ℚ) ≤ 2) (n := 3 + j)
    have hdouble := two_pow_le_summit (k := 3 + j + 1) (by omega)
    rw [pow_succ] at hdouble
    rw [abs_of_nonneg (by linarith [hr.lower])]
    linarith [hr.upper]
  have hle := (hd.nearest hfinite).ge_of_ge (representable_value hr.finite) (by linarith)
  have hpos := (hd.nearest hfinite).ge_of_ge .one (by linarith [hr.lower])
  have hpos' : 0 < value (r + Float.ofNat 1) := by linarith
  refine .of_nonneg (div_roundedTo hr.finite hfinite hpos'.ne') .one one_le_summit
    (div_nonneg hr.lower hpos'.le) ?_
  exact (div_le_one hpos').mpr hle

/-! ## Time steps -/

theorem seconds_between {span : ℕ} (hpos : 0 < span) (hgap : span ≤ maxGap) :
    Between (2 ^ (-30 : ℤ)) 1 (seconds span) := by
  have hgap' : span ≤ 500000000 := hgap
  obtain ⟨hnanos, hnanosValue⟩ := natCast_spec (n := span) (by omega)
  obtain ⟨hbillion, hbillionValue⟩ := natCast_spec (n := 1000000000) (by norm_num)
  obtain ⟨hzero, hzeroValue⟩ := natCast_spec (n := 0) (by norm_num)
  have hleast : (2 : ℚ) ^ (-30 : ℤ) ≤ (span : ℚ) / (1000000000 : ℕ) := by
    rw [le_div_iff₀ (by norm_num)]
    have hspan : (1 : ℚ) ≤ span := by exact_mod_cast hpos
    norm_num
    linarith
  have hmost : (span : ℚ) / (1000000000 : ℕ) ≤ 1 := by
    rw [div_le_one (by norm_num)]
    exact_mod_cast (by omega : span ≤ 1000000000)
  have hquotient := div_roundedTo hnanos hbillion (by rw [hbillionValue]; norm_num)
  rw [hnanosValue, hbillionValue] at hquotient
  have hbetween : Between (2 ^ (-30 : ℤ)) 1 (Float.ofNat span / Float.ofNat 1000000000) :=
    .of_roundedTo hquotient (.two_zpow (by omega)) .one
      (by linarith [one_le_summit, (by positivity : (0 : ℚ) < 2 ^ (-30 : ℤ))]) one_le_summit hleast
      hmost
  have hsum := add_roundedTo hzero hbetween.finite
  rw [hzeroValue, Nat.cast_zero, zero_add] at hsum
  have hseconds : (seconds span : Float) =
      Float.ofNat 0 + Float.ofNat span / Float.ofNat 1000000000 := by
    change Float.ofNat (span / 1000000000) + Float.ofNat (span % 1000000000) / _ = _
    rw [Nat.div_eq_of_lt (by omega), Nat.mod_eq_of_lt (by omega)]
    rfl
  rw [hseconds]
  exact .of_roundedTo hsum (.two_zpow (by omega)) .one
    (by linarith [one_le_summit, (by positivity : (0 : ℚ) < 2 ^ (-30 : ℤ))]) one_le_summit
    hbetween.lower hbetween.upper

end Filter

/-! ## Settings -/

/-- The settings are finite, and neither a speed nor a cutoff overflows for coordinates up to
`2 ^ k`.  A time step is never shorter than `2 ^ -30` seconds. -/
structure AdaptiveSettings.Tame (s : AdaptiveSettings Float) (k : ℕ) : Prop where
  size : k ≤ 990
  minCutoff : s.minCutoff.isFinite
  beta : s.beta.isFinite
  dCutoff : s.dCutoff.isFinite
  cutoff : value s.minCutoff + value s.beta * 2 ^ (k + 31) ≤ 2 ^ 1018
  speedCutoff : value s.dCutoff ≤ 2 ^ 1018

omit [Trigonometry Float] in
/-- The default settings are tame far beyond the coordinates of any screen. -/
theorem AdaptiveSettings.default_tame {k : ℕ} (hk : k ≤ 986) : AdaptiveSettings.default.Tame k := by
  have hone : Between 0 1 (1.0 : Float) :=
    .of_natCast_le (m := 0) (n := 1) (by norm_num) (by norm_num) (by decide +kernel)
      (by decide +kernel) (by decide +kernel)
  have hbeta : Between 0 1 (0.007 : Float) :=
    .of_natCast_le (m := 0) (n := 1) (by norm_num) (by norm_num) (by decide +kernel)
      (by decide +kernel) (by decide +kernel)
  have hlimit : (1 : ℚ) ≤ 2 ^ 1018 := one_le_pow₀ one_le_two
  refine ⟨hk.trans (by norm_num), hone.finite, hbeta.finite, hone.finite, ?_,
    hone.upper.trans hlimit⟩
  calc value (1.0 : Float) + value (0.007 : Float) * 2 ^ (k + 31)
    _ ≤ 1 + 1 * 2 ^ (k + 31) := by gcongr; exacts [hone.upper, hbeta.upper]
    _ ≤ 2 ^ (k + 31) + 2 ^ (k + 31) := by gcongr <;> simp [one_le_pow₀]
    _ = 2 ^ (k + 32) := by ring
    _ ≤ 2 ^ 1018 := pow_le_pow_right₀ one_le_two (by omega)

theorem value_nonneg_of_isPositive {a : Float} (ha : a.isFinite)
    (h : Scalar.isPositive a = true) : 0 ≤ value a := by
  obtain ⟨hzero, hzeroValue⟩ := natCast_spec (n := 0) (by norm_num)
  have hlt : Float.ofNat 0 < a := of_decide_eq_true h
  rw [lt_iff hzero ha, hzeroValue, Nat.cast_zero] at hlt
  exact hlt.le

theorem value_nonneg_of_isNonnegative {a : Float} (ha : a.isFinite)
    (h : Scalar.isNonnegative a = true) : 0 ≤ value a := by
  obtain ⟨hzero, hzeroValue⟩ := natCast_spec (n := 0) (by norm_num)
  have hle : Float.ofNat 0 ≤ a := of_decide_eq_true h
  rwa [le_iff hzero ha, hzeroValue, Nat.cast_zero] at hle

theorem AdaptiveSettings.Tame.nonneg {s : AdaptiveSettings Float} {k : ℕ} (tame : s.Tame k)
    (accepted : Accepted s.checks) :
    0 ≤ value s.minCutoff ∧ 0 ≤ value s.beta ∧ 0 ≤ value s.dCutoff := by
  simp only [Accepted, checks, List.forall_mem_cons] at accepted
  obtain ⟨hminCutoff, hbeta, hdCutoff, -⟩ := accepted
  exact ⟨value_nonneg_of_isPositive tame.minCutoff hminCutoff,
    value_nonneg_of_isNonnegative tame.beta hbeta,
    value_nonneg_of_isPositive tame.dCutoff hdCutoff⟩

namespace Filter

/-! ## Steps -/

/-- A low-pass filter on coordinates up to `2 ^ k`. -/
structure Settled (k : ℕ) (p : LowPass Float) : Prop where
  value : Between (-2 ^ k) (2 ^ k) p.value
  speed : Between (-2 ^ (k + 31)) (2 ^ (k + 31)) p.speed

variable {s : AdaptiveSettings Float} {k : ℕ} {p : LowPass Float} {x dt : Float}

theorem settled_start (hx : Between (-2 ^ k) (2 ^ k) x) : Settled k (.start x) := by
  obtain ⟨hzero, hzeroValue⟩ := natCast_spec (n := 0) (by norm_num)
  rw [Nat.cast_zero] at hzeroValue
  have hpow : (0 : ℚ) ≤ 2 ^ (k + 31) := by positivity
  exact ⟨hx, hzero, hzeroValue ▸ neg_nonpos.mpr hpow, hzeroValue ▸ hpow⟩

/-- The cutoff is positive and does not overflow. -/
theorem cutoff_between (accepted : Accepted s.checks) (tame : s.Tame k) {speed : Float}
    (hspeed : Between (-2 ^ (k + 31)) (2 ^ (k + 31)) speed) :
    Between 0 (2 ^ 1018) (s.minCutoff + s.beta * speed.abs) := by
  obtain ⟨hmin, hbeta, -⟩ := tame.nonneg accepted
  have hlimit : (2 : ℚ) ^ 1018 ≤ summit := two_pow_le_summit (by omega)
  have hgain : Double.value s.beta * Double.value speed.abs ≤
      Double.value s.beta * 2 ^ (k + 31) := by
    rw [value_abs]
    exact mul_le_mul_of_nonneg_left hspeed.abs_value_le hbeta
  have hspeed' : 0 ≤ Double.value speed.abs := value_abs speed ▸ abs_nonneg _
  have hproduct := Between.of_nonneg (mul_roundedTo tame.beta (isFinite_abs hspeed.finite))
    ((representable_value tame.beta).mul_two_pow (k + 31))
    ((le_add_of_nonneg_left hmin).trans (tame.cutoff.trans hlimit)) (mul_nonneg hbeta hspeed') hgain
  exact .of_nonneg (add_roundedTo tame.minCutoff hproduct.finite) (.two_pow _) hlimit
    (add_nonneg hmin hproduct.lower) ((add_le_add_right hproduct.upper _).trans tame.cutoff)

/-- A step keeps the value and the speed within their bounds. -/
theorem settled_update (accepted : Accepted s.checks) (tame : s.Tame k)
    (hdt : Between (2 ^ (-30 : ℤ)) 1 dt) (hp : Settled k p) (hx : Between (-2 ^ k) (2 ^ k) x) :
    Settled k (p.update s dt x) := by
  have hstep : Between 0 1 dt :=
    ⟨hdt.finite, (by positivity : (0 : ℚ) ≤ 2 ^ (-30 : ℤ)).trans hdt.lower, hdt.upper⟩
  have hderivative : Between 0 (2 ^ 1018) s.dCutoff :=
    ⟨tame.dCutoff, (tame.nonneg accepted).2.2, tame.speedCutoff⟩
  have hsize := tame.size
  have hspeed := blend_between (by omega) (weight_between le_rfl hstep hderivative)
    (slope_between hsize hdt hx hp.value) hp.speed
  have hcutoff := cutoff_between accepted tame hspeed
  exact ⟨blend_between (by omega) (weight_between le_rfl hstep hcutoff) hx hp.value, hspeed⟩

theorem turns_adaptive {s : AdaptiveSettings Float} {k : ℕ} (accepted : Accepted s.checks)
    (tame : s.Tame k) :
    (Filter.adaptive (.ofSettings s)).Turns (Point.Within k) (Point.Within k) := by
  refine turns_adaptive_of_update (I := fun state => Settled k state.x ∧ Settled k state.y) ?_ ?_ ?_
  · intro p _ hp
    exact ⟨settled_start hp.x, settled_start hp.y⟩
  · rintro state p now later close ⟨hx, hy⟩ hp
    have hdt : Between (2 ^ (-30 : ℤ)) 1 (seconds (now - state.last)) :=
      seconds_between (by omega) (by omega)
    exact ⟨settled_update accepted tame hdt hx hp.x, settled_update accepted tame hdt hy hp.y⟩
  · rintro state ⟨hx, hy⟩
    exact ⟨hx.value, hy.value⟩

end Filter

end SensorBar
