import SensorBar.Filter.Chain
import SensorBar.Proofs.Double.Arithmetic
import SensorBar.Proofs.FilterStages

/-! # Translation of doubles

A translation between rectangles of finite extent makes numbers of whatever it is given: clipping
replaces what is not a number by a bound, and without clipping only a finite position lies in the
source.
-/

namespace SensorBar

open Double Float.Model.UnpackedFloat

/-- No coordinate is the value that is not a number. -/
structure Point.Numeric (p : Point Float) : Prop where
  x : ¬ p.x.isNaN
  y : ¬ p.y.isNaN

structure Point.Finite (p : Point Float) : Prop where
  x : p.x.isFinite
  y : p.y.isFinite

instance (p : Point Float) : Decidable p.Numeric :=
  decidable_of_iff (¬ p.x.isNaN ∧ ¬ p.y.isNaN) ⟨fun h => ⟨h.1, h.2⟩, fun h => ⟨h.x, h.y⟩⟩

instance (p : Point Float) : Decidable p.Finite :=
  decidable_of_iff (p.x.isFinite ∧ p.y.isFinite) ⟨fun h => ⟨h.1, h.2⟩, fun h => ⟨h.x, h.y⟩⟩

theorem Point.Finite.numeric {p : Point Float} (h : p.Finite) : p.Numeric :=
  ⟨not_nan_of_isFinite h.x, not_nan_of_isFinite h.y⟩

/-! ## One coordinate -/

namespace Double

variable {a b c : Float}

/-- What lies above a finite bound, or the bound itself in the place of something else. -/
theorem larger_cases [Trigonometry Float] (hb : b.isFinite) :
    (Scalar.larger a b).isFinite ∨ fields (Scalar.larger a b) = .infinity .positive := by
  by_cases hlt : a < b
  · rw [show Scalar.larger a b = b from if_pos hlt]
    exact .inl hb
  by_cases hself : (a == a) = true
  · rw [show Scalar.larger a b = a from (if_neg hlt).trans (if_pos hself)]
    obtain ha | ⟨s, hs⟩ := isFinite_or_infinite (not_nan_of_beq_self hself)
    · exact .inl ha
    · cases s with
      | negative => exact absurd (infinite_lt hs hb) hlt
      | positive => exact .inr hs
  · rw [show Scalar.larger a b = b from (if_neg hlt).trans (if_neg hself)]
    exact .inl hb

theorem isFinite_clamped [Trigonometry Float] (hb : b.isFinite) (hc : c.isFinite) :
    (Scalar.smaller (Scalar.larger a b) c).isFinite := by
  rcases larger_cases (a := a) hb with hfinite | hinfinite
  · unfold Scalar.smaller
    split_ifs
    exacts [hc, hfinite, hc]
  · rw [show Scalar.smaller (Scalar.larger a b) c = c from if_pos (lt_infinite hc hinfinite)]
    exact hc

/-- The distance of numbers that are apart does not vanish, thanks to gradual underflow. -/
theorem value_sub_pos (h : (b - a).isFinite) (hlt : value a < value b) : 0 < value (b - a) := by
  obtain ⟨hb, ha⟩ := isFinite_of_sub_isFinite h
  have hleast := (representable_value ha).least_le_sub (representable_value hb) hlt
  have hnearest := (sub_roundedTo hb ha).nearest h
  exact (by positivity : (0 : ℚ) < 2 ^ (-1074 : ℤ)).trans_le
    (hnearest.ge_of_ge (.two_zpow le_rfl) hleast)

/-- An affine map with finite coefficients. -/
theorem affine_not_nan {lo w lo' w' : Float} (ha : a.isFinite) (hlo : lo.isFinite)
    (hw : w.isFinite) (hne : value w ≠ 0) (hlo' : lo'.isFinite) (hw' : w'.isFinite)
    (hne' : value w' ≠ 0) : ¬ (lo' + (a - lo) / w * w').isNaN :=
  have hoffset : ¬ (a - lo).isNaN := sub_not_nan ha (not_nan_of_isFinite hlo)
  add_not_nan hlo' (mul_not_nan (div_not_nan hoffset hw hne) hw' hne')

end Double

/-! ## Rectangles -/

variable [Trigonometry Float]

/-- The extents are finite, and so are the bounds. -/
structure Rect.Bounded (r : Rect Float) : Prop where
  width : r.width.isFinite
  height : r.height.isFinite

namespace Rect.Bounded

variable {r : Rect Float}

theorem min_finite (h : r.Bounded) : r.min.Finite :=
  ⟨(isFinite_of_sub_isFinite h.width).2, (isFinite_of_sub_isFinite h.height).2⟩

theorem max_finite (h : r.Bounded) : r.max.Finite :=
  ⟨(isFinite_of_sub_isFinite h.width).1, (isFinite_of_sub_isFinite h.height).1⟩

theorem clamp_finite (h : r.Bounded) (p : Point Float) : (r.clamp p).Finite :=
  ⟨isFinite_clamped h.min_finite.x h.max_finite.x, isFinite_clamped h.min_finite.y h.max_finite.y⟩

theorem finite_of_contains (h : r.Bounded) {p : Point Float} (inside : r.contains p = true) :
    p.Finite := by
  simp only [contains, Bool.and_eq_true, decide_eq_true_iff] at inside
  obtain ⟨⟨⟨hleft, hright⟩, hbelow⟩, habove⟩ := inside
  exact ⟨isFinite_of_between h.min_finite.x hleft hright,
    isFinite_of_between h.min_finite.y hbelow habove⟩

theorem extent_pos (h : r.Bounded) (nonempty : r.isEmpty = false) :
    0 < value r.width ∧ 0 < value r.height := by
  simp only [isEmpty, Bool.or_eq_false_iff, decide_eq_false_iff_not] at nonempty
  obtain ⟨hx, hy⟩ := nonempty
  have hx : ¬ r.max.x ≤ r.min.x := hx
  have hy : ¬ r.max.y ≤ r.min.y := hy
  rw [le_iff h.max_finite.x h.min_finite.x, not_le] at hx
  rw [le_iff h.max_finite.y h.min_finite.y, not_le] at hy
  exact ⟨value_sub_pos h.width hx, value_sub_pos h.height hy⟩

end Rect.Bounded

theorem Rect.mapTo?_numeric {source target : Rect Float} (hsource : source.Bounded)
    (htarget : target.Bounded) {clip : Bool} {p q : Point Float}
    (inside : clip = true ∨ source.contains p = true) (h : source.mapTo? target clip p = some q) :
    q.Numeric := by
  have hfinite : (if clip then source.clamp p else p).Finite := by
    split
    · exact hsource.clamp_finite p
    next unclipped => exact hsource.finite_of_contains (inside.resolve_left unclipped)
  unfold mapTo? at h
  split at h
  · cases h
  next nonempty =>
    simp only [Bool.or_eq_true, not_or, Bool.not_eq_true] at nonempty
    obtain ⟨hsourceX, hsourceY⟩ := hsource.extent_pos nonempty.1
    obtain ⟨htargetX, htargetY⟩ := htarget.extent_pos nonempty.2
    obtain rfl := Option.some.inj h
    exact ⟨affine_not_nan hfinite.x hsource.min_finite.x hsource.width hsourceX.ne'
        htarget.min_finite.x htarget.width htargetX.ne',
      affine_not_nan hfinite.y hsource.min_finite.y hsource.height hsourceY.ne'
        htarget.min_finite.y htarget.height htargetY.ne'⟩

namespace Filter

/-- Whatever a translation is given, what it makes of it is numbers. -/
theorem turns_translate {m : Mapping Float} (hsource : m.source.Bounded)
    (hdestination : m.destination.Bounded) :
    (Filter.translate m).Turns (fun _ => True) Point.Numeric := by
  refine turns_of_stage .translate (fun m f _ => (m, m.apply f)) (fun m f now => by rw [step]; rfl)
    (I := (· = m)) ?_ rfl
  rintro own f - hown -
  subst hown
  refine ⟨rfl, ?_⟩
  unfold Mapping.apply
  split
  next valid =>
    split
    · intro invalid
      cases invalid
    next q hq =>
      intro inside
      exact Rect.mapTo?_numeric hsource hdestination (by simpa using inside) hq
  next invalid => exact fun valid => absurd valid invalid

end Filter

end SensorBar
