import SensorBar.Proofs.Accepted
import SensorBar.Proofs.NumericTranslation

/-! # Radius smoothing of doubles

The smoothed position may run off to infinity, but it stays a number: a position inside the radius
is finite, because no infinite length is below a bound, and beyond the radius the new one is
measured from the raw position.
-/

namespace SensorBar

open Double

/-- What is documented of a mathematical library: the functions of an angle are finite wherever they
are defined. -/
structure Trigonometry.Defined [Trigonometry Float] : Prop where
  sin : ∀ x : Float, x.isFinite → (Trigonometry.sin x).isFinite
  cos : ∀ x : Float, x.isFinite → (Trigonometry.cos x).isFinite
  atan2 : ∀ y x : Float, ¬ y.isNaN → ¬ x.isNaN → (Trigonometry.atan2 y x).isFinite

variable [Trigonometry Float]

/-- The check of the speed bounds it from both sides. -/
theorem RadiusSettings.speed_finite {s : RadiusSettings Float} (accepted : Accepted s.checks) :
    s.speed.isFinite := by
  simp only [Accepted, checks, List.forall_mem_cons, Bool.and_eq_true] at accepted
  obtain ⟨-, ⟨hpositive, hone⟩, -⟩ := accepted
  have hlt : Float.ofNat 0 < s.speed := of_decide_eq_true hpositive
  have hle : s.speed ≤ Float.ofNat 1 := of_decide_eq_true hone
  exact isFinite_of_lt_of_le (natCast_spec (by norm_num)).1 hlt hle

namespace Filter

theorem Radius.follow_numeric (defined : Trigonometry.Defined) {s : RadiusSettings Float}
    (hradius : s.radius.isFinite) (hspeed : s.speed.isFinite) {smoothed raw : Point Float}
    (hsmoothed : smoothed.Numeric) (hraw : raw.Finite) : (follow s smoothed raw).Numeric := by
  have hdx : ¬ (raw.x - smoothed.x).isNaN := sub_not_nan hraw.x hsmoothed.x
  have hdy : ¬ (raw.y - smoothed.y).isNaN := sub_not_nan hraw.y hsmoothed.y
  unfold follow
  dsimp only
  split
  · exact hsmoothed
  split
  next _ hnear =>
    have hinside : ∀ t, fields (raw.x - smoothed.x) ≠ .infinity t ∧
        fields (raw.y - smoothed.y) ≠ .infinity t := fun t =>
      ⟨fun h => not_length_lt hdx hdy (.inl h) _ hnear,
        fun h => not_length_lt hdx hdy (.inr h) _ hnear⟩
    have hdx' : (raw.x - smoothed.x).isFinite :=
      (isFinite_or_infinite hdx).resolve_right fun ⟨t, ht⟩ => (hinside t).1 ht
    have hdy' : (raw.y - smoothed.y).isFinite :=
      (isFinite_or_infinite hdy).resolve_right fun ⟨t, ht⟩ => (hinside t).2 ht
    exact ⟨add_not_nan (isFinite_of_sub_isFinite hdx').2 (mul_roundedTo hdx' hspeed).not_nan,
      add_not_nan (isFinite_of_sub_isFinite hdy').2 (mul_roundedTo hdy' hspeed).not_nan⟩
  next =>
    have hheading := defined.atan2 _ _ hdy hdx
    have hcos := mul_roundedTo (defined.cos _ hheading) hradius
    have hsin := mul_roundedTo (defined.sin _ hheading) hradius
    exact ⟨sub_not_nan hraw.x hcos.not_nan, sub_not_nan hraw.y hsin.not_nan⟩

theorem turns_radius (defined : Trigonometry.Defined) {s : RadiusSettings Float}
    (hradius : s.radius.isFinite) (hspeed : s.speed.isFinite) :
    (Filter.radius (.ofSettings s)).Turns Point.Finite Point.Numeric :=
  turns_radius_of_follow (fun _ finite => finite.numeric)
    fun _ _ => Radius.follow_numeric defined hradius hspeed

end Filter

end SensorBar
