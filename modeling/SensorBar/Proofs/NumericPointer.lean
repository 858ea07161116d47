import SensorBar.Proofs.AdaptiveBounds
import SensorBar.Proofs.NumericRadius

/-! # Pointers that are numbers

Accepted settings may hold infinities, and finite ones may overflow.  Where that is excluded no
valid frame that leaves the stages of accepted settings has a coordinate that is not a number.
-/

namespace SensorBar

open Double

/-! ## Rectangles of accepted settings -/

/-- Bounds that are whole numbers are a finite distance apart. -/
theorem Double.isFinite_natCast_sub_neg {m n : ℕ} (hm : m < 2 ^ 53) (hn : n < 2 ^ 53) :
    (Float.ofNat m - -Float.ofNat n).isFinite := by
  obtain ⟨hfinite, hvalue⟩ := natCast_spec hm
  obtain ⟨hfinite', hvalue'⟩ := natCast_spec hn
  have hsum : |(m : ℚ) - -n| ≤ summit := by
    have hm' : (m : ℚ) < 2 ^ 53 := by exact_mod_cast hm
    have hn' : (n : ℚ) < 2 ^ 53 := by exact_mod_cast hn
    rw [sub_neg_eq_add, abs_of_nonneg (add_nonneg m.cast_nonneg n.cast_nonneg)]
    exact (by linarith : (m : ℚ) + n ≤ 2 ^ 54).trans (two_pow_le_summit (by omega))
  have hrounded := sub_roundedTo hfinite (isFinite_neg hfinite')
  rw [value_neg, hvalue, hvalue'] at hrounded
  exact hrounded.isFinite hsum

section

variable [Trigonometry Float]

/-- Settings accept no rectangle whose bounds are numbers and out of order. -/
theorem Rect.lt_of_isEmpty_eq_false {r : Rect Float} (nonempty : r.isEmpty = false)
    (hmin : r.min.Numeric) (hmax : r.max.Numeric) : r.min.x < r.max.x ∧ r.min.y < r.max.y := by
  simp only [isEmpty, Bool.or_eq_false_iff, decide_eq_false_iff_not] at nonempty
  exact ⟨lt_of_not_le hmin.x hmax.x nonempty.1, lt_of_not_le hmin.y hmax.y nonempty.2⟩

theorem Rect.bounded_ofBounds {left bottom right top : Float} (width : (right - left).isFinite)
    (height : (top - bottom).isFinite) : (ofBounds left bottom right top).Bounded :=
  ⟨width, height⟩

theorem Translation.preset_bounded {halfWidth below above : ℕ} (hwidth : halfWidth < 2 ^ 53)
    (hbelow : below < 2 ^ 53) (habove : above < 2 ^ 53) :
    (preset halfWidth below above : Mapping Float).source.Bounded ∧
      (preset halfWidth below above : Mapping Float).destination.Bounded := by
  have hone : 1 < 2 ^ 53 := by norm_num
  exact ⟨Rect.bounded_ofBounds (isFinite_natCast_sub_neg hwidth hwidth)
      (isFinite_natCast_sub_neg habove hbelow),
    Rect.bounded_ofBounds (isFinite_natCast_sub_neg hone hone) (isFinite_natCast_sub_neg hone hone)⟩

omit [Trigonometry Float] in
theorem Translation.mapping_eq_none_iff {α : Type} [Scalar α] {t : Translation α} :
    t.mapping = none ↔ t = .off := by
  cases t <;> simp [mapping]

/-- Only a custom translation can be without bounds. -/
theorem Translation.mapping_bounded {t : Translation Float}
    (custom : ∀ m, t = .custom m → m.source.Bounded ∧ m.destination.Bounded) {m : Mapping Float}
    (h : t.mapping = some m) : m.source.Bounded ∧ m.destination.Bounded := by
  cases t with
  | off => cases h
  | custom own => exact Option.some.inj h ▸ custom own rfl
  | _ =>
    rw [← Option.some.inj h]
    exact preset_bounded (by norm_num) (by norm_num) (by norm_num)

/-! ## Chains of accepted settings -/

/-- What keeps a smoothing stage from overflowing on a stream. -/
def Smoothing.Tame (stream : List (Frame Float × Nat)) : Smoothing Float → Prop
  | .off => True
  | .radius s => s.radius.isFinite
  | .adaptive s => ∃ k, s.Tame k ∧ ∀ entry ∈ stream, entry.1.Meets (Point.Within k)

namespace Filter

/-- Behind a translation it does not matter what came before it. -/
theorem turns_chain_translate {m : Mapping Float} (hsource : m.source.Bounded)
    (hdestination : m.destination.Bounded) (before : List (Filter Float)) :
    (Filter.chain (before ++ [.translate m])).Turns (fun _ => True) Point.Numeric := by
  induction before with
  | nil => exact turns_chain_cons (turns_translate hsource hdestination) turns_chain_nil
  | cons g rest ih => exact turns_chain_cons (fun _ _ _ _ _ => trivial) ih

/-- Dropout repair and glitch rejection come first, and only repeat positions. -/
theorem turns_ofSettings_of_off {s : FilterSettings Float} {P Q : Point Float → Prop}
    (off : s.translate = .off) (h : (Filter.chain (ofSmoothing s.smoothing)).Turns P Q) :
    (Filter.chain (ofSettings s)).Turns P Q := by
  have hstages : ofSettings s = .dropout (.ofSettings s.error) :: .glitch (.ofSettings s.glitch) ::
      ofSmoothing s.smoothing := by
    simp [ofSettings, off, Translation.mapping]
  rw [hstages]
  exact turns_chain_cons (turns_dropout _) (turns_chain_cons (turns_glitch _ _) h)

theorem run_untranslated_numeric (defined : Trigonometry.Defined) {s : FilterSettings Float}
    (accepted : Accepted s.checks) (off : s.translate = .off) {stream : List (Frame Float × Nat)}
    (finite : ∀ entry ∈ stream, entry.1.Meets Point.Finite) (tame : s.smoothing.Tame stream) :
    ∀ f ∈ ((Filter.chain (ofSettings s)).run stream).2, f.Meets Point.Numeric := by
  obtain ⟨-, hsmoothing, -⟩ := s.accepted_iff.mp accepted
  cases hkind : s.smoothing with
  | off =>
    refine turns_ofSettings_of_off off ?_ stream finite
    rw [hkind]
    exact turns_chain_nil.mono (fun _ h => h) fun _ h => h.numeric
  | radius own =>
    rw [hkind] at tame hsmoothing
    refine turns_ofSettings_of_off off ?_ stream finite
    rw [hkind]
    exact turns_chain_cons (turns_radius defined tame (RadiusSettings.speed_finite hsmoothing))
      turns_chain_nil
  | adaptive own =>
    rw [hkind] at tame hsmoothing
    obtain ⟨k, htame, hwithin⟩ := tame
    refine turns_ofSettings_of_off off ?_ stream hwithin
    rw [hkind]
    exact turns_chain_cons ((turns_adaptive hsmoothing htame).mono (fun _ h => h)
      fun _ h => h.finite.numeric) turns_chain_nil

/--
The pointer of accepted settings is a number.  A custom translation has to have finite extents, and
then it does not matter what came before it.  Without a translation the radius has to be finite, or
the speeds and cutoffs of adaptive smoothing must not overflow.
-/
theorem run_numeric (defined : Trigonometry.Defined) {s : Settings Float}
    (accepted : s.violation? = none) :
    (∀ m, s.filter.translate.mapping = some m → ∀ r ∈ [m.source, m.destination],
      r.min.Numeric → r.max.Numeric → r.min.x < r.max.x ∧ r.min.y < r.max.y) ∧
    ((∀ m, s.filter.translate = .custom m → m.source.Bounded ∧ m.destination.Bounded) →
      ∀ stream : List (Frame Float × Nat),
        (∀ entry ∈ stream, entry.1.valid = true → entry.1.position.Finite) →
        (s.filter.translate = .off → s.filter.smoothing.Tame stream) →
        ∀ f ∈ ((Filter.chain (ofSettings s.filter)).run stream).2, f.valid = true →
          ¬ f.position.x.isNaN ∧ ¬ f.position.y.isNaN) := by
  have hfilter : Accepted s.filter.checks := fun check hcheck =>
    s.violation?_eq_none_iff.mp accepted check (List.mem_append_right _ hcheck)
  constructor
  · intro m hmapping r hr hmin hmax
    obtain ⟨hsource, hdestination⟩ := s.filter.rectangles_of_accepted hfilter hmapping
    simp only [List.mem_cons, List.not_mem_nil, or_false] at hr
    rcases hr with rfl | rfl
    · exact Rect.lt_of_isEmpty_eq_false hsource hmin hmax
    · exact Rect.lt_of_isEmpty_eq_false hdestination hmin hmax
  · intro custom stream finite tame f hf valid
    suffices h : f.Meets Point.Numeric from ⟨(h valid).x, (h valid).y⟩
    cases hmapping : s.filter.translate.mapping with
    | none =>
      have off := Translation.mapping_eq_none_iff.mp hmapping
      exact run_untranslated_numeric defined hfilter off finite (tame off) f hf
    | some m =>
      obtain ⟨hsource, hdestination⟩ := Translation.mapping_bounded custom hmapping
      have hstages : ofSettings s.filter =
          [.dropout (.ofSettings s.filter.error), .glitch (.ofSettings s.filter.glitch)] ++
            ofSmoothing s.filter.smoothing ++ [.translate m] := by
        simp [ofSettings, hmapping]
      rw [hstages] at hf
      exact turns_chain_translate hsource hdestination _ stream (fun _ _ _ => trivial) f hf

end Filter

end

/-! ## Concrete pointers -/

/-- The functions of the angles between positions that only move to the right. -/
@[reducible]
def Trigonometry.rightward : Trigonometry Float where
  sin _ := Float.ofNat 0
  cos _ := Float.ofNat 1
  atan2 _ _ := Float.ofNat 0

theorem Trigonometry.rightward_defined : @Trigonometry.Defined .rightward :=
  let _ := Trigonometry.rightward
  have hzero : (Float.ofNat 0).isFinite := (natCast_spec (by norm_num)).1
  have hone : (Float.ofNat 1).isFinite := (natCast_spec (by norm_num)).1
  { sin := fun _ _ => hzero, cos := fun _ _ => hone, atan2 := fun _ _ _ _ => hzero }

/-- Default settings but for the last stages, with a glitch filter that rejects nothing. -/
def Settings.ofStages (smoothing : Smoothing Float) (translate : Translation Float) :
    Settings Float :=
  { Settings.default with
    filter := ⟨.default, { GlitchSettings.default with maxCount := 0 }, smoothing, translate⟩ }

namespace Filter

/-- Positions on the first axis, ten milliseconds apart. -/
def axisStream (xs : List Float) : List (Frame Float × Nat) :=
  xs.zipIdx.map fun (x, i) => (⟨true, .good, ⟨x, Float.ofNat 0⟩, Float.ofNat 1⟩, i * 10000000)

/-- Both kinds of smoothing, untranslated, and a translation of one's own, on a jump by a hundred. -/
theorem run_numeric_of_rightward :
    ∃ _ : Trigonometry Float, Trigonometry.Defined ∧
      ∀ c ∈ [(Smoothing.radius RadiusSettings.default, Translation.off),
          (.adaptive .default, .off),
          (.radius .default,
            .custom ⟨.ofBounds (-200) (-100) 200 100, .ofBounds 0 0 640 480, false⟩)],
        (Settings.ofStages c.1 c.2).violation? = none ∧
        (∀ m, c.2 = .custom m → m.source.Bounded ∧ m.destination.Bounded) ∧
        (∀ entry ∈ axisStream [Float.ofNat 0, Float.ofNat 100], entry.1.position.Finite) ∧
        c.1.Tame (axisStream [Float.ofNat 0, Float.ofNat 100]) ∧
        ∀ f ∈ ((chain (ofSettings (Settings.ofStages c.1 c.2).filter)).run
            (axisStream [Float.ofNat 0, Float.ofNat 100])).2,
          f.valid = true → ¬ f.position.x.isNaN ∧ ¬ f.position.y.isNaN := by
  refine ⟨.rightward, Trigonometry.rightward_defined, fun c hc => ?_⟩
  have coordinate : ∀ n ≤ 100, Between (-2 ^ 7) (2 ^ 7) (Float.ofNat n) := fun n hn =>
    (Between.natCast (by omega)).mono (by linarith [(Nat.cast_nonneg n : (0 : ℚ) ≤ n)])
      (by exact_mod_cast hn.trans (by norm_num))
  have within : ∀ entry ∈ axisStream [Float.ofNat 0, Float.ofNat 100],
      entry.1.position.Within 7 := by
    simp only [axisStream, List.zipIdx_cons, List.zipIdx_nil, List.map_cons, List.map_nil,
      List.forall_mem_cons]
    exact ⟨⟨coordinate 0 (by norm_num), coordinate 0 (by norm_num)⟩,
      ⟨coordinate 100 le_rfl, coordinate 0 (by norm_num)⟩, by simp⟩
  have finite := fun entry hentry => (within entry hentry).finite
  have accepted : @Settings.violation? Float (@instScalarFloatOfTrigonometry .rightward)
      (.ofStages c.1 c.2) = none := by
    revert c
    decide +kernel
  have radius : RadiusSettings.default.radius.isFinite := by decide +kernel
  have stages : (∀ m, c.2 = .custom m →
        @Rect.Bounded .rightward m.source ∧ @Rect.Bounded .rightward m.destination) ∧
      c.1.Tame (axisStream [Float.ofNat 0, Float.ofNat 100]) := by
    simp only [List.mem_cons, List.not_mem_nil, or_false] at hc
    rcases hc with rfl | rfl | rfl
    · exact ⟨nofun, radius⟩
    · exact ⟨nofun, 7, AdaptiveSettings.default_tame (by norm_num), fun entry hentry _ =>
        within entry hentry⟩
    · refine ⟨?_, radius⟩
      intro m hm
      obtain rfl := Translation.custom.inj hm
      exact ⟨@Rect.bounded_ofBounds .rightward _ _ _ _ (by decide +kernel) (by decide +kernel),
        @Rect.bounded_ofBounds .rightward _ _ _ _ (by decide +kernel) (by decide +kernel)⟩
  exact ⟨accepted, stages.1, finite, stages.2,
    (@run_numeric .rightward Trigonometry.rightward_defined _ accepted).2 stages.1 _
      (fun entry hentry _ => finite entry hentry) fun _ => stages.2⟩

/-- A double near the greatest one. -/
def huge : Float :=
  Float.ofBits 0x7fe1ccf385ebc8a0

/--
Accepted settings alone do not keep a pointer numeric: not with an infinite cutoff, nor with finite
adaptive settings and a speed that overflows, nor with a rectangle whose width overflows, nor with
an infinite radius.
-/
theorem run_not_numeric :
    (∀ c ∈ [(Settings.ofStages (.adaptive { AdaptiveSettings.default with minCutoff := Float.inf })
          .off, axisStream [0, 1]),
        (.ofStages (.adaptive .default) .off, axisStream [0, huge]),
        (.ofStages .off (.custom ⟨.ofBounds (-1) (-1) 1 1, .ofBounds (-huge) (-1) huge 1, true⟩),
          axisStream [-1])],
      c.1.violation? = none ∧ (∀ entry ∈ c.2, entry.1.position.Finite) ∧
        ∃ f ∈ ((chain (ofSettings c.1.filter)).run c.2).2,
          f.valid = true ∧ ¬ f.position.Numeric) ∧
    ∃ _ : Trigonometry Float, Trigonometry.Defined ∧
      ∀ s ∈ [Settings.ofStages (.radius { RadiusSettings.default with radius := Float.inf }) .off],
        s.violation? = none ∧ (∀ entry ∈ axisStream [-huge, huge], entry.1.position.Finite) ∧
          ∃ f ∈ ((chain (ofSettings s.filter)).run (axisStream [-huge, huge])).2,
            f.valid = true ∧ ¬ f.position.Numeric :=
  ⟨by decide +kernel, .rightward, Trigonometry.rightward_defined, by decide +kernel⟩

end Filter

end SensorBar
