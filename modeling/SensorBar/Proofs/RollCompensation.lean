import SensorBar.Proofs.BarFrames

/-! # Roll compensation

Turning the camera by an angle turns every dot by it and lowers the roll by it.  The tilted dots are
the same as before, and what the search measures in its levelled frame it reaches from the raw dots
by the offset angle and the roll together, so that the turn cancels there as well.  Every candidate
is therefore found again with nothing changed but its raw ends and its full angle.  No setting has a
part in that, and neither has what the tracker saw before.
-/

namespace SensorBar

variable {α : Type} [ExactScalar α]

theorem Point.rotate_turned (p : Point α) (roll phi : α) :
    (p.rotate phi).rotate (roll - phi) = p.rotate roll := by
  rw [rotate_rotate, add_sub_cancel]

theorem Pair.rotate_turned (p : Pair (Point α)) (roll phi : α) :
    (p.rotate phi).rotate (roll - phi) = p.rotate roll := by
  rw [rotate_rotate, add_sub_cancel]

namespace Bar

/-- A bar seen by a camera that is turned by `phi`, with the roll reported accordingly. -/
def turn (phi : α) (b : Bar α) : Bar α :=
  { b with raw := b.raw.rotate phi, angle := b.angle - phi }

@[simp] theorem width_turn (phi : α) (b : Bar α) : (b.turn phi).width = b.width := rfl

@[simp] theorem center_turn (phi : α) (b : Bar α) : (b.turn phi).center = b.center := rfl

/-! ## Candidates -/

theorem leftFirst_turned (roll phi : α) (p q : Point α) :
    leftFirst (roll - phi) (p.rotate phi) (q.rotate phi) = (leftFirst roll p q).rotate phi := by
  unfold leftFirst
  rw [Point.rotate_turned, Point.rotate_turned]
  split <;> rfl

theorem ofEnds_turned (roll phi : α) (ends : Pair (Point α)) :
    ofEnds (roll - phi) (ends.rotate phi) = (ofEnds roll ends).turn phi := by
  have hangle : (ends.rotate roll).levelling + (roll - phi) =
      (ends.rotate roll).levelling + roll - phi := (add_sub_assoc _ roll phi).symm
  simp only [ofEnds, turn, Pair.rotate_turned, hangle, Pair.span_rotate, Point.norm_rotate]

/-- Two dots make the same bar for a turned camera. -/
theorem ofPoints?_turned (s : PointerSettings α) (roll phi : α) (p q : Point α)
    (others : List (Point α)) :
    ofPoints? s (roll - phi) (p.rotate phi, q.rotate phi, others.map (·.rotate phi)) =
      (ofPoints? s roll (p, q, others)).map (turn phi) := by
  generalize hends : leftFirst roll p q = ends
  have hturned : leftFirst (roll - phi) (p.rotate phi) (q.rotate phi) = ends.rotate phi := by
    rw [leftFirst_turned, hends]
  have hwidth : (ends.rotate phi).span.norm = ends.span.norm := by
    rw [Pair.span_rotate, Point.norm_rotate]
  have hblocked (dot : Point α) : liesBetween s ((ofEnds roll ends).turn phi).corrected
      ((dot.rotate phi).rotate ((ofEnds roll ends).turn phi).angle) =
        liesBetween s (ofEnds roll ends).corrected (dot.rotate (ofEnds roll ends).angle) :=
    congrArg (liesBetween s (ofEnds roll ends).corrected) (dot.rotate_turned _ phi)
  rw [ofPoints?, ofPoints?, ofDots?_seenAt s hturned, ofDots?_seenAt s hends, ofEnds_turned,
    Pair.rotate_turned, hwidth]
  simp only [List.any_map, Function.comp_def, seenAt, hblocked]
  simp only [apply_ite (Option.map (turn phi)), Option.map_none, Option.map_some]

theorem candidates_turned (s : PointerSettings α) (roll phi : α) (points : List (Point α)) :
    candidates s (roll - phi) (Dot.ofPoints (roll - phi) (rotateAll points phi)) =
      (candidates s roll (Dot.ofPoints roll points)).map (turn phi) := by
  rw [candidates_eq_filterMap, candidates_eq_filterMap, rotateAll, pairs_map, List.filterMap_map,
    List.map_filterMap]
  exact List.filterMap_congr fun entry _ => ofPoints?_turned s roll phi _ _ _

/-- Selection sees only scores, which a turn leaves alone. -/
theorem select_turned (preference : Preference) (phi : α) (bars : List (Bar α)) :
    select preference (bars.map (turn phi)) = (select preference bars).map (turn phi) :=
  winner_map (fun a b => by cases preference <;> rfl) bars

end Bar

namespace Tracker

/-- Two trackers of the same settings place a bar at the same spot, at the same distance. -/
theorem follow_turned {t u : Tracker α} (settings : u.settings = t.settings) (bar : Bar α)
    (phi : α) (health : Health) :
    u.follow (bar.turn phi) health =
        { t.follow bar health with lastBar := some (bar.turn phi) } ∧
      (u.follow (bar.turn phi) health).liveFrame = (t.follow bar health).liveFrame := by
  simp [follow, liveFrame, staleFrame, settings]

/-- A frame that shows the bar makes the same pointer frame from whichever angle it is seen. -/
theorem advance_turned {t u : Tracker α} (settings : u.settings = t.settings) {roll : α} (phi : α)
    {points : List (Point α)} (shown : t.candidates roll points ≠ []) :
    ∃ bar next frame, next.lastBar = some bar ∧ t.advance roll points = .ok (next, frame) ∧
      u.advance (roll - phi) (rotateAll points phi) =
        .ok ({ next with lastBar := some (bar.turn phi) }, frame) := by
  obtain ⟨bar, hbar⟩ := Option.ne_none_iff_exists'.mp
    (mt (Bar.select_eq_none_iff t.settings.candidatePreference _).mp shown)
  have hbar' : Bar.select u.settings.candidatePreference
      (u.candidates (roll - phi) (rotateAll points phi)) = some (bar.turn phi) := by
    rw [settings, candidates, settings, Bar.candidates_turned, Bar.select_turned]
    exact congrArg _ hbar
  obtain ⟨hnext, hframe⟩ := follow_turned settings bar phi .good
  refine ⟨bar, t.follow bar .good, (t.follow bar .good).liveFrame, rfl, advance_of_select hbar, ?_⟩
  rw [advance_of_select hbar', hframe, hnext]

/--
A camera that is turned by any angle, with the roll reported accordingly, is shown the same
candidates in the same order, but for their raw ends and their full angles, and selects the same
one.  So from a frame that shows the bar, whatever either tracker saw before, the turned camera
makes the same pointer frame.
-/
theorem roll_compensated (s : PointerSettings α) (roll phi : α) (points : List (Point α)) :
    let bars := Bar.candidates s roll (Dot.ofPoints roll points)
    let turned := Bar.candidates s (roll - phi) (Dot.ofPoints (roll - phi) (rotateAll points phi))
    turned = bars.map (.turn phi) ∧
      (∀ preference, Bar.select preference turned = (Bar.select preference bars).map (.turn phi)) ∧
      (bars ≠ [] → ∀ t u : Tracker α, t.settings = s → u.settings = s →
        ∃ bar next frame, next.lastBar = some bar ∧ t.advance roll points = .ok (next, frame) ∧
          u.advance (roll - phi) (rotateAll points phi) =
            .ok ({ next with lastBar := some (bar.turn phi) }, frame) ∧
          ∀ level tilted : Camera.Slots, level.InView → tilted.InView → level.dots = points →
            tilted.dots = rotateAll points phi →
              t.step level roll = .ok (next, frame) ∧
                u.step tilted (roll - phi) =
                  .ok ({ next with lastBar := some (bar.turn phi) }, frame)) := by
  intro bars turned
  have hturned : turned = bars.map (.turn phi) := Bar.candidates_turned s roll phi points
  refine ⟨hturned, fun preference => ?_, ?_⟩
  · rw [hturned, Bar.select_turned]
  · rintro shown t u rfl settings
    obtain ⟨bar, next, frame, last, hadvance, hadvance'⟩ := advance_turned settings phi shown
    refine ⟨bar, next, frame, last, hadvance, hadvance', ?_⟩
    rintro level tilted inView inView' hlevel htilted
    exact ⟨step_eq_ok_iff.mpr ⟨inView, hlevel ▸ hadvance⟩,
      step_eq_ok_iff.mpr ⟨inView', htilted ▸ hadvance'⟩⟩

/-- The two emitters of a level bar, then the same two with the camera on its side. -/
theorem roll_compensated_of_quarterTurn :
    let level : Camera.Slots := #v[some ⟨200, 384⟩, none, some ⟨800, 384⟩, none]
    let tilted : Camera.Slots := #v[some ⟨512, 696⟩, none, some ⟨512, 96⟩, none]
    level.InView ∧ tilted.InView ∧
      ∃ (bar : Bar ℝ) (next : Tracker ℝ) (frame : Frame ℝ),
        (start .exactDefault).step level 0 = .ok (next, frame) ∧
          (start .exactDefault).step tilted (0 - Real.pi / 2) =
            .ok ({ next with lastBar := some (bar.turn (Real.pi / 2)) }, frame) := by
  intro level tilted
  have inView : level.InView := by decide
  have inView' : tilted.InView := by decide
  have hdots : tilted.dots = rotateAll (level.dots : List (Point ℝ)) (Real.pi / 2) := by
    have hsin : ExactScalar.sin (Real.pi / 2) = 1 := Real.sin_pi_div_two
    have hcos : ExactScalar.cos (Real.pi / 2) = 0 := Real.cos_pi_div_two
    simp [tilted, level, Camera.Slots.dots, Camera.Slots.spots, Camera.Spot.toPoint, rotateAll,
      Point.rotate_eq, hsin, hcos]
    norm_num
  obtain ⟨bar, next, frame, -, -, -, hsteps⟩ :=
    (roll_compensated .exactDefault 0 (Real.pi / 2) level.dots).2.2 (acquires_level (α := ℝ))
      (start .exactDefault) (start .exactDefault) rfl rfl
  obtain ⟨hlevel, htilted⟩ := hsteps level tilted inView inView' rfl hdots
  exact ⟨inView, inView', bar, next, frame, hlevel, htilted⟩

end Tracker

end SensorBar
