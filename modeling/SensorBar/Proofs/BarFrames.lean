import SensorBar.Proofs.SearchReference
import SensorBar.Proofs.TrackerHistory

/-! # The three coordinate frames of a bar

The search builds a bar from its raw ends and recovery builds one from its tilted ends.  Either way
the raw, tilted and corrected ends are one pair seen under three angles, as long as the roll is the
one of the frame that placed the bar.  Recovery moves the tilted ends as a rigid body, so the width
that the search asked for is never lost.
-/

namespace SensorBar

variable {α : Type} [ExactScalar α]

namespace Bar

/-- The coordinate frames of a bar agree, under the roll of the frame that placed it. -/
structure Coherent (b : Bar α) (roll : α) : Prop where
  tilted : b.tilted = b.raw.rotate roll
  offsetAngle : b.offsetAngle = b.tilted.levelling
  angle : b.angle = b.offsetAngle + roll
  corrected_of_raw : b.corrected = b.raw.rotate b.angle
  corrected_of_tilted : b.corrected = b.tilted.rotate b.offsetAngle
  level : b.corrected.left.y = b.corrected.right.y
  width : b.width = b.raw.span.norm

/-- A bar that is levelled from tilted ends is coherent. -/
theorem Coherent.of_levelled {b : Bar α} {roll : α} (tilted : b.tilted = b.raw.rotate roll)
    (offsetAngle : b.offsetAngle = b.tilted.levelling) (angle : b.angle = b.offsetAngle + roll)
    (corrected : b.corrected = b.tilted.rotate b.offsetAngle) : b.Coherent roll := by
  have hspan : b.corrected.span = ⟨b.raw.span.norm, 0⟩ := by
    rw [corrected, offsetAngle, Pair.span_rotate_levelling, tilted, Pair.span_rotate,
      Point.norm_rotate]
  refine ⟨tilted, offsetAngle, angle, ?_, corrected, ?_, congrArg Point.x hspan⟩
  · rw [corrected, tilted, Pair.rotate_rotate, angle, add_comm]
  · have hy := congrArg Point.y hspan
    simp only [Pair.span, Point.sub_y] at hy
    exact (sub_eq_zero.mp hy).symm

theorem Coherent.width_eq_tilted {b : Bar α} {roll : α} (h : b.Coherent roll) :
    b.width = b.tilted.span.norm := by
  rw [h.width, h.tilted, Pair.span_rotate, Point.norm_rotate]

/-! ## The two ways to build a bar -/

theorem coherent_ofEnds (roll : α) (ends : Pair (Point α)) : (ofEnds roll ends).Coherent roll :=
  .of_levelled rfl rfl rfl (ends.rotate_levelling_add roll)

theorem coherent_shiftTo (previous : Bar α) (e : End) (dot : Point α) (roll : α) :
    (previous.shiftTo e dot roll).Coherent roll :=
  .of_levelled (Pair.rotate_neg_rotate _ roll).symm rfl rfl rfl

/-- Recovery keeps the vector between the tilted ends. -/
theorem span_tilted_shiftTo (previous : Bar α) (e : End) (dot : Point α) (roll : α) :
    (previous.shiftTo e dot roll).tilted.span = previous.tilted.span := by
  cases e <;> apply Point.ext <;>
    simp [shiftTo, relevel, carry, Pair.place, Pair.span, Pair.get, End.other]

theorem width_shiftTo {previous : Bar α} {before : α} (h : previous.Coherent before) (e : End)
    (dot : Point α) (roll : α) : (previous.shiftTo e dot roll).width = previous.width := by
  rw [(coherent_shiftTo previous e dot roll).width_eq_tilted, span_tilted_shiftTo,
    h.width_eq_tilted]

end Bar

namespace Tracker

/-! ## Runs -/

/-- What is stored after some transitions is a bar that their latest valid one placed. -/
def StoresPlaced (s : PointerSettings α) (past : List (Transition α)) (t : Tracker α) : Prop :=
  ∀ b, t.lastBar = some b → ∃ o, latestValid past = some o ∧ b.Coherent o.seen.roll ∧
    s.minWidth ≤ b.width

section Transition

variable {s : PointerSettings α} {past : List (Transition α)} {t next : Tracker α}
  {seen : Sighting α} {frame : Frame α}

theorem StoresPlaced.of_stale (h : StoresPlaced s past t) (invalid : frame.valid = false)
    (same : next.lastBar = t.lastBar) :
    StoresPlaced s (past ++ [⟨t, seen, next, frame⟩]) next := by
  intro b last
  obtain ⟨o, hlatest, coherent, wide⟩ := h b (same ▸ last)
  refine ⟨o, ?_, coherent, wide⟩
  simp [latestValid_concat, invalid, hlatest]

theorem StoresPlaced.of_live {bar : Bar α} (valid : frame.valid = true)
    (last : next.lastBar = some bar) (coherent : bar.Coherent seen.roll)
    (wide : s.minWidth ≤ bar.width) :
    StoresPlaced s (past ++ [⟨t, seen, next, frame⟩]) next := by
  intro b hb
  obtain rfl : bar = b := Option.some.inj (last.symm.trans hb)
  refine ⟨⟨t, seen, next, frame⟩, ?_, coherent, wide⟩
  simp [latestValid_concat, valid]

theorem StoresPlaced.moves (positive : 0 < s.minWidth) (settings : t.settings = s)
    (h : StoresPlaced s past t) (moves : Moves t seen.roll seen.dots next frame) :
    StoresPlaced s (past ++ [⟨t, seen, next, frame⟩]) next := by
  cases moves with
  | lose empty => exact h.of_stale rfl rfl
  | @find bar selected =>
      have hmem := Bar.mem_of_select selected
      rw [candidates, settings, Bar.mem_candidates_iff positive] at hmem
      obtain ⟨i, j, passes, rfl⟩ := hmem
      have coherent := Bar.coherent_ofEnds seen.roll
        (Bar.leftFirst seen.roll seen.dots[i] seen.dots[j])
      refine .of_live rfl rfl coherent ?_
      rw [coherent.width]
      exact passes.wide
  | @carry previous bar dots unseen last alive recovered =>
      -- The roll of the earlier frame is forgotten: only its width is carried on.
      obtain ⟨o, -, coherent, wide⟩ := h previous last
      obtain ⟨e, dot, -, rfl⟩ := Bar.eq_shiftTo_of_recover alive dots recovered
      refine .of_live rfl rfl (Bar.coherent_shiftTo previous e dot seen.roll) ?_
      rw [Bar.width_shiftTo coherent]
      exact wide
  | wait dots unseen blind => exact h.of_stale rfl rfl

end Transition

theorem storesPlaced_of_reaches {s : PointerSettings α} (positive : 0 < s.minWidth)
    {past : List (Transition α)} {t : Tracker α} (h : Reaches (start s) past t) :
    StoresPlaced s past t := by
  induction h with
  | start =>
      intro b last
      cases last
  | @step past o earlier genuine ih =>
      obtain ⟨before, seen, after, frame⟩ := o
      exact ih.moves positive earlier.settings (moves_of_step genuine)

/--
After every step of a run the stored bar is coherent under the roll of the latest valid step, however
many guesses and rolls lie between it and the sighting that showed the bar, and it is never narrower
than a bar may be.
-/
theorem run_coherent {s : PointerSettings α} (accepted : Accepted s.checks)
    {sightings : List (Sighting α)} {past later : List (Transition α)} {o : Transition α}
    (split : (start s).run sightings = past ++ o :: later) {b : Bar α}
    (last : o.after.lastBar = some b) :
    ∃ v, latestValid (past ++ [o]) = some v ∧ b.Coherent v.seen.roll ∧
      s.minWidth ≤ b.width ∧ 0 < s.minWidth := by
  have positive := PointerSettings.minWidth_pos accepted
  obtain ⟨reached, genuine⟩ := reaches_of_run split
  obtain ⟨v, hlatest, coherent, wide⟩ :=
    storesPlaced_of_reaches positive (.step reached genuine) b last
  exact ⟨v, hlatest, coherent, wide, positive⟩

theorem acquires_level : (Sighting.ofTwo (some ⟨200, 384⟩) (some ⟨800, 384⟩) (0 : α)).Acquires
    (.exactDefault : PointerSettings α) := by
  have hdots : (Sighting.ofTwo (some ⟨200, 384⟩) (some ⟨800, 384⟩) (0 : α)).dots =
      [⟨312 / 512, 0⟩, ⟨-288 / 512, 0⟩] := by
    simp [Sighting.ofTwo, Sighting.dots, Camera.Slots.dots, Camera.Slots.spots,
      Camera.Spot.toPoint]
    norm_num
  have positive := PointerSettings.minWidth_pos (PointerSettings.exactDefault_accepted (α := α))
  unfold Sighting.Acquires Sighting.bars
  rw [hdots]
  apply Bar.candidates_ne_nil_of_level positive <;> norm_num [PointerSettings.exactDefault]

/-- Two emitters on a level camera, then one of them on a turned camera. -/
def turningBar : List (Sighting α) :=
  [.ofTwo (some ⟨200, 384⟩) (some ⟨800, 384⟩) 0, .ofTwo (some ⟨300, 500⟩) none 1]

theorem turningBar_acquired :
    Acquired (.exactDefault : PointerSettings α) (turningBar : List (Sighting α)) :=
  ⟨_, List.mem_cons_self, acquires_level⟩

theorem run_coherent_of_turningBar :
    ∃ past o, ∃ b : Bar ℝ, past ≠ [] ∧ (start .exactDefault).run turningBar = past ++ o :: [] ∧
      o.after.lastBar = some b ∧
      ∃ v, latestValid (past ++ [o]) = some v ∧ b.Coherent v.seen.roll ∧
        (.exactDefault : PointerSettings ℝ).minWidth ≤ b.width ∧
        0 < (.exactDefault : PointerSettings ℝ).minWidth := by
  have inView : ∀ seen ∈ (turningBar : List (Sighting ℝ)), seen.slots.InView := by
    simp only [turningBar, List.forall_mem_cons]
    decide
  have hseen := map_seen_run (start .exactDefault) turningBar inView
  obtain ⟨first, rest, hrun, -, hrest⟩ := List.map_eq_cons_iff.mp hseen
  obtain ⟨o, tail, rfl, -, htail⟩ := List.map_eq_cons_iff.mp hrest
  obtain rfl := List.map_eq_nil_iff.mp htail
  have split : (start .exactDefault).run turningBar = [first] ++ o :: [] := hrun
  obtain ⟨reached, genuine⟩ := reaches_of_run split
  have hlast : o.after.lastBar ≠ none := by
    have summary := summary_of_reaches (.step reached genuine)
    rw [Ne, summary.lastBar, summary.health_dead, not_not, ← split, hseen]
    exact turningBar_acquired
  obtain ⟨b, last⟩ := Option.ne_none_iff_exists'.mp hlast
  exact ⟨[first], o, b, List.cons_ne_nil _ _, split, last,
    run_coherent PointerSettings.exactDefault_accepted split last⟩

end Tracker

end SensorBar
