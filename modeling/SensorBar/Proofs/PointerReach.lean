import SensorBar.Proofs.LoneDot

/-! # How far the pointer can stray

A bar that is rebuilt from a rebuilt bar, and so on, does not run away.  A dot lies within the field
of view, and every rebuilding puts one end of the bar on a dot and keeps the vector between its ends,
which is that of two dots of the last frame that showed the bar.  So the invariant is `Bar.Within`:
one end is within a radius of the origin and the bar is at most twice that radius long.  The centre
is then never farther out than twice the radius, however many guesses were made and under which
rolls.
-/

namespace SensorBar

open ExactScalar

variable {α : Type} [ExactScalar α]

/-! ## Lengths of sums -/

namespace Point

theorem norm_le_of_normSq_le {p : Point α} {r : α} (hr : 0 ≤ r) (h : p.normSq ≤ r * r) :
    p.norm ≤ r := by
  rw [← norm_mul_norm] at h
  exact (mul_self_le_mul_self_iff p.norm_nonneg hr).mpr h

/-- The inequality of Cauchy and Schwarz. -/
theorem abs_dot_le (p q : Point α) : |p.dot q| ≤ p.norm * q.norm := by
  have hlagrange : p.dot q * p.dot q + p.cross q * p.cross q =
      (p.norm * q.norm) * (p.norm * q.norm) := by
    calc p.dot q * p.dot q + p.cross q * p.cross q = p.normSq * q.normSq := by
          simp only [dot, cross, normSq_eq]
          ring
      _ = (p.norm * q.norm) * (p.norm * q.norm) := by
          rw [← norm_mul_norm, ← norm_mul_norm]
          ring
  have hcross := mul_self_nonneg (p.cross q)
  refine abs_le_of_sq_le_sq ?_ (mul_nonneg p.norm_nonneg q.norm_nonneg)
  rw [pow_two, pow_two]
  linarith

theorem norm_add_le (p q : Point α) : (p + q).norm ≤ p.norm + q.norm := by
  refine norm_le_of_normSq_le (add_nonneg p.norm_nonneg q.norm_nonneg) ?_
  have hdot := (abs_le.mp (p.abs_dot_le q)).2
  calc (p + q).normSq = p.normSq + q.normSq + 2 * p.dot q := by
        simp only [normSq_eq, dot, add_x, add_y]
        ring
    _ ≤ p.norm * p.norm + q.norm * q.norm + 2 * (p.norm * q.norm) := by
        rw [norm_mul_norm, norm_mul_norm]
        linarith
    _ = (p.norm + q.norm) * (p.norm + q.norm) := by ring

theorem norm_sub_le (p q : Point α) : (p - q).norm ≤ p.norm + q.norm := by
  refine norm_le_of_normSq_le (add_nonneg p.norm_nonneg q.norm_nonneg) ?_
  have hdot := (abs_le.mp (p.abs_dot_le q)).1
  calc (p - q).normSq = p.normSq + q.normSq - 2 * p.dot q := by
        simp only [normSq_eq, dot, sub_x, sub_y]
        ring
    _ ≤ p.norm * p.norm + q.norm * q.norm + 2 * (p.norm * q.norm) := by
        rw [norm_mul_norm, norm_mul_norm]
        linarith
    _ = (p.norm + q.norm) * (p.norm + q.norm) := by ring

end Point

/-! ## The field of view -/

namespace Camera

/-- How far from the centre of the camera plane a dot can be. -/
def fieldRadius : α :=
  sqrt (1 + 639 / 512 * (639 / 512))

theorem fieldRadius_nonneg : (0 : α) ≤ fieldRadius :=
  sqrt_nonneg _

theorem fieldRadius_mul_self : (fieldRadius : α) * fieldRadius = 1 + 639 / 512 * (639 / 512) :=
  sqrt_mul_sqrt _ (by norm_num)

theorem Spot.norm_toPoint_le {s : Spot} (inView : s.InView) :
    (s.toPoint : Point α).norm ≤ fieldRadius := by
  have hx : (s.x.toNat : α) ≤ 1023 := by exact_mod_cast inView.1
  have hy : (s.y.toNat : α) ≤ 1023 := by exact_mod_cast inView.2.1
  have hx0 : (0 : α) ≤ s.x.toNat := Nat.cast_nonneg _
  have hy0 : (0 : α) ≤ s.y.toNat := Nat.cast_nonneg _
  have hpx : (s.toPoint : Point α).x = -((s.x.toNat : α) - 512) / 512 := by
    simp [toPoint]
  have hpy : (s.toPoint : Point α).y = ((s.y.toNat : α) - 384) / 512 := by
    simp [toPoint]
  refine Point.norm_le_of_normSq_le fieldRadius_nonneg ?_
  rw [fieldRadius_mul_self, Point.normSq_eq, hpx, hpy]
  refine add_le_add ?_ ?_
  · nlinarith
  · nlinarith

theorem Slots.norm_le_of_mem_dots {slots : Slots} (inView : slots.InView) {p : Point α}
    (h : p ∈ slots.dots) : p.norm ≤ fieldRadius := by
  obtain ⟨spot, hspot, rfl⟩ := List.mem_map.mp h
  exact spot.norm_toPoint_le (inView spot hspot)

end Camera

namespace Bar

/-- One end is within a radius of the origin, and the bar is at most twice the radius long. -/
structure Within (b : Bar α) (r : α) : Prop where
  anchored : ∃ e, (b.tilted.get e).norm ≤ r
  span : b.tilted.span.norm ≤ 2 * r

/-- The two ends together are twice the end at which a bar is held, give or take its length. -/
theorem norm_add_ends_le (ends : Pair (Point α)) (e : End) :
    (ends.left + ends.right).norm ≤ 2 * (ends.get e).norm + ends.span.norm := by
  cases e with
  | left =>
      have hends : ends.left + ends.right = ends.left + ends.left + ends.span := by
        apply Point.ext <;> simp [Pair.span]
      calc (ends.left + ends.right).norm
          ≤ (ends.left + ends.left).norm + ends.span.norm := hends ▸ Point.norm_add_le _ _
        _ ≤ ends.left.norm + ends.left.norm + ends.span.norm := by
            gcongr
            exact Point.norm_add_le _ _
        _ = 2 * ends.left.norm + ends.span.norm := by ring
  | right =>
      have hends : ends.left + ends.right = ends.right + ends.right - ends.span := by
        apply Point.ext <;> simp [Pair.span, add_comm]
      calc (ends.left + ends.right).norm
          ≤ (ends.right + ends.right).norm + ends.span.norm := hends ▸ Point.norm_sub_le _ _
        _ ≤ ends.right.norm + ends.right.norm + ends.span.norm := by
            gcongr
            exact Point.norm_add_le _ _
        _ = 2 * ends.right.norm + ends.span.norm := by ring

theorem center_scale_two (b : Bar α) : b.center.scale 2 = b.corrected.left + b.corrected.right := by
  rw [center_eq]
  apply Point.ext <;> simp [Pair.get]

theorem Within.norm_center_le {b : Bar α} {r roll : α} (h : b.Within r)
    (coherent : b.Coherent roll) : b.center.norm ≤ 2 * r := by
  obtain ⟨e, anchored⟩ := h.anchored
  have hend : (b.corrected.get e).norm = (b.tilted.get e).norm := by
    rw [coherent.corrected_get, Point.norm_rotate]
  have hspan : b.corrected.span.norm = b.tilted.span.norm := by
    rw [coherent.corrected_of_tilted, Pair.span_rotate, Point.norm_rotate]
  have htwice : b.center.norm * 2 ≤ 2 * r + 2 * r := by
    calc b.center.norm * 2 = (b.corrected.left + b.corrected.right).norm := by
          rw [← center_scale_two, Point.norm_scale _ zero_le_two]
      _ ≤ 2 * (b.corrected.get e).norm + b.corrected.span.norm := norm_add_ends_le _ e
      _ ≤ 2 * r + 2 * r := by
          rw [hend, hspan]
          linarith [h.span]
  linarith

/-! ## The two ways to build a bar -/

theorem within_ofEnds {ends : Pair (Point α)} {r : α} (left : ends.left.norm ≤ r)
    (right : ends.right.norm ≤ r) (roll : α) : (ofEnds roll ends).Within r where
  anchored := ⟨.left, (ends.left.norm_rotate roll).le.trans left⟩
  span := by
    have htilted : (ofEnds roll ends).tilted.span = ends.span.rotate roll :=
      ends.span_rotate roll
    calc (ofEnds roll ends).tilted.span.norm = ends.span.norm := by
          rw [htilted, Point.norm_rotate]
      _ ≤ ends.right.norm + ends.left.norm := Point.norm_sub_le _ _
      _ ≤ 2 * r := by linarith

theorem within_shiftTo {previous : Bar α} {r : α} (h : previous.Within r) (e : End) {dot : Point α}
    (near : dot.norm ≤ r) (roll : α) : (previous.shiftTo e dot roll).Within r where
  anchored := by
    refine ⟨e, ?_⟩
    have hheld : (previous.shiftTo e dot roll).tilted.get e = dot := by
      rw [tilted_shiftTo]
      apply Point.ext <;> simp
    rw [hheld]
    exact near
  span := by
    rw [span_tilted_shiftTo]
    exact h.span

/-! ## Any number of guesses -/

/-- A rebuilding of a bar: which end is put on which tilted dot, and under which roll. -/
structure Guess (α : Type) where
  role : End
  dot : Point α
  roll : α

/-- A bar that is rebuilt from rebuilt bars. -/
def guessed (b : Bar α) (guesses : List (Guess α)) : Bar α :=
  guesses.foldl (fun b g => b.shiftTo g.role g.dot g.roll) b

theorem Within.guessed {b : Bar α} {r : α} (h : b.Within r) {guesses : List (Guess α)}
    (near : ∀ g ∈ guesses, g.dot.norm ≤ r) : (b.guessed guesses).Within r := by
  induction guesses generalizing b with
  | nil => exact h
  | cons g rest ih =>
      have hfirst := within_shiftTo h g.role (near g List.mem_cons_self) g.roll
      exact ih hfirst fun later hlater => near later (List.mem_cons_of_mem g hlater)

theorem Coherent.guessed {b : Bar α} {before : α} (h : b.Coherent before)
    (guesses : List (Guess α)) : ∃ roll, (b.guessed guesses).Coherent roll := by
  induction guesses generalizing b before with
  | nil => exact ⟨before, h⟩
  | cons g rest ih => exact ih (coherent_shiftTo b g.role g.dot g.roll)

end Bar

namespace Tracker

/-! ## Runs -/

/-- A genuine transition that takes dots from the field of view keeps the stored bar within it. -/
theorem within_of_moves {s : PointerSettings α} (positive : 0 < s.minWidth) {r : α}
    {t next : Tracker α} {roll : α} {points : List (Point α)} {frame : Frame α}
    (settings : t.settings = s) (near : ∀ p ∈ points, p.norm ≤ r)
    (h : ∀ b, t.lastBar = some b → b.Within r) (moves : Moves t roll points next frame) :
    ∀ b, next.lastBar = some b → b.Within r := by
  cases moves with
  | lose empty => exact h
  | @find bar selected =>
      intro b last
      obtain rfl := Option.some.inj last
      have hmem := Bar.mem_of_select selected
      rw [candidates, settings, Bar.mem_candidates_iff positive] at hmem
      obtain ⟨i, j, -, rfl⟩ := hmem
      have hi := near points[i] (List.getElem_mem _)
      have hj := near points[j] (List.getElem_mem _)
      unfold Bar.leftFirst
      split
      · exact Bar.within_ofEnds hj hi roll
      · exact Bar.within_ofEnds hi hj roll
  | @carry previous bar dots unseen last alive recovered =>
      intro b hb
      obtain rfl := Option.some.inj hb
      obtain ⟨e, dot, hdot, rfl⟩ := Bar.eq_shiftTo_of_recover alive dots recovered
      obtain ⟨p, hp, rfl⟩ := List.mem_map.mp hdot
      refine Bar.within_shiftTo (h previous last) e ?_ roll
      rw [Point.norm_rotate]
      exact near p hp
  | wait dots unseen blind => exact h

theorem within_of_reaches {s : PointerSettings α} (positive : 0 < s.minWidth)
    {past : List (Transition α)} {t : Tracker α} (h : Reaches (start s) past t) :
    ∀ b, t.lastBar = some b → b.Within Camera.fieldRadius := by
  induction h with
  | start =>
      intro b last
      cases last
  | @step past o earlier genuine ih =>
      have inView : o.seen.slots.InView := (step_eq_ok_iff.mp genuine).1
      exact within_of_moves positive earlier.settings
        (fun p hp => Camera.Slots.norm_le_of_mem_dots inView hp) ih (moves_of_step genuine)

/-- A tracker that has placed no bar yet points at the origin. -/
theorem position_of_unplaced {s : PointerSettings α} {past : List (Transition α)} {t : Tracker α}
    (h : Reaches (start s) past t) (unplaced : t.lastBar = none) : t.position = .zero := by
  induction h with
  | start => rfl
  | @step past o earlier genuine ih =>
      obtain ⟨before, seen, after, frame⟩ := o
      have moves : Moves before seen.roll seen.dots after frame := moves_of_step genuine
      cases moves with
      | lose empty => exact ih unplaced
      | find selected => cases unplaced
      | carry dots unseen last alive recovered => cases unplaced
      | wait dots unseen blind => exact ih unplaced

theorem norm_scale_pointerScale_le {p : Point α} {r : α} (h : p.norm ≤ 2 * r) :
    (p.scale pointerScale).norm ≤ 1024 * r := by
  have hscale : (pointerScale : α) = 512 := Nat.cast_ofNat
  rw [hscale, Point.norm_scale _ (by norm_num)]
  linarith

theorem norm_position_le {s : PointerSettings α} (positive : 0 < s.minWidth)
    {past : List (Transition α)} {t : Tracker α} (h : Reaches (start s) past t) :
    t.position.norm ≤ 1024 * Camera.fieldRadius := by
  cases last : t.lastBar with
  | none =>
      rw [position_of_unplaced h last, Point.norm_zero]
      exact mul_nonneg (by norm_num) Camera.fieldRadius_nonneg
  | some b =>
      obtain ⟨v, -, coherent, -⟩ := storesPlaced_of_reaches positive h b last
      rw [(estimate_of_reaches h last).1]
      have hwithin := within_of_reaches positive h b last
      exact norm_scale_pointerScale_le (hwithin.norm_center_le coherent)

/--
The dots of a run lie in the field of view, and no frame of it, valid or stale, points farther from
the origin than twice as far, in pointer units.  Nor could it after any further guesses: whichever
dots of the field of view the stored bar is put on, with whichever ends and under whichever rolls,
the rebuilt bar stays within that bound.
-/
theorem run_within_reach {s : PointerSettings α} (accepted : Accepted s.checks)
    {sightings : List (Sighting α)} {past later : List (Transition α)} {o : Transition α}
    (split : (start s).run sightings = past ++ o :: later) :
    (∀ p ∈ o.seen.dots, p.norm ≤ Camera.fieldRadius) ∧
      o.frame.position.norm ≤ 1024 * Camera.fieldRadius ∧
      ∀ b, o.after.lastBar = some b → ∀ guesses : List (Bar.Guess α),
        (∀ g ∈ guesses, g.dot.norm ≤ Camera.fieldRadius) →
        ((b.guessed guesses).center.scale pointerScale).norm ≤ 1024 * Camera.fieldRadius := by
  have positive := PointerSettings.minWidth_pos accepted
  obtain ⟨reached, genuine⟩ := reaches_of_run split
  have next : Reaches (start s) (past ++ [o]) o.after := .step reached genuine
  have inView : o.seen.slots.InView := (step_eq_ok_iff.mp genuine).1
  have explained := (summary_of_reaches reached).explains (moves_of_step genuine)
  refine ⟨fun p hp => Camera.Slots.norm_le_of_mem_dots inView hp, ?_, ?_⟩
  · rw [explained.frame_estimate.1]
    exact norm_position_le positive next
  · intro b last guesses near
    obtain ⟨v, -, coherent, -⟩ := storesPlaced_of_reaches positive next b last
    obtain ⟨roll, hcoherent⟩ := coherent.guessed guesses
    have hwithin := (within_of_reaches positive next b last).guessed near
    exact norm_scale_pointerScale_le (hwithin.norm_center_le hcoherent)

/-- A bar, then one of its emitters on a turned camera, and two more guesses after that. -/
theorem run_within_reach_of_turningBar :
    ∃ (good o : Transition ℝ) (b : Bar ℝ),
      (start .exactDefault).run turningBar = [good] ++ o :: [] ∧ o.after.lastBar = some b ∧
      o.frame.position.norm ≤ 1024 * Camera.fieldRadius ∧
      ((b.guessed [⟨.left, .zero, 1⟩, ⟨.right, .zero, 2⟩]).center.scale pointerScale).norm ≤
        1024 * Camera.fieldRadius := by
  obtain ⟨good, o, hrun, hshown, -⟩ := run_turningBar
  have split : (start .exactDefault).run turningBar = [good] ++ o :: [] := hrun
  obtain ⟨reached, genuine⟩ := reaches_of_run split
  have hlast : o.after.lastBar ≠ none := by
    have summary := summary_of_reaches (.step reached genuine)
    rw [Ne, summary.lastBar, summary.health_dead, not_not]
    exact ⟨good.seen, by simp, hshown⟩
  obtain ⟨b, last⟩ := Option.ne_none_iff_exists'.mp hlast
  obtain ⟨-, hposition, hguessed⟩ := run_within_reach PointerSettings.exactDefault_accepted split
  refine ⟨good, o, b, split, last, hposition, hguessed b last _ ?_⟩
  simp [Point.norm_zero, Camera.fieldRadius_nonneg]

end Tracker

end SensorBar
