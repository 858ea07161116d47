import SensorBar.Proofs.BarFrames

/-! # The apparent bar

What a bar looks like once the roll is undone (the vector between its ends, the angle that levels it
and its width) is read off a pair of dots when the search finds it.  Recovery moves the bar and
turns it with the camera, but keeps that look: the induction runs over the steps since the last
frame that showed the bar, and is carried by the coherence of the stored bar, since the width of a
rebuilt bar is only that of the old one when the old one was level.  The distance is measured from
the width, so it stays as well.
-/

namespace SensorBar

variable {α : Type} [ExactScalar α]

namespace Bar

/-- Bars that differ by a shift, once the roll is undone. -/
structure SameShape (a b : Bar α) : Prop where
  span : a.tilted.span = b.tilted.span
  offsetAngle : a.offsetAngle = b.offsetAngle
  width : a.width = b.width

theorem SameShape.refl (b : Bar α) : b.SameShape b :=
  ⟨rfl, rfl, rfl⟩

theorem SameShape.trans {a b c : Bar α} (hab : a.SameShape b) (hbc : b.SameShape c) :
    a.SameShape c :=
  ⟨hab.span.trans hbc.span, hab.offsetAngle.trans hbc.offsetAngle, hab.width.trans hbc.width⟩

theorem sameShape_shiftTo {previous : Bar α} {before : α} (h : previous.Coherent before) (e : End)
    (dot : Point α) (roll : α) : (previous.shiftTo e dot roll).SameShape previous where
  span := span_tilted_shiftTo previous e dot roll
  offsetAngle := by
    have hnew := (coherent_shiftTo previous e dot roll).offsetAngle
    rw [hnew, h.offsetAngle, Pair.levelling, Pair.levelling, span_tilted_shiftTo]
  width := width_shiftTo h e dot roll

end Bar

/-! ## Distances -/

namespace PointerSettings

variable {s : PointerSettings α} {width : α}

theorem distanceForWidth_eq (s : PointerSettings α) (width : α) :
    s.distanceForWidth width = s.barWidth / 100 / (s.fovCoefficient * width) := by
  have hcm : ((100 : Nat) : α) = 100 := Nat.cast_ofNat
  rw [← hcm]
  rfl

theorem distanceForWidth_pos (accepted : Accepted s.checks) (positive : 0 < width) :
    0 < s.distanceForWidth width := by
  obtain ⟨-, -, -, hbar, -, -, -, -, hfov⟩ := s.accepted_iff.mp accepted
  rw [distanceForWidth_eq]
  exact div_pos (div_pos hbar (by norm_num)) (mul_pos hfov positive)

/-- A wider bar is nearer. -/
theorem distanceForWidth_anti (accepted : Accepted s.checks) {narrow : α} (positive : 0 < narrow)
    (wider : narrow ≤ width) : s.distanceForWidth width ≤ s.distanceForWidth narrow := by
  obtain ⟨-, -, -, hbar, -, -, -, -, hfov⟩ := s.accepted_iff.mp accepted
  rw [distanceForWidth_eq, distanceForWidth_eq]
  exact div_le_div_of_nonneg_left (div_pos hbar (by norm_num)).le (mul_pos hfov positive)
    (mul_le_mul_of_nonneg_left wider hfov.le)

end PointerSettings

namespace Tracker

/-! ## Along a run -/

section Runs

variable {β : Type} [Scalar β]

/-- The estimate that a tracker keeps is that of the bar it keeps. -/
theorem estimate_of_reaches {s : PointerSettings β} {past : List (Transition β)} {t : Tracker β}
    (h : Reaches (start s) past t) {b : Bar β} (last : t.lastBar = some b) :
    t.position = b.center.scale pointerScale ∧ t.distance = s.distanceForWidth b.width := by
  induction h generalizing b with
  | start => cases last
  | @step past o earlier genuine ih =>
      obtain ⟨before, seen, after, frame⟩ := o
      have settings : before.settings = s := earlier.settings
      have moves : Moves before seen.roll seen.dots after frame := moves_of_step genuine
      cases moves with
      | lose empty => exact ih last
      | find selected =>
          obtain rfl := Option.some.inj last
          exact ⟨rfl, by rw [← settings]; rfl⟩
      | carry dots unseen previous alive recovered =>
          obtain rfl := Option.some.inj last
          exact ⟨rfl, by rw [← settings]; rfl⟩
      | wait dots unseen blind => exact ih last

theorem healthAfter_eq_good_iff (s : PointerSettings β) (past : List (Sighting β))
    (now : Sighting β) : healthAfter s past now = .good ↔ now.Acquires s := by
  by_cases shown : now.Acquires s
  · simp [healthAfter_of_acquires shown, shown]
  · rw [healthAfter, if_neg shown]
    refine iff_of_false ?_ shown
    split
    · decide
    · split <;> decide

/-- A frame is good exactly when its own dots show the bar. -/
theorem frame_good_iff {s : PointerSettings β} {past : List (Transition β)} {o : Transition β}
    (reached : Reaches (start s) past o.before) (genuine : o.Genuine) :
    o.frame.health = .good ↔ o.seen.Acquires s := by
  have explained := (summary_of_reaches reached).explains (moves_of_step genuine)
  rw [explained.frame_health, explained.health]
  exact healthAfter_eq_good_iff s _ o.seen

/-- Only the search gives a frame the health `good`. -/
theorem found_of_good {s : PointerSettings β} {past : List (Transition β)} {o : Transition β}
    (reached : Reaches (start s) past o.before) (genuine : o.Genuine)
    (good : o.frame.health = .good) :
    ∃ bar, o.after = o.before.follow bar .good := by
  obtain ⟨before, seen, after, frame⟩ := o
  have moves : Moves before seen.roll seen.dots after frame := moves_of_step genuine
  cases moves with
  | lose empty =>
      by_cases hdead : before.health = .dead <;> simp [lose, staleFrame, hdead] at good
  | @find bar selected => exact ⟨bar, rfl⟩
  | carry dots unseen previous alive recovered => cases good
  | wait dots unseen blind =>
      -- A tracker without a bar is dead, and so is the frame.
      have hdead : before.health = .dead :=
        blind.elim (summary_of_reaches reached).lastBar.mp id
      rw [staleFrame, hdead] at good
      cases good

end Runs

/-! ## Since the bar was shown -/

/-- What a tracker keeps of a bar that was shown to it, as long as the bar is not shown again. -/
structure Keeps (s : PointerSettings α) (shown : Bar α) (t : Tracker α) : Prop where
  settings : t.settings = s
  alive : t.health ≠ .dead
  bar : ∃ b roll, t.lastBar = some b ∧ b.Coherent roll ∧ b.SameShape shown
  distance : t.distance = s.distanceForWidth shown.width

theorem Keeps.moves {s : PointerSettings α} {shown : Bar α} {t next : Tracker α} {roll : α}
    {points : List (Point α)} {frame : Frame α} (h : Keeps s shown t)
    (moves : Moves t roll points next frame) (unseen : frame.health ≠ .good) :
    Keeps s shown next := by
  obtain ⟨b, before, last, coherent, same⟩ := h.bar
  cases moves with
  | lose empty =>
      exact ⟨h.settings, mt t.lose_health_dead_iff.mp h.alive, h.bar, h.distance⟩
  | find selected => exact absurd rfl unseen
  | @carry previous bar dots none last' alive recovered =>
      obtain rfl : b = previous := Option.some.inj (last.symm.trans last')
      obtain ⟨e, dot, -, rfl⟩ := Bar.eq_shiftTo_of_recover alive dots recovered
      have shape := (Bar.sameShape_shiftTo coherent e dot roll).trans same
      refine ⟨h.settings, ?_, ⟨_, roll, rfl, Bar.coherent_shiftTo b e dot roll, shape⟩, ?_⟩
      · simp [follow]
      · rw [← shape.width, ← h.settings]
        rfl
  | wait dots none blind =>
      rcases blind with hnone | hdead
      · rw [last] at hnone
        cases hnone
      · exact absurd hdead h.alive

theorem Keeps.of_reaches {s : PointerSettings α} {shown : Bar α} {t u : Tracker α}
    (h : Keeps s shown t) {stretch : List (Transition α)} (reached : Reaches t stretch u)
    (unseen : ∀ o ∈ stretch, o.frame.health ≠ .good) : Keeps s shown u := by
  induction reached with
  | start => exact h
  | @step past o earlier genuine ih =>
      have hpast : Keeps s shown o.before :=
        ih fun old hold => unseen old (List.mem_append_left _ hold)
      exact hpast.moves (moves_of_step genuine) (unseen o (by simp))

/-- A frame reports the distance that the tracker keeps. -/
theorem frame_distance_of_genuine {o : Transition α} (genuine : o.Genuine) :
    o.frame.distance = o.after.distance := by
  obtain ⟨before, seen, after, frame⟩ := o
  have moves : Moves before seen.roll seen.dots after frame := moves_of_step genuine
  cases moves <;> rfl

theorem keeps_of_good {s : PointerSettings α} (positive : 0 < s.minWidth)
    {past : List (Transition α)} {o : Transition α} (reached : Reaches (start s) past o.before)
    (genuine : o.Genuine) (good : o.frame.health = .good) :
    ∃ shown, o.after.lastBar = some shown ∧ Keeps s shown o.after := by
  obtain ⟨bar, hafter⟩ := found_of_good reached genuine good
  have next : Reaches (start s) (past ++ [o]) o.after := .step reached genuine
  have last : o.after.lastBar = some bar := by
    rw [hafter]
    rfl
  obtain ⟨v, -, coherent, -⟩ := storesPlaced_of_reaches positive next bar last
  refine ⟨bar, last, next.settings, ?_, ⟨bar, _, last, coherent, .refl bar⟩, ?_⟩
  · simp [hafter, follow]
  · exact (estimate_of_reaches next last).2

/-! ## What is measured -/

/-- A bar that a step locates is the one that it stores. -/
theorem lastBar_of_locate {o : Transition α} (genuine : o.Genuine) {bar : Bar α} {health : Health}
    (located : o.before.locate o.seen.roll o.seen.dots = .ok (some (bar, health))) :
    o.after.lastBar = some bar := by
  have hadvance : o.before.advance o.seen.roll o.seen.dots = .ok (o.after, o.frame) :=
    (step_eq_ok_iff.mp genuine).2
  cases hdots : o.seen.dots with
  | nil =>
      have stuck : Bar.Unrecoverable o.before.health o.before.lastBar ([] : List (Point α)) :=
        .inr (.inr rfl)
      have hrec := Bar.recover_of_unrecoverable o.before.settings o.seen.roll
        (rotateAll [] o.seen.roll) stuck
      have unseen : o.before.candidates o.seen.roll [] = [] := rfl
      rw [hdots, locate_of_recover unseen hrec] at located
      cases located
  | cons p ps =>
      rw [hdots] at located
      rw [hdots, advance, located] at hadvance
      have hafter : o.before.follow bar health = o.after :=
        congrArg Prod.fst (Except.ok.inj hadvance)
      rw [← hafter]
      rfl

/-- From the first sighting of the bar on, a frame reports a distance that a bar may have. -/
theorem frame_distance_bounds {s : PointerSettings α} (accepted : Accepted s.checks)
    {past : List (Transition α)} {o : Transition α} (reached : Reaches (start s) past o.before)
    (genuine : o.Genuine) (acquired : Acquired s (past.map (·.seen) ++ [o.seen])) :
    0 < o.frame.distance ∧ o.frame.distance ≤ s.distanceForWidth s.minWidth := by
  have positive := PointerSettings.minWidth_pos accepted
  have next : Reaches (start s) (past ++ [o]) o.after := .step reached genuine
  have summary := summary_of_reaches next
  have hlast : o.after.lastBar ≠ none := by
    rw [Ne, summary.lastBar, summary.health_dead, not_not, List.map_append]
    exact acquired
  obtain ⟨b, last⟩ := Option.ne_none_iff_exists'.mp hlast
  obtain ⟨v, -, -, wide⟩ := storesPlaced_of_reaches positive next b last
  rw [frame_distance_of_genuine genuine, (estimate_of_reaches next last).2]
  exact ⟨PointerSettings.distanceForWidth_pos accepted (positive.trans_le wide),
    PointerSettings.distanceForWidth_anti accepted positive wide⟩

/--
After a frame that shows the bar, and for as long as no other one does, the stored bar keeps its
shape and every frame its distance, whichever dots and rolls it is carried along by.  So from the
first sighting of the bar on every distance is positive and at most that of the narrowest bar, and
no distance is ever derived from a width that is not positive.
-/
theorem run_keeps_shape {s : PointerSettings α} (accepted : Accepted s.checks)
    (sightings : List (Sighting α)) :
    (∀ past good stretch later,
      (start s).run sightings = past ++ good :: (stretch ++ later) → good.frame.health = .good →
      (∀ o ∈ stretch, o.frame.health ≠ .good) →
      ∃ shown, good.after.lastBar = some shown ∧ ∀ o ∈ stretch, ∃ b,
        o.after.lastBar = some b ∧ b.SameShape shown ∧
        o.after.distance = good.after.distance ∧ o.frame.distance = good.frame.distance) ∧
    ∀ past o later, (start s).run sightings = past ++ o :: later →
      (Acquired s (past.map (·.seen) ++ [o.seen]) →
        0 < o.frame.distance ∧ o.frame.distance ≤ s.distanceForWidth s.minWidth) ∧
      ∀ bar health, o.before.locate o.seen.roll o.seen.dots = .ok (some (bar, health)) →
        0 < bar.width := by
  have positive := PointerSettings.minWidth_pos accepted
  constructor
  · intro past good stretch later split hgood unseen
    obtain ⟨reached, genuine⟩ := reaches_of_run split
    obtain ⟨shown, last, keeps⟩ := keeps_of_good positive reached genuine hgood
    have hrest := (run_drop_of_split split).2
    refine ⟨shown, last, ?_⟩
    intro o ho
    obtain ⟨earlier, remaining, rfl⟩ := List.append_of_mem ho
    rw [List.append_assoc, List.cons_append] at hrest
    obtain ⟨hreached, hgenuine⟩ := reaches_of_run hrest
    have hkeeps : Keeps s shown o.after := by
      refine keeps.of_reaches (.step hreached hgenuine) fun old hold => unseen old ?_
      rw [List.append_cons]
      exact List.mem_append_left _ hold
    obtain ⟨b, -, hb, -, same⟩ := hkeeps.bar
    have hdistance : o.after.distance = good.after.distance :=
      hkeeps.distance.trans keeps.distance.symm
    refine ⟨b, hb, same, hdistance, ?_⟩
    rw [frame_distance_of_genuine hgenuine, frame_distance_of_genuine genuine, hdistance]
  · intro past o later split
    obtain ⟨reached, genuine⟩ := reaches_of_run split
    refine ⟨frame_distance_bounds accepted reached genuine, ?_⟩
    intro bar health located
    have next : Reaches (start s) (past ++ [o]) o.after := .step reached genuine
    obtain ⟨v, -, -, wide⟩ :=
      storesPlaced_of_reaches positive next bar (lastBar_of_locate genuine located)
    exact positive.trans_le wide

/-- One dot alone never shows the bar. -/
theorem not_acquires_of_lone (s : PointerSettings α) {seen : Sighting α} {spot : Camera.Spot}
    (lone : seen.slots.spots = [spot]) : ¬ seen.Acquires s := by
  have hdots : seen.dots = [spot.toPoint] := by
    simp [Sighting.dots, Camera.Slots.dots, lone]
  rw [Sighting.Acquires, not_not, Sighting.bars, hdots]
  rfl

/-- The first transition of the run shows the bar, and the second one does not. -/
theorem run_turningBar :
    ∃ good o : Transition ℝ, (start .exactDefault).run turningBar = [good, o] ∧
      good.seen.Acquires .exactDefault ∧ ¬ o.seen.Acquires .exactDefault := by
  have inView : ∀ seen ∈ (turningBar : List (Sighting ℝ)), seen.slots.InView := by
    simp only [turningBar, List.forall_mem_cons]
    decide
  have hseen := map_seen_run (start .exactDefault) turningBar inView
  obtain ⟨good, rest, hrun, -, hrest⟩ := List.map_eq_cons_iff.mp hseen
  obtain ⟨o, tail, rfl, ho, htail⟩ := List.map_eq_cons_iff.mp hrest
  obtain rfl := List.map_eq_nil_iff.mp htail
  have lone : o.seen.slots.spots = [⟨300, 500⟩] := by
    rw [ho]
    rfl
  have hunseen : ¬ o.seen.Acquires .exactDefault := not_acquires_of_lone .exactDefault lone
  refine ⟨good, o, hrun, ?_, hunseen⟩
  obtain ⟨seen, hmem, hacquires⟩ := turningBar_acquired (α := ℝ)
  rw [← hseen, hrun] at hmem
  rcases List.mem_pair.mp hmem with rfl | rfl
  · exact hacquires
  · exact absurd hacquires hunseen

theorem run_keeps_shape_of_turningBar :
    ∃ good o : Transition ℝ,
      (start .exactDefault).run turningBar = [] ++ good :: ([o] ++ []) ∧
      good.frame.health = .good ∧ o.frame.health ≠ .good ∧
      ∃ shown b, good.after.lastBar = some shown ∧ o.after.lastBar = some b ∧ b.SameShape shown ∧
        o.frame.distance = good.frame.distance ∧ 0 < o.frame.distance := by
  obtain ⟨good, o, hrun, hshown, hunseen⟩ := run_turningBar
  have split : (start .exactDefault).run turningBar = [] ++ good :: ([o] ++ []) := hrun
  have split' : (start .exactDefault).run turningBar = [good] ++ o :: [] := hrun
  obtain ⟨reached, genuine⟩ := reaches_of_run split
  obtain ⟨reached', genuine'⟩ := reaches_of_run split'
  have found := (frame_good_iff reached genuine).mpr hshown
  have unseen := mt (frame_good_iff reached' genuine').mp hunseen
  obtain ⟨hkeeps, hbounds⟩ :=
    run_keeps_shape PointerSettings.exactDefault_accepted (turningBar : List (Sighting ℝ))
  obtain ⟨shown, hlast, hstretch⟩ := hkeeps [] good [o] [] split found (by simpa using unseen)
  obtain ⟨b, hb, same, -, hdistance⟩ := hstretch o (List.mem_singleton.mpr rfl)
  have hpositive := ((hbounds [] good [o] hrun).1 ⟨good.seen, by simp, hshown⟩).1
  exact ⟨good, o, split, found, unseen, shown, b, hlast, hb, same, hdistance,
    hdistance ▸ hpositive⟩

end Tracker

end SensorBar
