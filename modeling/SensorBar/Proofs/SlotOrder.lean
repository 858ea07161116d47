import SensorBar.Proofs.BarFrames

/-! # The order of the slots

The camera promises nothing about which slot an emitter is reported in.  A pair of dots is ordered
by tilted `x` and not by position; only on a tie does position decide, and two dots that tie are
either too steep or too close to be the bar.  So a rearranged frame has the same candidates in
another order, which leaves health and validity as they are, and a candidate that alone has the best
score is selected in every order.
-/

namespace SensorBar

variable {α : Type} [ExactScalar α]

namespace Bar

/-! ## Candidates -/

theorem leftFirst_comm {roll : α} {p q : Point α} (apart : (p.rotate roll).x ≠ (q.rotate roll).x) :
    leftFirst roll p q = leftFirst roll q p := by
  unfold leftFirst
  rcases lt_or_gt_of_ne apart with h | h
  · rw [if_neg h.not_gt, if_pos h]
  · rw [if_pos h, if_neg h.not_gt]

/-- Dots with one tilted `x` are too steep to be the bar, or they coincide and are too close. -/
theorem not_passes_of_tie {s : PointerSettings α} (positive : 0 < s.minWidth) {roll : α}
    {p q : Point α} (tie : (p.rotate roll).x = (q.rotate roll).x) (others : List (Point α)) :
    ¬ Passes s roll (leftFirst roll p q) others := by
  intro passes
  have hends : leftFirst roll p q = ⟨p, q⟩ := by
    rw [leftFirst, if_neg tie.symm.not_lt]
  have hx : ((leftFirst roll p q).rotate roll).span.x = 0 := by
    rw [hends]
    exact sub_eq_zero.mpr tie.symm
  have hy : ((leftFirst roll p q).rotate roll).span.y = 0 := by
    have level := passes.level
    rw [hx, abs_zero, mul_zero] at level
    exact abs_nonpos_iff.mp level
  have hlength : (leftFirst roll p q).span.norm = 0 := by
    have hspan : ((leftFirst roll p q).rotate roll).span = ⟨0, 0⟩ := Point.ext hx hy
    rw [← Point.norm_rotate _ roll, ← Pair.span_rotate, hspan]
    exact Point.norm_axis le_rfl
  exact (positive.trans_le (passes.wide.trans_eq hlength)).false

theorem passes_perm {s : PointerSettings α} {roll : α} {ends : Pair (Point α)}
    {others others' : List (Point α)} (h : others.Perm others') :
    Passes s roll ends others ↔ Passes s roll ends others' :=
  ⟨fun passes => ⟨passes.level, passes.wide, fun dot hdot => passes.clear dot (h.mem_iff.mpr hdot)⟩,
    fun passes => ⟨passes.level, passes.wide, fun dot hdot => passes.clear dot (h.mem_iff.mp hdot)⟩⟩

/-- What two dots make is told by their ends and by whether they pass. -/
theorem ofPoints?_congr {s : PointerSettings α} (positive : 0 < s.minWidth) {roll : α}
    {p q p' q' : Point α} {others others' : List (Point α)}
    (ends : leftFirst roll p q = leftFirst roll p' q')
    (passes : Passes s roll (leftFirst roll p q) others ↔
      Passes s roll (leftFirst roll p' q') others') :
    ofPoints? s roll (p, q, others) = ofPoints? s roll (p', q', others') := by
  by_cases h : Passes s roll (leftFirst roll p q) others
  · rw [ofPoints?, ofPoints?, ofDots?_of_passes positive h,
      ofDots?_of_passes positive (passes.mp h), ends]
  · rw [ofPoints?, ofPoints?, ofDots?_of_not_passes positive h,
      ofDots?_of_not_passes positive (mt passes.mpr h)]

theorem unordered_ofPoints? {s : PointerSettings α} (positive : 0 < s.minWidth) (roll : α) :
    Unordered (ofPoints? s roll) where
  pair p q others := by
    by_cases tie : (p.rotate roll).x = (q.rotate roll).x
    · rw [ofPoints?, ofPoints?, ofDots?_of_not_passes positive (not_passes_of_tie positive tie _),
        ofDots?_of_not_passes positive (not_passes_of_tie positive tie.symm _)]
    · exact ofPoints?_congr positive (leftFirst_comm tie) (by rw [leftFirst_comm tie])
  rest p q _ _ h := ofPoints?_congr positive rfl (passes_perm h)

theorem candidates_perm {s : PointerSettings α} (positive : 0 < s.minWidth) (roll : α)
    {shuffled points : List (Point α)} (h : shuffled.Perm points) :
    (candidates s roll (Dot.ofPoints roll shuffled)).Perm
      (candidates s roll (Dot.ofPoints roll points)) := by
  rw [candidates_eq_filterMap, candidates_eq_filterMap]
  exact filterMap_pairs_perm h (unordered_ofPoints? positive roll)

/-! ## Selection -/

/-- The bar that is strictly better than all others. -/
structure StandsOut (preference : Preference) (bars : List (Bar α)) (best : Bar α) : Prop where
  present : best ∈ bars
  beats_others : ∀ b ∈ bars, b ≠ best → beats preference best b = true

theorem beats_asymm {preference : Preference} {a b : Bar α} (h : beats preference a b = true) :
    beats preference b a = false := by
  cases preference <;> simp only [beats, decide_eq_true_eq, decide_eq_false_iff_not] at h ⊢ <;>
    exact lt_asymm h

theorem StandsOut.perm {preference : Preference} {bars shuffled : List (Bar α)} {best : Bar α}
    (h : StandsOut preference bars best) (same : shuffled.Perm bars) :
    StandsOut preference shuffled best :=
  ⟨same.mem_iff.mpr h.present, fun b hb => h.beats_others b (same.mem_iff.mp hb)⟩

theorem StandsOut.select_eq {preference : Preference} {bars : List (Bar α)} {best : Bar α}
    (h : StandsOut preference bars best) : select preference bars = some best := by
  refine winner_of_best h.present fun b hb hne => ?_
  have hbeats := h.beats_others b hb hne
  exact ⟨hbeats, beats_asymm hbeats⟩

/-- Two dots make one bar at most. -/
theorem standsOut_of_two {s : PointerSettings α} {roll : α} {p q : Point α}
    (preference : Preference) (found : candidates s roll (Dot.ofPoints roll [p, q]) ≠ []) :
    ∃ best, StandsOut preference (candidates s roll (Dot.ofPoints roll [p, q])) best := by
  have hbars : candidates s roll (Dot.ofPoints roll [p, q]) =
      (ofPoints? s roll (p, q, [])).toList := by
    cases h : ofPoints? s roll (p, q, []) <;> simp [candidates_eq_filterMap, pairs, picks, h]
  rw [hbars] at found ⊢
  cases h : ofPoints? s roll (p, q, []) with
  | none => simp [h] at found
  | some best => exact ⟨best, by simp, by simp⟩

end Bar

namespace Camera.Slots

theorem spots_perm {slots shuffled : Slots} (h : shuffled.toList.Perm slots.toList) :
    shuffled.spots.Perm slots.spots :=
  h.filterMap id

theorem dots_perm {slots shuffled : Slots} (h : shuffled.toList.Perm slots.toList) :
    (shuffled.dots (α := α)).Perm slots.dots :=
  (spots_perm h).map Spot.toPoint

theorem inView_perm {slots shuffled : Slots} (h : shuffled.toList.Perm slots.toList) :
    shuffled.InView ↔ slots.InView :=
  ⟨fun inView s hs => inView s ((spots_perm h).mem_iff.mpr hs),
    fun inView s hs => inView s ((spots_perm h).mem_iff.mp hs)⟩

end Camera.Slots

namespace Tracker

/-! ## Steps -/

section Shuffled

variable {s : PointerSettings α} {slots shuffled : Camera.Slots}

theorem acquires_shuffled (positive : 0 < s.minWidth) (h : shuffled.toList.Perm slots.toList)
    (roll : α) :
    (⟨shuffled, roll⟩ : Sighting α).Acquires s ↔ (⟨slots, roll⟩ : Sighting α).Acquires s := by
  have hlength := (Bar.candidates_perm positive roll (Camera.Slots.dots_perm (α := α) h)).length_eq
  simp only [Sighting.Acquires, Sighting.bars, Sighting.dots, Ne, ← List.length_eq_zero_iff,
    hlength]

/-- Health and validity ask of a sighting whether it shows the bar and whether it shows any dot. -/
theorem ExplainedBy.answer_eq {past : List (Transition α)} {o o' : Transition α}
    (e : ExplainedBy s past o) (e' : ExplainedBy s past o')
    (shown : o'.seen.Acquires s ↔ o.seen.Acquires s)
    (empty : o'.seen.dots = [] ↔ o.seen.dots = []) :
    o'.after.health = o.after.health ∧ o'.frame.valid = o.frame.valid := by
  have hacquired : Acquired s (past.map (·.seen) ++ [o'.seen]) ↔
      Acquired s (past.map (·.seen) ++ [o.seen]) := by
    rw [acquired_concat, acquired_concat, shown]
  constructor
  · rw [e.health, e'.health]
    simp only [healthAfter, hacquired, shown, empty]
  · rw [Bool.eq_iff_iff, e.valid_iff, e'.valid_iff, hacquired, Ne, empty]

theorem step_of_standsOut {t : Tracker α} (inView : slots.InView) {roll : α} {best : Bar α}
    (h : Bar.StandsOut t.settings.candidatePreference (t.candidates roll slots.dots) best) :
    t.step slots roll = .ok (t.follow best .good, (t.follow best .good).liveFrame) :=
  step_eq_ok_iff.mpr ⟨inView, advance_of_select h.select_eq⟩

end Shuffled

/--
Rearranged dots have the same candidates, rearranged.  So a tracker answers rearranged slots with
the same validity and the same health; and with the same frame and the same state when one candidate
stands out.  Slots that break the camera's promise break it in every order.
-/
theorem step_shuffled {s : PointerSettings α} (accepted : Accepted s.checks) :
    (∀ (roll : α) (points shuffled : List (Point α)), shuffled.Perm points →
      (Bar.candidates s roll (Dot.ofPoints roll shuffled)).Perm
        (Bar.candidates s roll (Dot.ofPoints roll points))) ∧
    ∀ past t, Reaches (start s) past t → ∀ slots shuffled : Camera.Slots,
      shuffled.toList.Perm slots.toList → ∀ roll : α,
        (slots.InView → ∃ next frame next' frame',
          t.step slots roll = .ok (next, frame) ∧ t.step shuffled roll = .ok (next', frame') ∧
            frame'.valid = frame.valid ∧ frame'.health = frame.health ∧
            next'.health = next.health ∧
            ∀ best, Bar.StandsOut s.candidatePreference (t.candidates roll slots.dots) best →
              next' = next ∧ frame' = frame) ∧
        (¬ slots.InView → ∃ breach breach',
          t.step slots roll = .error breach ∧ t.step shuffled roll = .error breach') := by
  have positive := PointerSettings.minWidth_pos accepted
  refine ⟨fun roll points shuffled h => Bar.candidates_perm positive roll h, ?_⟩
  intro past t reached slots shuffled h roll
  have hinView := Camera.Slots.inView_perm h
  constructor
  · intro inView
    obtain ⟨next, frame, hstep⟩ := t.step_total roll inView
    obtain ⟨next', frame', hstep'⟩ := t.step_total roll (hinView.mpr inView)
    have summary := summary_of_reaches reached
    have explained : ExplainedBy s past ⟨t, ⟨slots, roll⟩, next, frame⟩ :=
      summary.explains (moves_of_step hstep)
    have explained' : ExplainedBy s past ⟨t, ⟨shuffled, roll⟩, next', frame'⟩ :=
      summary.explains (moves_of_step hstep')
    have hdots := Camera.Slots.dots_perm (α := α) h
    have hempty : shuffled.dots (α := α) = [] ↔ slots.dots (α := α) = [] := by
      simp only [← List.length_eq_zero_iff, hdots.length_eq]
    obtain ⟨hhealth, hvalid⟩ :=
      explained.answer_eq explained' (acquires_shuffled positive h roll) hempty
    have hframe : frame'.health = frame.health := by
      rw [explained.frame_health, explained'.frame_health, hhealth]
    refine ⟨next, frame, next', frame', hstep, hstep', hvalid, hframe, hhealth, ?_⟩
    intro best standsOut
    have settings : t.settings = s := reached.settings
    have hbars : (t.candidates roll shuffled.dots).Perm (t.candidates roll slots.dots) :=
      Bar.candidates_perm (settings ▸ positive) roll hdots
    rw [← settings] at standsOut
    rw [step_of_standsOut inView standsOut] at hstep
    rw [step_of_standsOut (hinView.mpr inView) (standsOut.perm hbars)] at hstep'
    exact Prod.mk.inj (Except.ok.inj (hstep'.symm.trans hstep))
  · intro outside
    obtain ⟨breach, hstep⟩ := t.step_refused roll outside
    obtain ⟨breach', hstep'⟩ := t.step_refused roll (mt hinView.mp outside)
    exact ⟨breach, breach', hstep, hstep'⟩

/-- Two emitters that change places among the slots. -/
theorem step_shuffled_of_swap :
    let slots : Camera.Slots := #v[some ⟨200, 384⟩, none, some ⟨800, 384⟩, none]
    let shuffled : Camera.Slots := #v[some ⟨800, 384⟩, none, some ⟨200, 384⟩, none]
    shuffled.toList.Perm slots.toList ∧ slots.InView ∧
      ∃ (best : Bar ℝ) (next : Tracker ℝ) (frame : Frame ℝ),
        Bar.StandsOut .narrowest ((start .exactDefault).candidates 0 slots.dots) best ∧
        (start .exactDefault).step slots 0 = .ok (next, frame) ∧
        (start .exactDefault).step shuffled 0 = .ok (next, frame) := by
  intro slots shuffled
  have hperm : shuffled.toList.Perm slots.toList := by decide
  have inView : slots.InView := by decide
  obtain ⟨best, standsOut⟩ :=
    Bar.standsOut_of_two .narrowest (acquires_level (α := ℝ))
  obtain ⟨hanswers, -⟩ := (step_shuffled PointerSettings.exactDefault_accepted).2 [] _ .start slots
    shuffled hperm (0 : ℝ)
  obtain ⟨next, frame, next', frame', hstep, hstep', -, -, -, hsame⟩ := hanswers inView
  obtain ⟨rfl, rfl⟩ := hsame best standsOut
  exact ⟨hperm, inView, best, next', frame', standsOut, hstep, hstep'⟩

end Tracker

end SensorBar
