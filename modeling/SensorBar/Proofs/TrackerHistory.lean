import SensorBar.Proofs.TrackerRun

/-! # What a tracker remembers of its history

The health of a tracker is decided by whether some sighting so far has shown the bar and by the
latest sighting alone; its estimate is that of the latest valid frame.  The invariant that carries
this through a run is `Summary`: the tracker is dead exactly while no bar was shown, and exactly
then it holds no bar.
-/

namespace SensorBar.Tracker

variable {α : Type} [Scalar α]

/-- Whether some sighting has shown the bar. -/
def Acquired (s : PointerSettings α) (sightings : List (Sighting α)) : Prop :=
  ∃ seen ∈ sightings, seen.Acquires s

instance (s : PointerSettings α) (sightings : List (Sighting α)) :
    Decidable (Acquired s sightings) :=
  inferInstanceAs (Decidable (∃ seen ∈ sightings, seen.Acquires s))

theorem acquired_concat (s : PointerSettings α) (past : List (Sighting α)) (now : Sighting α) :
    Acquired s (past ++ [now]) ↔ Acquired s past ∨ now.Acquires s := by
  simp [Acquired, or_and_right, exists_or]

/-- The health that a history of sightings calls for. -/
def healthAfter (s : PointerSettings α) (past : List (Sighting α)) (now : Sighting α) : Health :=
  if ¬ Acquired s (past ++ [now]) then .dead
  else if now.Acquires s then .good
  else if now.dots = [] then .lost
  else .single

/-- The position and distance of the latest valid frame, and zero before there is one. -/
def lastEstimate (past : List (Transition α)) : Point α × α :=
  match latestValid past with
  | none => (Point.zero, (0 : Nat))
  | some o => (o.frame.position, o.frame.distance)

/-- A transition is what its history says it is. -/
structure ExplainedBy (s : PointerSettings α) (past : List (Transition α)) (o : Transition α) :
    Prop where
  health : o.after.health = healthAfter s (past.map (·.seen)) o.seen
  frame_health : o.frame.health = o.after.health
  frame_estimate : o.frame.position = o.after.position ∧ o.frame.distance = o.after.distance
  valid_iff : o.frame.valid = true ↔
    o.seen.dots ≠ [] ∧ Acquired s (past.map (·.seen) ++ [o.seen])
  lastBar_iff : o.after.lastBar = none ↔ o.after.health = .dead
  live : o.frame.valid = true → ∃ bar, o.after.lastBar = some bar ∧
    o.frame.position = bar.center.scale pointerScale ∧
    o.frame.distance = s.distanceForWidth bar.width
  stale : o.frame.valid = false → o.after.lastBar = o.before.lastBar ∧
    o.after.position = o.before.position ∧ o.after.distance = o.before.distance ∧
    (o.frame.position, o.frame.distance) = lastEstimate past

/-- What a tracker knows after some transitions. -/
structure Summary (s : PointerSettings α) (past : List (Transition α)) (t : Tracker α) : Prop where
  settings : t.settings = s
  health_dead : t.health = .dead ↔ ¬ Acquired s (past.map (·.seen))
  lastBar : t.lastBar = none ↔ t.health = .dead
  estimate : (t.position, t.distance) = lastEstimate past

theorem Summary.start (s : PointerSettings α) : Summary s [] (start s) where
  settings := rfl
  health_dead := by simp [Tracker.start, Acquired]
  lastBar := by simp [Tracker.start]
  estimate := rfl

theorem Summary.acquired {s : PointerSettings α} {past : List (Transition α)} {t : Tracker α}
    (h : Summary s past t) (alive : t.health ≠ .dead) : Acquired s (past.map (·.seen)) :=
  Decidable.of_not_not fun hnone => alive (h.health_dead.mpr hnone)

/-! ## One transition -/

section Transition

variable {s : PointerSettings α} {past : List (Transition α)} {t next : Tracker α}
  {seen : Sighting α} {frame : Frame α}

theorem lastEstimate_concat_of_valid (h : frame.valid = true) :
    lastEstimate (past ++ [⟨t, seen, next, frame⟩]) = (frame.position, frame.distance) := by
  simp [lastEstimate, latestValid_concat, h]

theorem lastEstimate_concat_of_invalid (h : frame.valid = false) :
    lastEstimate (past ++ [⟨t, seen, next, frame⟩]) = lastEstimate past := by
  simp [lastEstimate, latestValid_concat, h]

theorem healthAfter_of_empty (h : seen.dots = []) (sightings : List (Sighting α)) :
    healthAfter s sightings seen = if Acquired s sightings then .lost else .dead := by
  have unseen : ¬ seen.Acquires s := by
    simp [Sighting.Acquires, Sighting.bars, h, Dot.ofPoints, Bar.candidates, pairs]
  by_cases hacq : Acquired s sightings
  · simp [healthAfter, acquired_concat, unseen, hacq, h]
  · simp [healthAfter, acquired_concat, unseen, hacq]

theorem healthAfter_of_acquires (h : seen.Acquires s) (sightings : List (Sighting α)) :
    healthAfter s sightings seen = .good := by
  simp [healthAfter, acquired_concat, h]

theorem healthAfter_of_dots (hdots : seen.dots ≠ []) (unseen : ¬ seen.Acquires s)
    (sightings : List (Sighting α)) :
    healthAfter s sightings seen = if Acquired s sightings then .single else .dead := by
  by_cases hacq : Acquired s sightings
  · simp [healthAfter, acquired_concat, unseen, hacq, hdots]
  · simp [healthAfter, acquired_concat, unseen, hacq]

theorem healthAfter_eq_dead_iff (sightings : List (Sighting α)) :
    healthAfter s sightings seen = .dead ↔ ¬ Acquired s (sightings ++ [seen]) := by
  unfold healthAfter
  split
  · next hnone => simp [hnone]
  · next hsome =>
      constructor
      · intro hdead
        split at hdead
        · cases hdead
        · split at hdead <;> cases hdead
      · intro hnone
        exact absurd hnone hsome

omit [Scalar α] in
theorem lose_health_dead_iff (t : Tracker α) : t.lose.health = .dead ↔ t.health = .dead := by
  by_cases hdead : t.health = .dead <;> simp [lose, hdead]

theorem Summary.explains_lose (h : Summary s past t) (empty : seen.dots = []) :
    ExplainedBy s past ⟨t, seen, t.lose, t.lose.staleFrame⟩ where
  health := by
    rw [healthAfter_of_empty empty]
    by_cases hdead : t.health = .dead
    · simp [lose, hdead, h.health_dead.mp hdead]
    · simp [lose, hdead, h.acquired hdead]
  frame_health := rfl
  frame_estimate := ⟨rfl, rfl⟩
  valid_iff := by simp [staleFrame, empty]
  lastBar_iff := h.lastBar.trans t.lose_health_dead_iff.symm
  live := by simp [staleFrame]
  stale := fun _ => ⟨rfl, rfl, rfl, h.estimate⟩

theorem Summary.explains_find (h : Summary s past t) {bar : Bar α}
    (selected : Bar.select t.settings.candidatePreference (t.candidates seen.roll seen.dots) =
      some bar) :
    ExplainedBy s past ⟨t, seen, t.follow bar .good, (t.follow bar .good).liveFrame⟩ := by
  have hmem : bar ∈ seen.bars s := h.settings ▸ Bar.mem_of_select selected
  have shown : seen.Acquires s := List.ne_nil_of_mem hmem
  have hdots : seen.dots ≠ [] := by
    intro empty
    simp [Sighting.bars, empty, Dot.ofPoints, Bar.candidates, pairs] at hmem
  exact {
    health := (healthAfter_of_acquires shown _).symm
    frame_health := rfl
    frame_estimate := ⟨rfl, rfl⟩
    valid_iff := by simp [liveFrame, hdots, acquired_concat, shown]
    lastBar_iff := by simp [follow]
    live := fun _ => ⟨bar, rfl, rfl, by rw [← h.settings]; rfl⟩
    stale := by simp [liveFrame] }

theorem Summary.explains_carry (h : Summary s past t) (bar : Bar α) (hdots : seen.dots ≠ [])
    (unseen : t.candidates seen.roll seen.dots = []) (alive : t.health ≠ .dead) :
    ExplainedBy s past ⟨t, seen, t.follow bar .single, (t.follow bar .single).liveFrame⟩ := by
  have hunseen : ¬ seen.Acquires s := fun shown => shown (h.settings ▸ unseen)
  have hacq := h.acquired alive
  exact {
    health := by simp [healthAfter_of_dots hdots hunseen, hacq, follow]
    frame_health := rfl
    frame_estimate := ⟨rfl, rfl⟩
    valid_iff := by simp [liveFrame, hdots, acquired_concat, hacq]
    lastBar_iff := by simp [follow]
    live := fun _ => ⟨bar, rfl, rfl, by rw [← h.settings]; rfl⟩
    stale := by simp [liveFrame] }

theorem Summary.explains_wait (h : Summary s past t) (hdots : seen.dots ≠ [])
    (unseen : t.candidates seen.roll seen.dots = []) (blind : t.lastBar = none ∨ t.health = .dead) :
    ExplainedBy s past ⟨t, seen, t, t.staleFrame⟩ := by
  have hunseen : ¬ seen.Acquires s := fun shown => shown (h.settings ▸ unseen)
  have hdead : t.health = .dead := blind.elim h.lastBar.mp id
  have hnone := h.health_dead.mp hdead
  exact {
    health := by simp [healthAfter_of_dots hdots hunseen, hnone, hdead]
    frame_health := rfl
    frame_estimate := ⟨rfl, rfl⟩
    valid_iff := by simp [staleFrame, acquired_concat, hnone, hunseen]
    lastBar_iff := h.lastBar
    live := by simp [staleFrame]
    stale := fun _ => ⟨rfl, rfl, rfl, h.estimate⟩ }

theorem Summary.explains (h : Summary s past t) (moves : Moves t seen.roll seen.dots next frame) :
    ExplainedBy s past ⟨t, seen, next, frame⟩ := by
  cases moves with
  | lose empty => exact h.explains_lose empty
  | find selected => exact h.explains_find selected
  | carry hdots unseen last alive recovered => exact h.explains_carry _ hdots unseen alive
  | wait hdots unseen blind => exact h.explains_wait hdots unseen blind

/-- What a tracker knows after a transition follows from what explains the transition. -/
theorem ExplainedBy.summary (settings : next.settings = s)
    (e : ExplainedBy s past ⟨t, seen, next, frame⟩) :
    Summary s (past ++ [⟨t, seen, next, frame⟩]) next where
  settings := settings
  health_dead := by
    rw [e.health, healthAfter_eq_dead_iff, List.map_append]
    rfl
  lastBar := e.lastBar_iff
  estimate := by
    rw [← e.frame_estimate.1, ← e.frame_estimate.2]
    cases hvalid : frame.valid with
    | true => exact (lastEstimate_concat_of_valid hvalid).symm
    | false =>
        rw [lastEstimate_concat_of_invalid hvalid]
        exact (e.stale hvalid).2.2.2

end Transition

/-! ## Runs -/

theorem summary_of_reaches {s : PointerSettings α} {past : List (Transition α)} {t : Tracker α}
    (h : Reaches (start s) past t) : Summary s past t := by
  induction h with
  | start => exact .start s
  | @step past o earlier genuine ih =>
      obtain ⟨before, seen, after, frame⟩ := o
      have moves := moves_of_step genuine
      exact (ih.explains moves).summary (moves.settings.trans ih.settings)

/--
A fresh tracker answers every run of sightings that keep the camera's promise, and each of its
transitions is explained by the history of sightings.  So a tracker that has once been shown the
bar is never dead again, and a frame is valid only when the bar is seen or carried along.
-/
theorem run_explained (s : PointerSettings α) (sightings : List (Sighting α))
    (inView : ∀ seen ∈ sightings, seen.slots.InView) :
    ((start s).run sightings).map (·.seen) = sightings ∧
      ∀ past o later, (start s).run sightings = past ++ o :: later →
        o.before = (past.getLast?.map (·.after)).getD (start s) ∧ ExplainedBy s past o ∧
          (Acquired s (past.map (·.seen)) → o.after.health ≠ .dead) ∧
          (o.frame.valid = true → o.frame.health = .good ∨ o.frame.health = .single) := by
  refine ⟨map_seen_run (start s) sightings inView, ?_⟩
  intro past o later split
  obtain ⟨reached, genuine⟩ := reaches_of_run split
  have explained : ExplainedBy s past o :=
    (summary_of_reaches reached).explains (moves_of_step genuine)
  refine ⟨reached.eq_last, explained, ?_, ?_⟩
  · intro hacq hdead
    rw [explained.health, healthAfter_eq_dead_iff, acquired_concat] at hdead
    exact hdead (.inl hacq)
  · intro hvalid
    obtain ⟨hdots, hacq⟩ := explained.valid_iff.mp hvalid
    rw [explained.frame_health, explained.health]
    by_cases shown : o.seen.Acquires s
    · exact .inl (healthAfter_of_acquires shown _)
    · rw [acquired_concat, or_iff_left shown] at hacq
      rw [healthAfter_of_dots hdots shown, if_pos hacq]
      exact .inr rfl

/-- Two emitters, then one of them, then none. -/
def fadingBar : List (Sighting Float) :=
  [.ofTwo (some ⟨200, 384⟩) (some ⟨800, 384⟩) 0.5, .ofTwo (some ⟨200, 384⟩) none 0.25,
    .ofTwo none none 0]

theorem run_explained_of_fadingBar :
    (∀ seen ∈ fadingBar, seen.slots.InView) ∧
      ((start PointerSettings.default).run fadingBar).map (·.seen) = fadingBar ∧
      ∀ past o later, (start PointerSettings.default).run fadingBar = past ++ o :: later →
        ExplainedBy PointerSettings.default past o := by
  have inView : ∀ seen ∈ fadingBar, seen.slots.InView := by
    simp only [fadingBar, List.forall_mem_cons]
    decide
  obtain ⟨hseen, hall⟩ := run_explained PointerSettings.default fadingBar inView
  exact ⟨inView, hseen, fun past o later split => (hall past o later split).2.1⟩

end SensorBar.Tracker
