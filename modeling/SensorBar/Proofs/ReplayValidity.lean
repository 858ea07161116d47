import SensorBar.Replay
import SensorBar.Proofs.Accepted
import SensorBar.Proofs.DropoutRun
import SensorBar.Proofs.GlitchRun
import SensorBar.Proofs.TrackerHistory

/-! # Which frames of a replay are valid

The tracker gives a valid frame when it sees a dot and has been shown the bar, and dropout repair
bridges the frames that come without a dot.  Behind these two no stage changes whether a frame is
valid, as long as a translation clips.  So the validity of a filtered frame is told by the slots of
the samples: the invariant of a run is that dropout repair has seen the raw frames of the tracker
and nothing else.  None of this depends on the arithmetic.
-/

namespace SensorBar

variable {α : Type} [Scalar α]

/-! ## Transparent stages -/

namespace Filter

/-- Whether a filter, by its kind and its parameters, leaves every frame as valid as it is. -/
def Transparent : Filter α → Prop
  | .dropout _ => False
  | .glitch _ => True
  | .radius _ => True
  | .adaptive _ => True
  | .translate m => m.clamp = true ∧ m.source.isEmpty = false ∧ m.destination.isEmpty = false
  | .chain _ => False

theorem Glitch.step_valid (g : Glitch α) (f : Frame α) : (g.step f).2.valid = f.valid := by
  rw [(g.step_moves f).out_eq]

theorem Radius.step_valid (r : Radius α) (f : Frame α) : (r.step f).2.valid = f.valid := by
  unfold step
  split <;> rfl

theorem Adaptive.step_valid (a : Adaptive α) (f : Frame α) (now : Nat) :
    (a.step f now).2.valid = f.valid := by
  unfold step
  split
  · split
    · rfl
    · split
      · rfl
      · split <;> rfl
  · rfl

theorem apply_valid {m : Mapping α} (clips : m.clamp = true) (source : m.source.isEmpty = false)
    (destination : m.destination.isEmpty = false) (f : Frame α) :
    (m.apply f).valid = f.valid := by
  unfold Mapping.apply
  split
  · next valid => simp [Rect.mapTo?, source, destination, clips, valid]
  · rfl

theorem Transparent.step {g : Filter α} (h : g.Transparent) (now : Nat) (f : Frame α) :
    (g.step now f).2.valid = f.valid ∧ (g.step now f).1.Transparent := by
  cases g with
  | dropout state => exact h.elim
  | glitch state =>
      rw [Filter.step]
      exact ⟨state.step_valid f, trivial⟩
  | radius state =>
      rw [Filter.step]
      exact ⟨state.step_valid f, trivial⟩
  | adaptive state =>
      rw [Filter.step]
      exact ⟨state.step_valid f now, trivial⟩
  | translate mapping =>
      rw [Filter.step]
      exact ⟨apply_valid h.1 h.2.1 h.2.2 f, h⟩
  | chain members => exact h.elim

theorem stepAll_transparent {members : List (Filter α)} (h : ∀ g ∈ members, g.Transparent)
    (now : Nat) (f : Frame α) :
    (stepAll now members f).2.valid = f.valid ∧
      ∀ g ∈ (stepAll now members f).1, g.Transparent := by
  induction members generalizing f with
  | nil => simp [stepAll]
  | cons g rest ih =>
      obtain ⟨hvalid, hnext⟩ := (h g List.mem_cons_self).step now f
      obtain ⟨hrest, hall⟩ :=
        ih (fun later hlater => h later (List.mem_cons_of_mem g hlater)) (g.step now f).2
      rw [stepAll]
      refine ⟨hrest.trans hvalid, ?_⟩
      intro g' hg'
      rcases List.mem_cons.mp hg' with rfl | hlater
      · exact hnext
      · exact hall g' hlater

end Filter

/-! ## Stages of accepted settings -/

theorem Translation.clamp_of_custom {t : Translation α}
    (clips : ∀ m, t = .custom m → m.clamp = true) {m : Mapping α} (h : t.mapping = some m) :
    m.clamp = true := by
  cases t with
  | off => cases h
  | custom own => exact Option.some.inj h ▸ clips own rfl
  | _ =>
      rw [← Option.some.inj h]
      rfl

namespace Filter

theorem transparent_ofSmoothing {s : Smoothing α} {g : Filter α} (h : g ∈ ofSmoothing s) :
    g.Transparent := by
  cases s with
  | off => cases h
  | radius settings =>
      rw [List.mem_singleton.mp h]
      trivial
  | adaptive settings =>
      rw [List.mem_singleton.mp h]
      trivial

/-- Dropout repair comes first, and what comes after it is transparent. -/
theorem ofSettings_eq {s : FilterSettings α} (accepted : Accepted s.checks)
    (clips : ∀ m, s.translate = .custom m → m.clamp = true) :
    ∃ rest, ofSettings s = .dropout (.ofSettings s.error) :: rest ∧ ∀ g ∈ rest, g.Transparent := by
  refine ⟨.glitch (.ofSettings s.glitch) ::
    (ofSmoothing s.smoothing ++ s.translate.mapping.toList.map .translate),
    by simp [ofSettings], ?_⟩
  intro g hg
  rcases List.mem_cons.mp hg with rfl | hg
  · trivial
  rcases List.mem_append.mp hg with hg | hg
  · exact transparent_ofSmoothing hg
  · obtain ⟨m, hm, rfl⟩ := List.mem_map.mp hg
    have hmapping : s.translate.mapping = some m := Option.mem_toList.mp hm
    exact ⟨s.translate.clamp_of_custom clips hmapping, s.rectangles_of_accepted accepted hmapping⟩

end Filter

/-! ## What the tracker is shown -/

namespace Replay

/-- The roll estimator after some samples. -/
def rollAfter (e : RollEstimator α) (samples : List (Sample α)) : RollEstimator α :=
  samples.foldl (fun e sample => e.update sample.accel) e

/-- What a tracker is shown of some samples: the slots, and the roll as it is estimated by then. -/
def sightings (e : RollEstimator α) : List (Sample α) → List (Tracker.Sighting α)
  | [] => []
  | sample :: rest =>
      ⟨sample.slots, (e.update sample.accel).roll⟩ :: sightings (e.update sample.accel) rest

theorem sightings_concat (e : RollEstimator α) (done : List (Sample α)) (sample : Sample α) :
    sightings e (done ++ [sample]) = sightings e done ++
      [⟨sample.slots, (rollAfter e (done ++ [sample])).roll⟩] := by
  induction done generalizing e with
  | nil => rfl
  | cons first rest ih =>
      rw [List.cons_append, sightings, ih, sightings]
      rfl

theorem map_slots_sightings (e : RollEstimator α) (samples : List (Sample α)) :
    (sightings e samples).map (·.slots) = samples.map (·.slots) := by
  induction samples generalizing e with
  | nil => rfl
  | cons sample rest ih => simp [sightings, ih]

end Replay

/-- For how many frames, up to the last one, no slot has been active. -/
def Camera.darkness (history : List Camera.Slots) : Nat :=
  (history.rtakeWhile fun slots => slots.spots.isEmpty).length

theorem Camera.darkness_concat (history : List Camera.Slots) (slots : Camera.Slots) :
    Camera.darkness (history ++ [slots]) =
      if slots.spots = [] then Camera.darkness history + 1 else 0 := by
  unfold Camera.darkness
  rw [Filter.length_rtakeWhile_concat]
  simp only [List.isEmpty_iff]

namespace Tracker

variable {s : PointerSettings α}

theorem Sighting.dots_eq_nil_iff (seen : Sighting α) : seen.dots = [] ↔ seen.slots.spots = [] := by
  simp [Sighting.dots, Camera.Slots.dots]

theorem Sighting.dots_ne_nil_of_acquires {seen : Sighting α} (h : seen.Acquires s) :
    seen.dots ≠ [] := by
  intro hdots
  simp [Sighting.Acquires, Sighting.bars, hdots, Dot.ofPoints, Bar.candidates, pairs] at h

/-- Among the frames of a run, the valid ones and the missing ones are told by the sightings. -/
structure RawFrames (s : PointerSettings α) (past : List (Transition α)) : Prop where
  seen : (Filter.latestPosition (past.map (·.frame))).isSome ↔ Acquired s (past.map (·.seen))
  gap : Acquired s (past.map (·.seen)) →
    Filter.gap (past.map (·.frame)) = Camera.darkness (past.map (·.seen.slots))

theorem rawFrames_of_reaches {past : List (Transition α)} {t : Tracker α}
    (h : Reaches (start s) past t) : RawFrames s past := by
  induction h with
  | start => exact ⟨by simp [Filter.latestPosition, Acquired], fun h => by simp [Acquired] at h⟩
  | @step past o earlier genuine ih =>
      have explained := (summary_of_reaches earlier).explains (moves_of_step genuine)
      have hvalid := explained.valid_iff
      rw [acquired_concat] at hvalid
      have hshows : o.seen.Acquires s → o.seen.dots ≠ [] := Sighting.dots_ne_nil_of_acquires
      constructor
      · rw [List.map_append, List.map_append, List.map_singleton, List.map_singleton,
          Filter.latestPosition_concat, acquired_concat, ← ih.seen]
        cases hframe : o.frame.valid with
        | true =>
            rw [hframe, ← ih.seen] at hvalid
            simpa using (hvalid.mp rfl).2
        | false =>
            -- A sighting that shows the bar has dots, so its frame would be valid.
            have unseen : ¬ o.seen.Acquires s := by
              intro shown
              simp [hframe, hshows shown, shown] at hvalid
            simp [unseen]
      · intro hacq
        rw [List.map_append, List.map_singleton, acquired_concat] at hacq
        rw [List.map_append, List.map_append, List.map_singleton, List.map_singleton,
          Filter.gap_concat, Camera.darkness_concat]
        have hspots := o.seen.dots_eq_nil_iff
        by_cases hdots : o.seen.dots = []
        · have unseen : ¬ o.seen.Acquires s := fun shown => hshows shown hdots
          have invalid : o.frame.valid = false := by simpa [hdots] using hvalid
          have hpast := hacq.resolve_right unseen
          simp [hspots.mp hdots, invalid, ih.gap hpast]
        · have valid : o.frame.valid = true := hvalid.mpr ⟨hdots, hacq⟩
          simp [mt hspots.mpr hdots, valid]

end Tracker

/-! ## Runs -/

namespace Replay

/-- What a replay holds after some samples, from a start with the given settings. -/
structure Follows (s : Settings α) (done : List (Sample α)) (r : Replay α) : Prop where
  roll : r.roll = rollAfter (.start s.roll) done
  stages : ∃ past rest, Tracker.Reaches (.start s.pointer) past r.tracker ∧
    past.map (·.seen) = sightings (.start s.roll) done ∧ (∀ g ∈ rest, g.Transparent) ∧
    r.filters =
      .dropout (.after s.filter.error.maxCount.toNat (past.map (·.frame))) :: rest

/-- Whether the last of some samples leaves the filters as a valid frame. -/
def ShownAfter (s : Settings α) (samples : List (Sample α)) : Prop :=
  Tracker.Acquired s.pointer (sightings (.start s.roll) samples) ∧
    Camera.darkness (samples.map (·.slots)) ≤ s.filter.error.maxCount.toNat

theorem follows_start {s : Settings α} (accepted : Accepted s.checks)
    (clips : ∀ m, s.filter.translate = .custom m → m.clamp = true) :
    Follows s [] (start s) := by
  have hfilter : Accepted s.filter.checks :=
    fun check hcheck => accepted check (List.mem_append_right _ hcheck)
  obtain ⟨rest, hrest, htransparent⟩ := Filter.ofSettings_eq hfilter clips
  exact ⟨rfl, [], rest, .start, rfl, htransparent, hrest⟩

theorem Follows.step {s : Settings α} {done : List (Sample α)} {r : Replay α}
    (h : Follows s done r) {sample : Sample α} (inView : sample.slots.InView) :
    ∃ next o, r.step sample = .ok (next, o) ∧ Follows s (done ++ [sample]) next ∧
      o.time = sample.time ∧ (o.filtered.valid = true ↔ ShownAfter s (done ++ [sample])) := by
  obtain ⟨past, rest, reached, hseen, htransparent, hfilters⟩ := h.stages
  have hroll : r.roll.update sample.accel = rollAfter (.start s.roll) (done ++ [sample]) := by
    rw [h.roll, rollAfter, rollAfter, List.foldl_append]
    rfl
  obtain ⟨tracker, raw, hstep⟩ := r.tracker.step_total (r.roll.update sample.accel).roll inView
  let o : Tracker.Transition α :=
    ⟨r.tracker, ⟨sample.slots, (r.roll.update sample.accel).roll⟩, tracker, raw⟩
  have next : Tracker.Reaches (.start s.pointer) (past ++ [o]) tracker :=
    .step (o := o) reached hstep
  have hsightings : (past ++ [o]).map (·.seen) = sightings (.start s.roll) (done ++ [sample]) := by
    rw [List.map_append, hseen, sightings_concat, ← hroll]
    rfl
  let repaired := (Filter.Dropout.after s.filter.error.maxCount.toNat (past.map (·.frame))).step raw
  have hrepaired : repaired.1 =
      .after s.filter.error.maxCount.toNat ((past ++ [o]).map (·.frame)) := by
    rw [List.map_append]
    exact Filter.Dropout.step_after_fst _ _ _
  let filtered := Filter.stepAll (instant r.origin sample.time) rest repaired.2
  obtain ⟨hvalid, hrest⟩ :=
    Filter.stepAll_transparent htransparent (instant r.origin sample.time) repaired.2
  refine ⟨⟨r.origin, r.roll.update sample.accel, tracker, .dropout repaired.1 :: filtered.1⟩,
    ⟨sample.time, (r.roll.update sample.accel).roll, raw, filtered.2⟩, ?_,
    ⟨hroll, past ++ [o], filtered.1, next, hsightings, hrest, by rw [hrepaired]⟩, rfl, ?_⟩
  · simp only [Replay.step, hstep, hfilters]
    rfl
  · have hraw := Tracker.rawFrames_of_reaches next
    have hslots : (past ++ [o]).map (·.seen.slots) = (done ++ [sample]).map (·.slots) := by
      rw [← map_slots_sightings (.start s.roll), ← hsightings, List.map_map]
      rfl
    rw [ShownAfter, ← hsightings, ← hslots]
    calc filtered.2.valid = true ↔ repaired.2.valid = true := by rw [hvalid]
      _ ↔ (Filter.latestPosition ((past ++ [o]).map (·.frame))).isSome ∧
          Filter.gap ((past ++ [o]).map (·.frame)) ≤ s.filter.error.maxCount.toNat := by
        rw [List.map_append]
        exact Filter.Dropout.step_after_valid_iff _ _ _
      _ ↔ Tracker.Acquired s.pointer ((past ++ [o]).map (·.seen)) ∧
          Camera.darkness ((past ++ [o]).map (·.seen.slots)) ≤
            s.filter.error.maxCount.toNat := by
        rw [hraw.seen]
        exact and_congr_right fun hacquired => by rw [hraw.gap hacquired]

theorem run_cons_of_step {r next : Replay α} {sample : Sample α} {o : Step α}
    (h : r.step sample = .ok (next, o)) (rest : List (Except Error (Sample α))) :
    r.run (.ok sample :: rest) =
      ⟨o :: (next.run rest).steps, (next.run rest).last, (next.run rest).ending⟩ := by
  simp [run, h]

theorem Follows.run {s : Settings α} {done : List (Sample α)} {r : Replay α}
    (h : Follows s done r) {samples : List (Sample α)}
    (inView : ∀ sample ∈ samples, sample.slots.InView) :
    (r.run (samples.map .ok)).ending = .finished ∧
      (r.run (samples.map .ok)).steps.map (·.time) = samples.map (·.time) ∧
      ∀ k < samples.length, ∃ o, (r.run (samples.map .ok)).steps[k]? = some o ∧
        (o.filtered.valid = true ↔ ShownAfter s (done ++ samples.take (k + 1))) := by
  induction samples generalizing done r with
  | nil => exact ⟨rfl, rfl, fun k hk => absurd hk (Nat.not_lt_zero k)⟩
  | cons sample rest ih =>
      obtain ⟨next, o, hstep, hnext, htime, hvalid⟩ := h.step (inView sample List.mem_cons_self)
      obtain ⟨hending, htimes, hsteps⟩ :=
        ih hnext fun later hlater => inView later (List.mem_cons_of_mem sample hlater)
      rw [List.map_cons, run_cons_of_step hstep]
      refine ⟨hending, by simp [htimes, htime], ?_⟩
      intro k hk
      cases k with
      | zero => exact ⟨o, rfl, by simpa using hvalid⟩
      | succ k =>
          obtain ⟨later, hlater, hshown⟩ := hsteps k (Nat.lt_of_succ_lt_succ hk)
          refine ⟨later, by simpa using hlater, ?_⟩
          rw [hshown, List.append_assoc]
          rfl

/--
A replay gives a frame for every sample.  A filtered frame is valid exactly when some sample so far
has shown the bar and no slot has been active for at most as many samples as dropout repair bridges.
Neither a position nor any other stage has a part in that.
-/
theorem run_valid_iff {s : Settings α} (accepted : s.violation? = none)
    (clips : ∀ m, s.filter.translate = .custom m → m.clamp = true) {samples : List (Sample α)}
    (inView : ∀ sample ∈ samples, sample.slots.InView) :
    ((start s).run (samples.map .ok)).ending = .finished ∧
      ((start s).run (samples.map .ok)).steps.map (·.time) = samples.map (·.time) ∧
      ∀ k < samples.length, ∃ o, ((start s).run (samples.map .ok)).steps[k]? = some o ∧
        (o.filtered.valid = true ↔
          Tracker.Acquired s.pointer (sightings (.start s.roll) (samples.take (k + 1))) ∧
          Camera.darkness ((samples.take (k + 1)).map (·.slots)) ≤
            s.filter.error.maxCount.toNat) := by
  have haccepted := s.violation?_eq_none_iff.mp accepted
  exact (follows_start haccepted clips).run inView

/-- Two emitters, then one, then none for two samples. -/
def fadingSamples : List (Sample Float) :=
  [⟨0, #v[some ⟨200, 384⟩, some ⟨800, 384⟩, none, none], ⟨0, 0, 1⟩⟩,
    ⟨10, #v[some ⟨200, 384⟩, none, none, none], ⟨0, 0, 1⟩⟩,
    ⟨20, #v[none, none, none, none], ⟨0, 0, 1⟩⟩,
    ⟨30, #v[none, none, none, none], ⟨0, 0, 1⟩⟩]

theorem run_valid_iff_of_fadingSamples :
    Settings.default.violation? = none ∧
      (∀ m, Settings.default.filter.translate = .custom m → m.clamp = true) ∧
      (∀ sample ∈ fadingSamples, sample.slots.InView) ∧
      ∃ o, ((start .default).run (fadingSamples.map .ok)).steps[3]? = some o ∧
        (o.filtered.valid = true ↔
          Tracker.Acquired .default (sightings (.start .default) fadingSamples)) := by
  have accepted : Settings.default.violation? = none := by decide +kernel
  have clips : ∀ m, Settings.default.filter.translate = .custom m → m.clamp = true :=
    fun m h => by cases h
  have inView : ∀ sample ∈ fadingSamples, sample.slots.InView := by
    simp only [fadingSamples, List.forall_mem_cons]
    decide
  obtain ⟨o, ho, hvalid⟩ := (run_valid_iff accepted clips inView).2.2 3 (by decide)
  refine ⟨accepted, clips, inView, o, ho, hvalid.trans (and_iff_left ?_)⟩
  decide

end Replay

end SensorBar
