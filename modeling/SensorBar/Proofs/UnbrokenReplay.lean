import SensorBar.Proofs.LineReading
import SensorBar.Proofs.Pairs
import SensorBar.Proofs.ReplayValidity
import SensorBar.Proofs.StepInPlace
import SensorBar.Proofs.TraceReading

/-! # Replays are never broken off

A line of a trace is only read as a sample when its coordinates are in range, and the marker of an
inactive slot is read as no spot.  So every sample keeps the promise that a step depends on, and a
replay ends at the end of its trace or at the first error that the trace is read with, never at a
breach.  Whatever it looks up by position on the way is there, and no filter counts beyond the
maximum of its settings.
-/

namespace SensorBar

/-! ## What is read of a line -/

namespace Trace

theorem inView_of_answer? {number : Nat} {line : List UInt8} {sample : Sample Float}
    (h : answer? number line = some (.ok sample)) : sample.slots.InView := by
  cases answer?_eq_iff.mp h with
  | sample _ _ _ parsed => exact (ofFields_eq_ok_iff.mp parsed).inView

theorem Reader.inView_of_next? {r after : Reader} {sample : Sample Float}
    (h : r.next? = some (.ok sample, after)) : sample.slots.InView := by
  have hmem : .ok sample ∈ answers r.count (lines r.rest) := by
    rw [answers_of_next? h]
    exact List.mem_cons_self
  obtain ⟨number, line, -, hanswer⟩ := exists_answer?_of_mem hmem
  exact inView_of_answer? hanswer

end Trace

variable {α : Type} [Scalar α]

/-! ## Positions -/

namespace Dot

/-- A dot is at a position of the dots of a frame, and so is its tilted place. -/
def IsAt (roll : α) (points : List (Point α)) (i : Nat) (dot : Dot α) : Prop :=
  points[i]? = some dot.raw ∧ (rotateAll points roll)[i]? = some dot.tilted

theorem isAt_get (roll : α) (points : List (Point α)) (i : Fin points.length) :
    IsAt roll points i ⟨points.get i, (points.get i).rotate roll⟩ := by
  simp [IsAt, rotateAll]

theorem ofPoints_eq_map_finRange (roll : α) (points : List (Point α)) :
    ofPoints roll points =
      (List.finRange points.length).map fun i => ⟨points.get i, (points.get i).rotate roll⟩ := by
  conv_lhs => rw [← List.map_get_finRange points]
  rw [ofPoints, List.map_map]
  rfl

end Dot

/-- Whatever is looked up among the dots of a frame by its position is found there. -/
structure InBounds (roll : α) (points : List (Point α)) : Prop where
  /-- The search takes as many dots as tilted places. -/
  paired : Dot.zip? points (rotateAll points roll) = some (Dot.ofPoints roll points)
  /-- It tries the dots at two positions, in order, against those at other positions. -/
  search : ∀ entry ∈ pairs (Dot.ofPoints roll points), ∃ i j, i < j ∧
    entry.1.IsAt roll points i ∧ entry.2.1.IsAt roll points j ∧
    ∀ dot ∈ entry.2.2, ∃ k, k ≠ i ∧ k ≠ j ∧ dot.IsAt roll points k
  nearest : ∀ (previous : Bar α) m, Bar.nearest previous (rotateAll points roll) = some m →
    ∃ i : Nat, (rotateAll points roll)[i]? = some m.dot
  edge : ∀ height edge, Bar.edgemost height points = some edge →
    edge < (rotateAll points roll).length

theorem inBounds (roll : α) (points : List (Point α)) : InBounds roll points where
  paired := Dot.zip?_rotateAll roll points
  search := by
    rintro entry hentry
    -- The search over dots is that over their positions, and the positions of an entry differ.
    rw [Dot.ofPoints_eq_map_finRange, pairs_map] at hentry
    obtain ⟨⟨i, j, rest⟩, hpositions, rfl⟩ := List.mem_map.mp hentry
    have sorted := List.pairwise_lt_finRange points.length
    have hlt : i < j := ((mem_members_pairs_iff sorted i j).mp
      (List.mem_map_of_mem (f := members) hpositions)).2.2
    refine ⟨i, j, hlt, Dot.isAt_get roll points i, Dot.isAt_get roll points j, ?_⟩
    intro dot hdot
    obtain ⟨k, hk, rfl⟩ := List.mem_map.mp hdot
    obtain ⟨-, hi, hj⟩ := (mem_rest_of_pairs (List.nodup_finRange _) hpositions k).mp hk
    exact ⟨k, Fin.val_ne_of_ne hi, Fin.val_ne_of_ne hj, Dot.isAt_get roll points k⟩
  nearest := fun previous m h => List.getElem?_of_mem (Bar.mem_of_nearest h)
  edge := by
    intro height edge h
    rw [length_rotateAll]
    have hdots : points ≠ [] := by
      rintro rfl
      cases h
    obtain ⟨found, hlt, hfound⟩ := Bar.edgemost_eq_some height hdots
    rw [h] at hfound
    exact Option.some.inj hfound ▸ hlt

/-! ## Counters -/

namespace Filter

/-- Whether a filter of a replay counts by the maximum of its settings and has not gone beyond. -/
def CountsWithin (s : FilterSettings α) : Filter α → Prop
  | .dropout d => d.maxCount = s.error.maxCount.toNat ∧ d.count ≤ d.maxCount
  | .glitch g => g.maxCount = s.glitch.maxCount.toNat ∧ g.count ≤ g.maxCount
  | .radius _ => True
  | .adaptive _ => True
  | .translate _ => True
  | .chain _ => False

variable {s : FilterSettings α}

theorem CountsWithin.step {g : Filter α} (h : g.CountsWithin s) (now : Nat) (f : Frame α) :
    (g.step now f).1.CountsWithin s := by
  cases g with
  | dropout d =>
      obtain ⟨hmax, hcount⟩ := h
      rw [Filter.step]
      simp only [Prod.map, CountsWithin, Dropout.step]
      split
      · exact ⟨hmax, Nat.zero_le _⟩
      · split
        · exact ⟨hmax, hcount⟩
        · split
          · next room => exact ⟨hmax, room⟩
          · exact ⟨hmax, hcount⟩
  | glitch g =>
      obtain ⟨hmax, hcount⟩ := h
      rw [Filter.step]
      have moves := g.step_moves f
      simp only [Prod.map, CountsWithin]
      generalize (g.step f).1 = next, (g.step f).2 = out at moves ⊢
      cases moves with
      | miss missing => exact ⟨hmax, Nat.zero_le _⟩
      | accept valid due => exact ⟨hmax, Nat.zero_le _⟩
      | hold told far within => exact ⟨hmax, within⟩
  | radius r => trivial
  | adaptive a => trivial
  | translate m => trivial
  | chain members => exact h.elim

theorem countsWithin_stepAll {members : List (Filter α)} (h : ∀ g ∈ members, g.CountsWithin s)
    (now : Nat) (f : Frame α) : ∀ g ∈ (stepAll now members f).1, g.CountsWithin s := by
  induction members generalizing f with
  | nil => simp [stepAll]
  | cons g rest ih =>
      rw [List.forall_mem_cons] at h
      rw [stepAll, List.forall_mem_cons]
      exact ⟨h.1.step now f, ih h.2 _⟩

theorem countsWithin_ofSettings (s : FilterSettings α) : ∀ g ∈ ofSettings s, g.CountsWithin s := by
  have hsmoothing : ∀ g ∈ ofSmoothing s.smoothing, g.CountsWithin s := by
    cases s.smoothing with
    | off => exact List.forall_mem_nil _
    | radius settings => exact List.forall_mem_singleton.mpr trivial
    | adaptive settings => exact List.forall_mem_singleton.mpr trivial
  have htranslate : ∀ g ∈ s.translate.mapping.toList.map Filter.translate, g.CountsWithin s := by
    intro g hg
    obtain ⟨m, -, rfl⟩ := List.mem_map.mp hg
    trivial
  simp only [ofSettings, List.forall_mem_append, List.forall_mem_cons]
  exact ⟨⟨⟨⟨rfl, Nat.zero_le _⟩, ⟨rfl, Nat.zero_le _⟩, List.forall_mem_nil _⟩, hsmoothing⟩,
    htranslate⟩

end Filter

/-! ## Runs -/

namespace Replay

theorem exists_of_step {r next : Replay α} {sample : Sample α} {o : Step α}
    (h : r.step sample = .ok (next, o)) :
    r.tracker.step sample.slots (r.roll.update sample.accel).roll = .ok (next.tracker, o.raw) ∧
      next.roll = r.roll.update sample.accel ∧ o.time = sample.time ∧
      Filter.stepAll (instant r.origin sample.time) r.filters o.raw =
        (next.filters, o.filtered) := by
  simp only [step] at h
  cases hstep : r.tracker.step sample.slots (r.roll.update sample.accel).roll with
  | error breach =>
      rw [hstep] at h
      cases h
  | ok made =>
      obtain ⟨tracker, raw⟩ := made
      rw [hstep] at h
      obtain ⟨rfl, rfl⟩ := Prod.mk.inj (Except.ok.inj h)
      exact ⟨rfl, rfl, rfl, rfl⟩

theorem step_total (r : Replay α) {sample : Sample α} (inView : sample.slots.InView) :
    ∃ next o, r.step sample = .ok (next, o) := by
  obtain ⟨tracker, raw, hstep⟩ := r.tracker.step_total (r.roll.update sample.accel).roll inView
  simp only [step, hstep]
  exact ⟨_, _, rfl⟩

/-- What every step keeps holds where a run ends, however it ends. -/
theorem run_last_of_invariant {I : Replay α → Prop}
    (keeps : ∀ r sample next o, I r → r.step sample = .ok (next, o) → I next) {r : Replay α}
    (start : I r) (results : List (Except Error (Sample α))) : I (r.run results).last := by
  induction results generalizing r with
  | nil => exact start
  | cons result rest ih =>
      cases result with
      | error cause => exact start
      | ok sample =>
          cases hstep : r.step sample with
          | error breach => simpa [run, hstep] using start
          | ok made =>
              obtain ⟨next, o⟩ := made
              rw [run_cons_of_step hstep]
              exact ih (keeps r sample next o start hstep)

theorem inView_of_mem_samples (bytes : List UInt8) (sample : Sample Float)
    (h : .ok sample ∈ samples bytes) : sample.slots.InView := by
  obtain ⟨result, hresult, hsample⟩ := List.mem_map.mp h
  rw [Trace.mapError_eq_ok_iff.mp hsample, Trace.read, Trace.Reader.readAll_eq_answers] at hresult
  obtain ⟨number, line, -, hanswer⟩ := Trace.exists_answer?_of_mem hresult
  exact Trace.inView_of_answer? hanswer

theorem ne_breach_of_mem_samples {bytes : List UInt8} {cause : Error}
    (h : .error cause ∈ samples bytes) (breach : Breach) : cause ≠ .breach breach := by
  obtain ⟨result, -, hresult⟩ := List.mem_map.mp h
  obtain ⟨told, -, rfl⟩ := Trace.mapError_eq_error_iff.mp hresult
  cases told <;> simp [Error.ofTrace]

/-- A run over samples in view ends where they end, or at the first error among them. -/
theorem ending_run {r : Replay α} {results : List (Except Error (Sample α))}
    (inView : ∀ sample, .ok sample ∈ results → sample.slots.InView) :
    ((r.run results).ending = .finished ∧ ∀ result ∈ results, result.isOk) ∨
      ∃ cause, .error cause ∈ results ∧ (r.run results).ending = .failed cause := by
  induction results generalizing r with
  | nil => exact .inl ⟨rfl, List.forall_mem_nil _⟩
  | cons result rest ih =>
      cases result with
      | error cause => exact .inr ⟨cause, List.mem_cons_self, rfl⟩
      | ok sample =>
          obtain ⟨next, o, hstep⟩ := r.step_total (inView sample List.mem_cons_self)
          rw [run_cons_of_step hstep]
          rcases ih (r := next) fun s hs => inView s (List.mem_cons_of_mem _ hs) with
            ⟨hending, hrest⟩ | ⟨cause, hcause, hending⟩
          · exact .inl ⟨hending, List.forall_mem_cons.mpr ⟨rfl, hrest⟩⟩
          · exact .inr ⟨cause, List.mem_cons_of_mem _ hcause, hending⟩

/--
A step on a tracker is a breach exactly when a spot is out of view or at the marker of an inactive
slot.  Then the tracker is as it was, also when it is changed where it stands, and otherwise the two
ways to step agree.  No sample of a trace has such a spot.  So a replay of any bytes under any
settings does not end in a breach, finds all that it looks up by position, and never counts beyond
the maximum of a setting.
-/
theorem run_unbroken :
    (∀ (t : Tracker α) (slots : Camera.Slots) (roll : α),
      ((∃ breach, t.step slots roll = .error breach) ↔
        ∃ s ∈ slots.spots, 1023 < s.x ∨ 1023 < s.y ∨ s.x = 1023 ∧ s.y = 1023) ∧
      (∀ breach, t.step slots roll = .error breach →
        Tracker.stepInPlace slots roll t = .error breach t) ∧
      ∀ next frame, t.step slots roll = .ok (next, frame) →
        Tracker.stepInPlace slots roll t = .ok frame next) ∧
    (∀ (reader after : Trace.Reader) (sample : Sample Float),
      reader.next? = some (.ok sample, after) → sample.slots.InView) ∧
    (∀ (s : Settings Float) (bytes : List UInt8) (breach : Breach),
      ((start s).run (samples bytes)).ending ≠ .failed (.breach breach)) ∧
    (∀ (roll : α) (points : List (Point α)), InBounds roll points) ∧
    ∀ (s : Settings Float) (bytes : List UInt8) (passed : Nat),
      ∀ g ∈ ((start s).run ((samples bytes).take passed)).last.filters,
        g.CountsWithin s.filter := by
  refine ⟨fun t slots roll => ⟨t.exists_breach_iff slots roll, ?_, ?_⟩, ?_, ?_, inBounds, ?_⟩
  · intro breach hstep
    rw [Tracker.stepInPlace_eq, hstep]
  · intro next frame hstep
    rw [Tracker.stepInPlace_eq, hstep]
  · intro reader after sample
    exact Trace.Reader.inView_of_next?
  · intro s bytes breach hbreach
    rcases ending_run (r := start s) (inView_of_mem_samples bytes) with
      ⟨hending, -⟩ | ⟨cause, hcause, hending⟩
    · rw [hending] at hbreach
      cases hbreach
    · rw [hending] at hbreach
      exact ne_breach_of_mem_samples hcause breach (Ending.failed.inj hbreach)
  -- Each state on the way is where the run over a shorter trace ends.
  · intro s bytes passed
    refine run_last_of_invariant (I := fun r => ∀ g ∈ r.filters, g.CountsWithin s.filter) ?_
      (Filter.countsWithin_ofSettings s.filter) _
    intro r sample next o within hstep
    have hfilters : _ = next.filters := congrArg Prod.fst (exists_of_step hstep).2.2.2
    rw [← hfilters]
    exact Filter.countsWithin_stepAll within _ _

/-- The camera's marker of an inactive slot, taken for a spot. -/
def strayMarker : Camera.Slots :=
  #v[some ⟨400, 384⟩, some ⟨1023, 1023⟩, none, none]

/-- A sample, and a line with a coordinate that the camera never sends. -/
def farTrace : List UInt8 :=
  "0 400 384 624 384 1023 1023 1023 1023 0 0 1\n10 400 384 624 1024 1023 1023 1023 1023 0 0 1\n"
    |>.toUTF8.toList

theorem run_unbroken_of_strayMarker :
    let t : Tracker Float := .start .default
    (∃ breach, t.step strayMarker 0 = .error breach ∧
      Tracker.stepInPlace strayMarker 0 t = .error breach t) ∧
    ∀ breach, ((start .default).run (samples farTrace)).ending ≠ .failed (.breach breach) := by
  intro t
  have steps := (run_unbroken (α := Float)).1 t strayMarker 0
  obtain ⟨breach, hbreach⟩ := steps.1.mpr ⟨⟨1023, 1023⟩, by decide, by decide⟩
  exact ⟨⟨breach, hbreach, steps.2.1 breach hbreach⟩,
    (run_unbroken (α := Float)).2.2.1 .default farTrace⟩

end Replay

end SensorBar
