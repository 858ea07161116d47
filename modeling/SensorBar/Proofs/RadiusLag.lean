import SensorBar.Proofs.RadiusSmoothing

/-! # The lag of radius smoothing

Every step of radius smoothing ends on the way from the smoothed position to the raw one, no farther
from the raw one than a radius.  The direction in which it leaves a radius is computed from a
heading, and is that of the way itself.  Missing frames take no part in this: they leave the state
as it is, so a stream without them is smoothed alike.
-/

namespace SensorBar

variable {α : Type} [ExactScalar α]

/-- The points on the straight way from one point to another, both ends included. -/
def Point.OnWay (start goal p : Point α) : Prop :=
  ∃ part, 0 ≤ part ∧ part ≤ 1 ∧ p = start + (goal - start).scale part

namespace Filter

/-! ## One step -/

namespace Radius

theorem follow_onWay {s : RadiusSettings α} (accepted : Accepted s.checks)
    (smoothed raw : Point α) : smoothed.OnWay raw (follow s smoothed raw) :=
  ⟨gain s (raw - smoothed).norm, gain_nonneg accepted _, gain_le_one accepted _,
    follow_eq accepted smoothed raw⟩

theorem norm_sub_follow_le_radius {s : RadiusSettings α} (accepted : Accepted s.checks)
    (smoothed raw : Point α) : (raw - follow s smoothed raw).norm ≤ s.radius := by
  obtain ⟨-, -, -, hdeadzone⟩ := s.accepted_iff.mp accepted
  have nearer := norm_sub_follow_le accepted smoothed raw
  rcases le_or_gt (raw - smoothed).norm s.deadzone with held | apart
  · exact nearer.trans (held.trans hdeadzone)
  · rcases lt_or_ge (raw - smoothed).norm s.radius with inside | far
    · exact nearer.trans inside.le
    · exact (norm_sub_follow_of_radius_le accepted apart far).le

end Radius

theorem step_radius_of_missing (r : Radius α) (now : Nat) {f : Frame α}
    (missing : f.valid = false) : (radius r).step now f = (radius r, f) := by
  simp [step, Radius.step, missing]

theorem step_radius_of_first (s : RadiusSettings α) (now : Nat) {f : Frame α}
    (valid : f.valid = true) :
    (radius ⟨s, none⟩).step now f = (radius ⟨s, some f.position⟩, f) := by
  rw [step, Radius.step, if_pos valid]
  rfl

/-! ## Runs -/

/-- Every exchange of a run is a step from the last position that was told before it. -/
theorem step_radius_of_exchanges {s : RadiusSettings α} {stream : List (Frame α × Nat)}
    {past later : List (Frame α × Frame α)} {f out : Frame α}
    (split : (radius (.ofSettings s)).exchanges stream = past ++ (f, out) :: later) :
    ∃ now, ((radius ⟨s, latestPosition (past.map (·.2))⟩).step now f).2 = out := by
  obtain ⟨before, now, rfl, hout⟩ := exists_step_of_exchanges split
  rw [run_radius] at hout
  exact ⟨now, by rwa [map_snd_exchanges]⟩

/-- Frames that are missing can be left out. -/
theorem exchanges_radius_filter (r : Radius α) {keep : Frame α → Bool}
    (live : ∀ f, f.valid = true → keep f = true) (stream : List (Frame α × Nat)) :
    (radius r).exchanges (stream.filter (keep ·.1)) =
      ((radius r).exchanges stream).filter (keep ·.1) := by
  induction stream generalizing r with
  | nil => rfl
  | cons entry rest ih =>
    obtain ⟨f, now⟩ := entry
    cases hkeep : keep f with
    | true =>
      simp only [List.filter_cons, exchanges_cons, hkeep, if_true]
      exact congrArg _ (ih (r.step f).1)
    | false =>
      have missing : f.valid = false := by
        by_contra valid
        simp [live f (by simpa using valid)] at hkeep
      simp only [List.filter_cons, exchanges_cons, hkeep, Bool.false_eq_true, if_false,
        step_radius_of_missing r now missing]
      exact ih r

/--
A valid frame is told within a radius of its own position, no farther from it than the position told
before, and on the way from there.  A missing frame is told as it is, and frames that are missing
can be left out of a stream without a change to what the others become.
-/
theorem run_radius_lags {s : RadiusSettings α} (accepted : Accepted s.checks)
    (stream : List (Frame α × Nat)) :
    let history := (radius (.ofSettings s)).exchanges stream
    (∀ past f out later, history = past ++ (f, out) :: later →
      (f.valid = false → out = f) ∧
      (f.valid = true → out.valid = true ∧ (f.position - out.position).norm ≤ s.radius ∧
        ∀ previous, latestPosition (past.map (·.2)) = some previous →
          (f.position - out.position).norm ≤ (f.position - previous).norm ∧
          previous.OnWay f.position out.position)) ∧
    ∀ keep : Frame α → Bool, (∀ f, f.valid = true → keep f = true) →
      (radius (.ofSettings s)).exchanges (stream.filter (keep ·.1)) =
        history.filter (keep ·.1) := by
  intro history
  refine ⟨?_, fun keep live => exchanges_radius_filter _ live stream⟩
  intro past f out later split
  obtain ⟨now, hout⟩ := step_radius_of_exchanges split
  constructor
  · intro missing
    rw [step_radius_of_missing _ now missing] at hout
    exact hout.symm
  · intro valid
    cases hlast : latestPosition (past.map (·.2)) with
    | none =>
      rw [hlast, step_radius_of_first s now valid] at hout
      obtain rfl : f = out := hout
      have hradius := (s.accepted_iff.mp accepted).1
      refine ⟨valid, ?_, nofun⟩
      rw [Point.norm_sub_self]
      exact hradius.le
    | some previous =>
      rw [hlast, step_radius_of_valid now valid] at hout
      subst hout
      refine ⟨valid, Radius.norm_sub_follow_le_radius accepted previous f.position, ?_⟩
      intro before hbefore
      obtain rfl := Option.some.inj hbefore
      exact ⟨Radius.norm_sub_follow_le accepted previous f.position,
        Radius.follow_onWay accepted previous f.position⟩

/-- The origin, a missing frame, and a place on the axis. -/
def interruptedMove (x : α) : List (Frame α × Nat) :=
  [(onAxis 0, 0), (.invalid .lost, 1), (onAxis x, 2)]

/-- A hundred away and one missing frame later, the pointer is within eight, on the axis. -/
theorem run_radius_lags_of_interruptedMove :
    Accepted (RadiusSettings.exactDefault : RadiusSettings ℝ).checks ∧
      ∃ past out, (radius (.ofSettings .exactDefault)).exchanges (interruptedMove 100) =
          past ++ (onAxis (100 : ℝ), out) :: [] ∧
        latestPosition (past.map (·.2)) = some (onAxis 0).position ∧
        ((onAxis (100 : ℝ)).position - out.position).norm ≤ 8 ∧
        (onAxis 0).position.OnWay (onAxis 100).position out.position ∧
        (radius (.ofSettings .exactDefault)).exchanges [(onAxis 0, 0), (onAxis 100, 2)] =
          [(onAxis (0 : ℝ), onAxis 0), (onAxis 100, out)] := by
  obtain ⟨hsteps, hfilter⟩ :=
    run_radius_lags RadiusSettings.exactDefault_accepted (interruptedMove (100 : ℝ))
  let past : List (Frame ℝ × Frame ℝ) :=
    [(onAxis 0, onAxis 0), (.invalid .lost, .invalid .lost)]
  have split : (radius (.ofSettings .exactDefault)).exchanges (interruptedMove 100) =
      past ++ (onAxis (100 : ℝ), _) :: [] := rfl
  obtain ⟨-, hradius, hway⟩ := (hsteps past _ _ [] split).2 rfl
  have last : latestPosition (past.map (·.2)) = some (onAxis 0).position := rfl
  exact ⟨RadiusSettings.exactDefault_accepted, past, _, split, last, hradius, (hway _ last).2,
    hfilter (·.valid) (fun _ => id)⟩

end Filter

end SensorBar
