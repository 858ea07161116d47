import SensorBar.Proofs.Accepted
import SensorBar.Proofs.FilterRun
import SensorBar.Proofs.Rotation

/-! # Radius smoothing in exact arithmetic

A step of radius smoothing goes a part of the way from the smoothed position to the raw one: none of
it inside the deadzone, the speed inside the radius, and outside as much as leaves one radius.  At
exactly one radius that is again none, and one radius is where a step from farther away ends.  A
pointer that jumps and then stays is therefore left one radius behind for good.
-/

namespace SensorBar

open ExactScalar

variable {α : Type} [ExactScalar α]

namespace Filter.Radius

/-- The part of the way to the raw position that a step goes. -/
def gain (s : RadiusSettings α) (distance : α) : α :=
  if distance ≤ s.deadzone then 0
  else if distance < s.radius then s.speed
  else 1 - s.radius / distance

/-! ## The gain -/

theorem gain_nonneg {s : RadiusSettings α} (accepted : Accepted s.checks) (distance : α) :
    0 ≤ gain s distance := by
  obtain ⟨hradius, ⟨hspeed, _⟩, _⟩ := s.accepted_iff.mp accepted
  unfold gain
  split
  · exact le_rfl
  · split
    · exact hspeed.le
    · next hfar =>
        rw [not_lt] at hfar
        have hle : s.radius / distance ≤ 1 := (div_le_one (hradius.trans_le hfar)).mpr hfar
        exact sub_nonneg.mpr hle

theorem gain_le_one {s : RadiusSettings α} (accepted : Accepted s.checks) (distance : α) :
    gain s distance ≤ 1 := by
  obtain ⟨hradius, ⟨_, hspeed⟩, _⟩ := s.accepted_iff.mp accepted
  unfold gain
  split
  · exact zero_le_one
  · split
    · exact hspeed
    · next hfar =>
        rw [not_lt] at hfar
        have hpos : 0 < s.radius / distance := div_pos hradius (hradius.trans_le hfar)
        exact sub_le_self 1 hpos.le

/-- At one radius the last case of the gain is no way at all. -/
theorem gain_radius {s : RadiusSettings α} (accepted : Accepted s.checks) : gain s s.radius = 0 := by
  obtain ⟨hradius, _⟩ := s.accepted_iff.mp accepted
  unfold gain
  split
  · rfl
  · rw [if_neg (lt_irrefl s.radius), div_self hradius.ne', sub_self]

theorem gain_pos_iff {s : RadiusSettings α} (accepted : Accepted s.checks) {distance : α}
    (apart : s.deadzone < distance) : 0 < gain s distance ↔ distance ≠ s.radius := by
  obtain ⟨hradius, ⟨hspeed, _⟩, _⟩ := s.accepted_iff.mp accepted
  constructor
  · rintro hpos rfl
    exact hpos.ne' (gain_radius accepted)
  · intro hne
    unfold gain
    rw [if_neg apart.not_ge]
    split
    · exact hspeed
    · next hfar =>
        have hlt : s.radius < distance := lt_of_le_of_ne (not_lt.mp hfar) hne.symm
        have hpart : s.radius / distance < 1 := (div_lt_one (hradius.trans hlt)).mpr hlt
        exact sub_pos.mpr hpart

/-! ## One step -/

theorem follow_eq {s : RadiusSettings α} (accepted : Accepted s.checks) (smoothed raw : Point α) :
    follow s smoothed raw =
      smoothed + (raw - smoothed).scale (gain s (raw - smoothed).norm) := by
  obtain ⟨hradius, _⟩ := s.accepted_iff.mp accepted
  unfold follow gain
  dsimp only
  split
  · apply Point.ext <;> simp
  · split
    · rfl
    · next hfar =>
        have hnorm : 0 < (raw - smoothed).norm := hradius.trans_le (not_lt.mp hfar)
        rw [Point.unit_heading_scale hnorm]
        apply Point.ext
        · simp only [Point.sub_x, Point.add_x, Point.scale_x]
          ring
        · simp only [Point.sub_y, Point.add_y, Point.scale_y]
          ring

theorem norm_sub_follow {s : RadiusSettings α} (accepted : Accepted s.checks)
    (smoothed raw : Point α) :
    (raw - follow s smoothed raw).norm =
      (raw - smoothed).norm * (1 - gain s (raw - smoothed).norm) := by
  have hrest : raw - follow s smoothed raw =
      (raw - smoothed).scale (1 - gain s (raw - smoothed).norm) := by
    rw [follow_eq accepted]
    apply Point.ext
    · simp only [Point.sub_x, Point.add_x, Point.scale_x]
      ring
    · simp only [Point.sub_y, Point.add_y, Point.scale_y]
      ring
  rw [hrest, Point.norm_scale _ (sub_nonneg.mpr (gain_le_one accepted _))]

theorem norm_sub_follow_le {s : RadiusSettings α} (accepted : Accepted s.checks)
    (smoothed raw : Point α) : (raw - follow s smoothed raw).norm ≤ (raw - smoothed).norm := by
  rw [norm_sub_follow accepted]
  exact mul_le_of_le_one_right (Point.norm_nonneg _) (sub_le_self 1 (gain_nonneg accepted _))

/-- A step comes nearer exactly when it goes some part of the way. -/
theorem norm_sub_follow_lt_iff {s : RadiusSettings α} (accepted : Accepted s.checks)
    {smoothed raw : Point α} (apart : s.deadzone < (raw - smoothed).norm) :
    (raw - follow s smoothed raw).norm < (raw - smoothed).norm ↔
      (raw - smoothed).norm ≠ s.radius := by
  obtain ⟨_, _, hdeadzone, _⟩ := s.accepted_iff.mp accepted
  have hnorm : 0 < (raw - smoothed).norm := hdeadzone.trans_lt apart
  rw [norm_sub_follow accepted, mul_lt_iff_lt_one_right hnorm, sub_lt_self_iff]
  exact gain_pos_iff accepted apart

theorem follow_of_norm_eq_radius {s : RadiusSettings α} (accepted : Accepted s.checks)
    {smoothed raw : Point α} (h : (raw - smoothed).norm = s.radius) :
    follow s smoothed raw = smoothed := by
  rw [follow_eq accepted, h, gain_radius accepted]
  apply Point.ext <;> simp

/-- A step from outside the radius ends at one radius. -/
theorem norm_sub_follow_of_radius_le {s : RadiusSettings α} (accepted : Accepted s.checks)
    {smoothed raw : Point α} (apart : s.deadzone < (raw - smoothed).norm)
    (far : s.radius ≤ (raw - smoothed).norm) :
    (raw - follow s smoothed raw).norm = s.radius := by
  obtain ⟨hradius, _⟩ := s.accepted_iff.mp accepted
  have hnorm : 0 < (raw - smoothed).norm := hradius.trans_le far
  rw [norm_sub_follow accepted, gain, if_neg apart.not_ge, if_neg far.not_gt, sub_sub_cancel,
    mul_div_cancel₀ s.radius hnorm.ne']

end Filter.Radius

namespace Filter

/-! ## Runs -/

theorem step_radius_of_valid {s : RadiusSettings α} {previous : Point α} (now : Nat) {f : Frame α}
    (valid : f.valid = true) :
    (radius ⟨s, some previous⟩).step now f =
      (radius ⟨s, some (Radius.follow s previous f.position)⟩,
        { f with position := Radius.follow s previous f.position }) := by
  simp [step, Radius.step, valid]

/-- What radius smoothing holds after a stream is the last position that it gave out. -/
theorem run_radius (s : RadiusSettings α) (stream : List (Frame α × Nat)) :
    ((radius (.ofSettings s)).run stream).1 =
      radius ⟨s, latestPosition ((radius (.ofSettings s)).run stream).2⟩ := by
  induction stream using List.reverseRecOn with
  | nil => rfl
  | append_singleton past entry ih =>
      obtain ⟨f, now⟩ := entry
      rw [run_concat, ih]
      dsimp only
      rw [latestPosition_concat]
      cases h : f.valid <;> simp [step, Radius.step, h]

/--
A valid frame whose raw position is outside the deadzone brings the pointer strictly nearer, unless
the pointer is exactly one radius away: then it does not move.
-/
theorem run_radius_nearer_iff {s : RadiusSettings α} (accepted : Accepted s.checks)
    (past : List (Frame α × Nat)) {f : Frame α} (now : Nat) (valid : f.valid = true)
    {previous : Point α}
    (emitted : latestPosition ((radius (.ofSettings s)).run past).2 = some previous)
    (apart : s.deadzone < (f.position - previous).norm) :
    ∃ next : Point α,
      ((radius (.ofSettings s)).run (past ++ [(f, now)])).2 =
        ((radius (.ofSettings s)).run past).2 ++ [{ f with position := next }] ∧
      ((f.position - next).norm < (f.position - previous).norm ↔
        (f.position - previous).norm ≠ s.radius) ∧
      ((f.position - previous).norm = s.radius → next = previous) := by
  have hstate := run_radius s past
  rw [emitted] at hstate
  refine ⟨Radius.follow s previous f.position, ?_, ?_, ?_⟩
  · rw [run_concat, hstate, step_radius_of_valid now valid]
  · exact Radius.norm_sub_follow_lt_iff accepted apart
  · exact Radius.follow_of_norm_eq_radius accepted

/-- A frame that puts the pointer on the first axis. -/
def onAxis (x : α) : Frame α :=
  ⟨true, .good, ⟨x, 0⟩, 1⟩

theorem onAxis_sub_norm {a b : α} (h : a ≤ b) :
    ((onAxis b).position - (onAxis a).position).norm = b - a := by
  have haxis : (onAxis b).position - (onAxis a).position = ⟨b - a, 0⟩ := by
    apply Point.ext <;> simp [onAxis]
  rw [haxis, Point.norm_axis (sub_nonneg.mpr h)]

theorem follow_onAxis {s : RadiusSettings α} (accepted : Accepted s.checks) {a b : α} (h : a ≤ b) :
    Radius.follow s (onAxis a).position (onAxis b).position =
      (onAxis (a + (b - a) * Radius.gain s (b - a))).position := by
  rw [Radius.follow_eq accepted, onAxis_sub_norm h]
  apply Point.ext <;> simp [onAxis]

/-- Four away, inside the radius, the pointer comes nearer. -/
theorem run_radius_nearer_at_four :
    ∃ next : Point ℝ,
      ((radius (.ofSettings .exactDefault)).run ([(onAxis 0, 0)] ++ [(onAxis 4, 1)])).2 =
        [onAxis 0, { onAxis 4 with position := next }] ∧
      ((onAxis 4).position - next).norm < 4 := by
  have hnorm : ((onAxis (4 : ℝ)).position - (onAxis 0).position).norm = 4 := by
    rw [onAxis_sub_norm (by norm_num), sub_zero]
  have apart : (RadiusSettings.exactDefault : RadiusSettings ℝ).deadzone <
      ((onAxis (4 : ℝ)).position - (onAxis 0).position).norm := by
    rw [hnorm]
    norm_num [RadiusSettings.exactDefault]
  have emitted : latestPosition
      ((radius (.ofSettings .exactDefault)).run [(onAxis (0 : ℝ), 0)]).2 =
        some (onAxis 0).position := rfl
  obtain ⟨next, hrun, hnearer, -⟩ := run_radius_nearer_iff RadiusSettings.exactDefault_accepted
    [(onAxis 0, 0)] 1 rfl emitted apart
  rw [hnorm] at hnearer
  refine ⟨next, hrun, hnearer.mpr ?_⟩
  norm_num [RadiusSettings.exactDefault]

/-- A jump by a hundred ends eight away, and the same frame again brings the pointer no nearer. -/
theorem run_radius_rests_at_eight :
    ((radius (.ofSettings .exactDefault)).run
        [(onAxis (0 : ℝ), 0), (onAxis 100, 1), (onAxis 100, 2)]).2 =
      [onAxis 0, onAxis 92, onAxis 92] ∧
    (RadiusSettings.exactDefault : RadiusSettings ℝ).deadzone <
      ((onAxis (100 : ℝ)).position - (onAxis 92).position).norm := by
  have hjump : Radius.follow .exactDefault (onAxis (0 : ℝ)).position (onAxis 100).position =
      (onAxis 92).position := by
    rw [follow_onAxis RadiusSettings.exactDefault_accepted (by norm_num)]
    norm_num [Radius.gain, RadiusSettings.exactDefault]
  have hagain : Radius.follow .exactDefault (onAxis (92 : ℝ)).position (onAxis 100).position =
      (onAxis 92).position := by
    rw [follow_onAxis RadiusSettings.exactDefault_accepted (by norm_num)]
    norm_num [Radius.gain, RadiusSettings.exactDefault]
  constructor
  · have hfirst : (radius (.ofSettings .exactDefault)).step 0 (onAxis (0 : ℝ)) =
        (radius ⟨.exactDefault, some (onAxis 0).position⟩, onAxis 0) := rfl
    simp only [run, hfirst, step_radius_of_valid _ (show (onAxis (100 : ℝ)).valid = true from rfl),
      hjump, hagain]
    rfl
  · rw [onAxis_sub_norm (by norm_num)]
    norm_num [RadiusSettings.exactDefault]

/-- A pointer that a frame leaves where it is rests there while the frame repeats. -/
theorem run_radius_of_follow_eq {s : RadiusSettings α} {resting : Point α} {f : Frame α}
    (valid : f.valid = true) (rests : Radius.follow s resting f.position = resting)
    (instants : List Nat) :
    (radius ⟨s, some resting⟩).run (instants.map (f, ·)) =
      (radius ⟨s, some resting⟩, instants.map fun _ => { f with position := resting }) := by
  induction instants with
  | nil => rfl
  | cons now later ih =>
      simp only [List.map_cons, run, step_radius_of_valid now valid, rests, ih]

/--
A pointer that is outside the radius stays one radius behind a frame for as long as the frame
repeats.
-/
theorem run_radius_stuck {s : RadiusSettings α} (accepted : Accepted s.checks) {previous : Point α}
    {f : Frame α} (valid : f.valid = true) (apart : s.deadzone < s.radius)
    (far : s.radius ≤ (f.position - previous).norm) (instants : List Nat) :
    ∃ resting : Point α, (f.position - resting).norm = s.radius ∧
      ((radius ⟨s, some previous⟩).run (instants.map (f, ·))).2 =
        instants.map fun _ => { f with position := resting } := by
  have hnorm := Radius.norm_sub_follow_of_radius_le accepted (apart.trans_le far) far
  refine ⟨Radius.follow s previous f.position, hnorm, ?_⟩
  cases instants with
  | nil => rfl
  | cons now later =>
      have rests := Radius.follow_of_norm_eq_radius accepted hnorm
      simp only [List.map_cons, run, step_radius_of_valid now valid,
        run_radius_of_follow_eq valid rests later]

end Filter

end SensorBar
