import SensorBar.Proofs.TrackerRun

/-! # Steps in place

A step gives a new tracker, so nothing tells whether a breach could leave a tracker half changed.
Here the same step is made on a tracker that is changed where it stands, one write after another,
and that keeps what has been written when a breach ends the step.  Both steps come to the same: every
promise that a step depends on is checked before the first write, and only that of the camera can be
broken.
-/

namespace SensorBar

variable {α : Type} [Scalar α]

theorem Camera.Spot.not_inView_iff (s : Camera.Spot) :
    ¬ s.InView ↔ 1023 < s.x ∨ 1023 < s.y ∨ s.x = 1023 ∧ s.y = 1023 := by
  have hmarker : s.isMarker = false ↔ ¬ (s.x = 1023 ∧ s.y = 1023) := by
    simp [isMarker, coordinateLimit]
  rw [InView, hmarker]
  simp only [coordinateLimit, UInt16.le_iff_toNat_le, UInt16.lt_iff_toNat_lt]
  grind

/-- The dots of a frame have as many tilted positions. -/
theorem Dot.zip?_rotateAll (roll : α) (points : List (Point α)) :
    zip? points (rotateAll points roll) = some (ofPoints roll points) := by
  simp [zip?, rotateAll, ofPoints, List.zipWith_map_right]

namespace Tracker

/-- What is done to a tracker where it stands.  A breach keeps what has been written until then. -/
abbrev InPlace (α β : Type) : Type :=
  EStateM Breach (Tracker α) β

/-- The point of a spot that is asserted to be in view. -/
def placeSpot (s : Camera.Spot) : InPlace α (Point α) :=
  if s.InView then pure s.toPoint else throw (.outOfView s)

/-- The search, whose lists are asserted to be of one length, and recovery if it finds nothing. -/
def locateInPlace (roll : α) (points : List (Point α)) : InPlace α (Option (Bar α × Health)) := do
  let t ← get
  match Dot.zip? points (rotateAll points roll) with
  | none => throw .unmatchedDots
  | some dots =>
      match Bar.select t.settings.candidatePreference (Bar.candidates t.settings roll dots) with
      | some bar => return some (bar, .good)
      | none =>
          match Bar.recover t.settings t.health roll t.lastBar points (rotateAll points roll) with
          | .error breach => throw breach
          | .ok found => return found.map (·, .single)

/-- The writes of a step that placed the bar. -/
def settle (bar : Bar α) (health : Health) : InPlace α (Frame α) := do
  modify fun t => { t with lastBar := some bar }
  modify fun t => { t with health }
  modify fun t => { t with position := bar.center.scale pointerScale }
  modify fun t => { t with distance := t.settings.distanceForWidth bar.width }
  return (← get).liveFrame

/-- One step on a tracker that is changed where it stands. -/
def stepInPlace (slots : Camera.Slots) (roll : α) : InPlace α (Frame α) := do
  let points ← slots.spots.mapM placeSpot
  if points.isEmpty then
    modify lose
    return (← get).staleFrame
  else
    match ← locateInPlace roll points with
    | some (bar, health) => settle bar health
    | none => return (← get).staleFrame

/-! ## The parts of a step -/

theorem mapM_placeSpot (spots : List Camera.Spot) (t : Tracker α) :
    spots.mapM placeSpot t =
      match spots.find? fun s => decide (¬ s.InView) with
      | some spot => .error (.outOfView spot) t
      | none => .ok (spots.map Camera.Spot.toPoint) t := by
  induction spots with
  | nil => rfl
  | cons s rest ih =>
      rw [List.mapM_cons]
      by_cases inView : s.InView
      · have hfind : (s :: rest).find? (fun s => decide (¬ s.InView)) =
            rest.find? fun s => decide (¬ s.InView) :=
          List.find?_cons_of_neg (by simpa using inView)
        rw [hfind]
        simp only [bind, EStateM.bind, placeSpot, if_pos inView, pure, EStateM.pure, ih]
        cases rest.find? fun s => decide (¬ s.InView) <;> rfl
      · have hfind : (s :: rest).find? (fun s => decide (¬ s.InView)) = some s :=
          List.find?_cons_of_pos (by simpa using inView)
        rw [hfind]
        simp only [bind, EStateM.bind, placeSpot, if_neg inView]
        rfl

omit [Scalar α] in
theorem get_bind {β : Type} (f : Tracker α → InPlace α β) (t : Tracker α) :
    ((get : InPlace α (Tracker α)) >>= f) t = f t t := rfl

theorem locateInPlace_eq (t : Tracker α) (roll : α) (points : List (Point α)) :
    locateInPlace roll points t =
      match t.locate roll points with
      | .error breach => .error breach t
      | .ok found => .ok found t := by
  have hlocate : t.locate roll points =
      match Bar.select t.settings.candidatePreference (t.candidates roll points) with
      | some bar => .ok (some (bar, .good))
      | none =>
          match Bar.recover t.settings t.health roll t.lastBar points (rotateAll points roll) with
          | .error breach => .error breach
          | .ok found => .ok (found.map (·, .single)) := rfl
  rw [hlocate, locateInPlace, get_bind]
  simp only [Dot.zip?_rotateAll, candidates]
  cases Bar.select t.settings.candidatePreference
      (Bar.candidates t.settings roll (Dot.ofPoints roll points)) with
  | some bar => rfl
  | none =>
      cases Bar.recover t.settings t.health roll t.lastBar points (rotateAll points roll) <;> rfl

theorem settle_eq (t : Tracker α) (bar : Bar α) (health : Health) :
    settle bar health t = .ok (t.follow bar health).liveFrame (t.follow bar health) := rfl

/-- A step in place comes to what the step comes to, and a breach leaves the tracker as it was. -/
theorem stepInPlace_eq (t : Tracker α) (slots : Camera.Slots) (roll : α) :
    stepInPlace slots roll t =
      match t.step slots roll with
      | .error breach => .error breach t
      | .ok (next, frame) => .ok frame next := by
  simp only [stepInPlace, bind, EStateM.bind, mapM_placeSpot, step]
  cases slots.spots.find? fun s => decide (¬ s.InView) with
  | some spot => rfl
  | none =>
      simp only [advance, Camera.Slots.dots]
      cases slots.spots.map (Camera.Spot.toPoint (α := α)) with
      | nil => rfl
      | cons p ps =>
          simp only [List.isEmpty_cons, Bool.false_eq_true, if_false, EStateM.bind,
            locateInPlace_eq]
          cases t.locate roll (p :: ps) with
          | error breach => rfl
          | ok found =>
              cases found with
              | none => rfl
              | some placed => exact settle_eq t placed.1 placed.2

/-! ## Which steps are breaches -/

theorem exists_breach_iff (t : Tracker α) (slots : Camera.Slots) (roll : α) :
    (∃ breach, t.step slots roll = .error breach) ↔
      ∃ s ∈ slots.spots, 1023 < s.x ∨ 1023 < s.y ∨ s.x = 1023 ∧ s.y = 1023 := by
  have hbroken : ¬ slots.InView ↔
      ∃ s ∈ slots.spots, 1023 < s.x ∨ 1023 < s.y ∨ s.x = 1023 ∧ s.y = 1023 := by
    simp only [Camera.Slots.InView, Classical.not_forall, exists_prop, Camera.Spot.not_inView_iff]
  rw [← hbroken]
  constructor
  · rintro ⟨breach, hbreach⟩ inView
    obtain ⟨next, frame, hstep⟩ := t.step_total roll inView
    rw [hstep] at hbreach
    cases hbreach
  · exact t.step_refused roll

end Tracker

end SensorBar
