import SensorBar.Filter.Settings
import SensorBar.Frame

/-!
# Radius smoothing

Trails the raw position at no more than a fixed radius.  Inside the radius it eases towards the
raw position, and inside the deadzone it holds.
-/

namespace SensorBar.Filter

structure Radius (α : Type) where
  settings : RadiusSettings α
  position : Option (Point α)

namespace Radius

variable {α : Type} [Scalar α]

def ofSettings (settings : RadiusSettings α) : Radius α :=
  ⟨settings, none⟩

def follow (s : RadiusSettings α) (smoothed raw : Point α) : Point α :=
  let delta := raw - smoothed
  let distance := delta.norm
  if distance ≤ s.deadzone then smoothed
  else if distance < s.radius then smoothed + delta.scale s.speed
  else raw - (Point.unit delta.heading).scale s.radius

def step (r : Radius α) (f : Frame α) : Radius α × Frame α :=
  if f.valid then
    let smoothed :=
      match r.position with
      | none => f.position
      | some smoothed => follow r.settings smoothed f.position
    ({ r with position := some smoothed }, { f with position := smoothed })
  else (r, f)

end Radius

end SensorBar.Filter
