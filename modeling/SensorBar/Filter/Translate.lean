import SensorBar.Filter.Settings
import SensorBar.Frame

/-!
# Translation

Maps pointer space onto a destination rectangle, such as a screen.  A position outside the source
makes the frame invalid, unless positions are clipped to the source.
-/

namespace SensorBar.Mapping

variable {α : Type} [Scalar α]

def apply (m : Mapping α) (f : Frame α) : Frame α :=
  if f.valid then
    match m.source.mapTo? m.destination m.clamp f.position with
    | none => { f with valid := false }
    | some position => { f with valid := m.clamp || m.source.contains f.position, position }
  else f

end SensorBar.Mapping
