import SensorBar.Geometry.Point

/-!
# Frames

One pointer estimate, and the tiers of confidence a consumer can ask for.
-/

namespace SensorBar

/-- Confidence in the tracked bar, from worst to best. -/
inductive Health where
  | dead
  | lost
  | single
  | good
  deriving DecidableEq

namespace Health

def rank : Health → Nat
  | dead => 0
  | lost => 1
  | single => 2
  | good => 3

instance : LE Health :=
  ⟨fun a b => a.rank ≤ b.rank⟩

instance : DecidableLE Health :=
  fun a b => inferInstanceAs (Decidable (a.rank ≤ b.rank))

def name : Health → String
  | dead => "dead"
  | lost => "lost"
  | single => "single"
  | good => "good"

end Health

/--
One pointer estimate.  Positions run over roughly `-512` to `512` in the field of view, and
distances are in metres.
-/
structure Frame (α : Type) where
  valid : Bool
  health : Health
  position : Point α
  distance : α

namespace Frame

variable {α : Type} [Scalar α]

/-- A frame that carries no estimate. -/
def invalid (health : Health) : Frame α :=
  ⟨false, health, Point.zero, (0 : Nat)⟩

/-- Whether a consumer that accepts tracking down to `least` should act on this frame. -/
def isUsable (f : Frame α) (least : Health) : Bool :=
  f.valid && least ≤ f.health

end Frame

end SensorBar
