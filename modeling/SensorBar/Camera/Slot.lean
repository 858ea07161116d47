import SensorBar.Geometry.Point

/-!
# Camera slots

The camera reports four slots of native coordinates.  A slot whose two coordinates are both
`1023` is inactive; the others are spots, which map onto the signed camera plane.
-/

namespace SensorBar.Camera

/-- The greatest native coordinate. -/
def coordinateLimit : UInt16 := 1023

/-- A slot in native coordinates, with the origin at the bottom left of the field of view. -/
structure Spot where
  x : UInt16
  y : UInt16
  deriving DecidableEq

abbrev Slots := Vector (Option Spot) 4

namespace Spot

/-- The coordinates that mark an inactive slot. -/
def isMarker (s : Spot) : Bool :=
  s.x == coordinateLimit && s.y == coordinateLimit

/-- The spot that a transmitted pair of coordinates stands for. -/
def ofWire? (x y : UInt16) : Option Spot :=
  if isMarker ⟨x, y⟩ then none else some ⟨x, y⟩

/-- What the camera promises of every spot it reports. -/
def InView (s : Spot) : Prop :=
  s.x ≤ coordinateLimit ∧ s.y ≤ coordinateLimit ∧ s.isMarker = false

instance (s : Spot) : Decidable s.InView :=
  inferInstanceAs (Decidable (_ ∧ _ ∧ _))

variable {α : Type} [Scalar α]

/--
A spot on the camera plane: the first axis is reversed and scaled to `-1` to `1`, the second one
to roughly `-0.75` to `0.75`.
-/
def toPoint (s : Spot) : Point α :=
  ⟨-((s.x.toNat : α) - (512 : Nat)) / (512 : Nat), ((s.y.toNat : α) - (384 : Nat)) / (512 : Nat)⟩

end Spot

namespace Slots

/-- The slots that four transmitted pairs stand for. -/
def ofWire (pairs : Vector (UInt16 × UInt16) 4) : Slots :=
  pairs.map fun (x, y) => Spot.ofWire? x y

/-- The active slots, in order. -/
def spots (slots : Slots) : List Spot :=
  slots.toList.filterMap id

/-- The camera's promise, for every active slot. -/
def InView (slots : Slots) : Prop :=
  ∀ s ∈ slots.spots, s.InView

instance (slots : Slots) : Decidable slots.InView :=
  inferInstanceAs (Decidable (∀ s ∈ slots.spots, s.InView))

variable {α : Type} [Scalar α]

/-- The active slots on the camera plane. -/
def dots (slots : Slots) : List (Point α) :=
  slots.spots.map Spot.toPoint

end Slots

end SensorBar.Camera
