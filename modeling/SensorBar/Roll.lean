import SensorBar.Scalar

/-!
# Roll

The roll of the camera is read off gravity.  While the controller is being accelerated the last
trustworthy roll is held.
-/

namespace SensorBar

structure Accel (α : Type) where
  x : α
  y : α
  z : α

/-- The component of a reading that is paired with `x`. -/
inductive RollAxis where
  | y
  | z
  deriving DecidableEq

structure RollSettings (α : Type) where
  axis : RollAxis
  /-- The length of a reading at rest. -/
  gravity : α
  /-- The relative deviation from `gravity` up to which a reading is trusted. -/
  tolerance : α

def RollSettings.default : RollSettings Float where
  axis := .z
  gravity := 1.0
  tolerance := 0.2

namespace Accel

variable {α : Type} [Scalar α]

def norm (a : Accel α) : α :=
  Scalar.sqrt (a.x * a.x + a.y * a.y + a.z * a.z)

/-- The roll in radians that a reading of gravity stands for: zero when level, growing clockwise. -/
def roll (a : Accel α) : RollAxis → α
  | .y => Scalar.atan2 a.x a.y
  | .z => Scalar.atan2 a.x a.z

/-- Whether a reading is close enough to gravity alone. -/
def IsReliable (s : RollSettings α) (a : Accel α) : Prop :=
  Scalar.abs (a.norm / s.gravity - (1 : Nat)) ≤ s.tolerance

instance (s : RollSettings α) (a : Accel α) : Decidable (a.IsReliable s) :=
  inferInstanceAs (Decidable (_ ≤ _))

end Accel

structure RollEstimator (α : Type) where
  settings : RollSettings α
  roll : α

namespace RollEstimator

variable {α : Type} [Scalar α]

def start (settings : RollSettings α) : RollEstimator α :=
  ⟨settings, (0 : Nat)⟩

/-- The estimator after one reading; its `roll` is the estimate. -/
def update (e : RollEstimator α) (a : Accel α) : RollEstimator α :=
  if a.IsReliable e.settings then { e with roll := a.roll e.settings.axis } else e

end RollEstimator

end SensorBar
