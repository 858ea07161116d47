import SensorBar.Geometry.Point

/-!
# The sensor bar

A pair of dots taken as the two emitters of the bar, in three coordinate frames: as the camera
sees them, with the roll of the camera undone, and with the bar itself made level.
-/

namespace SensorBar

inductive End where
  | left
  | right
  deriving DecidableEq

def End.other : End → End
  | .left => .right
  | .right => .left

/-- One value for each end of the bar. -/
@[ext]
structure Pair (β : Type) where
  left : β
  right : β

namespace Pair

def get {β : Type} (p : Pair β) : End → β
  | .left => p.left
  | .right => p.right

/-- The pair that has `x` at end `e` and `y` at the other end. -/
def place {β : Type} (e : End) (x y : β) : Pair β :=
  match e with
  | .left => ⟨x, y⟩
  | .right => ⟨y, x⟩

variable {α : Type} [Scalar α]

def rotate (p : Pair (Point α)) (angle : α) : Pair (Point α) :=
  ⟨p.left.rotate angle, p.right.rotate angle⟩

/-- The vector from the left end to the right end. -/
def span (p : Pair (Point α)) : Point α :=
  p.right - p.left

/-- The angle that makes the pair level. -/
def levelling (p : Pair (Point α)) : α :=
  -p.span.heading

end Pair

/--
A candidate for the bar.  `offsetAngle` levels the tilted pair and `angle` the raw one.  Bars
with a greater `score` appear narrower.
-/
structure Bar (α : Type) where
  raw : Pair (Point α)
  tilted : Pair (Point α)
  corrected : Pair (Point α)
  offsetAngle : α
  angle : α
  score : α

namespace Bar

variable {α : Type} [Scalar α]

/-- The apparent width of the levelled bar. -/
def width (b : Bar α) : α :=
  b.corrected.right.x - b.corrected.left.x

def center (b : Bar α) : Point α :=
  b.corrected.left.midpoint b.corrected.right

end Bar

end SensorBar
