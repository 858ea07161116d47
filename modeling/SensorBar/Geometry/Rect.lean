import SensorBar.Geometry.Point

/-!
# Axis-aligned rectangles

Half-open rectangles, clipping, and the affine map of one rectangle onto another.
-/

namespace SensorBar

structure Rect (α : Type) where
  min : Point α
  max : Point α

namespace Rect

variable {α : Type} [Scalar α]

/-- The rectangle with the given corners, written as four numbers. -/
def ofBounds (minX minY maxX maxY : α) : Rect α :=
  ⟨⟨minX, minY⟩, ⟨maxX, maxY⟩⟩

def width (r : Rect α) : α :=
  r.max.x - r.min.x

def height (r : Rect α) : α :=
  r.max.y - r.min.y

def isEmpty (r : Rect α) : Bool :=
  r.max.x ≤ r.min.x || r.max.y ≤ r.min.y

/-- The lower and left edges belong to a rectangle, the upper and right edges do not. -/
def contains (r : Rect α) (p : Point α) : Bool :=
  r.min.x ≤ p.x && p.x < r.max.x && r.min.y ≤ p.y && p.y < r.max.y

/-- The point of the closed rectangle nearest to `p`. -/
def clamp (r : Rect α) (p : Point α) : Point α :=
  ⟨Scalar.smaller (Scalar.larger p.x r.min.x) r.max.x,
    Scalar.smaller (Scalar.larger p.y r.min.y) r.max.y⟩

/--
The image of `p` under the affine map that takes `source` onto `target`, after clipping to
`source` when `clip` is set.  An empty rectangle has no such map.
-/
def mapTo? (source target : Rect α) (clip : Bool) (p : Point α) : Option (Point α) :=
  if source.isEmpty || target.isEmpty then none
  else
    let q := if clip then source.clamp p else p
    let u := (q.x - source.min.x) / source.width
    let v := (q.y - source.min.y) / source.height
    some ⟨target.min.x + u * target.width, target.min.y + v * target.height⟩

end Rect

end SensorBar
