import SensorBar.Bar.Basic
import SensorBar.Bar.Settings
import SensorBar.Selection

/-!
# Search for the bar

Every pair of dots is tried as the bar: it must be level enough once the roll is undone, wide
enough, and free of dots between its ends.  One of the candidates is then chosen by its width.
-/

namespace SensorBar

/-- A dot as the camera sees it, and with the roll of the camera undone. -/
structure Dot (α : Type) where
  raw : Point α
  tilted : Point α

namespace Dot

variable {α : Type} [Scalar α]

/-- The dots of a frame seen by a camera with the given roll. -/
def ofPoints (roll : α) (points : List (Point α)) : List (Dot α) :=
  points.map fun p => ⟨p, p.rotate roll⟩

/-- Pairs the dots of a frame with their tilted positions, of which there must be as many. -/
def zip? (raw tilted : List (Point α)) : Option (List (Dot α)) :=
  if raw.length = tilted.length then some (List.zipWith Dot.mk raw tilted) else none

end Dot

namespace Bar

variable {α : Type} [Scalar α]

/-- The dot of smaller tilted `x` is the left end; on a tie, the first one is. -/
def ends (first second : Dot α) : Pair (Dot α) :=
  if second.tilted.x < first.tilted.x then ⟨second, first⟩ else ⟨first, second⟩

/-- Whether a levelled dot lies between the emitter clusters of a levelled pair. -/
def liesBetween (s : PointerSettings α) (corrected : Pair (Point α)) (dot : Point α) : Bool :=
  let width := corrected.right.x - corrected.left.x
  let halfWidth := s.dotWidth / s.barWidth * width
  let halfHeight := s.dotHeight / s.barWidth * width
  let centerY := (corrected.left.y + corrected.right.y) / (2 : Nat)
  corrected.left.x + halfWidth < dot.x && dot.x < corrected.right.x - halfWidth &&
    Scalar.abs (dot.y - centerY) < halfHeight

/-- The bar that two dots make, when they pass for one among the dots `others`. -/
def ofDots? (s : PointerSettings α) (roll : α) (first second : Dot α) (others : List (Dot α)) :
    Option (Bar α) :=
  let dots := ends first second
  let raw : Pair (Point α) := ⟨dots.left.raw, dots.right.raw⟩
  let tilted : Pair (Point α) := ⟨dots.left.tilted, dots.right.tilted⟩
  let diff := tilted.span
  if s.maxSlope * Scalar.abs diff.x < Scalar.abs diff.y then none
  else
    let offsetAngle := tilted.levelling
    let angle := offsetAngle + roll
    let corrected := raw.rotate angle
    let width := corrected.right.x - corrected.left.x
    if width < s.minWidth then none
    else if others.any fun dot => liesBetween s corrected (dot.raw.rotate angle) then none
    else some ⟨raw, tilted, corrected, offsetAngle, angle, (1 : Nat) / width⟩

/-- All bars among the dots of a frame, in the order of their pairs. -/
def candidates (s : PointerSettings α) (roll : α) (dots : List (Dot α)) : List (Bar α) :=
  (pairs dots).filterMap fun (first, second, others) => ofDots? s roll first second others

/-- Whether the first bar is strictly better than the second one. -/
def beats (preference : Preference) (a b : Bar α) : Bool :=
  match preference with
  | .narrowest => b.score < a.score
  | .widest => a.score < b.score

/-- The best of several bars; of equally good ones, the earliest. -/
def select (preference : Preference) (bars : List (Bar α)) : Option (Bar α) :=
  winner (beats preference) bars

end Bar

end SensorBar
