import SensorBar.Scalar

/-!
# Points of the plane

A point, or vector, of the camera plane or of pointer space, with rotation about the origin.
-/

namespace SensorBar

@[ext]
structure Point (α : Type) where
  x : α
  y : α

namespace Point

variable {α : Type} [Scalar α]

def zero : Point α :=
  ⟨(0 : Nat), (0 : Nat)⟩

instance : Add (Point α) :=
  ⟨fun p q => ⟨p.x + q.x, p.y + q.y⟩⟩

instance : Sub (Point α) :=
  ⟨fun p q => ⟨p.x - q.x, p.y - q.y⟩⟩

instance : BEq (Point α) :=
  ⟨fun p q => p.x == q.x && p.y == q.y⟩

def scale (p : Point α) (k : α) : Point α :=
  ⟨p.x * k, p.y * k⟩

def normSq (p : Point α) : α :=
  p.x * p.x + p.y * p.y

def norm (p : Point α) : α :=
  Scalar.sqrt p.normSq

def distSq (p q : Point α) : α :=
  (q - p).normSq

def midpoint (p q : Point α) : Point α :=
  ⟨(p.x + q.x) / (2 : Nat), (p.y + q.y) / (2 : Nat)⟩

/-- The unit vector at an angle from the first axis. -/
def unit (angle : α) : Point α :=
  ⟨Scalar.cos angle, Scalar.sin angle⟩

def heading (p : Point α) : α :=
  Scalar.atan2 p.y p.x

/--
Rotation about the origin.  The zero angle returns its argument as it is, so that a level camera
introduces no rounding.
-/
def rotate (p : Point α) (angle : α) : Point α :=
  if angle == (0 : Nat) then p
  else
    let u := unit angle
    ⟨u.x * p.x - u.y * p.y, u.y * p.x + u.x * p.y⟩

end Point

/-- All dots of a frame turned by one angle. -/
def rotateAll {α : Type} [Scalar α] (dots : List (Point α)) (angle : α) : List (Point α) :=
  dots.map (·.rotate angle)

section Frame

variable {α : Type} [Scalar α] (dots : List (Point α)) (angle : α)

theorem length_rotateAll : (rotateAll dots angle).length = dots.length :=
  List.length_map _

theorem getElem?_rotateAll (i : Nat) :
    (rotateAll dots angle)[i]? = dots[i]?.map (·.rotate angle) :=
  List.getElem?_map

end Frame

end SensorBar
