import SensorBar.Bar.Recovery
import SensorBar.Bar.Search

/-!
# The tracker

Follows the bar from frame to frame.  A frame with a believable pair of dots is good; without
one, the last bar is carried along by the dots that remain; without any dot it is lost.
-/

namespace SensorBar

structure Tracker (α : Type) where
  settings : PointerSettings α
  health : Health
  lastBar : Option (Bar α)
  position : Point α
  distance : α

namespace Tracker

variable {α : Type} [Scalar α]

/-- Pointer units from the centre of the field of view to its side. -/
def pointerScale : α :=
  (512 : Nat)

def start (settings : PointerSettings α) : Tracker α :=
  ⟨settings, .dead, none, Point.zero, (0 : Nat)⟩

/-- The frame of a step that found nothing: the last estimate, marked as no longer valid. -/
def staleFrame (t : Tracker α) : Frame α :=
  ⟨false, t.health, t.position, t.distance⟩

def lose (t : Tracker α) : Tracker α :=
  { t with health := if t.health = .dead then .dead else .lost }

/-- The tracker after a step that placed the bar. -/
def follow (t : Tracker α) (bar : Bar α) (health : Health) : Tracker α :=
  { t with
    health
    lastBar := some bar
    position := bar.center.scale pointerScale
    distance := t.settings.distanceForWidth bar.width }

def liveFrame (t : Tracker α) : Frame α :=
  { t.staleFrame with valid := true }

/-- The bars that the dots of a frame could be. -/
def candidates (t : Tracker α) (roll : α) (points : List (Point α)) : List (Bar α) :=
  Bar.candidates t.settings roll (Dot.ofPoints roll points)

/-- The bar of a frame and how it was found: among the candidates, or else by recovery. -/
def locate (t : Tracker α) (roll : α) (points : List (Point α)) :
    Except Breach (Option (Bar α × Health)) :=
  match Bar.select t.settings.candidatePreference (t.candidates roll points) with
  | some bar => .ok (some (bar, .good))
  | none =>
      match Bar.recover t.settings t.health roll t.lastBar points (rotateAll points roll) with
      | .error breach => .error breach
      | .ok found => .ok (found.map (·, .single))

def advance (t : Tracker α) (roll : α) (points : List (Point α)) :
    Except Breach (Tracker α × Frame α) :=
  match points with
  | [] => .ok (t.lose, t.lose.staleFrame)
  | _ :: _ =>
      match t.locate roll points with
      | .error breach => .error breach
      | .ok none => .ok (t, t.staleFrame)
      | .ok (some (bar, health)) => .ok (t.follow bar health, (t.follow bar health).liveFrame)

/-- One step.  Slots that break the camera's promise are a breach. -/
def step (t : Tracker α) (slots : Camera.Slots) (roll : α) : Except Breach (Tracker α × Frame α) :=
  match slots.spots.find? fun s => ¬ s.InView with
  | some spot => .error (.outOfView spot)
  | none => t.advance roll slots.dots

end Tracker

end SensorBar
