import SensorBar.Filter.Settings
import SensorBar.Frame

/-!
# Adaptive smoothing

A low-pass filter on each axis whose cutoff rises with speed: heavy smoothing at rest, and little
lag in motion.  Instants are counted in nanoseconds from a common start.
-/

namespace SensorBar.Filter

/-- A gap longer than this many nanoseconds restarts the filter from the incoming position. -/
def maxGap : Nat :=
  500000000

/-- A span of nanoseconds in seconds. -/
def seconds {α : Type} [Scalar α] (span : Nat) : α :=
  (span / 1000000000 : Nat) + ((span % 1000000000 : Nat) : α) / (1000000000 : Nat)

structure LowPass (α : Type) where
  value : α
  speed : α

namespace LowPass

variable {α : Type} [Scalar α]

def start (value : α) : LowPass α :=
  ⟨value, (0 : Nat)⟩

/-- The weight of a new value that arrives `dt` seconds after the last one. -/
def weight (dt cutoff : α) : α :=
  let r := (2 : Nat) * Scalar.pi * cutoff * dt
  r / (r + (1 : Nat))

def blend (a new old : α) : α :=
  a * new + ((1 : Nat) - a) * old

def update (s : AdaptiveSettings α) (dt : α) (p : LowPass α) (x : α) : LowPass α :=
  let speed := blend (weight dt s.dCutoff) ((x - p.value) / dt) p.speed
  let cutoff := s.minCutoff + s.beta * Scalar.abs speed
  ⟨blend (weight dt cutoff) x p.value, speed⟩

end LowPass

/-- Both axes as of the latest frame that moved the filter, and its instant. -/
structure Adaptive.State (α : Type) where
  x : LowPass α
  y : LowPass α
  last : Nat

structure Adaptive (α : Type) where
  settings : AdaptiveSettings α
  state : Option (Adaptive.State α)

namespace Adaptive

variable {α : Type} [Scalar α]

def ofSettings (settings : AdaptiveSettings α) : Adaptive α :=
  ⟨settings, none⟩

/-- Takes over the position of a frame as it is. -/
def restart (a : Adaptive α) (f : Frame α) (now : Nat) : Adaptive α × Frame α :=
  ({ a with state := some ⟨.start f.position.x, .start f.position.y, now⟩ }, f)

def State.position (s : State α) : Point α :=
  ⟨s.x.value, s.y.value⟩

/-- The state after a frame that comes `now - s.last` after the latest one. -/
def State.advance (settings : AdaptiveSettings α) (s : State α) (position : Point α) (now : Nat) :
    State α :=
  let dt := seconds (now - s.last)
  ⟨s.x.update settings dt position.x, s.y.update settings dt position.y, now⟩

/-- A frame that is not later than the latest one gets the smoothed position and changes nothing. -/
def step (a : Adaptive α) (f : Frame α) (now : Nat) : Adaptive α × Frame α :=
  if f.valid then
    match a.state with
    | none => a.restart f now
    | some s =>
        if now ≤ s.last then (a, { f with position := s.position })
        else if maxGap < now - s.last then a.restart f now
        else
          let next := s.advance a.settings f.position now
          ({ a with state := some next }, { f with position := next.position })
  else (a, f)

end Adaptive

end SensorBar.Filter
