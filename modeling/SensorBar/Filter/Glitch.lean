import SensorBar.Filter.Settings
import SensorBar.Frame

/-!
# Glitch rejection

Holds the pointer still through isolated far jumps.  A jump that persists for `maxCount` frames is
taken as real motion, and a missing frame starts the wait over.
-/

namespace SensorBar.Filter

structure Glitch (α : Type) where
  maxCount : Nat
  distanceSquared : α
  /-- How many frames have been held back since the last accepted one. -/
  count : Nat
  position : Option (Point α)

namespace Glitch

variable {α : Type}

def start (maxCount : Nat) (distanceSquared : α) : Glitch α :=
  ⟨maxCount, distanceSquared, 0, none⟩

def ofSettings (s : GlitchSettings α) : Glitch α :=
  start s.maxCount.toNat s.distanceSquared

def accept (g : Glitch α) (position : Point α) : Glitch α :=
  { g with count := 0, position := some position }

def step [Scalar α] (g : Glitch α) (f : Frame α) : Glitch α × Frame α :=
  if f.valid then
    match g.position with
    | none => (g.accept f.position, f)
    | some accepted =>
        if g.distanceSquared < accepted.distSq f.position ∧ g.count < g.maxCount then
          ({ g with count := g.count + 1 }, { f with position := accepted })
        else (g.accept f.position, f)
  else ({ g with count := 0 }, f)

end Glitch

end SensorBar.Filter
