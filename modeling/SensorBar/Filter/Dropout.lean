import SensorBar.Filter.Settings
import SensorBar.Frame

/-!
# Dropout repair

Bridges short runs of missing frames by repeating the last valid position.
-/

namespace SensorBar.Filter

structure Dropout (α : Type) where
  maxCount : Nat
  /-- How many frames have been bridged since the last valid one. -/
  count : Nat
  position : Option (Point α)

namespace Dropout

variable {α : Type}

def start (maxCount : Nat) : Dropout α :=
  ⟨maxCount, 0, none⟩

def ofSettings (s : DropoutSettings) : Dropout α :=
  start s.maxCount.toNat

def step (d : Dropout α) (f : Frame α) : Dropout α × Frame α :=
  if f.valid then ({ d with count := 0, position := some f.position }, f)
  else
    match d.position with
    | none => (d, f)
    | some position =>
        if d.count < d.maxCount then
          ({ d with count := d.count + 1 }, { f with position, valid := true })
        else (d, f)

end Dropout

end SensorBar.Filter
