import SensorBar.Camera.Slot

/-!
# Breaches

The promises that callers make and the library depends on.  A breach is reported as a value and
leaves whatever was running as it was.
-/

namespace SensorBar

inductive Breach where
  /-- An active slot reports coordinates that the camera never sends. -/
  | outOfView (spot : Camera.Spot)
  /-- The dots of a frame and their tilted positions differ in number. -/
  | unmatchedDots
  /-- The dot chosen for recovery has no tilted position. -/
  | untiltedDot (index : Nat)
  /-- A choice is left to the only header of the settings, and a list of tables has used it up. -/
  | spentHeader
  deriving DecidableEq

def Breach.reason : Breach → String
  | outOfView spot =>
      "no spot is at " ++ toString spot.x ++ ", " ++ toString spot.y
  | unmatchedDots => "dots and tilted dots differ in number"
  | untiltedDot index => "dot " ++ toString index ++ " has no tilted position"
  | spentHeader => "the only header of the settings is used up"

end SensorBar
