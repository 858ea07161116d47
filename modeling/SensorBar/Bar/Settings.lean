import SensorBar.Scalar

/-!
# Pointer settings

The geometry of the bar and of the field of view, with the tolerances of search and recovery.
-/

namespace SensorBar

/-- Which of several possible bars is followed. -/
inductive Preference where
  | narrowest
  | widest
  deriving DecidableEq

structure PointerSettings (α : Type) where
  /-- The upper edge of the field of view on the camera plane. -/
  height : α
  /-- The steepest slope, after the roll is undone, of a pair that can be the bar. -/
  maxSlope : α
  /-- The least apparent width of a bar. -/
  minWidth : α
  /-- The distance between the emitters, in centimetres. -/
  barWidth : α
  dotWidth : α
  dotHeight : α
  /-- A rebuilt emitter within these bounds should have been seen; zero accepts them all. -/
  offScreenX : α
  offScreenY : α
  /-- A reappearing dot this far, squared, from a lost bar is not matched to its nearest end. -/
  singleNoGuessDistance : α
  /-- The distance from the centre of the field of view to its side, at one metre. -/
  fovCoefficient : α
  candidatePreference : Preference

namespace PointerSettings

def default : PointerSettings Float where
  height := 0.75
  maxSlope := 0.7
  minWidth := 0.1
  barWidth := 19.5
  dotWidth := 2.25
  dotHeight := 1.0
  offScreenX := 0.0
  offScreenY := 0.0
  singleNoGuessDistance := 10000.0
  fovCoefficient := 0.39
  candidatePreference := .narrowest

/-- The distance in metres to a bar that appears `width` wide. -/
def distanceForWidth {α : Type} [Scalar α] (s : PointerSettings α) (width : α) : α :=
  (s.barWidth / (100 : Nat)) / (s.fovCoefficient * width)

end PointerSettings

end SensorBar
