import SensorBar.Bar.Settings
import SensorBar.Filter.Settings
import SensorBar.Roll

/-!
# Settings

All settings together, and the ranges their values must lie in.  The check of a number is written so
that one that cannot be compared fails it; of several failing checks the first one is reported.
-/

namespace SensorBar

structure Settings (α : Type) where
  pointer : PointerSettings α
  roll : RollSettings α
  filter : FilterSettings α

def Settings.default : Settings Float where
  pointer := .default
  roll := .default
  filter := .default

/-- A range that a value of the settings fails to lie in. -/
inductive Violation where
  | height
  | maxSlope
  | minWidth
  | barWidth
  | dotWidth
  | dotHeight
  | offScreen
  | singleNoGuessDistance
  | fovCoefficient
  | gravity
  | tolerance
  | glitchDistance
  | radius
  | speed
  | deadzone
  | minCutoff
  | beta
  | dCutoff
  | emptyRectangle
  deriving DecidableEq

def Violation.reason : Violation → String
  | height => "pointer.height must be positive"
  | maxSlope => "pointer.max_slope must be positive"
  | minWidth => "pointer.min_width must be positive"
  | barWidth => "pointer.bar_width must be positive"
  | dotWidth => "pointer.dot_width must not be negative"
  | dotHeight => "pointer.dot_height must not be negative"
  | offScreen => "pointer.off_screen_x/y must not be negative"
  | singleNoGuessDistance => "pointer.single_no_guess_distance must not be negative"
  | fovCoefficient => "pointer.fov_coefficient must be positive"
  | gravity => "roll.gravity must be positive"
  | tolerance => "roll.tolerance must be positive"
  | glitchDistance => "filter.glitch.distance_squared must not be negative"
  | radius => "filter.smoothing.radius must be positive"
  | speed => "filter.smoothing.speed must be in (0, 1]"
  | deadzone => "filter.smoothing.deadzone must be between 0 and the radius"
  | minCutoff => "filter.smoothing.min_cutoff must be positive"
  | beta => "filter.smoothing.beta must not be negative"
  | dCutoff => "filter.smoothing.d_cutoff must be positive"
  | emptyRectangle => "filter.translate rectangles must not be empty"

variable {α : Type} [Scalar α]

def Scalar.isPositive (x : α) : Bool :=
  ((0 : Nat) : α) < x

def Scalar.isNonnegative (x : α) : Bool :=
  ((0 : Nat) : α) ≤ x

open Scalar

/-- Every check of the pointer settings with what it guards against, in order. -/
def PointerSettings.checks (s : PointerSettings α) : List (Bool × Violation) :=
  [(isPositive s.height, .height),
    (isPositive s.maxSlope, .maxSlope),
    (isPositive s.minWidth, .minWidth),
    (isPositive s.barWidth, .barWidth),
    (isNonnegative s.dotWidth, .dotWidth),
    (isNonnegative s.dotHeight, .dotHeight),
    (isNonnegative s.offScreenX && isNonnegative s.offScreenY, .offScreen),
    (isNonnegative s.singleNoGuessDistance, .singleNoGuessDistance),
    (isPositive s.fovCoefficient, .fovCoefficient)]

def RollSettings.checks (s : RollSettings α) : List (Bool × Violation) :=
  [(isPositive s.gravity, .gravity), (isPositive s.tolerance, .tolerance)]

def GlitchSettings.checks (s : GlitchSettings α) : List (Bool × Violation) :=
  [(isNonnegative s.distanceSquared, .glitchDistance)]

def RadiusSettings.checks (s : RadiusSettings α) : List (Bool × Violation) :=
  [(isPositive s.radius, .radius),
    (isPositive s.speed && s.speed ≤ ((1 : Nat) : α), .speed),
    (isNonnegative s.deadzone && s.deadzone ≤ s.radius, .deadzone)]

def AdaptiveSettings.checks (s : AdaptiveSettings α) : List (Bool × Violation) :=
  [(isPositive s.minCutoff, .minCutoff),
    (isNonnegative s.beta, .beta),
    (isPositive s.dCutoff, .dCutoff)]

def Smoothing.checks : Smoothing α → List (Bool × Violation)
  | .off => []
  | .radius s => s.checks
  | .adaptive s => s.checks

def Translation.checks (t : Translation α) : List (Bool × Violation) :=
  match t.mapping with
  | none => []
  | some m => [(!m.source.isEmpty && !m.destination.isEmpty, .emptyRectangle)]

def FilterSettings.checks (s : FilterSettings α) : List (Bool × Violation) :=
  s.glitch.checks ++ s.smoothing.checks ++ s.translate.checks

namespace Settings

def checks (s : Settings α) : List (Bool × Violation) :=
  s.pointer.checks ++ s.roll.checks ++ s.filter.checks

def violation? (s : Settings α) : Option Violation :=
  (s.checks.find? fun check => !check.1).map (·.2)

end Settings

end SensorBar
