import SensorBar.Geometry.Rect

/-!
# Filter settings

The parameters of each stage that a frame passes through, and the translation presets.
-/

namespace SensorBar

structure DropoutSettings where
  maxCount : UInt32

structure GlitchSettings (α : Type) where
  maxCount : UInt32
  distanceSquared : α

structure RadiusSettings (α : Type) where
  radius : α
  speed : α
  deadzone : α

structure AdaptiveSettings (α : Type) where
  minCutoff : α
  beta : α
  dCutoff : α

inductive Smoothing (α : Type) where
  | off
  | radius (settings : RadiusSettings α)
  | adaptive (settings : AdaptiveSettings α)

/-- A map of pointer space onto a destination rectangle. -/
structure Mapping (α : Type) where
  source : Rect α
  destination : Rect α
  clamp : Bool

inductive Translation (α : Type) where
  | off
  | safeTop
  | safeBottom
  | wideTop
  | wideBottom
  | custom (mapping : Mapping α)

structure FilterSettings (α : Type) where
  error : DropoutSettings
  glitch : GlitchSettings α
  smoothing : Smoothing α
  translate : Translation α

namespace Translation

variable {α : Type} [Scalar α]

/-- The destination of every preset. -/
def unitSquare : Rect α :=
  .ofBounds (-(1 : Nat)) (-(1 : Nat)) (1 : Nat) (1 : Nat)

/-- A preset maps a symmetric strip of pointer space, `halfWidth` wide to each side. -/
def preset (halfWidth below above : Nat) : Mapping α where
  source := .ofBounds (-(halfWidth : α)) (-(below : α)) halfWidth above
  destination := unitSquare
  clamp := true

def mapping : Translation α → Option (Mapping α)
  | .off => none
  | .safeTop => some (preset 340 92 290)
  | .safeBottom => some (preset 340 290 92)
  | .wideTop => some (preset 430 194 290)
  | .wideBottom => some (preset 430 290 194)
  | .custom m => some m

end Translation

/-! ## Defaults -/

def DropoutSettings.default : DropoutSettings where
  maxCount := 8

def GlitchSettings.default : GlitchSettings Float where
  maxCount := 5
  distanceSquared := 22500.0

def RadiusSettings.default : RadiusSettings Float where
  radius := 8.0
  speed := 0.25
  deadzone := 2.5

def AdaptiveSettings.default : AdaptiveSettings Float where
  minCutoff := 1.0
  beta := 0.007
  dCutoff := 1.0

def FilterSettings.default : FilterSettings Float where
  error := .default
  glitch := .default
  smoothing := .radius .default
  translate := .safeTop

end SensorBar
