import SensorBar.Settings.Basic
import SensorBar.Toml.Record

/-!
# Settings from a document

Reads the tree of a document as settings.  What the document does not name keeps its default.
Unknown names are refused in the sections of fixed fields, and ignored in smoothing, translation,
rectangles and points.
-/

namespace SensorBar

open Toml

/-! ## Pointer and roll -/

def Preference.ofName? : String → Option Preference
  | "narrowest" => some .narrowest
  | "widest" => some .widest
  | _ => none

def Preference.ofValue? (v : Value) : Option Preference :=
  v.choice?.bind Preference.ofName?

def RollAxis.ofName? : String → Option RollAxis
  | "y" => some .y
  | "z" => some .z
  | _ => none

def RollAxis.ofValue? (v : Value) : Option RollAxis :=
  v.choice?.bind RollAxis.ofName?

def PointerSettings.fields : List String :=
  ["height", "max_slope", "min_width", "bar_width", "dot_width", "dot_height", "off_screen_x",
    "off_screen_y", "single_no_guess_distance", "fov_coefficient", "candidate_preference"]

def PointerSettings.ofValue? (v : Value) : Option (PointerSettings Float) := do
  let r ← Record.ofValue? PointerSettings.fields true v
  let d := PointerSettings.default
  let height ← r.optional "height" Value.float? d.height
  let maxSlope ← r.optional "max_slope" Value.float? d.maxSlope
  let minWidth ← r.optional "min_width" Value.float? d.minWidth
  let barWidth ← r.optional "bar_width" Value.float? d.barWidth
  let dotWidth ← r.optional "dot_width" Value.float? d.dotWidth
  let dotHeight ← r.optional "dot_height" Value.float? d.dotHeight
  let offScreenX ← r.optional "off_screen_x" Value.float? d.offScreenX
  let offScreenY ← r.optional "off_screen_y" Value.float? d.offScreenY
  let singleNoGuessDistance ←
    r.optional "single_no_guess_distance" Value.float? d.singleNoGuessDistance
  let fovCoefficient ← r.optional "fov_coefficient" Value.float? d.fovCoefficient
  let candidatePreference ←
    r.optional "candidate_preference" Preference.ofValue? d.candidatePreference
  some { height, maxSlope, minWidth, barWidth, dotWidth, dotHeight, offScreenX, offScreenY,
         singleNoGuessDistance, fovCoefficient, candidatePreference }

def RollSettings.fields : List String :=
  ["axis", "gravity", "tolerance"]

def RollSettings.ofValue? (v : Value) : Option (RollSettings Float) := do
  let r ← Record.ofValue? RollSettings.fields true v
  let d := RollSettings.default
  let axis ← r.optional "axis" RollAxis.ofValue? d.axis
  let gravity ← r.optional "gravity" Value.float? d.gravity
  let tolerance ← r.optional "tolerance" Value.float? d.tolerance
  some { axis, gravity, tolerance }

/-! ## Filters -/

def DropoutSettings.fields : List String :=
  ["max_count"]

def DropoutSettings.ofValue? (v : Value) : Option DropoutSettings := do
  let r ← Record.ofValue? DropoutSettings.fields true v
  let maxCount ← r.optional "max_count" Value.count? DropoutSettings.default.maxCount
  some { maxCount }

def GlitchSettings.fields : List String :=
  ["max_count", "distance_squared"]

def GlitchSettings.ofValue? (v : Value) : Option (GlitchSettings Float) := do
  let r ← Record.ofValue? GlitchSettings.fields true v
  let d := GlitchSettings.default
  let maxCount ← r.optional "max_count" Value.count? d.maxCount
  let distanceSquared ← r.optional "distance_squared" Value.float? d.distanceSquared
  some { maxCount, distanceSquared }

def RadiusSettings.ofValue? (v : Value) : Option (RadiusSettings Float) := do
  let r ← Record.ofValue? ["radius", "speed", "deadzone"] false v
  let d := RadiusSettings.default
  let radius ← r.optional "radius" Value.float? d.radius
  let speed ← r.optional "speed" Value.float? d.speed
  let deadzone ← r.optional "deadzone" Value.float? d.deadzone
  some { radius, speed, deadzone }

def AdaptiveSettings.ofValue? (v : Value) : Option (AdaptiveSettings Float) := do
  let r ← Record.ofValue? ["min_cutoff", "beta", "d_cutoff"] false v
  let d := AdaptiveSettings.default
  let minCutoff ← r.optional "min_cutoff" Value.float? d.minCutoff
  let beta ← r.optional "beta" Value.float? d.beta
  let dCutoff ← r.optional "d_cutoff" Value.float? d.dCutoff
  some { minCutoff, beta, dCutoff }

/-- Smoothing is told apart by its `kind`, and takes the defaults of that kind. -/
def Smoothing.ofValue? (v : Value) : Option (Smoothing Float) :=
  match tagged? "kind" v with
  | some ("none", rest) => if isBare rest then some .off else none
  | some ("radius", rest) => (RadiusSettings.ofValue? rest).map .radius
  | some ("adaptive", rest) => (AdaptiveSettings.ofValue? rest).map .adaptive
  | _ => none

def Point.ofValue? (v : Value) : Option (Point Float) := do
  let r ← Record.ofValue? ["x", "y"] false v
  let x ← r.required "x" Value.float?
  let y ← r.required "y" Value.float?
  some { x, y }

def Rect.ofValue? (v : Value) : Option (Rect Float) := do
  let r ← Record.ofValue? ["min", "max"] false v
  let min ← r.required "min" Point.ofValue?
  let max ← r.required "max" Point.ofValue?
  some { min, max }

def Mapping.ofValue? (v : Value) : Option (Mapping Float) := do
  let r ← Record.ofValue? ["source", "destination", "clamp"] false v
  let source ← r.required "source" Rect.ofValue?
  let destination ← r.required "destination" Rect.ofValue?
  let clamp ← r.optional "clamp" Value.boolean? false
  some { source, destination, clamp }

/-- The translation of a preset that has no fields. -/
def Translation.ofPreset? : String → Option (Translation Float)
  | "none" => some .off
  | "safe-top" => some .safeTop
  | "safe-bottom" => some .safeBottom
  | "wide-top" => some .wideTop
  | "wide-bottom" => some .wideBottom
  | _ => none

/-- A translation is told apart by its `preset`. -/
def Translation.ofValue? (v : Value) : Option (Translation Float) :=
  match tagged? "preset" v with
  | some ("custom", rest) => (Mapping.ofValue? rest).map .custom
  | some (preset, rest) => if isBare rest then Translation.ofPreset? preset else none
  | none => none

def FilterSettings.fields : List String :=
  ["error", "glitch", "smoothing", "translate"]

def FilterSettings.ofValue? (v : Value) : Option (FilterSettings Float) := do
  let r ← Record.ofValue? FilterSettings.fields true v
  let d := FilterSettings.default
  let error ← r.optional "error" DropoutSettings.ofValue? d.error
  let glitch ← r.optional "glitch" GlitchSettings.ofValue? d.glitch
  let smoothing ← r.optional "smoothing" Smoothing.ofValue? d.smoothing
  let translate ← r.optional "translate" Translation.ofValue? d.translate
  some { error, glitch, smoothing, translate }

/-! ## All settings -/

def Settings.fields : List String :=
  ["pointer", "roll", "filter"]

def Settings.ofValue? (v : Value) : Option (Settings Float) := do
  let r ← Record.ofValue? Settings.fields true v
  let d := Settings.default
  let pointer ← r.optional "pointer" PointerSettings.ofValue? d.pointer
  let roll ← r.optional "roll" RollSettings.ofValue? d.roll
  let filter ← r.optional "filter" FilterSettings.ofValue? d.filter
  some { pointer, roll, filter }

/--
Whether the axis is left to a header that is used up.  The first item of a list of roll settings
stands for the axis.  In a lone list of tables that item would choose by the only header of the
document, which has begun the list.
-/
def Settings.spendsHeader : Value → Bool
  | .table _ entries => (entries.lookup "roll").any Value.isLoneList
  | _ => false

end SensorBar
