import SensorBar.Proofs.Accepted
import SensorBar.Settings.Load

/-! # The first violated range

Every range of the settings as an inequality.  The ranges have one order, whatever the settings
smooth and translate with, and the one that is reported is the first in it that is violated.
-/

namespace SensorBar

variable {α : Type} [Scalar α]

namespace Violation

/-- Whether settings have a value outside a range; a number that cannot be compared is outside. -/
def IsBroken (s : Settings α) : Violation → Prop
  | height => ¬ ((0 : Nat) : α) < s.pointer.height
  | maxSlope => ¬ ((0 : Nat) : α) < s.pointer.maxSlope
  | minWidth => ¬ ((0 : Nat) : α) < s.pointer.minWidth
  | barWidth => ¬ ((0 : Nat) : α) < s.pointer.barWidth
  | dotWidth => ¬ ((0 : Nat) : α) ≤ s.pointer.dotWidth
  | dotHeight => ¬ ((0 : Nat) : α) ≤ s.pointer.dotHeight
  | offScreen =>
      ¬ (((0 : Nat) : α) ≤ s.pointer.offScreenX ∧ ((0 : Nat) : α) ≤ s.pointer.offScreenY)
  | singleNoGuessDistance => ¬ ((0 : Nat) : α) ≤ s.pointer.singleNoGuessDistance
  | fovCoefficient => ¬ ((0 : Nat) : α) < s.pointer.fovCoefficient
  | gravity => ¬ ((0 : Nat) : α) < s.roll.gravity
  | tolerance => ¬ ((0 : Nat) : α) < s.roll.tolerance
  | glitchDistance => ¬ ((0 : Nat) : α) ≤ s.filter.glitch.distanceSquared
  | radius => ∃ r, s.filter.smoothing = .radius r ∧ ¬ ((0 : Nat) : α) < r.radius
  | speed => ∃ r, s.filter.smoothing = .radius r ∧
      ¬ (((0 : Nat) : α) < r.speed ∧ r.speed ≤ ((1 : Nat) : α))
  | deadzone => ∃ r, s.filter.smoothing = .radius r ∧
      ¬ (((0 : Nat) : α) ≤ r.deadzone ∧ r.deadzone ≤ r.radius)
  | minCutoff => ∃ a, s.filter.smoothing = .adaptive a ∧ ¬ ((0 : Nat) : α) < a.minCutoff
  | beta => ∃ a, s.filter.smoothing = .adaptive a ∧ ¬ ((0 : Nat) : α) ≤ a.beta
  | dCutoff => ∃ a, s.filter.smoothing = .adaptive a ∧ ¬ ((0 : Nat) : α) < a.dCutoff
  | emptyRectangle => ∃ m, s.filter.translate.mapping = some m ∧
      ∃ r ∈ [m.source, m.destination], r.max.x ≤ r.min.x ∨ r.max.y ≤ r.min.y

def ofPointer : List Violation :=
  [height, maxSlope, minWidth, barWidth, dotWidth, dotHeight, offScreen, singleNoGuessDistance,
    fovCoefficient]

def ofRoll : List Violation :=
  [gravity, tolerance]

def ofGlitch : List Violation :=
  [glitchDistance]

def ofSmoothing : List Violation :=
  [radius, speed, deadzone, minCutoff, beta, dCutoff]

def ofTranslate : List Violation :=
  [emptyRectangle]

/-- All ranges in the order in which they are checked. -/
def all : List Violation :=
  ofPointer ++ ofRoll ++ (ofGlitch ++ ofSmoothing ++ ofTranslate)

/-- Whether a range is the first in the order that settings violate. -/
def IsFirst (s : Settings α) (v : Violation) : Prop :=
  v.IsBroken s ∧ ∃ earlier later, all = earlier ++ v :: later ∧ ∀ w ∈ earlier, ¬ w.IsBroken s

end Violation

/-! ## Checks and ranges -/

section

open Scalar Violation Classical

/-- The ranges that fail among some checks. -/
def failing (checks : List (Bool × Violation)) : List Violation :=
  (checks.filter fun check => !check.1).map (·.2)

theorem failing_append (checks more : List (Bool × Violation)) :
    failing (checks ++ more) = failing checks ++ failing more := by
  simp [failing]

/-- Checks of some ranges, one of each, fail where the ranges are violated. -/
theorem failing_map (s : Settings α) (ranges : List Violation) :
    failing (ranges.map fun v => (decide (¬ v.IsBroken s), v)) =
      ranges.filter fun v => v.IsBroken s := by
  simp [failing, List.filter_map, Function.comp_def]

theorem failing_pointer (s : Settings α) :
    failing s.pointer.checks = ofPointer.filter fun v => v.IsBroken s := by
  rw [← failing_map]
  simp [ofPointer, PointerSettings.checks, IsBroken, isPositive, isNonnegative]

theorem failing_roll (s : Settings α) :
    failing s.roll.checks = ofRoll.filter fun v => v.IsBroken s := by
  rw [← failing_map]
  simp [ofRoll, RollSettings.checks, IsBroken, isPositive]

theorem failing_glitch (s : Settings α) :
    failing s.filter.glitch.checks = ofGlitch.filter fun v => v.IsBroken s := by
  rw [← failing_map]
  simp [ofGlitch, GlitchSettings.checks, IsBroken, isNonnegative]

theorem failing_smoothing (s : Settings α) :
    failing s.filter.smoothing.checks = ofSmoothing.filter fun v => v.IsBroken s := by
  -- The ranges of the other kinds hold, so only those of its own kind are left.
  cases h : s.filter.smoothing with
  | off => simp [Smoothing.checks, failing, ofSmoothing, IsBroken, h]
  | radius r =>
      have own : failing r.checks = [radius, speed, deadzone].filter fun v => v.IsBroken s := by
        rw [← failing_map]
        simp [RadiusSettings.checks, IsBroken, h, isPositive, isNonnegative]
      rw [Smoothing.checks, own]
      simp [ofSmoothing, IsBroken, h, List.filter_cons]
  | adaptive a =>
      have own : failing a.checks = [minCutoff, beta, dCutoff].filter fun v => v.IsBroken s := by
        rw [← failing_map]
        simp [AdaptiveSettings.checks, IsBroken, h, isPositive, isNonnegative]
      rw [Smoothing.checks, own]
      simp [ofSmoothing, IsBroken, h, List.filter_cons]

theorem failing_translate (s : Settings α) :
    failing s.filter.translate.checks = ofTranslate.filter fun v => v.IsBroken s := by
  cases h : s.filter.translate.mapping with
  | none => simp [Translation.checks, failing, ofTranslate, IsBroken, h]
  | some m =>
      rw [← failing_map]
      simp [Translation.checks, ofTranslate, IsBroken, h, Rect.isEmpty]

theorem Settings.failing_checks (s : Settings α) :
    failing s.checks = all.filter fun v => v.IsBroken s := by
  simp only [checks, FilterSettings.checks, all, failing_append, List.filter_append,
    failing_pointer, failing_roll, failing_glitch, failing_smoothing, failing_translate]

theorem Settings.violation?_eq_find? (s : Settings α) :
    s.violation? = all.find? fun v => v.IsBroken s := by
  rw [← List.head?_filter, ← s.failing_checks, failing, List.head?_map, List.head?_filter]
  rfl

end

/-! ## Validation -/

namespace Settings

theorem violation?_eq_some_iff (s : Settings α) (v : Violation) :
    s.violation? = some v ↔ v.IsFirst s := by
  rw [s.violation?_eq_find?, List.find?_eq_some_iff_append]
  simp [Violation.IsFirst]

theorem violation?_eq_none_iff_forall (s : Settings α) :
    s.violation? = none ↔ ∀ v : Violation, ¬ v.IsBroken s := by
  have complete (v : Violation) : v ∈ Violation.all := by
    cases v <;> decide
  rw [s.violation?_eq_find?, List.find?_eq_none]
  simp [complete]

theorem validate_eq_ok_iff (s t : Settings Float) :
    s.validate = .ok t ↔ t = s ∧ ∀ v : Violation, ¬ v.IsBroken s := by
  rw [← s.violation?_eq_none_iff_forall, validate]
  cases s.violation? <;> simp [eq_comm]

theorem validate_eq_error_iff (s : Settings Float) (cause : Error) :
    s.validate = .error cause ↔ ∃ v : Violation, cause = .invalid v ∧ v.IsFirst s := by
  simp only [← s.violation?_eq_some_iff, validate]
  cases s.violation? <;> simp [eq_comm]

end Settings

end SensorBar
