import Mathlib.Tactic.NormNum
import SensorBar.Proofs.Exact
import SensorBar.Settings.Basic

/-! # Accepted settings

Settings are accepted when every check passes.  In exact arithmetic the checks are plain
inequalities.
-/

namespace SensorBar

def Accepted (checks : List (Bool × Violation)) : Prop :=
  ∀ check ∈ checks, check.1 = true

instance (checks : List (Bool × Violation)) : Decidable (Accepted checks) :=
  inferInstanceAs (Decidable (∀ check ∈ checks, check.1 = true))

section

variable {α : Type} [Scalar α]

theorem Settings.violation?_eq_none_iff (s : Settings α) :
    s.violation? = none ↔ Accepted s.checks := by
  simp [violation?, Accepted]

theorem FilterSettings.accepted_iff (s : FilterSettings α) :
    Accepted s.checks ↔ Accepted s.glitch.checks ∧ Accepted s.smoothing.checks ∧
      Accepted s.translate.checks := by
  simp only [Accepted, checks, List.forall_mem_append, and_assoc]

theorem FilterSettings.rectangles_of_accepted {s : FilterSettings α} (accepted : Accepted s.checks)
    {m : Mapping α} (h : s.translate.mapping = some m) :
    m.source.isEmpty = false ∧ m.destination.isEmpty = false := by
  have hcheck := accepted (!m.source.isEmpty && !m.destination.isEmpty, .emptyRectangle)
    (by simp [checks, Translation.checks, h])
  simpa using hcheck

end

variable {α : Type} [ExactScalar α]

theorem Scalar.isPositive_iff (x : α) : isPositive x = true ↔ 0 < x := by
  have hzero : ((0 : Nat) : α) = 0 := Nat.cast_zero
  rw [← hzero]
  exact decide_eq_true_iff

theorem Scalar.isNonnegative_iff (x : α) : isNonnegative x = true ↔ 0 ≤ x := by
  have hzero : ((0 : Nat) : α) = 0 := Nat.cast_zero
  rw [← hzero]
  exact decide_eq_true_iff

theorem PointerSettings.accepted_iff (s : PointerSettings α) :
    Accepted s.checks ↔ 0 < s.height ∧ 0 < s.maxSlope ∧ 0 < s.minWidth ∧ 0 < s.barWidth ∧
      0 ≤ s.dotWidth ∧ 0 ≤ s.dotHeight ∧ (0 ≤ s.offScreenX ∧ 0 ≤ s.offScreenY) ∧
      0 ≤ s.singleNoGuessDistance ∧ 0 < s.fovCoefficient := by
  simp [Accepted, checks, Scalar.isPositive_iff, Scalar.isNonnegative_iff]

theorem PointerSettings.minWidth_pos {s : PointerSettings α} (h : Accepted s.checks) :
    0 < s.minWidth :=
  (s.accepted_iff.mp h).2.2.1

theorem GlitchSettings.accepted_iff (s : GlitchSettings α) :
    Accepted s.checks ↔ 0 ≤ s.distanceSquared := by
  simp [Accepted, checks, Scalar.isNonnegative_iff]

theorem RadiusSettings.accepted_iff (s : RadiusSettings α) :
    Accepted s.checks ↔ 0 < s.radius ∧ (0 < s.speed ∧ s.speed ≤ 1) ∧
      (0 ≤ s.deadzone ∧ s.deadzone ≤ s.radius) := by
  have hone : ((1 : Nat) : α) = 1 := Nat.cast_one
  simp [Accepted, checks, Scalar.isPositive_iff, Scalar.isNonnegative_iff, hone]

theorem AdaptiveSettings.accepted_iff (s : AdaptiveSettings α) :
    Accepted s.checks ↔ 0 < s.minCutoff ∧ 0 ≤ s.beta ∧ 0 < s.dCutoff := by
  simp [Accepted, checks, Scalar.isPositive_iff, Scalar.isNonnegative_iff]

/-- The default settings, with every number exact. -/
def PointerSettings.exactDefault : PointerSettings α where
  height := 3 / 4
  maxSlope := 7 / 10
  minWidth := 1 / 10
  barWidth := 39 / 2
  dotWidth := 9 / 4
  dotHeight := 1
  offScreenX := 0
  offScreenY := 0
  singleNoGuessDistance := 10000
  fovCoefficient := 39 / 100
  candidatePreference := .narrowest

theorem PointerSettings.exactDefault_accepted :
    Accepted (exactDefault : PointerSettings α).checks := by
  rw [accepted_iff]
  norm_num [exactDefault]

/-- The default radius smoothing, with every number exact. -/
def RadiusSettings.exactDefault : RadiusSettings α where
  radius := 8
  speed := 1 / 4
  deadzone := 5 / 2

theorem RadiusSettings.exactDefault_accepted :
    Accepted (exactDefault : RadiusSettings α).checks := by
  rw [accepted_iff]
  norm_num [exactDefault]

/-- The default adaptive smoothing, with every number exact. -/
def AdaptiveSettings.exactDefault : AdaptiveSettings α where
  minCutoff := 1
  beta := 7 / 1000
  dCutoff := 1

theorem AdaptiveSettings.exactDefault_accepted :
    Accepted (exactDefault : AdaptiveSettings α).checks := by
  rw [accepted_iff]
  norm_num [exactDefault]

end SensorBar
