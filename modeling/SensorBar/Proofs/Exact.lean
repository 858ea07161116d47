import Mathlib.Analysis.SpecialFunctions.Complex.Arg
import SensorBar.Scalar

/-! # Exact arithmetic

An exact scalar is a number of an ordered field in which roots, sines, cosines and headings obey
their defining identities.  The geometry of the library is stated over such scalars; the machine
numbers of a running program only approximate them, and nothing here speaks of rounding.
-/

namespace SensorBar

class ExactScalar (α : Type) extends Field α, LinearOrder α, IsStrictOrderedRing α where
  sqrt : α → α
  sin : α → α
  cos : α → α
  atan2 : α → α → α
  pi : α
  sqrt_nonneg : ∀ x, 0 ≤ sqrt x
  sqrt_mul_sqrt : ∀ x, 0 ≤ x → sqrt x * sqrt x = x
  sin_zero : sin 0 = 0
  cos_zero : cos 0 = 1
  sin_sq_add_cos_sq : ∀ a, sin a * sin a + cos a * cos a = 1
  sin_add : ∀ a b, sin (a + b) = sin a * cos b + cos a * sin b
  cos_add : ∀ a b, cos (a + b) = cos a * cos b - sin a * sin b
  /-- A vector is its length along its own heading. -/
  sqrt_mul_cos_atan2 : ∀ y x, sqrt (x * x + y * y) * cos (atan2 y x) = x
  sqrt_mul_sin_atan2 : ∀ y x, sqrt (x * x + y * y) * sin (atan2 y x) = y
  pi_pos : 0 < pi

/-- The operations of the field and of its order are the operations of the library. -/
instance (priority := low) {α : Type} [ExactScalar α] : Scalar α where
  add := fun a b => a + b
  sub := fun a b => a - b
  mul := fun a b => a * b
  div := fun a b => a / b
  neg := fun a => -a
  lt := fun a b => a < b
  le := fun a b => a ≤ b
  beq := fun a b => decide (a = b)
  natCast := fun n => n
  decLT := fun a b => inferInstanceAs (Decidable (a < b))
  decLE := fun a b => inferInstanceAs (Decidable (a ≤ b))
  abs := fun a => |a|
  sqrt := ExactScalar.sqrt
  sin := ExactScalar.sin
  cos := ExactScalar.cos
  atan2 := ExactScalar.atan2
  pi := ExactScalar.pi

namespace ExactScalar

variable {α : Type} [ExactScalar α]

/-! ## Roots -/

theorem sqrt_mul_self {x : α} (h : 0 ≤ x) : sqrt (x * x) = x := by
  have hsq : sqrt (x * x) * sqrt (x * x) = x * x := sqrt_mul_sqrt (x * x) (mul_self_nonneg x)
  exact (mul_self_inj (sqrt_nonneg (x * x)) h).mp hsq

/-! ## Opposite angles -/

theorem cos_neg (a : α) : cos (-a) = cos a := by
  have hs : sin a * cos (-a) + cos a * sin (-a) = 0 := by
    rw [← sin_add, add_neg_cancel, sin_zero]
  have hc : cos a * cos (-a) - sin a * sin (-a) = 1 := by
    rw [← cos_add, add_neg_cancel, cos_zero]
  have h1 := sin_sq_add_cos_sq a
  calc cos (-a) = (sin a * sin a + cos a * cos a) * cos (-a) := by rw [h1, one_mul]
    _ = cos a * (cos a * cos (-a) - sin a * sin (-a))
        + sin a * (sin a * cos (-a) + cos a * sin (-a)) := by ring
    _ = cos a := by rw [hs, hc]; ring

theorem sin_neg (a : α) : sin (-a) = -sin a := by
  have hs : sin a * cos (-a) + cos a * sin (-a) = 0 := by
    rw [← sin_add, add_neg_cancel, sin_zero]
  have hc : cos a * cos (-a) - sin a * sin (-a) = 1 := by
    rw [← cos_add, add_neg_cancel, cos_zero]
  have h1 := sin_sq_add_cos_sq a
  calc sin (-a) = (sin a * sin a + cos a * cos a) * sin (-a) := by rw [h1, one_mul]
    _ = cos a * (sin a * cos (-a) + cos a * sin (-a))
        - sin a * (cos a * cos (-a) - sin a * sin (-a)) := by ring
    _ = -sin a := by rw [hs, hc]; ring

end ExactScalar

/-! ## The greater and the lesser -/

namespace Scalar

variable {α : Type} [ExactScalar α]

theorem larger_eq_max (a b : α) : larger a b = max a b := by
  unfold larger
  split
  next hlt => exact (max_eq_right_of_lt hlt).symm
  next hle =>
    rw [if_pos (by simp)]
    exact (max_eq_left (not_lt.mp hle)).symm

theorem smaller_eq_min (a b : α) : smaller a b = min a b := by
  unfold smaller
  split
  next hlt => exact (min_eq_right_of_lt hlt).symm
  next hle =>
    rw [if_pos (by simp)]
    exact (min_eq_left (not_lt.mp hle)).symm

end Scalar

/-- The real numbers are exact. -/
noncomputable instance : ExactScalar ℝ where
  sqrt := Real.sqrt
  sin := Real.sin
  cos := Real.cos
  atan2 := fun y x => Complex.arg ⟨x, y⟩
  pi := Real.pi
  sqrt_nonneg := Real.sqrt_nonneg
  sqrt_mul_sqrt := fun _ h => Real.mul_self_sqrt h
  sin_zero := Real.sin_zero
  cos_zero := Real.cos_zero
  sin_sq_add_cos_sq := fun a => by
    rw [← pow_two, ← pow_two]
    exact Real.sin_sq_add_cos_sq a
  sin_add := Real.sin_add
  cos_add := Real.cos_add
  sqrt_mul_cos_atan2 := fun y x => Complex.norm_mul_cos_arg ⟨x, y⟩
  sqrt_mul_sin_atan2 := fun y x => Complex.norm_mul_sin_arg ⟨x, y⟩
  pi_pos := Real.pi_pos

end SensorBar
