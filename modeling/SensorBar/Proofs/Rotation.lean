import Mathlib.Tactic.FieldSimp
import Mathlib.Tactic.Linarith
import SensorBar.Bar.Basic
import SensorBar.Proofs.Exact

/-! # Rotation in exact arithmetic

The rotations of the plane compose by adding angles and keep inner products, cross products and
lengths.  The exact copy that the zero angle makes is the rotation by zero.  A vector turned back
by its own heading lies along the first axis, which is what makes a pair of dots level.
-/

namespace SensorBar

open ExactScalar

namespace Point

variable {α : Type} [ExactScalar α]

/-! ## Coordinates -/

@[simp] theorem zero_x : (zero : Point α).x = 0 := Nat.cast_zero

@[simp] theorem zero_y : (zero : Point α).y = 0 := Nat.cast_zero

@[simp] theorem add_x (p q : Point α) : (p + q).x = p.x + q.x := rfl

@[simp] theorem add_y (p q : Point α) : (p + q).y = p.y + q.y := rfl

@[simp] theorem sub_x (p q : Point α) : (p - q).x = p.x - q.x := rfl

@[simp] theorem sub_y (p q : Point α) : (p - q).y = p.y - q.y := rfl

@[simp] theorem scale_x (p : Point α) (k : α) : (p.scale k).x = p.x * k := rfl

@[simp] theorem scale_y (p : Point α) (k : α) : (p.scale k).y = p.y * k := rfl

/-! ## Products and lengths -/

/-- The inner product. -/
def dot (p q : Point α) : α :=
  p.x * q.x + p.y * q.y

/-- The signed area that two vectors span. -/
def cross (p q : Point α) : α :=
  p.x * q.y - p.y * q.x

theorem normSq_eq (p : Point α) : p.normSq = p.x * p.x + p.y * p.y := rfl

theorem norm_eq (p : Point α) : p.norm = sqrt p.normSq := rfl

theorem normSq_nonneg (p : Point α) : 0 ≤ p.normSq := by
  rw [normSq_eq]
  exact add_nonneg (mul_self_nonneg p.x) (mul_self_nonneg p.y)

theorem norm_nonneg (p : Point α) : 0 ≤ p.norm :=
  sqrt_nonneg p.normSq

theorem norm_mul_norm (p : Point α) : p.norm * p.norm = p.normSq :=
  sqrt_mul_sqrt p.normSq p.normSq_nonneg

theorem norm_scale (p : Point α) {k : α} (hk : 0 ≤ k) : (p.scale k).norm = p.norm * k := by
  have hsq : (p.scale k).normSq = (p.norm * k) * (p.norm * k) := by
    calc (p.scale k).normSq = p.normSq * (k * k) := by
          simp only [normSq_eq, scale_x, scale_y]
          ring
      _ = (p.norm * k) * (p.norm * k) := by
          rw [← norm_mul_norm]
          ring
  rw [norm_eq, hsq, sqrt_mul_self (mul_nonneg p.norm_nonneg hk)]

/-- A vector along the first axis is as long as it reaches. -/
theorem norm_axis {x : α} (h : 0 ≤ x) : (⟨x, 0⟩ : Point α).norm = x := by
  have hsq : (⟨x, 0⟩ : Point α).normSq = x * x := by
    simp [normSq_eq]
  rw [norm_eq, hsq, sqrt_mul_self h]

theorem norm_zero : (zero : Point α).norm = 0 := by
  have horigin : (zero : Point α) = ⟨0, 0⟩ := by
    apply Point.ext <;> simp
  rw [horigin, norm_axis le_rfl]

theorem norm_sub_self (p : Point α) : (p - p).norm = 0 := by
  have hsame : p - p = zero := by
    apply Point.ext <;> simp
  rw [hsame, norm_zero]

/-! ## Rotations -/

/-- Rotation by the general formula, which makes no exception for the zero angle. -/
def turn {α : Type} [Scalar α] (p : Point α) (a : α) : Point α :=
  ⟨Scalar.cos a * p.x - Scalar.sin a * p.y, Scalar.sin a * p.x + Scalar.cos a * p.y⟩

/-- On machine numbers, too, rotation follows the formula but for the zero angle. -/
theorem rotate_eq_ite {α : Type} [Scalar α] (p : Point α) (a : α) :
    p.rotate a = if a == (0 : Nat) then p else p.turn a :=
  rfl

theorem turn_eq (p : Point α) (a : α) :
    p.turn a = ⟨cos a * p.x - sin a * p.y, sin a * p.x + cos a * p.y⟩ :=
  rfl

theorem turn_zero (p : Point α) : p.turn 0 = p := by
  rw [turn_eq, sin_zero, cos_zero]
  apply Point.ext <;> simp

theorem rotate_eq_turn (p : Point α) (a : α) : p.rotate a = p.turn a := by
  rw [rotate_eq_ite]
  split
  next hzero =>
    have ha : a = 0 := by simpa using hzero
    rw [ha, turn_zero]
  next => rfl

theorem rotate_eq (p : Point α) (a : α) :
    p.rotate a = ⟨cos a * p.x - sin a * p.y, sin a * p.x + cos a * p.y⟩ :=
  p.rotate_eq_turn a

@[simp] theorem rotate_x (p : Point α) (a : α) :
    (p.rotate a).x = cos a * p.x - sin a * p.y := by
  rw [rotate_eq]

@[simp] theorem rotate_y (p : Point α) (a : α) :
    (p.rotate a).y = sin a * p.x + cos a * p.y := by
  rw [rotate_eq]

theorem rotate_zero (p : Point α) : p.rotate 0 = p := by
  rw [rotate_eq_turn, turn_zero]

theorem rotate_rotate (p : Point α) (a b : α) : (p.rotate a).rotate b = p.rotate (a + b) := by
  apply Point.ext
  · simp only [rotate_x, rotate_y, sin_add, cos_add]
    ring
  · simp only [rotate_x, rotate_y, sin_add, cos_add]
    ring

theorem rotate_neg_rotate (p : Point α) (a : α) : (p.rotate (-a)).rotate a = p := by
  rw [rotate_rotate, neg_add_cancel, rotate_zero]

theorem rotate_sub (p q : Point α) (a : α) : (p - q).rotate a = p.rotate a - q.rotate a := by
  apply Point.ext
  · simp only [rotate_x, sub_x, sub_y]
    ring
  · simp only [rotate_y, sub_x, sub_y]
    ring

theorem rotate_add (p q : Point α) (a : α) : (p + q).rotate a = p.rotate a + q.rotate a := by
  apply Point.ext
  · simp only [rotate_x, add_x, add_y]
    ring
  · simp only [rotate_y, add_x, add_y]
    ring

theorem dot_rotate (p q : Point α) (a : α) : (p.rotate a).dot (q.rotate a) = p.dot q := by
  have h := sin_sq_add_cos_sq a
  calc (p.rotate a).dot (q.rotate a)
      = (sin a * sin a + cos a * cos a) * p.dot q := by
        simp only [dot, rotate_x, rotate_y]
        ring
    _ = p.dot q := by rw [h, one_mul]

theorem cross_rotate (p q : Point α) (a : α) : (p.rotate a).cross (q.rotate a) = p.cross q := by
  have h := sin_sq_add_cos_sq a
  calc (p.rotate a).cross (q.rotate a)
      = (sin a * sin a + cos a * cos a) * p.cross q := by
        simp only [cross, rotate_x, rotate_y]
        ring
    _ = p.cross q := by rw [h, one_mul]

theorem normSq_rotate (p : Point α) (a : α) : (p.rotate a).normSq = p.normSq :=
  dot_rotate p p a

theorem distSq_rotate (p q : Point α) (a : α) : (p.rotate a).distSq (q.rotate a) = p.distSq q := by
  rw [distSq, ← rotate_sub, normSq_rotate, ← distSq]

theorem norm_rotate (p : Point α) (a : α) : (p.rotate a).norm = p.norm := by
  rw [norm_eq, normSq_rotate, ← norm_eq]

/-! ## Headings -/

theorem norm_mul_cos_heading (p : Point α) : p.norm * cos p.heading = p.x :=
  sqrt_mul_cos_atan2 p.y p.x

theorem norm_mul_sin_heading (p : Point α) : p.norm * sin p.heading = p.y :=
  sqrt_mul_sin_atan2 p.y p.x

/-- A length along the heading of a vector is a multiple of the vector. -/
theorem unit_heading_scale {p : Point α} (h : 0 < p.norm) (k : α) :
    (unit p.heading).scale k = p.scale (k / p.norm) := by
  have hx : p.x * (k / p.norm) = cos p.heading * k := by
    rw [← norm_mul_cos_heading p]
    field_simp
  have hy : p.y * (k / p.norm) = sin p.heading * k := by
    rw [← norm_mul_sin_heading p]
    field_simp
  apply Point.ext
  · exact hx.symm
  · exact hy.symm

theorem rotate_neg_heading (p : Point α) : p.rotate (-p.heading) = ⟨p.norm, 0⟩ := by
  have hx := norm_mul_cos_heading p
  have hy := norm_mul_sin_heading p
  have h1 := sin_sq_add_cos_sq p.heading
  apply Point.ext
  · calc (p.rotate (-p.heading)).x = cos p.heading * p.x + sin p.heading * p.y := by
          rw [rotate_x, cos_neg, sin_neg]
          ring
      _ = p.norm * (sin p.heading * sin p.heading + cos p.heading * cos p.heading) := by
          rw [← hx, ← hy]
          ring
      _ = p.norm := by rw [h1, mul_one]
  · calc (p.rotate (-p.heading)).y = cos p.heading * p.y - sin p.heading * p.x := by
          rw [rotate_y, cos_neg, sin_neg]
          ring
      _ = 0 := by
          rw [← hx, ← hy]
          ring

end Point

namespace Pair

variable {α : Type} [ExactScalar α]

theorem rotate_rotate (p : Pair (Point α)) (a b : α) : (p.rotate a).rotate b = p.rotate (a + b) := by
  simp only [rotate, Point.rotate_rotate]

theorem rotate_neg_rotate (p : Pair (Point α)) (a : α) : (p.rotate (-a)).rotate a = p := by
  simp only [rotate, Point.rotate_neg_rotate]

theorem span_rotate (p : Pair (Point α)) (a : α) : (p.rotate a).span = p.span.rotate a :=
  (Point.rotate_sub p.right p.left a).symm

/-- A turn by both angles undoes the roll first and levels the pair then. -/
theorem rotate_levelling_add (p : Pair (Point α)) (roll : α) :
    p.rotate ((p.rotate roll).levelling + roll) =
      (p.rotate roll).rotate (p.rotate roll).levelling := by
  rw [rotate_rotate, add_comm]

theorem span_rotate_levelling (p : Pair (Point α)) :
    (p.rotate p.levelling).span = ⟨p.span.norm, 0⟩ := by
  rw [span_rotate]
  exact p.span.rotate_neg_heading

end Pair

end SensorBar
