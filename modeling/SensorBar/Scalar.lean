/-!
# Scalars

The arithmetic that tracking and filtering are written in.  Every geometric definition of the
library is stated once over `Scalar`, and read at `Float` when the program runs; the laws of exact
geometry hold at other instances, where `sqrt`, `sin`, `cos` and `atan2` obey their identities.
-/

namespace SensorBar

/--
Numbers with the operations a camera plane needs.

Comparisons are decidable propositions, because on machine numbers `¬ a < b` and `b ≤ a` differ.
-/
class Scalar (α : Type) where
  add : α → α → α
  sub : α → α → α
  mul : α → α → α
  div : α → α → α
  neg : α → α
  lt : α → α → Prop
  le : α → α → Prop
  beq : α → α → Bool
  natCast : Nat → α
  decLT : DecidableRel lt
  decLE : DecidableRel le
  abs : α → α
  sqrt : α → α
  sin : α → α
  cos : α → α
  atan2 : α → α → α
  pi : α

namespace Scalar

variable {α : Type} [Scalar α]

/-! The operations are the last resort of a type that has arithmetic of its own. -/

instance (priority := low) : Add α := ⟨add⟩

instance (priority := low) : Sub α := ⟨sub⟩

instance (priority := low) : Mul α := ⟨mul⟩

instance (priority := low) : Div α := ⟨div⟩

instance (priority := low) : Neg α := ⟨neg⟩

instance (priority := low) : LT α := ⟨lt⟩

instance (priority := low) : LE α := ⟨le⟩

instance (priority := low) : BEq α := ⟨beq⟩

instance (priority := low) : NatCast α := ⟨natCast⟩

instance (priority := low) : DecidableLT α := decLT

instance (priority := low) : DecidableLE α := decLE

/-- The greater of two numbers.  A number that differs from itself gives way to the other one. -/
def larger (a b : α) : α :=
  if a < b then b else if a == a then a else b

/-- The lesser of two numbers.  A number that differs from itself gives way to the other one. -/
def smaller (a b : α) : α :=
  if b < a then b else if a == a then a else b

end Scalar

/--
The functions of an angle.  They are approximated by a mathematical library, and libraries differ in
the last place.
-/
class Trigonometry (α : Type) where
  sin : α → α
  cos : α → α
  atan2 : α → α → α

instance : Trigonometry Float where
  sin := Float.sin
  cos := Float.cos
  atan2 := Float.atan2

instance [Trigonometry Float] : Scalar Float where
  add := fun a b => a + b
  sub := fun a b => a - b
  mul := fun a b => a * b
  div := fun a b => a / b
  neg := fun a => -a
  lt := fun a b => a < b
  le := fun a b => a ≤ b
  beq := fun a b => a == b
  natCast := Float.ofNat
  decLT := Float.decLt
  decLE := Float.decLe
  abs := Float.abs
  sqrt := Float.sqrt
  sin := Trigonometry.sin
  cos := Trigonometry.cos
  atan2 := Trigonometry.atan2
  pi := 3.141592653589793

end SensorBar
