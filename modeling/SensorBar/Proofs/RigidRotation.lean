import SensorBar.Proofs.Rotation

/-! # Rotation of a frame

Angles act on the dots of a frame: turns add up, and opposite turns cancel.  That holds as well where
one of the angles or their sum is the zero that rotation singles out, since the copy made there is
what the general formula makes.  The turned dots keep their order and are congruent to the old ones.
-/

namespace SensorBar

open ExactScalar

variable {α : Type} [ExactScalar α]

/--
Two lists of as many dots, of which those in any two places are equally far apart and have the same
inner product.
-/
structure Congruent (ps qs : List (Point α)) : Prop where
  length_eq : ps.length = qs.length
  distSq_eq : ∀ i j : Fin ps.length,
    (qs.get (i.cast length_eq)).distSq (qs.get (j.cast length_eq)) = (ps.get i).distSq (ps.get j)
  dot_eq : ∀ i j : Fin ps.length,
    (qs.get (i.cast length_eq)).dot (qs.get (j.cast length_eq)) = (ps.get i).dot (ps.get j)

/-! ## The action of the angles -/

theorem rotateAll_zero (dots : List (Point α)) : rotateAll dots 0 = dots := by
  simp only [rotateAll, Point.rotate_zero, List.map_id']

theorem rotateAll_rotateAll (dots : List (Point α)) (a b : α) :
    rotateAll (rotateAll dots a) b = rotateAll dots (a + b) := by
  simp only [rotateAll, List.map_map, Function.comp_def, Point.rotate_rotate]

theorem rotateAll_rotateAll_neg (dots : List (Point α)) (a : α) :
    rotateAll (rotateAll dots a) (-a) = dots := by
  rw [rotateAll_rotateAll, add_neg_cancel, rotateAll_zero]

theorem rotateAll_eq_map_turn (dots : List (Point α)) (a : α) :
    rotateAll dots a = dots.map (·.turn a) := by
  simp only [rotateAll, Point.rotate_eq_turn]

/-! ## Congruence -/

theorem congruent_rotateAll (dots : List (Point α)) (a : α) :
    Congruent dots (rotateAll dots a) := by
  have hlength : dots.length = (rotateAll dots a).length := (length_rotateAll dots a).symm
  have hget (i : Fin dots.length) :
      (rotateAll dots a).get (i.cast hlength) = (dots.get i).rotate a :=
    List.getElem_map _
  refine ⟨hlength, fun i j => ?_, fun i j => ?_⟩
  · rw [hget, hget, Point.distSq_rotate]
  · rw [hget, hget, Point.dot_rotate]

/--
Turning a frame twice turns it by the sum of the angles, and the opposite turn undoes a turn.  Each
dot is turned in its place, to a frame congruent to the old one.  The copy made for the zero angle is
what the general formula makes, and the two ends of a pair are turned like a frame of two dots.  A
difference of dots that is turned back by its own angle lies along the first axis in its full length.
-/
theorem rotateAll_rigid (dots : List (Point α)) (a b : α) :
    rotateAll (rotateAll dots a) b = rotateAll dots (a + b) ∧
      rotateAll (rotateAll dots a) (-a) = dots ∧
      (∀ i : Nat, (rotateAll dots a)[i]? = dots[i]?.map (·.rotate a)) ∧
      Congruent dots (rotateAll dots a) ∧
      (rotateAll dots 0 = dots ∧ ∀ c, rotateAll dots c = dots.map (·.turn c)) ∧
      (∀ ends : Pair (Point α),
        rotateAll [ends.left, ends.right] a = [(ends.rotate a).left, (ends.rotate a).right]) ∧
      ∀ dx dy : α,
        (⟨dx, dy⟩ : Point α).rotate (-atan2 dy dx) = ⟨sqrt (dx * dx + dy * dy), 0⟩ := by
  refine ⟨rotateAll_rotateAll dots a b, rotateAll_rotateAll_neg dots a, getElem?_rotateAll dots a,
    congruent_rotateAll dots a, ⟨rotateAll_zero dots, rotateAll_eq_map_turn dots⟩, ?_, ?_⟩
  · exact fun ends => rfl
  · exact fun dx dy => Point.rotate_neg_heading ⟨dx, dy⟩

/-- A quarter turn and back, and the turn that levels the hypotenuse of a right triangle. -/
theorem rotateAll_rigid_of_quarterTurn :
    let dots : List (Point ℝ) := [⟨1, 0⟩, ⟨3, 4⟩]
    rotateAll dots (Real.pi / 2) = [⟨0, 1⟩, ⟨-4, 3⟩] ∧
      rotateAll (rotateAll dots (Real.pi / 2)) (-(Real.pi / 2)) = dots ∧
      Congruent dots [⟨0, 1⟩, ⟨-4, 3⟩] ∧
      (⟨3, 4⟩ : Point ℝ).rotate (-atan2 4 3) = ⟨5, 0⟩ := by
  intro dots
  have hsin : sin (Real.pi / 2) = 1 := Real.sin_pi_div_two
  have hcos : cos (Real.pi / 2) = 0 := Real.cos_pi_div_two
  have hturned : rotateAll dots (Real.pi / 2) = [⟨0, 1⟩, ⟨-4, 3⟩] := by
    simp [dots, rotateAll, Point.rotate_eq, hsin, hcos]
  have hlength : sqrt (3 * 3 + 4 * 4 : ℝ) = 5 := by
    have hsquare : (3 * 3 + 4 * 4 : ℝ) = 5 * 5 := by norm_num
    rw [hsquare, sqrt_mul_self (by norm_num)]
  obtain ⟨-, hback, -, hcongruent, -, -, hlevel⟩ := rotateAll_rigid dots (Real.pi / 2) 0
  exact ⟨hturned, hback, hturned ▸ hcongruent, hlength ▸ hlevel 3 4⟩

end SensorBar
