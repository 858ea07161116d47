import Mathlib.Tactic.FieldSimp
import SensorBar.Bar.Search
import SensorBar.Proofs.Accepted
import SensorBar.Proofs.Pairs
import SensorBar.Proofs.Rotation

/-! # The search without angles

The search rotates every pair until it is level and measures there.  In exact arithmetic the same
pairs are found by inner and cross products of the dots as the camera sees them: `Obstructs` is kept
by every rotation, and on a level pair it is what the search tests.
-/

namespace SensorBar.Bar

open ExactScalar

variable {α : Type} [ExactScalar α]

/-- The ends of the bar that two dots make: left is smaller tilted `x`, and on a tie the first. -/
def leftFirst (roll : α) (first second : Point α) : Pair (Point α) :=
  if (second.rotate roll).x < (first.rotate roll).x then ⟨second, first⟩ else ⟨first, second⟩

/--
Whether a dot lies between two ends, clear of both emitters: its place along the bar and its
distance beside it are measured in lengths of the bar.
-/
def Obstructs (s : PointerSettings α) (ends : Pair (Point α)) (dot : Point α) : Prop :=
  let along := (dot - ends.left).dot ends.span / ends.span.normSq
  let beside := |(dot - ends.left).cross ends.span| / ends.span.normSq
  s.dotWidth / s.barWidth < along ∧ along < 1 - s.dotWidth / s.barWidth ∧
    beside < s.dotHeight / s.barWidth

/-- Whether the dots at two positions pass for the bar. -/
structure PassesAt (s : PointerSettings α) (roll : α) (points : List (Point α))
    (i j : Fin points.length) : Prop where
  ordered : i < j
  level : |((leftFirst roll points[i] points[j]).rotate roll).span.y| ≤
    s.maxSlope * |((leftFirst roll points[i] points[j]).rotate roll).span.x|
  wide : s.minWidth ≤ (leftFirst roll points[i] points[j]).span.norm
  clear : ∀ k : Fin points.length, k ≠ i → k ≠ j →
    ¬ Obstructs s (leftFirst roll points[i] points[j]) points[k]

/-- The bar between two ends. -/
def ofEnds (roll : α) (ends : Pair (Point α)) : Bar α :=
  let tilted := ends.rotate roll
  let angle := tilted.levelling + roll
  { raw := ends
    tilted
    corrected := ends.rotate angle
    offsetAngle := tilted.levelling
    angle
    score := 1 / ends.span.norm }

/-! ## Obstruction -/

theorem obstructs_rotate (s : PointerSettings α) (ends : Pair (Point α)) (dot : Point α) (a : α) :
    Obstructs s (ends.rotate a) (dot.rotate a) ↔ Obstructs s ends dot := by
  have hsub : dot.rotate a - (ends.rotate a).left = (dot - ends.left).rotate a :=
    (dot.rotate_sub ends.left a).symm
  simp only [Obstructs, hsub, Pair.span_rotate, Point.dot_rotate, Point.cross_rotate,
    Point.normSq_rotate]

theorem liesBetween_iff (s : PointerSettings α) (ends : Pair (Point α)) (dot : Point α) :
    liesBetween s ends dot = true ↔
      ends.left.x + s.dotWidth / s.barWidth * (ends.right.x - ends.left.x) < dot.x ∧
      dot.x < ends.right.x - s.dotWidth / s.barWidth * (ends.right.x - ends.left.x) ∧
      |dot.y - (ends.left.y + ends.right.y) / (2 : Nat)| <
        s.dotHeight / s.barWidth * (ends.right.x - ends.left.x) := by
  simp only [liesBetween, Bool.and_eq_true, decide_eq_true_eq, and_assoc]
  rfl

/-- On a level pair the box of the search is the box of `Obstructs`. -/
theorem liesBetween_iff_of_level (s : PointerSettings α) {ends : Pair (Point α)} {w : α}
    (level : ends.span = ⟨w, 0⟩) (hw : 0 < w) (dot : Point α) :
    liesBetween s ends dot = true ↔ Obstructs s ends dot := by
  have hx : ends.right.x = ends.left.x + w := by
    have h := congrArg Point.x level
    simp only [Pair.span, Point.sub_x] at h
    linarith
  have hy : ends.right.y = ends.left.y := by
    have h := congrArg Point.y level
    simp only [Pair.span, Point.sub_y] at h
    linarith
  have hnorm : (⟨w, 0⟩ : Point α).normSq = w * w := by
    simp [Point.normSq_eq]
  have halong : (dot - ends.left).dot ends.span / ends.span.normSq =
      (dot.x - ends.left.x) / w := by
    rw [level, hnorm]
    simp only [Point.dot, Point.sub_x, Point.sub_y]
    field_simp
    ring
  have hbeside : |(dot - ends.left).cross ends.span| / ends.span.normSq =
      |dot.y - ends.left.y| / w := by
    rw [level, hnorm]
    simp only [Point.cross, Point.sub_x, Point.sub_y, mul_zero, zero_sub, abs_neg, abs_mul,
      abs_of_pos hw]
    field_simp
  have hcenter : (ends.left.y + ends.right.y) / ((2 : Nat) : α) = ends.left.y := by
    rw [hy, Nat.cast_ofNat]
    ring
  have hwidth : ends.right.x - ends.left.x = w := by
    rw [hx]
    ring
  rw [liesBetween_iff, hcenter, hwidth, hx]
  simp only [Obstructs, halong, hbeside]
  refine and_congr ?_ (and_congr ?_ ?_)
  · rw [lt_div_iff₀ hw]
    exact lt_sub_iff_add_lt'.symm
  · rw [div_lt_iff₀ hw, sub_mul, one_mul]
    constructor <;> intro h <;> linarith
  · rw [div_lt_iff₀ hw]

/-! ## One pair -/

/-- A dot of a frame that is seen with the given roll. -/
def seenAt (roll : α) (p : Point α) : Dot α :=
  ⟨p, p.rotate roll⟩

theorem ends_seenAt (roll : α) (first second : Point α) :
    ends (seenAt roll first) (seenAt roll second) =
      ⟨seenAt roll (leftFirst roll first second).left,
        seenAt roll (leftFirst roll first second).right⟩ := by
  unfold ends leftFirst
  by_cases h : (second.rotate roll).x < (first.rotate roll).x
  · rw [if_pos h]
    exact if_pos h
  · rw [if_neg h]
    exact if_neg h

/-- Levelled after the roll is undone, a pair is its own length wide. -/
theorem span_corrected (roll : α) (ends : Pair (Point α)) :
    (ends.rotate ((ends.rotate roll).levelling + roll)).span = ⟨ends.span.norm, 0⟩ := by
  rw [Pair.rotate_levelling_add, Pair.span_rotate_levelling, Pair.span_rotate, Point.norm_rotate]

theorem width_ofEnds (roll : α) (ends : Pair (Point α)) :
    (ofEnds roll ends).width = ends.span.norm :=
  congrArg Point.x (span_corrected roll ends)

/-- What the search asks of two dots and of the dots that they leave over. -/
structure Passes (s : PointerSettings α) (roll : α) (ends : Pair (Point α))
    (others : List (Point α)) : Prop where
  level : |(ends.rotate roll).span.y| ≤ s.maxSlope * |(ends.rotate roll).span.x|
  wide : s.minWidth ≤ ends.span.norm
  clear : ∀ dot ∈ others, ¬ Obstructs s ends dot

theorem any_liesBetween_iff (s : PointerSettings α) (roll : α) {ends : Pair (Point α)}
    (hw : 0 < ends.span.norm) (others : List (Point α)) :
    (others.map (seenAt roll)).any (fun dot => liesBetween s (ofEnds roll ends).corrected
      (dot.raw.rotate (ofEnds roll ends).angle)) = true ↔ ∃ dot ∈ others, Obstructs s ends dot := by
  simp only [List.any_map, List.any_eq_true, Function.comp_apply, seenAt]
  refine exists_congr fun dot => and_congr_right fun _ => ?_
  exact (liesBetween_iff_of_level s (span_corrected roll ends) hw _).trans
    (obstructs_rotate s ends dot _)

theorem ofDots?_seenAt (s : PointerSettings α) {roll : α} {first second : Point α}
    {ends : Pair (Point α)} (h : leftFirst roll first second = ends) (others : List (Dot α)) :
    ofDots? s roll (seenAt roll first) (seenAt roll second) others =
      if s.maxSlope * |(ends.rotate roll).span.x| < |(ends.rotate roll).span.y| then none
      else if ends.span.norm < s.minWidth then none
      else if others.any fun dot => liesBetween s (ofEnds roll ends).corrected
        (dot.raw.rotate (ofEnds roll ends).angle) then none
      else some (ofEnds roll ends) := by
  have hscore : ofEnds roll ends =
      { ofEnds roll ends with score := (1 : Nat) / (ofEnds roll ends).width } := by
    rw [width_ofEnds, Nat.cast_one]
    rfl
  rw [hscore, ← width_ofEnds roll ends]
  subst h
  unfold ofDots?
  rw [ends_seenAt]
  rfl

theorem ofDots?_of_passes {s : PointerSettings α} (positive : 0 < s.minWidth) {roll : α}
    {first second : Point α} {others : List (Point α)}
    (h : Passes s roll (leftFirst roll first second) others) :
    ofDots? s roll (seenAt roll first) (seenAt roll second) (others.map (seenAt roll)) =
      some (ofEnds roll (leftFirst roll first second)) := by
  have hw := positive.trans_le h.wide
  have hclear := (any_liesBetween_iff s roll hw others).not.mpr (by simpa using h.clear)
  rw [ofDots?_seenAt s rfl, if_neg h.level.not_gt, if_neg h.wide.not_gt, if_neg hclear]

theorem ofDots?_of_not_passes {s : PointerSettings α} (positive : 0 < s.minWidth) {roll : α}
    {first second : Point α} {others : List (Point α)}
    (h : ¬ Passes s roll (leftFirst roll first second) others) :
    ofDots? s roll (seenAt roll first) (seenAt roll second) (others.map (seenAt roll)) = none := by
  rw [ofDots?_seenAt s rfl]
  split
  · rfl
  · next level =>
      split
      · rfl
      · next wide =>
          -- A pair that is level and wide can only fail to be clear.
          have hw := positive.trans_le (not_lt.mp wide)
          rw [if_pos]
          rw [any_liesBetween_iff s roll hw others]
          by_contra clear
          exact h ⟨not_lt.mp level, not_lt.mp wide, by simpa using clear⟩

/-! ## All pairs -/

/-- The bar that two dots make among some others, seen with a given roll. -/
def ofPoints? (s : PointerSettings α) (roll : α) :
    Point α × Point α × List (Point α) → Option (Bar α)
  | (p, q, others) => ofDots? s roll (seenAt roll p) (seenAt roll q) (others.map (seenAt roll))

theorem candidates_eq_filterMap (s : PointerSettings α) (roll : α) (points : List (Point α)) :
    candidates s roll (Dot.ofPoints roll points) = (pairs points).filterMap (ofPoints? s roll) := by
  have hdots : Dot.ofPoints roll points = points.map (seenAt roll) := rfl
  rw [candidates, hdots, pairs_map, List.filterMap_map]
  rfl

/-- The search goes through the pairs of positions. -/
theorem candidates_ofPoints (s : PointerSettings α) (roll : α) (points : List (Point α)) :
    candidates s roll (Dot.ofPoints roll points) =
      (pairs (List.finRange points.length)).filterMap fun (i, j, rest) =>
        ofDots? s roll (seenAt roll points[i]) (seenAt roll points[j])
          ((rest.map (points[·])).map (seenAt roll)) := by
  rw [candidates_eq_filterMap]
  conv_lhs => rw [← List.map_get_finRange points]
  rw [pairs_map, List.filterMap_map]
  rfl

theorem passesAt_iff {s : PointerSettings α} {roll : α} {points : List (Point α)}
    {i j : Fin points.length} {rest : List (Fin points.length)}
    (h : (i, j, rest) ∈ pairs (List.finRange points.length)) :
    PassesAt s roll points i j ↔
      Passes s roll (leftFirst roll points[i] points[j]) (rest.map (points[·])) := by
  have hrest := mem_rest_of_pairs (List.nodup_finRange points.length) h
  have hlt : i < j :=
    ((mem_members_pairs_iff (List.pairwise_lt_finRange points.length) i j).mp
      (List.mem_map_of_mem (f := members) h)).2.2
  constructor
  · intro passes
    refine ⟨passes.level, passes.wide, ?_⟩
    intro dot hdot
    obtain ⟨k, hk, rfl⟩ := List.mem_map.mp hdot
    obtain ⟨-, hi, hj⟩ := (hrest k).mp hk
    exact passes.clear k hi hj
  · intro among
    refine ⟨hlt, among.level, among.wide, ?_⟩
    intro k hi hj
    have hk : k ∈ rest := (hrest k).mpr ⟨List.mem_finRange k, hi, hj⟩
    exact among.clear points[k] (List.mem_map_of_mem hk)

theorem ofDots?_eq_ite {s : PointerSettings α} (positive : 0 < s.minWidth) {roll : α}
    {points : List (Point α)} {i j : Fin points.length} {rest : List (Fin points.length)}
    [Decidable (PassesAt s roll points i j)]
    (h : (i, j, rest) ∈ pairs (List.finRange points.length)) :
    ofDots? s roll (seenAt roll points[i]) (seenAt roll points[j])
        ((rest.map (points[·])).map (seenAt roll)) =
      if PassesAt s roll points i j then
        some (ofEnds roll (leftFirst roll points[i] points[j])) else none := by
  by_cases passes : PassesAt s roll points i j
  · rw [if_pos passes]
    exact ofDots?_of_passes positive ((passesAt_iff h).mp passes)
  · rw [if_neg passes]
    exact ofDots?_of_not_passes positive fun among =>
      passes ((passesAt_iff h).mpr among)

theorem candidates_eq_map_filter {s : PointerSettings α} (positive : 0 < s.minWidth) (roll : α)
    (points : List (Point α)) [∀ i j, Decidable (PassesAt s roll points i j)] :
    candidates s roll (Dot.ofPoints roll points) =
      (((pairs (List.finRange points.length)).map members).filter fun ij =>
        PassesAt s roll points ij.1 ij.2).map fun (i, j) =>
          ofEnds roll (leftFirst roll points[i] points[j]) := by
  let bar := fun ij : Fin points.length × Fin points.length =>
    ofEnds roll (leftFirst roll points[ij.1] points[ij.2])
  calc candidates s roll (Dot.ofPoints roll points)
      = (pairs (List.finRange points.length)).filterMap fun entry =>
          if PassesAt s roll points (members entry).1 (members entry).2 then
            some (bar (members entry)) else none := by
        rw [candidates_ofPoints]
        exact List.filterMap_congr fun entry h => ofDots?_eq_ite positive h
    _ = ((pairs (List.finRange points.length)).map members).filterMap fun ij =>
          if PassesAt s roll points ij.1 ij.2 then some (bar ij) else none := by
        rw [List.filterMap_map]
        rfl
    _ = _ := filterMap_ite _ bar _

theorem mem_candidates_iff {s : PointerSettings α} (positive : 0 < s.minWidth) {roll : α}
    {points : List (Point α)} {bar : Bar α} :
    bar ∈ candidates s roll (Dot.ofPoints roll points) ↔
      ∃ i j, PassesAt s roll points i j ∧ bar = ofEnds roll (leftFirst roll points[i] points[j]) := by
  classical
  have sorted := List.pairwise_lt_finRange points.length
  rw [candidates_eq_map_filter positive, List.mem_map]
  constructor
  · rintro ⟨⟨i, j⟩, hij, rfl⟩
    exact ⟨i, j, of_decide_eq_true (List.mem_filter.mp hij).2, rfl⟩
  · rintro ⟨i, j, passes, rfl⟩
    have hpair := (mem_members_pairs_iff sorted i j).mpr
      ⟨List.mem_finRange i, List.mem_finRange j, passes.ordered⟩
    exact ⟨(i, j), List.mem_filter.mpr ⟨hpair, decide_eq_true passes⟩, rfl⟩

/-- Two dots alone on a level camera pass when they are level and wide enough apart. -/
theorem passesAt_of_level {s : PointerSettings α} (slope : 0 ≤ s.maxSlope) {p q : Point α}
    (right : q.x < p.x) (level : p.y = q.y) (wide : s.minWidth ≤ p.x - q.x) :
    PassesAt s 0 [p, q] ⟨0, Nat.zero_lt_two⟩ ⟨1, Nat.one_lt_two⟩ := by
  have hends : leftFirst 0 p q = ⟨q, p⟩ := by
    simp [leftFirst, Point.rotate_zero, right]
  have hspan : (⟨q, p⟩ : Pair (Point α)).span = ⟨p.x - q.x, 0⟩ := by
    apply Point.ext <;> simp [Pair.span, level]
  constructor
  · simp
  · simp only [List.getElem_cons_zero, List.getElem_cons_succ, Fin.getElem_fin, hends,
      Pair.span_rotate, Point.rotate_zero, hspan, abs_zero]
    exact mul_nonneg slope (abs_nonneg _)
  · simpa [hends, hspan, Point.norm_axis (sub_nonneg.mpr right.le)] using wide
  · intro k hi hj
    obtain ⟨k, hk⟩ := k
    have hk2 : k < 2 := hk
    simp only [ne_eq, Fin.mk.injEq] at hi hj
    omega

theorem candidates_ne_nil_of_level {s : PointerSettings α} (positive : 0 < s.minWidth)
    (slope : 0 ≤ s.maxSlope) {p q : Point α} (right : q.x < p.x) (level : p.y = q.y)
    (wide : s.minWidth ≤ p.x - q.x) : candidates s 0 (Dot.ofPoints 0 [p, q]) ≠ [] :=
  List.ne_nil_of_mem <| (mem_candidates_iff positive).mpr
    ⟨_, _, passesAt_of_level slope right level wide, rfl⟩

/--
The search returns the bars of exactly the pairs that pass, each once, in the lexicographic order of
their positions.
-/
theorem candidates_eq_reference (s : PointerSettings α) (positive : 0 < s.minWidth) (roll : α)
    (points : List (Point α)) :
    ∃ found : List (Fin points.length × Fin points.length),
      found.Pairwise (Prod.Lex (· < ·) (· < ·)) ∧
      (∀ i j, (i, j) ∈ found ↔ PassesAt s roll points i j) ∧
      candidates s roll (Dot.ofPoints roll points) =
        found.map fun (i, j) => ofEnds roll (leftFirst roll points[i] points[j]) := by
  classical
  have sorted := List.pairwise_lt_finRange points.length
  refine ⟨_, (pairwise_members_pairs sorted).filter _, ?_, candidates_eq_map_filter positive roll
    points⟩
  intro i j
  rw [List.mem_filter, mem_members_pairs_iff sorted, decide_eq_true_eq]
  constructor
  · exact fun h => h.2
  · exact fun h => ⟨⟨List.mem_finRange i, List.mem_finRange j, h.ordered⟩, h⟩

theorem candidates_eq_reference_of_three :
    let points : List (Point ℝ) := [⟨-2 / 5, 0⟩, ⟨2 / 5, 0⟩, ⟨0, 1 / 2⟩]
    ∃ found : List (Fin points.length × Fin points.length),
      found.Pairwise (Prod.Lex (· < ·) (· < ·)) ∧
      (∀ i j, (i, j) ∈ found ↔ PassesAt .exactDefault 1 points i j) ∧
      candidates .exactDefault 1 (Dot.ofPoints 1 points) =
        found.map fun (i, j) => ofEnds 1 (leftFirst 1 points[i] points[j]) :=
  candidates_eq_reference .exactDefault
    (PointerSettings.minWidth_pos PointerSettings.exactDefault_accepted) 1 _

end SensorBar.Bar
