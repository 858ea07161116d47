import SensorBar.Proofs.FirstLeast
import SensorBar.Proofs.LoneDot

/-! # The choice that recovery makes

Recovery compares every dot with both ends of the previous bar, and takes the least triple of a
squared distance, a dot and an end.  When something tells against that match it takes the dot that
is first nearest to the edge of view, and the end whose partner that puts farther out.  Either way
the bar is shifted as it is, and held at one end by a dot of the frame.
-/

namespace SensorBar

/-! ## Ends in order -/

def End.rank : End → Nat
  | .left => 0
  | .right => 1

theorem End.rank_injective : Function.Injective End.rank := by
  intro a b h
  cases a <;> cases b <;> first | rfl | cases h

instance : LinearOrder End :=
  .lift' End.rank End.rank_injective

/-- One of so many dots and an end of the bar, in the order in which they are compared. -/
abbrev Seat (n : Nat) : Type :=
  Fin n ×ₗ End

namespace Seat

def all (n : Nat) : List (Seat n) :=
  (List.finRange n).flatMap fun i => [toLex (i, .left), toLex (i, .right)]

theorem mem_all {n : Nat} (seat : Seat n) : seat ∈ all n := by
  obtain ⟨i, e⟩ := seat
  refine List.mem_flatMap.mpr ⟨i, List.mem_finRange i, ?_⟩
  cases e with
  | left => exact List.mem_cons_self
  | right => exact List.mem_cons_of_mem _ List.mem_cons_self

theorem increasing_all (n : Nat) : (all n).Pairwise (· < ·) := by
  refine List.pairwise_flatMap.mpr ⟨?_, ?_⟩
  · intro i _
    refine List.pairwise_pair.mpr (Prod.Lex.toLex_lt_toLex.mpr (.inr ⟨rfl, ?_⟩))
    exact Nat.zero_lt_one
  · refine (List.pairwise_lt_finRange n).imp fun {i k} hik => ?_
    simp [Prod.Lex.toLex_lt_toLex, hik]

end Seat

namespace Bar

variable {α : Type} [ExactScalar α]

/-! ## What a shift does -/

/-- A bar moved as a rigid body so that one end lies on a tilted dot, and made level there. -/
structure ShiftedOnto (b : Bar α) (e : End) (dot : Point α) (roll : α) (moved : Bar α) : Prop where
  tilted : ∀ other, moved.tilted.get other = b.tilted.get other + (dot - b.tilted.get e)
  coherent : moved.Coherent roll
  score : moved.score = 0

theorem Coherent.raw_of_tilted {b : Bar α} {roll : α} (h : b.Coherent roll) :
    b.raw = b.tilted.rotate (-roll) := by
  have hback := b.raw.rotate_neg_rotate (-roll)
  rw [neg_neg] at hback
  rw [h.tilted, hback]

/-- A coherent bar is told by its tilted ends and its score. -/
theorem Coherent.eq_of_tilted {b c : Bar α} {roll : α} (hb : b.Coherent roll) (hc : c.Coherent roll)
    (tilted : b.tilted = c.tilted) (score : b.score = c.score) : b = c := by
  have hraw : b.raw = c.raw := by
    rw [hb.raw_of_tilted, hc.raw_of_tilted, tilted]
  have hoffset : b.offsetAngle = c.offsetAngle := by
    rw [hb.offsetAngle, hc.offsetAngle, tilted]
  have hangle : b.angle = c.angle := by
    rw [hb.angle, hc.angle, hoffset]
  have hcorrected : b.corrected = c.corrected := by
    rw [hb.corrected_of_raw, hc.corrected_of_raw, hraw, hangle]
  cases b
  cases c
  simp_all only

theorem shiftedOnto_iff {b moved : Bar α} {e : End} {dot : Point α} {roll : α} :
    b.ShiftedOnto e dot roll moved ↔ moved = b.shiftTo e dot roll := by
  constructor
  · intro h
    have hends : ∀ other, moved.tilted.get other = (b.shiftTo e dot roll).tilted.get other := by
      intro other
      rw [h.tilted, tilted_shiftTo]
    refine h.coherent.eq_of_tilted (coherent_shiftTo b e dot roll) ?_ (h.score.trans ?_)
    · exact Pair.ext (hends .left) (hends .right)
    · exact Nat.cast_zero.symm
  · rintro rfl
    exact ⟨tilted_shiftTo b e dot roll, coherent_shiftTo b e dot roll, Nat.cast_zero⟩

theorem ShiftedOnto.held {b moved : Bar α} {e : End} {dot : Point α} {roll : α}
    (h : b.ShiftedOnto e dot roll moved) : moved.tilted.get e = dot := by
  rw [h.tilted]
  apply Point.ext <;> simp

/-- Where the other raw end comes to lie when one end is put on a tilted dot. -/
def partnerAt (b : Bar α) (e : End) (dot : Point α) (roll : α) : Point α :=
  (b.tilted.get e.other + (dot - b.tilted.get e)).rotate (-roll)

theorem carry_raw_other (b : Bar α) (e : End) (dot : Point α) (roll : α) :
    (b.carry e dot roll).raw.get e.other = b.partnerAt e dot roll := by
  have hpartner : b.tilted.get e.other - b.tilted.get e + dot =
      b.tilted.get e.other + (dot - b.tilted.get e) := by
    apply Point.ext
    · simp only [Point.add_x, Point.sub_x]
      ring
    · simp only [Point.add_y, Point.sub_y]
      ring
  unfold partnerAt
  rw [← hpartner]
  cases e <;> rfl

/-! ## The nearest match -/

/-- The squared distance between a tilted dot and an end of the bar. -/
def separation (b : Bar α) (roll : α) (dots : List (Point α)) (seat : Seat dots.length) : α :=
  ((dots.get (ofLex seat).1).rotate roll).distSq (b.tilted.get (ofLex seat).2)

def matchAt (b : Bar α) (roll : α) (dots : List (Point α)) (seat : Seat dots.length) : Match α :=
  ⟨b.separation roll dots seat, (dots.get (ofLex seat).1).rotate roll, (ofLex seat).2⟩

theorem allMatches_eq (b : Bar α) (roll : α) (dots : List (Point α)) :
    allMatches b (rotateAll dots roll) = (Seat.all dots.length).map (b.matchAt roll dots) := by
  have hdots : rotateAll dots roll =
      (List.finRange dots.length).map fun i => (dots.get i).rotate roll := by
    conv_lhs => rw [← List.map_get_finRange dots, rotateAll, List.map_map]
    rfl
  rw [hdots, allMatches, Seat.all, List.flatMap_map, List.map_flatMap]
  rfl

theorem exists_nearest (b : Bar α) (roll : α) {dots : List (Point α)} (visible : dots ≠ []) :
    ∃ seat, nearest b (rotateAll dots roll) = some (b.matchAt roll dots seat) ∧
      IsFirstLeast (b.separation roll dots) seat := by
  have : Nonempty (Seat dots.length) := ⟨toLex (⟨0, List.length_pos_iff.mpr visible⟩, .left)⟩
  have hmap : nearest b (rotateAll dots roll) =
      (winner (undercuts (b.separation roll dots)) (Seat.all dots.length)).map
        (b.matchAt roll dots) := by
    rw [nearest, allMatches_eq]
    refine winner_map (fun s best => ?_) (Seat.all dots.length)
    by_cases hle : b.separation roll dots best ≤ b.separation roll dots s
    · simp [undercuts, matchAt, hle, not_lt.mpr hle]
    · simp [undercuts, matchAt, hle, not_le.mp hle]
  obtain ⟨seat, hseat, least⟩ := exists_winner_isFirstLeast (b.separation roll dots)
    (Seat.increasing_all dots.length) Seat.mem_all
  rw [hseat] at hmap
  exact ⟨seat, hmap, least⟩

/-- What tells against a match: the bar was lost and it is far, or its partner should be seen. -/
def Doubtful (s : PointerSettings α) (health : Health) (distance : α) (partner : Point α) : Prop :=
  health = .lost ∧ s.singleNoGuessDistance ≤ distance ∨
    |partner.x| < s.offScreenX ∧ |partner.y| < s.offScreenY

theorem shouldBeVisible_iff (s : PointerSettings α) (emitter : Point α) :
    shouldBeVisible s emitter = true ↔ |emitter.x| < s.offScreenX ∧ |emitter.y| < s.offScreenY := by
  rw [shouldBeVisible, Bool.and_eq_true, decide_eq_true_eq, decide_eq_true_eq]
  rfl

theorem followNearest_of_not_doubtful {s : PointerSettings α} {health : Health} {roll : α}
    {b : Bar α} {tilted : List (Point α)} {m : Match α} (found : nearest b tilted = some m)
    (believed : ¬ Doubtful s health m.distance (b.partnerAt m.endpoint m.dot roll)) :
    followNearest s health roll b tilted = some (b.shiftTo m.endpoint m.dot roll) := by
  obtain ⟨hnear, hhidden⟩ := not_or.mp believed
  rw [← shouldBeVisible_iff] at hhidden
  simp only [followNearest, found]
  rw [if_neg hnear, carry_raw_other, if_neg hhidden]

theorem followNearest_of_doubtful {s : PointerSettings α} {health : Health} {roll : α}
    {b : Bar α} {tilted : List (Point α)} {m : Match α} (found : nearest b tilted = some m)
    (doubtful : Doubtful s health m.distance (b.partnerAt m.endpoint m.dot roll)) :
    followNearest s health roll b tilted = none := by
  simp only [followNearest, found]
  rcases doubtful with far | hidden
  · rw [if_pos far]
  · rw [← shouldBeVisible_iff] at hidden
    split
    · rfl
    · rw [carry_raw_other, if_pos hidden]

/-! ## The dot at the edge of view -/

/-- How far a dot is from the nearest side of the field of view. -/
def margin (height : α) (dot : Point α) : α :=
  min (1 - |dot.x|) (height - |dot.y|)

theorem edgeMargin_eq (height : α) (dot : Point α) : edgeMargin height dot = margin height dot := by
  have hone : ((1 : Nat) : α) = 1 := Nat.cast_one
  rw [edgeMargin, Scalar.smaller_eq_min, hone]
  rfl

theorem exists_edgemost (height : α) {dots : List (Point α)} (visible : dots ≠ []) :
    ∃ e : Fin dots.length, edgemost height dots = some e.val ∧
      IsFirstLeast (fun k => margin height (dots.get k)) e := by
  have : Nonempty (Fin dots.length) := ⟨0, List.length_pos_iff.mpr visible⟩
  have hzip : dots.zipIdx = (List.finRange dots.length).map fun k => (dots.get k, k.val) := by
    apply List.ext_getElem <;> simp
  have hmap : edgemost height dots =
      ((winner (undercuts fun k => margin height (dots.get k))
        (List.finRange dots.length)).map fun k => (dots.get k, k.val)).map (·.2) := by
    rw [edgemost, hzip]
    congr 1
    refine winner_map (fun k best => ?_) (List.finRange dots.length)
    simp only [undercuts, edgeMargin_eq]
  obtain ⟨e, he, least⟩ := exists_winner_isFirstLeast
    (fun k => margin height (dots.get k)) (List.pairwise_lt_finRange dots.length)
    List.mem_finRange
  rw [he] at hmap
  exact ⟨e, hmap, least⟩

/-- How far out a point is, in units of the sides of the field of view. -/
def reach (height : α) (p : Point α) : α :=
  max |p.x| (|p.y| / height)

theorem partnerReach_eq {height : α} (positive : 0 < height) (roll : α) (b : Bar α) (dot : Point α)
    (e : End) : partnerReach height roll b dot e = reach height (b.partnerAt e dot roll) := by
  have hdiv : ∀ y : α, |y / height| = |y| / height := fun y => by
    rw [abs_div, abs_of_pos positive]
  rw [partnerReach, carry_raw_other, Scalar.larger_eq_max, reach, ← hdiv]
  rfl

/-- The end that is put on a dot at the edge: the left one if only that hides the other farther. -/
def edgeEnd (height roll : α) (b : Bar α) (dot : Point α) : End :=
  if reach height (b.partnerAt .right dot roll) < reach height (b.partnerAt .left dot roll) then
    .left
  else .right

theorem followEdge_eq_shiftTo {s : PointerSettings α} (positive : 0 < s.height) (roll : α)
    (b : Bar α) (dot : Point α) :
    followEdge s roll b dot = b.shiftTo (b.edgeEnd s.height roll dot) dot roll := by
  simp only [followEdge, partnerReach_eq positive, edgeEnd]

/-! ## The choice -/

theorem rotateAll_getElem? {dots : List (Point α)} (roll : α) (k : Fin dots.length) :
    (rotateAll dots roll)[k.val]? = some ((dots.get k).rotate roll) := by
  simp [rotateAll]

/--
With a bar, a dot and a tracker that is not dead, recovery puts the nearest end on the nearest dot,
unless something tells against that match, and else one end on the dot at the edge of view.  In
either case one end of the result lies on a dot of the frame.  Without them there is no result.
-/
theorem recover_chooses {s : PointerSettings α} (positive : 0 < s.height) (roll : α) :
    (∀ (b : Bar α) (health : Health) (dots : List (Point α)), health ≠ .dead → dots ≠ [] →
      ∃ (i : Fin dots.length) (j : End) (e : Fin dots.length) (moved : Bar α),
        let near := (dots.get i).rotate roll
        let edge := (dots.get e).rotate roll
        let doubtful :=
          Doubtful s health (b.separation roll dots (toLex (i, j))) (b.partnerAt j near roll)
        IsFirstLeast (b.separation roll dots) (toLex (i, j)) ∧
        IsFirstLeast (fun k => margin s.height (dots.get k)) e ∧
        recover s health roll (some b) dots (rotateAll dots roll) = .ok (some moved) ∧
        (¬ doubtful → b.ShiftedOnto j near roll moved) ∧
        (doubtful → b.ShiftedOnto (b.edgeEnd s.height roll edge) edge roll moved) ∧
        ∃ held, moved.tilted.get held ∈ rotateAll dots roll) ∧
    ∀ previous health dots tilted, Unrecoverable health previous dots →
      recover s health roll previous dots tilted = .ok none := by
  refine ⟨?_, fun previous health dots tilted => recover_of_unrecoverable s roll tilted⟩
  intro b health dots alive visible
  obtain ⟨⟨i, j⟩, hnear, leastSeat⟩ := exists_nearest b roll visible
  obtain ⟨e, hedge, leastEdge⟩ := exists_edgemost s.height visible
  have visibleAt : ∀ k : Fin dots.length, (dots.get k).rotate roll ∈ rotateAll dots roll :=
    fun k => List.mem_of_getElem? (rotateAll_getElem? roll k)
  by_cases doubtful : Doubtful s health (b.separation roll dots (toLex (i, j)))
      (b.partnerAt j ((dots.get i).rotate roll) roll)
  · have hfollow := followNearest_of_doubtful hnear doubtful
    have shifted := shiftedOnto_iff.mpr
      (followEdge_eq_shiftTo positive roll b ((dots.get e).rotate roll))
    refine ⟨i, j, e, _, leastSeat, leastEdge, ?_, absurd doubtful, fun _ => shifted, _,
      shifted.held ▸ visibleAt e⟩
    simp only [recover, if_neg alive, hedge, hfollow, rotateAll_getElem?]
  · have hfollow := followNearest_of_not_doubtful hnear doubtful
    have shifted : b.ShiftedOnto j ((dots.get i).rotate roll) roll _ := shiftedOnto_iff.mpr rfl
    refine ⟨i, j, e, _, leastSeat, leastEdge, ?_, fun _ => shifted, fun h => absurd h doubtful, _,
      shifted.held ▸ visibleAt i⟩
    simp only [recover, if_neg alive, hedge, hfollow]
    rfl

/-- The level bar that ends equally far from the middle of the view on either side. -/
def level (x : α) : Bar α :=
  ofEnds 0 ⟨⟨-x, 0⟩, ⟨x, 0⟩⟩

theorem tilted_level (x : α) : (level x).tilted = ⟨⟨-x, 0⟩, ⟨x, 0⟩⟩ := by
  simp [level, ofEnds, Pair.rotate, Point.rotate_zero]

/-- A lost bar is not matched to dots far from it: its left end goes to the one at the edge. -/
theorem recover_chooses_of_strayDots :
    let s : PointerSettings ℝ :=
      { PointerSettings.exactDefault with singleNoGuessDistance := 1 / 100 }
    let dots : List (Point ℝ) := [⟨1 / 2, 0⟩, ⟨9 / 10, 0⟩]
    0 < s.height ∧ ∃ moved,
      recover s .lost 0 (some (level (1 / 5))) dots (rotateAll dots 0) = .ok (some moved) ∧
      moved.tilted = ⟨⟨9 / 10, 0⟩, ⟨13 / 10, 0⟩⟩ := by
  intro s dots
  have positive : 0 < s.height := by norm_num [s, PointerSettings.exactDefault]
  obtain ⟨i, j, e, moved, -, least, hrec, -, doubted, -⟩ :=
    (recover_chooses positive 0).1 (level (1 / 5)) .lost dots (by decide) (List.cons_ne_nil _ _)
  have far : 1 / 100 ≤ (level (1 / 5)).separation 0 dots (toLex (i, j)) := by
    clear doubted
    fin_cases i <;> cases j <;>
      norm_num [separation, tilted_level, dots, Pair.get, Point.rotate_zero,
        Point.distSq_eq_normSq_sub, Point.normSq_eq]
  have last : e = ⟨1, Nat.one_lt_two⟩ := by
    have hleast := Prod.Lex.toLex_le_toLex.mp (least.2 ⟨⟨1, Nat.one_lt_two⟩, rfl⟩)
    fin_cases e
    · norm_num [margin, dots, s, PointerSettings.exactDefault] at hleast
    · rfl
  have outer : (level (1 / 5)).edgeEnd s.height 0 ⟨9 / 10, 0⟩ = .left := by
    refine if_pos ?_
    norm_num [reach, partnerAt, tilted_level, Pair.get, End.other, Point.rotate_zero]
  have shifted := doubted (.inl ⟨rfl, far⟩)
  have hedge : (dots.get e).rotate 0 = ⟨9 / 10, 0⟩ := by
    rw [last, Point.rotate_zero]
    rfl
  rw [hedge, outer] at shifted
  refine ⟨positive, moved, hrec, Pair.ext shifted.held ?_⟩
  refine (shifted.tilted .right).trans ?_
  apply Point.ext <;> norm_num [tilted_level, Pair.get]

end Bar

end SensorBar
