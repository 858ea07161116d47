import SensorBar.Proofs.ApparentBar
import SensorBar.Proofs.Double.Arithmetic
import SensorBar.Proofs.FirstLeast
import SensorBar.Proofs.LocatedSearch

/-! # The bar that is selected

Selection goes by scores.  Wherever these can be compared it ends with the first bar of greatest
score, or of least score; exact scores can always be compared, and doubles when none of them is the
value that is not a number.  A bar that was found scores the inverse of a positive width, and the
search goes through the positions of the dots in order.  So what is selected from a search is the
narrowest or the widest bar, and of equally wide ones the one that is lexicographically first.
-/

namespace SensorBar.Bar

/-! ## Selection by scores -/

section

variable {α : Type} [Scalar α]

/-- On the scores of some bars, not to be less is a total preorder. -/
structure Comparable (bars : List (Bar α)) : Prop where
  asymm : ∀ a ∈ bars, ∀ b ∈ bars, a.score < b.score → ¬ b.score < a.score
  trans : ∀ a ∈ bars, ∀ b ∈ bars, ∀ c ∈ bars,
    ¬ a.score < b.score → ¬ b.score < c.score → ¬ a.score < c.score

/-- The first of the bars of greatest score when narrow bars are preferred, and of least score when
wide ones are. -/
def IsFirstExtreme (preference : Preference) (bars : List (Bar α)) (best : Bar α) : Prop :=
  ∃ earlier later, bars = earlier ++ best :: later ∧
    match preference with
    | .narrowest =>
        (∀ b ∈ earlier, b.score < best.score) ∧ ∀ b ∈ later, ¬ best.score < b.score
    | .widest =>
        (∀ b ∈ earlier, best.score < b.score) ∧ ∀ b ∈ later, ¬ b.score < best.score

theorem isFirstExtreme_iff {preference : Preference} {bars : List (Bar α)} {best : Bar α} :
    IsFirstExtreme preference bars best ↔ IsFirstBest (beats preference) bars best := by
  cases preference <;> simp [IsFirstExtreme, IsFirstBest, beats]

theorem Comparable.ranks {bars : List (Bar α)} (h : Comparable bars) (preference : Preference) :
    Ranks (beats preference) bars := by
  cases preference with
  | narrowest =>
    constructor
    · intro a ha b hb hbeats
      exact decide_eq_false (h.asymm b hb a ha (of_decide_eq_true hbeats))
    · intro a ha b hb c hc hab hbc
      exact decide_eq_false
        (h.trans c hc b hb a ha (of_decide_eq_false hbc) (of_decide_eq_false hab))
  | widest =>
    constructor
    · intro a ha b hb hbeats
      exact decide_eq_false (h.asymm a ha b hb (of_decide_eq_true hbeats))
    · intro a ha b hb c hc hab hbc
      exact decide_eq_false
        (h.trans a ha b hb c hc (of_decide_eq_false hab) (of_decide_eq_false hbc))

theorem select_eq_some_iff {bars : List (Bar α)} (h : Comparable bars) {preference : Preference}
    {best : Bar α} : select preference bars = some best ↔ IsFirstExtreme preference bars best := by
  rw [isFirstExtreme_iff, select, winner_eq_some_iff (h.ranks preference)]

end

theorem comparable_of_not_nan [Trigonometry Float] {bars : List (Bar Float)}
    (numbers : ∀ b ∈ bars, ¬ b.score.isNaN) : Comparable bars := by
  have hlt : ∀ a ∈ bars, ∀ b ∈ bars,
      (a.score < b.score ↔ Double.grade a.score < Double.grade b.score) :=
    fun a ha b hb => Double.lt_iff_grade (numbers a ha) (numbers b hb)
  constructor
  · intro a ha b hb
    exact fun h => ((hlt a ha b hb).mp h).asymm ∘ (hlt b hb a ha).mp
  · intro a ha b hb c hc hab hbc
    have hba := not_lt.mp ((hlt a ha b hb).not.mp hab)
    have hcb := not_lt.mp ((hlt b hb c hc).not.mp hbc)
    exact (hlt a ha c hc).not.mpr (hcb.trans hba).not_gt

variable {α : Type} [ExactScalar α]

theorem comparable (bars : List (Bar α)) : Comparable bars where
  asymm _ _ _ _ h := lt_asymm h
  trans _ _ _ _ _ _ hab hbc := not_lt.mpr ((not_lt.mp hbc).trans (not_lt.mp hab))

/-! ## Selection by widths -/

variable {s : PointerSettings α} {roll : α} {dots : List (Dot α)} {b c : Located α}

theorem Located.width_pos (positive : 0 < s.minWidth) (h : b ∈ located s roll dots) :
    0 < b.bar.width := by
  obtain ⟨-, p, q, others, -, -, -, admits⟩ := exists_dots_of_mem_located h
  exact positive.trans_le (not_lt.mp admits.wide)

theorem Located.score_eq (h : b ∈ located s roll dots) : b.bar.score = 1 / b.bar.width := by
  obtain ⟨-, p, q, others, -, -, hbar, -⟩ := exists_dots_of_mem_located h
  rw [← hbar, score_spanning, Nat.cast_one]

/-- A narrower bar scores more. -/
theorem Located.score_lt_iff (positive : 0 < s.minWidth) (hb : b ∈ located s roll dots)
    (hc : c ∈ located s roll dots) : b.bar.score < c.bar.score ↔ c.bar.width < b.bar.width := by
  rw [score_eq hb, score_eq hc]
  exact one_div_lt_one_div (width_pos positive hb) (width_pos positive hc)

/-- Whether a width is at least as good as another one. -/
def Suits (preference : Preference) (width other : α) : Prop :=
  match preference with
  | .narrowest => width ≤ other
  | .widest => other ≤ width

theorem suits_of_eq {preference : Preference} {width other : α} (h : width = other) :
    Suits preference width other := by
  cases preference with
  | narrowest => exact h.le
  | widest => exact h.ge

theorem beats_iff (positive : 0 < s.minWidth) (hb : b ∈ located s roll dots)
    (hc : c ∈ located s roll dots) (preference : Preference) :
    beats preference b.bar c.bar = true ↔ ¬ Suits preference c.bar.width b.bar.width := by
  cases preference with
  | narrowest =>
    rw [Suits, not_le, ← Located.score_lt_iff positive hc hb]
    exact decide_eq_true_iff
  | widest =>
    rw [Suits, not_le, ← Located.score_lt_iff positive hb hc]
    exact decide_eq_true_iff

/-- What is selected comes from a place in the search before which every bar is worse. -/
theorem exists_located_of_isFirstBest {preference : Preference} {best : Bar α}
    (h : IsFirstBest (beats preference) (candidates s roll dots) best) :
    ∃ before c after, located s roll dots = before ++ c :: after ∧ c.bar = best ∧
      ∀ other ∈ before, beats preference best other.bar = true := by
  obtain ⟨earlier, later, hsplit, hearlier, -⟩ := h
  rw [← map_bar_located, List.map_eq_append_iff] at hsplit
  obtain ⟨before, rest, hlocated, rfl, hrest⟩ := hsplit
  obtain ⟨c, after, rfl, hbest, -⟩ := List.map_eq_cons_iff.mp hrest
  exact ⟨before, c, after, hlocated, hbest, List.forall_mem_map.mp hearlier⟩

theorem exists_selected (positive : 0 < s.minWidth) (found : candidates s roll dots ≠ [])
    (preference : Preference) :
    ∃ best ∈ located s roll dots, select preference (candidates s roll dots) = some best.bar ∧
      (∀ b ∈ candidates s roll dots, Suits preference best.bar.width b.width) ∧
      ∀ other ∈ located s roll dots, other.bar.width = best.bar.width →
        best.positions ≤ other.positions := by
  obtain ⟨bar, hbar⟩ := Option.ne_none_iff_exists'.mp
    (mt (select_eq_none_iff preference _).mp found)
  have ranks := (comparable (candidates s roll dots)).ranks preference
  have hfirst := isFirstBest_of_winner ranks hbar
  have unbeaten := hfirst.unbeaten ranks
  obtain ⟨before, best, after, hsplit, rfl, hbefore⟩ := exists_located_of_isFirstBest hfirst
  have hbest : best ∈ located s roll dots := by
    rw [hsplit]
    exact List.mem_append_right _ List.mem_cons_self
  refine ⟨best, hbest, hbar, fun b hb => ?_, fun other hother htie => ?_⟩
  · have hworse := unbeaten b hb
    rw [← map_bar_located] at hb
    obtain ⟨other, hother, rfl⟩ := List.mem_map.mp hb
    rwa [← Bool.not_eq_true, beats_iff positive hother hbest, not_not] at hworse
  · have increasing := pairwise_located s roll dots
    rw [hsplit] at increasing
    obtain ⟨-, hrest, -⟩ := List.pairwise_append.mp increasing
    -- A bar before the selected one is worse, so it is not as wide.
    rcases List.mem_append.mp (hsplit ▸ hother) with hearly | hlate
    · have hless := (beats_iff positive hbest hother preference).mp (hbefore other hearly)
      exact absurd (suits_of_eq htie) hless
    · rcases List.mem_cons.mp hlate with rfl | hafter
      · exact le_rfl
      · exact ((List.pairwise_cons.mp hrest).1 other hafter).le

/--
From a search that finds anything, a narrowest bar is selected when narrow bars are preferred and a
widest one when wide ones are, and of equally wide bars the one whose dots come first.  From any
bars whose scores can be compared the first one of greatest score is selected, or of least score,
and nothing only if there are none.
-/
theorem select_first_extreme (accepted : Accepted s.checks) (roll : α) (dots : List (Dot α)) :
    (candidates s roll dots ≠ [] → ∀ preference, ∃ best ∈ located s roll dots,
      select preference (candidates s roll dots) = some best.bar ∧
      (∀ b ∈ candidates s roll dots, Suits preference best.bar.width b.width) ∧
      ∀ other ∈ located s roll dots, other.bar.width = best.bar.width →
        best.positions ≤ other.positions) ∧
    ∀ {β : Type} [Scalar β] (preference : Preference) (bars : List (Bar β)),
      (select preference bars = none ↔ bars = []) ∧
      (Comparable bars → ∀ best,
        select preference bars = some best ↔ IsFirstExtreme preference bars best) := by
  have positive := PointerSettings.minWidth_pos accepted
  refine ⟨fun found preference => exists_selected positive found preference, ?_⟩
  intro β _ preference bars
  exact ⟨select_eq_none_iff preference bars, fun h best => select_eq_some_iff h⟩

/-- A level bar, and doubles of which two are equal. -/
theorem select_first_extreme_of_ties :
    let s : PointerSettings ℝ := .exactDefault
    let dots : List (Dot ℝ) := Dot.ofPoints 0 [⟨1 / 2, 0⟩, ⟨-1 / 2, 0⟩]
    let scored (x score : Float) : Bar Float :=
      let ends : Pair (Point Float) := ⟨⟨x, 0⟩, ⟨x + 0.5, 0⟩⟩
      ⟨ends, ends, ends, 0, 0, score⟩
    Accepted s.checks ∧ candidates s 0 dots ≠ [] ∧
      (∃ best ∈ located s 0 dots, select .widest (candidates s 0 dots) = some best.bar) ∧
      select .narrowest [scored (-0.5) 2, scored 0 2, scored 0.25 1] = some (scored (-0.5) 2) ∧
      select .widest [scored (-0.5) 3, scored 0 1, scored 0.25 1] = some (scored 0 1) := by
  intro s dots scored
  have accepted : Accepted s.checks := PointerSettings.exactDefault_accepted
  have found : candidates s 0 dots ≠ [] := by
    apply candidates_ne_nil_of_level (PointerSettings.minWidth_pos accepted) <;>
      norm_num [s, PointerSettings.exactDefault]
  obtain ⟨hfound, hscores⟩ := select_first_extreme accepted 0 dots
  obtain ⟨best, hbest, hselect, -⟩ := hfound found .widest
  have hcomparable : ∀ a b c x y z : Float, ¬ x.isNaN → ¬ y.isNaN → ¬ z.isNaN →
      Comparable [scored a x, scored b y, scored c z] := by
    intro a b c x y z hx hy hz
    refine comparable_of_not_nan ?_
    simp only [List.forall_mem_cons]
    exact ⟨hx, hy, hz, List.forall_mem_nil _⟩
  have htwo : ¬ (2 : Float) < 2 := by decide
  have hone : ¬ (1 : Float) < 1 := by decide
  have hdown : ¬ (2 : Float) < 1 := by decide
  have hthree : (1 : Float) < 3 := by decide
  refine ⟨accepted, found, ⟨best, hbest, hselect⟩, ?_, ?_⟩
  · have comparable := hcomparable (-0.5) 0 0.25 2 2 1 (by decide) (by decide) (by decide)
    refine ((hscores .narrowest _).2 comparable _).mpr ⟨[], _, rfl, by simp, ?_⟩
    simp only [List.forall_mem_cons]
    exact ⟨htwo, hdown, List.forall_mem_nil _⟩
  · have comparable := hcomparable (-0.5) 0 0.25 3 1 1 (by decide) (by decide) (by decide)
    refine ((hscores .widest _).2 comparable _).mpr ⟨[_], [_], rfl, ?_, ?_⟩
    · exact List.forall_mem_singleton.mpr hthree
    · exact List.forall_mem_singleton.mpr hone

end SensorBar.Bar
