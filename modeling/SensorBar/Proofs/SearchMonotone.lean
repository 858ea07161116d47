import SensorBar.Proofs.LocatedSearch
import SensorBar.Proofs.SearchReference

/-! # The search under looser settings and with further dots

A bar that passes is admitted by its own tilt and width, and by the dots that it leaves over.  Looser
settings admit it too: the clearing between its ends gets narrower as the emitters get wider, and
lower as they get lower, and both are measured in its own width, which is positive.  A further dot
is one more dot left over by every old pair.  So the old pairs that go on being found are those that
it does not block, and every other bar has the new dot for an end.
-/

namespace SensorBar

/-- The settings `t` let through whatever `s` lets through. -/
structure PointerSettings.Looser {α : Type} [LE α] (s t : PointerSettings α) : Prop where
  barWidth : t.barWidth = s.barWidth
  maxSlope : s.maxSlope ≤ t.maxSlope
  minWidth : t.minWidth ≤ s.minWidth
  dotWidth : s.dotWidth ≤ t.dotWidth
  dotHeight : t.dotHeight ≤ s.dotHeight

namespace Bar

/-! ## A further dot -/

section

variable {α : Type} [Scalar α]

theorem admits_concat_iff {s : PointerSettings α} {others : List (Dot α)} {extra : Dot α}
    {b : Bar α} :
    Admits s (others ++ [extra]) b ↔ Admits s others b ∧ blockedBy s b extra = false := by
  constructor
  · intro h
    obtain ⟨hothers, hextra⟩ := List.forall_mem_append.mp h.clear
    exact ⟨⟨h.level, h.wide, hothers⟩, hextra extra (List.mem_singleton_self extra)⟩
  · rintro ⟨h, hextra⟩
    exact ⟨h.level, h.wide,
      List.forall_mem_append.mpr ⟨h.clear, List.forall_mem_singleton.mpr hextra⟩⟩

theorem Located.ofDots?_concat (s : PointerSettings α) (roll : α) (p q extra : Dot α × Nat)
    (others : List (Dot α × Nat)) :
    Located.ofDots? s roll (p, q, others ++ [extra]) =
      (Located.ofDots? s roll (p, q, others)).filter fun c => !blockedBy s c.bar extra.1 := by
  ext c
  rw [Option.filter_eq_some_iff, ofDots?_eq_some_iff, ofDots?_eq_some_iff, List.map_append,
    List.map_singleton, admits_concat_iff, Bool.not_eq_true']
  simp only [and_assoc]

/-- The old pairs that are found beside a further dot are those found without it that it does not
block. -/
theorem filter_located_concat (s : PointerSettings α) (roll : α) (dots : List (Dot α))
    (extra : Dot α) :
    (located s roll (dots ++ [extra])).filter (fun c => !c.uses dots.length) =
      (located s roll dots).filter fun c => !blockedBy s c.bar extra := by
  let old := fun p : Dot α × Nat => !(p.2 == dots.length)
  have hzip : (dots ++ [extra]).zipIdx = dots.zipIdx ++ [(extra, dots.length)] := by
    simp [List.zipIdx_append]
  have hold : ∀ p ∈ dots.zipIdx, old p = true := by
    intro p hp
    rw [List.mem_zipIdx_iff_getElem?] at hp
    have hlt := (List.getElem?_eq_some_iff.mp hp).1
    simpa [old] using hlt.ne
  have hnew : old (extra, dots.length) = false := by
    simp [old]
  calc (located s roll (dots ++ [extra])).filter (fun c => !c.uses dots.length)
      = ((pairs (dots ++ [extra]).zipIdx).filter fun entry =>
          old entry.1 && old entry.2.1).filterMap (Located.ofDots? s roll) := by
        refine filter_filterMap_comm ?_ _
        rintro ⟨p, q, others⟩ c hc
        obtain ⟨hp, hq, -⟩ := Located.ofDots?_eq_some_iff.mp hc
        simp [Located.uses, old, ← hp, ← hq]
    _ = (pairs dots.zipIdx).filterMap fun entry => Located.ofDots? s roll
          (entry.1, entry.2.1, entry.2.2 ++ [(extra, dots.length)]) := by
        rw [hzip, filter_pairs_concat hold hnew, List.filterMap_map]
        rfl
    _ = (located s roll dots).filter fun c => !blockedBy s c.bar extra := by
        rw [located, List.filter_filterMap]
        refine List.filterMap_congr ?_
        rintro ⟨p, q, others⟩ _
        exact Located.ofDots?_concat s roll p q _ others

end

/-! ## Looser settings -/

variable {α : Type} [ExactScalar α] {s t : PointerSettings α}

theorem blockedBy_of_looser (looser : s.Looser t) (barWidth : 0 < s.barWidth) {b : Bar α}
    (hw : 0 ≤ b.width) {dot : Dot α} (h : blockedBy t b dot = true) : blockedBy s b dot = true := by
  have hwidth : s.dotWidth / s.barWidth * b.width ≤ t.dotWidth / t.barWidth * b.width := by
    rw [looser.barWidth]
    exact mul_le_mul_of_nonneg_right
      ((div_le_div_iff_of_pos_right barWidth).mpr looser.dotWidth) hw
  have hheight : t.dotHeight / t.barWidth * b.width ≤ s.dotHeight / s.barWidth * b.width := by
    rw [looser.barWidth]
    exact mul_le_mul_of_nonneg_right
      ((div_le_div_iff_of_pos_right barWidth).mpr looser.dotHeight) hw
  obtain ⟨hleft, hright, hbeside⟩ := (liesBetween_iff t b.corrected _).mp h
  refine (liesBetween_iff s b.corrected _).mpr ⟨?_, ?_, hbeside.trans_le hheight⟩
  · exact (add_le_add_right hwidth _).trans_lt hleft
  · exact hright.trans_le (sub_le_sub_left hwidth _)

theorem Admits.of_looser {others : List (Dot α)} {b : Bar α} (h : Admits s others b)
    (looser : s.Looser t) (minWidth : 0 < s.minWidth) (barWidth : 0 < s.barWidth) :
    Admits t others b where
  level := by
    have hslope : s.maxSlope * |b.tilted.span.x| ≤ t.maxSlope * |b.tilted.span.x| :=
      mul_le_mul_of_nonneg_right looser.maxSlope (abs_nonneg _)
    exact not_lt.mpr ((not_lt.mp h.level).trans hslope)
  wide := not_lt.mpr (looser.minWidth.trans (not_lt.mp h.wide))
  clear dot hdot := by
    have hw : 0 ≤ b.width := (minWidth.trans_le (not_lt.mp h.wide)).le
    by_contra hblocked
    rw [Bool.not_eq_false] at hblocked
    have hclear := h.clear dot hdot
    rw [blockedBy_of_looser looser barWidth hw hblocked] at hclear
    cases hclear

theorem located_sublist_of_looser (accepted : Accepted s.checks) (looser : s.Looser t) (roll : α)
    (dots : List (Dot α)) : (located s roll dots).Sublist (located t roll dots) := by
  obtain ⟨-, -, hminWidth, hbarWidth, -⟩ := s.accepted_iff.mp accepted
  refine filterMap_sublist ?_ _
  rintro ⟨p, q, others⟩ c hc
  rw [Located.ofDots?_eq_some_iff] at hc ⊢
  obtain ⟨hp, hq, hbar, admits⟩ := hc
  exact ⟨hp, hq, hbar, admits.of_looser looser hminWidth hbarWidth⟩

/--
Looser settings find all that was found before, in the same order and unchanged.  A further dot can
only block old pairs: without the bars that it is an end of, what is found beside it is what was
found before, less the bars that it lies between the ends of.
-/
theorem candidates_monotone :
    (∀ s t : PointerSettings α, Accepted s.checks → Accepted t.checks → s.Looser t →
      ∀ (roll : α) (dots : List (Dot α)),
        (located s roll dots).Sublist (located t roll dots) ∧
        (candidates s roll dots).Sublist (candidates t roll dots)) ∧
    ∀ (s : PointerSettings α) (roll : α) (dots : List (Dot α)) (extra : Dot α),
      let old := (located s roll (dots ++ [extra])).filter fun c => !c.uses dots.length
      old = (located s roll dots).filter (fun c => !blockedBy s c.bar extra) ∧
      old.Sublist (located s roll dots) ∧
      (old.map Located.bar).Sublist (candidates s roll dots) := by
  constructor
  · intro s t accepted _ looser roll dots
    have hsub := located_sublist_of_looser accepted looser roll dots
    refine ⟨hsub, ?_⟩
    rw [← map_bar_located, ← map_bar_located]
    exact hsub.map Located.bar
  · intro s roll dots extra old
    have hold : old = (located s roll dots).filter fun c => !blockedBy s c.bar extra :=
      filter_located_concat s roll dots extra
    have hsub : old.Sublist (located s roll dots) := hold ▸ List.filter_sublist
    refine ⟨hold, hsub, ?_⟩
    rw [← map_bar_located]
    exact hsub.map Located.bar

/-- A bar found with the default settings is found with looser ones, and a dot comes in between. -/
theorem candidates_monotone_of_default :
    let s : PointerSettings ℝ := .exactDefault
    let t : PointerSettings ℝ :=
      { s with maxSlope := 1, minWidth := 1 / 20, dotWidth := 3, dotHeight := 1 / 2 }
    let dots : List (Dot ℝ) := Dot.ofPoints 0 [⟨1 / 2, 0⟩, ⟨-1 / 2, 0⟩]
    let extra : Dot ℝ := ⟨⟨0, 0⟩, ⟨0, 0⟩⟩
    Accepted s.checks ∧ Accepted t.checks ∧ s.Looser t ∧
      (∃ b ∈ candidates s 0 dots, b ∈ candidates t 0 dots) ∧
      ((located s 0 (dots ++ [extra])).filter fun c => !c.uses dots.length).Sublist
        (located s 0 dots) := by
  intro s t dots extra
  have accepted : Accepted s.checks := PointerSettings.exactDefault_accepted
  have accepted' : Accepted t.checks := by
    rw [PointerSettings.accepted_iff]
    norm_num [t, s, PointerSettings.exactDefault]
  have looser : s.Looser t := by
    constructor <;> norm_num [t, s, PointerSettings.exactDefault]
  have found : candidates s 0 dots ≠ [] := by
    apply candidates_ne_nil_of_level (PointerSettings.minWidth_pos accepted) <;>
      norm_num [s, PointerSettings.exactDefault]
  obtain ⟨hlooser, hextra⟩ := candidates_monotone (α := ℝ)
  obtain ⟨b, hb⟩ := List.exists_mem_of_ne_nil _ found
  have hsub := (hlooser s t accepted accepted' looser 0 dots).2
  exact ⟨accepted, accepted', looser, ⟨b, hb, hsub.subset hb⟩, (hextra s 0 dots extra).2.1⟩

end Bar

end SensorBar
