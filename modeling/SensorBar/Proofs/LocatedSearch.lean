import Mathlib.Data.Prod.Lex
import SensorBar.Bar.Search
import SensorBar.Proofs.Pairs

/-! # The search with positions

The search tells bars, and not at which positions their dots stand.  `located` is the same search
over numbered dots: without the numbers it is `candidates`, and the numbers increase in the
lexicographic order.  What two dots make is `spanning` them, and `Admits` is all that the settings
and the other dots have to say about it.  Nothing here depends on the arithmetic.
-/

namespace SensorBar.Bar

variable {α : Type} [Scalar α]

/-! ## One pair -/

/-- The bar between two dots, whether or not it passes. -/
def spanning (roll : α) (first second : Dot α) : Bar α :=
  let dots := ends first second
  let raw : Pair (Point α) := ⟨dots.left.raw, dots.right.raw⟩
  let tilted : Pair (Point α) := ⟨dots.left.tilted, dots.right.tilted⟩
  let angle := tilted.levelling + roll
  let corrected := raw.rotate angle
  { raw
    tilted
    corrected
    offsetAngle := tilted.levelling
    angle
    score := (1 : Nat) / (corrected.right.x - corrected.left.x) }

/-- Whether a dot lies between the ends of a bar. -/
def blockedBy (s : PointerSettings α) (b : Bar α) (dot : Dot α) : Bool :=
  liesBetween s b.corrected (dot.raw.rotate b.angle)

/-- What the search asks of a bar. -/
structure Admits (s : PointerSettings α) (others : List (Dot α)) (b : Bar α) : Prop where
  level : ¬ s.maxSlope * Scalar.abs b.tilted.span.x < Scalar.abs b.tilted.span.y
  wide : ¬ b.width < s.minWidth
  clear : ∀ dot ∈ others, blockedBy s b dot = false

theorem ofDots?_eq (s : PointerSettings α) (roll : α) (first second : Dot α)
    (others : List (Dot α)) :
    ofDots? s roll first second others =
      let b := spanning roll first second
      if s.maxSlope * Scalar.abs b.tilted.span.x < Scalar.abs b.tilted.span.y then none
      else if b.width < s.minWidth then none
      else if others.any (blockedBy s b) then none
      else some b :=
  rfl

theorem ofDots?_eq_some_iff {s : PointerSettings α} {roll : α} {first second : Dot α}
    {others : List (Dot α)} {b : Bar α} :
    ofDots? s roll first second others = some b ↔
      spanning roll first second = b ∧ Admits s others b := by
  rw [ofDots?_eq]
  constructor
  · intro h
    dsimp only at h
    split at h
    · cases h
    next level =>
      split at h
      · cases h
      next wide =>
        split at h
        · cases h
        next clear =>
          obtain rfl := Option.some.inj h
          exact ⟨rfl, level, wide, by simpa using clear⟩
  · rintro ⟨rfl, admits⟩
    have hclear : others.any (blockedBy s (spanning roll first second)) = false := by
      simpa using admits.clear
    simp [admits.level, admits.wide, hclear]

theorem score_spanning (roll : α) (first second : Dot α) :
    (spanning roll first second).score = (1 : Nat) / (spanning roll first second).width :=
  rfl

/-! ## All pairs -/

/-- A bar, with the positions of its two dots among the dots of the frame. -/
structure Located (α : Type) where
  first : Nat
  second : Nat
  bar : Bar α

namespace Located

def positions (c : Located α) : Nat ×ₗ Nat :=
  toLex (c.first, c.second)

/-- Whether the dot at a position is one of the two. -/
def uses (c : Located α) (position : Nat) : Bool :=
  c.first == position || c.second == position

/-- The bar that two numbered dots make among some others. -/
def ofDots? (s : PointerSettings α) (roll : α) :
    (Dot α × Nat) × (Dot α × Nat) × List (Dot α × Nat) → Option (Located α)
  | (p, q, others) =>
      (Bar.ofDots? s roll p.1 q.1 (others.map Prod.fst)).map fun bar => ⟨p.2, q.2, bar⟩

theorem ofDots?_eq_some_iff {s : PointerSettings α} {roll : α} {p q : Dot α × Nat}
    {others : List (Dot α × Nat)} {c : Located α} :
    ofDots? s roll (p, q, others) = some c ↔
      p.2 = c.first ∧ q.2 = c.second ∧ spanning roll p.1 q.1 = c.bar ∧
        Admits s (others.map Prod.fst) c.bar := by
  obtain ⟨first, second, bar⟩ := c
  simp only [ofDots?, Option.map_eq_some_iff, Bar.ofDots?_eq_some_iff, mk.injEq]
  constructor
  · rintro ⟨found, hfound, rfl, rfl, rfl⟩
    exact ⟨rfl, rfl, hfound⟩
  · rintro ⟨rfl, rfl, hfound⟩
    exact ⟨bar, hfound, rfl, rfl, rfl⟩

end Located

/-- All bars among the dots of a frame, with the positions of their dots. -/
def located (s : PointerSettings α) (roll : α) (dots : List (Dot α)) : List (Located α) :=
  (pairs dots.zipIdx).filterMap (Located.ofDots? s roll)

theorem map_bar_located (s : PointerSettings α) (roll : α) (dots : List (Dot α)) :
    (located s roll dots).map Located.bar = candidates s roll dots := by
  conv_rhs => rw [candidates, ← List.zipIdx_map_fst 0 dots, pairs_map, List.filterMap_map]
  rw [located, List.map_filterMap]
  congr 1
  funext ⟨p, q, others⟩
  simp [Located.ofDots?, Function.comp_def]

/-- A bar that is found spans the dots at its positions, and passes. -/
theorem exists_dots_of_mem_located {s : PointerSettings α} {roll : α} {dots : List (Dot α)}
    {c : Located α} (h : c ∈ located s roll dots) :
    c.first < c.second ∧ ∃ p q others, dots[c.first]? = some p ∧ dots[c.second]? = some q ∧
      spanning roll p q = c.bar ∧ Admits s others c.bar := by
  obtain ⟨⟨p, q, others⟩, hpair, hfound⟩ := List.mem_filterMap.mp h
  obtain ⟨hfirst, hsecond, hbar, admits⟩ := Located.ofDots?_eq_some_iff.mp hfound
  obtain ⟨hp, hq⟩ := mem_of_mem_pairs hpair
  rw [List.mem_zipIdx_iff_getElem?] at hp hq
  rw [← hfirst, ← hsecond]
  exact ⟨rel_of_mem_pairs (pairwise_snd_zipIdx dots) hpair, p.1, q.1, _, hp, hq, hbar, admits⟩

/-- The search goes through the positions in their lexicographic order. -/
theorem pairwise_located (s : PointerSettings α) (roll : α) (dots : List (Dot α)) :
    (located s roll dots).Pairwise fun b c => b.positions < c.positions := by
  have sorted := pairwise_members_pairs (pairwise_snd_zipIdx dots)
  refine (List.pairwise_map.mp sorted).filterMap _ ?_
  rintro ⟨p, q, others⟩ ⟨p', q', others'⟩ hlt b hb c hc
  obtain ⟨hp, hq, -, -⟩ := Located.ofDots?_eq_some_iff.mp hb
  obtain ⟨hp', hq', -, -⟩ := Located.ofDots?_eq_some_iff.mp hc
  rw [Located.positions, Located.positions, ← hp, ← hq, ← hp', ← hq']
  refine Prod.Lex.toLex_lt_toLex.mpr ((Prod.lex_def.mp hlt).imp_right ?_)
  rintro ⟨hsame, hsecond⟩
  exact ⟨congrArg Prod.snd hsame, hsecond⟩

end SensorBar.Bar
