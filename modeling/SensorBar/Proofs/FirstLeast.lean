import Mathlib.Data.List.Induction
import Mathlib.Data.Prod.Lex
import Mathlib.Order.Bounds.Basic
import SensorBar.Selection

/-! # The first of the best

A scan that gives up its holder only to what beats it ends with the first of the best, provided that
beating ranks the elements of the list.  When a strictly smaller key beats, that is the first element
of least key.  Over an increasing list it is the least pair of a key and an element, in the
lexicographic order, so a scan over positions needs no word of its own on ties.
-/

namespace SensorBar

variable {β κ : Type}

/-! ## The first of the best -/

theorem winner_concat (beats : β → β → Bool) (xs : List β) (x : β) :
    winner beats (xs ++ [x]) = challenge beats (winner beats xs) x := by
  unfold winner
  rw [List.foldl_append]
  rfl

/-- On the elements of a list, not to beat is a total preorder. -/
structure Ranks (beats : β → β → Bool) (xs : List β) : Prop where
  asymm : ∀ x ∈ xs, ∀ y ∈ xs, beats x y = true → beats y x = false
  trans : ∀ x ∈ xs, ∀ y ∈ xs, ∀ z ∈ xs, beats x y = false → beats y z = false → beats x z = false

theorem Ranks.mono {beats : β → β → Bool} {xs ys : List β} (h : Ranks beats ys) (sub : xs ⊆ ys) :
    Ranks beats xs :=
  ⟨fun x hx y hy => h.asymm x (sub hx) y (sub hy),
    fun x hx y hy z hz => h.trans x (sub hx) y (sub hy) z (sub hz)⟩

theorem Ranks.irrefl {beats : β → β → Bool} {xs : List β} (h : Ranks beats xs) {x : β}
    (hx : x ∈ xs) : beats x x = false := by
  by_contra htrue
  rw [Bool.not_eq_false] at htrue
  exact Bool.false_ne_true ((h.asymm x hx x hx htrue).symm.trans htrue)

/-- An element beats all that stand before it, and is beaten by none that stands after it. -/
def IsFirstBest (beats : β → β → Bool) (xs : List β) (y : β) : Prop :=
  ∃ earlier later, xs = earlier ++ y :: later ∧ (∀ x ∈ earlier, beats y x = true) ∧
    ∀ x ∈ later, beats x y = false

namespace IsFirstBest

variable {beats : β → β → Bool} {xs : List β} {y : β}

theorem mem (h : IsFirstBest beats xs y) : y ∈ xs := by
  obtain ⟨earlier, later, rfl, -, -⟩ := h
  exact List.mem_append_right _ List.mem_cons_self

theorem unbeaten (h : IsFirstBest beats xs y) (ranks : Ranks beats xs) :
    ∀ x ∈ xs, beats x y = false := by
  have hy := h.mem
  obtain ⟨earlier, later, rfl, hearlier, hlater⟩ := h
  intro x hx
  rcases List.mem_append.mp hx with hbefore | hrest
  · exact ranks.asymm y hy x hx (hearlier x hbefore)
  · rcases List.mem_cons.mp hrest with rfl | hafter
    · exact ranks.irrefl hx
    · exact hlater x hafter

/-- The first of the best wins, whatever the others make of each other. -/
theorem winner_eq (h : IsFirstBest beats xs y) : winner beats xs = some y := by
  obtain ⟨earlier, later, rfl, hearlier, hlater⟩ := h
  have htakes : challenge beats (earlier.foldl (challenge beats) none) y = some y := by
    cases hholder : earlier.foldl (challenge beats) none with
    | none => rfl
    | some x =>
      have hx : x ∈ earlier := mem_of_winner hholder
      simp [challenge, hearlier x hx]
  rw [winner, List.foldl_append, List.foldl_cons, htakes]
  exact foldl_challenge_of_unbeaten fun x hx _ => hlater x hx

end IsFirstBest

theorem isFirstBest_of_winner {beats : β → β → Bool} {xs : List β} (ranks : Ranks beats xs) {y : β}
    (h : winner beats xs = some y) : IsFirstBest beats xs y := by
  induction xs using List.reverseRecOn generalizing y with
  | nil => simp [winner] at h
  | append_singleton xs last ih =>
    have hxs := ranks.mono (List.subset_append_left xs [last])
    have hlast : last ∈ xs ++ [last] := List.mem_append_right _ (List.mem_singleton_self last)
    rw [winner_concat] at h
    cases hholder : winner beats xs with
    | none =>
      obtain rfl := (winner_eq_none_iff _ xs).mp hholder
      obtain rfl : last = y := by simpa [hholder, challenge] using h
      exact ⟨[], [], rfl, by simp, by simp⟩
    | some best =>
      have hbest := ih hxs hholder
      by_cases hbeats : beats last best = true
      · obtain rfl : last = y := by simpa [hholder, challenge, hbeats] using h
        refine ⟨xs, [], rfl, fun x hx => ?_, by simp⟩
        -- Whoever does not beat the old holder is beaten by what beats it.
        by_contra hnot
        have hback := ranks.trans last hlast x (List.mem_append_left _ hx) best
          (List.mem_append_left _ hbest.mem) (Bool.eq_false_of_not_eq_true hnot)
          (hbest.unbeaten hxs x hx)
        exact Bool.false_ne_true (hback.symm.trans hbeats)
      · obtain rfl : best = y := by simpa [hholder, challenge, hbeats] using h
        obtain ⟨earlier, later, rfl, hearlier, hlater⟩ := hbest
        refine ⟨earlier, later ++ [last], by simp, hearlier, ?_⟩
        rw [List.forall_mem_append, List.forall_mem_singleton]
        exact ⟨hlater, Bool.eq_false_of_not_eq_true hbeats⟩

theorem winner_eq_some_iff {beats : β → β → Bool} {xs : List β} (ranks : Ranks beats xs) {y : β} :
    winner beats xs = some y ↔ IsFirstBest beats xs y :=
  ⟨isFirstBest_of_winner ranks, IsFirstBest.winner_eq⟩

/-! ## The first of the least -/

variable [LinearOrder κ]

/-- Whether an element has a strictly smaller key than the holder. -/
def undercuts (key : β → κ) (x best : β) : Bool :=
  key x < key best

theorem ranks_undercuts (key : β → κ) (xs : List β) : Ranks (undercuts key) xs := by
  constructor
  · intro x _ y _ hlt
    exact decide_eq_false (of_decide_eq_true hlt).asymm
  · intro x _ y _ z _ hxy hyz
    have hyx := not_lt.mp (of_decide_eq_false hxy)
    have hzy := not_lt.mp (of_decide_eq_false hyz)
    exact decide_eq_false (hzy.trans hyx).not_gt

variable [LinearOrder β] {key : β → κ}

/-- No element has a smaller key, and none before it has the same. -/
def IsFirstLeast (key : β → κ) (y : β) : Prop :=
  IsLeast (Set.range fun x => toLex (key x, x)) (toLex (key y, y))

theorem toLex_le_of_winner {xs : List β} (increasing : xs.Pairwise (· < ·)) {y : β}
    (h : winner (undercuts key) xs = some y) : ∀ x ∈ xs, toLex (key y, y) ≤ toLex (key x, x) := by
  obtain ⟨earlier, later, rfl, hearlier, hlater⟩ :=
    isFirstBest_of_winner (ranks_undercuts key xs) h
  have hafter := (List.pairwise_cons.mp (List.pairwise_append.mp increasing).2.1).1
  rw [List.forall_mem_append, List.forall_mem_cons]
  refine ⟨fun x hx => ?_, le_rfl, fun x hx => ?_⟩
  · have hless := of_decide_eq_true (hearlier x hx)
    exact (Prod.Lex.toLex_lt_toLex.mpr (.inl hless)).le
  · refine Prod.Lex.toLex_le_toLex.mpr ?_
    -- On a tie the winner stays, and it stands before the others.
    rcases (not_lt.mp (of_decide_eq_false (hlater x hx))).lt_or_eq with hless | htie
    · exact .inl hless
    · exact .inr ⟨htie, (hafter x hx).le⟩

/-- A scan over all elements in increasing order finds the first of least key. -/
theorem exists_winner_isFirstLeast [Nonempty β] (key : β → κ) {xs : List β}
    (increasing : xs.Pairwise (· < ·)) (all : ∀ x, x ∈ xs) :
    ∃ y, winner (undercuts key) xs = some y ∧ IsFirstLeast key y := by
  cases h : winner (undercuts key) xs with
  | none =>
    obtain rfl := (winner_eq_none_iff _ xs).mp h
    exact absurd (all (Classical.arbitrary β)) List.not_mem_nil
  | some y =>
    refine ⟨y, rfl, ⟨y, rfl⟩, ?_⟩
    rintro _ ⟨x, rfl⟩
    exact toLex_le_of_winner increasing h x (all x)

end SensorBar
