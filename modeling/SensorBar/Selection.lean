/-!
# Selection from a list

The winner of a scan that replaces the holder whenever a later element beats it, and the pairs of
a list together with what each pair leaves over.
-/

namespace SensorBar

variable {β : Type}

/-- The holder after `challenger` has been compared with the present holder. -/
def challenge (beats : β → β → Bool) (holder : Option β) (challenger : β) : Option β :=
  match holder with
  | none => some challenger
  | some best => if beats challenger best then some challenger else some best

/-- The last element to take the title in a scan from the left; `none` of an empty list. -/
def winner (beats : β → β → Bool) (xs : List β) : Option β :=
  xs.foldl (challenge beats) none

/-- Every element with the other elements, in order. -/
def picks : List β → List (β × List β)
  | [] => []
  | x :: xs => (x, xs) :: (picks xs).map fun (y, rest) => (y, x :: rest)

/--
Every pair of elements, the earlier one first, with the other elements.  Pairs come in the
lexicographic order of their positions.
-/
def pairs : List β → List (β × β × List β)
  | [] => []
  | x :: xs =>
      (picks xs).map (fun (y, rest) => (x, y, rest)) ++
        (pairs xs).map fun (y, z, rest) => (y, z, x :: rest)

theorem foldl_challenge_some (beats : β → β → Bool) (xs : List β) (x : β) :
    ∃ y, xs.foldl (challenge beats) (some x) = some y := by
  induction xs generalizing x with
  | nil => exact ⟨x, rfl⟩
  | cons z zs ih =>
      simp only [List.foldl_cons, challenge]
      split
      · exact ih z
      · exact ih x

theorem winner_eq_none_iff (beats : β → β → Bool) (xs : List β) :
    winner beats xs = none ↔ xs = [] := by
  cases xs with
  | nil => simp [winner]
  | cons x xs =>
      obtain ⟨y, hy⟩ := foldl_challenge_some beats xs x
      simp [winner, challenge, hy]

theorem foldl_challenge_mem (beats : β → β → Bool) {xs : List β} {holder : Option β} {y : β}
    (h : xs.foldl (challenge beats) holder = some y) : holder = some y ∨ y ∈ xs := by
  induction xs generalizing holder with
  | nil => exact .inl h
  | cons z zs ih =>
      rw [List.foldl_cons] at h
      rcases ih h with hz | hz
      · cases holder with
        | none =>
            have hy : z = y := Option.some.inj hz
            exact .inr (by simp [hy])
        | some x =>
            simp only [challenge] at hz
            split at hz
            · have hy : z = y := Option.some.inj hz
              exact .inr (by simp [hy])
            · exact .inl hz
      · exact .inr (List.mem_cons_of_mem z hz)

theorem mem_of_winner {beats : β → β → Bool} {xs : List β} {y : β}
    (h : winner beats xs = some y) : y ∈ xs := by
  rcases foldl_challenge_mem beats h with hnone | hmem
  · cases hnone
  · exact hmem

/-- A map that keeps who beats whom keeps the winner. -/
theorem winner_map {γ : Type} {beats : β → β → Bool} {beats' : γ → γ → Bool} {f : β → γ}
    (same : ∀ a b, beats' (f a) (f b) = beats a b) (xs : List β) :
    winner beats' (xs.map f) = (winner beats xs).map f := by
  have hstep : ∀ holder challenger, challenge beats' (holder.map f) (f challenger) =
      (challenge beats holder challenger).map f := by
    intro holder challenger
    cases holder with
    | none => rfl
    | some best =>
        simp only [Option.map_some, challenge, same]
        split <;> rfl
  unfold winner
  rw [List.foldl_map, ← Option.map_none]
  apply List.foldl_hom (Option.map f)
  exact hstep

/-- A holder that nobody beats keeps the title. -/
theorem foldl_challenge_of_unbeaten {beats : β → β → Bool} {best : β} {xs : List β}
    (unbeaten : ∀ x ∈ xs, x ≠ best → beats x best = false) :
    xs.foldl (challenge beats) (some best) = some best := by
  induction xs with
  | nil => rfl
  | cons z zs ih =>
      have hkeeps : challenge beats (some best) z = some best := by
        by_cases hz : z = best
        · simp [challenge, hz]
        · simp [challenge, unbeaten z List.mem_cons_self hz]
      rw [List.foldl_cons, hkeeps]
      exact ih fun x hx => unbeaten x (List.mem_cons_of_mem z hx)

/-- An element that beats all others and is beaten by none wins, wherever it stands. -/
theorem winner_of_best {beats : β → β → Bool} {best : β} {xs : List β} (present : best ∈ xs)
    (beaten : ∀ x ∈ xs, x ≠ best → beats best x = true ∧ beats x best = false) :
    winner beats xs = some best := by
  obtain ⟨earlier, later, rfl⟩ := List.append_of_mem present
  -- Whoever holds the title when `best` comes up loses it.
  have htakes : challenge beats (earlier.foldl (challenge beats) none) best = some best := by
    cases hholder : earlier.foldl (challenge beats) none with
    | none => rfl
    | some y =>
        by_cases hy : y = best
        · simp [challenge, hy]
        · have hmem : y ∈ earlier := mem_of_winner hholder
          simp [challenge, (beaten y (List.mem_append_left _ hmem) hy).1]
  rw [winner, List.foldl_append, List.foldl_cons, htakes]
  refine foldl_challenge_of_unbeaten fun x hx hne => ?_
  exact (beaten x (List.mem_append_right _ (List.mem_cons_of_mem best hx)) hne).2

end SensorBar
