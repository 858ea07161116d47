import Mathlib.Data.List.FinRange
import SensorBar.Selection

/-! # The pairs of a list

`pairs` enumerates by position.  Over a list without repetitions a position is its element, so what
is left over is told by its members; and over a sorted list the pairs come in lexicographic order.
Any list is the image of the sorted list of its own positions.  A rearrangement of the list
rearranges its pairs, the two members of a pair and what each pair leaves over, and nothing else.
-/

namespace SensorBar

variable {β γ : Type}

/-- A pair without what it leaves over. -/
def members (entry : β × β × List β) : β × β :=
  (entry.1, entry.2.1)

/-! ## Images -/

theorem picks_map (f : β → γ) (xs : List β) :
    picks (xs.map f) = (picks xs).map fun (y, rest) => (f y, rest.map f) := by
  induction xs with
  | nil => rfl
  | cons x xs ih => simp [picks, ih, Function.comp_def]

theorem pairs_map (f : β → γ) (xs : List β) :
    pairs (xs.map f) = (pairs xs).map fun (y, z, rest) => (f y, f z, rest.map f) := by
  induction xs with
  | nil => rfl
  | cons x xs ih => simp [pairs, picks_map, ih, Function.comp_def]

/-! ## What is left over -/

theorem map_fst_picks (xs : List β) : (picks xs).map Prod.fst = xs := by
  induction xs with
  | nil => rfl
  | cons x xs ih =>
      simp only [picks, List.map_cons, List.map_map]
      exact congrArg (x :: ·) ih

theorem mem_of_mem_picks {xs : List β} {y : β} {rest : List β} (h : (y, rest) ∈ picks xs) :
    y ∈ xs := by
  have hy := List.mem_map_of_mem (f := Prod.fst) h
  rwa [map_fst_picks] at hy

theorem mem_rest_of_picks {xs : List β} (distinct : xs.Nodup) {y : β} {rest : List β}
    (h : (y, rest) ∈ picks xs) (c : β) : c ∈ rest ↔ c ∈ xs ∧ c ≠ y := by
  induction xs generalizing rest with
  | nil => simp [picks] at h
  | cons x xs ih =>
      obtain ⟨hx, hxs⟩ := List.nodup_cons.mp distinct
      simp only [picks, List.mem_cons, List.mem_map, Prod.mk.injEq] at h
      rcases h with ⟨rfl, rfl⟩ | ⟨entry, hentry, rfl, rfl⟩
      · have hne : c ∈ rest → c ≠ y := fun hc heq => hx (heq ▸ hc)
        grind
      · have hrest := ih hxs hentry
        have hne : x ≠ entry.1 := fun heq => hx (heq ▸ mem_of_mem_picks hentry)
        grind

theorem mem_of_mem_pairs {xs : List β} {y z : β} {rest : List β} (h : (y, z, rest) ∈ pairs xs) :
    y ∈ xs ∧ z ∈ xs := by
  induction xs generalizing rest with
  | nil => simp [pairs] at h
  | cons x xs ih =>
      simp only [pairs, List.mem_append, List.mem_map, Prod.mk.injEq] at h
      rcases h with ⟨entry, hentry, rfl, rfl, rfl⟩ | ⟨entry, hentry, rfl, rfl, rfl⟩
      · exact ⟨List.mem_cons_self, List.mem_cons_of_mem _ (mem_of_mem_picks hentry)⟩
      · obtain ⟨hy, hz⟩ := ih hentry
        exact ⟨List.mem_cons_of_mem x hy, List.mem_cons_of_mem x hz⟩

theorem mem_rest_of_pairs {xs : List β} (distinct : xs.Nodup) {y z : β} {rest : List β}
    (h : (y, z, rest) ∈ pairs xs) (c : β) : c ∈ rest ↔ c ∈ xs ∧ c ≠ y ∧ c ≠ z := by
  induction xs generalizing rest with
  | nil => simp [pairs] at h
  | cons x xs ih =>
      obtain ⟨hx, hxs⟩ := List.nodup_cons.mp distinct
      simp only [pairs, List.mem_append, List.mem_map, Prod.mk.injEq] at h
      rcases h with ⟨entry, hentry, rfl, rfl, rfl⟩ | ⟨entry, hentry, rfl, rfl, rfl⟩
      · have hrest := mem_rest_of_picks hxs hentry c
        have hne : c ∈ xs → c ≠ x := fun hc heq => hx (heq ▸ hc)
        grind
      · have hrest := ih hxs hentry
        obtain ⟨hy, hz⟩ := mem_of_mem_pairs hentry
        have hne : ∀ w ∈ xs, x ≠ w := fun w hw heq => hx (heq ▸ hw)
        grind

/-! ## The order of the pairs -/

theorem map_members_pairs_cons (x : β) (xs : List β) :
    (pairs (x :: xs)).map members = xs.map (x, ·) ++ (pairs xs).map members := by
  have hpicks : (picks xs).map (fun entry => (x, entry.1)) = xs.map (x, ·) := by
    conv_rhs => rw [← map_fst_picks xs, List.map_map]
    rfl
  simp only [pairs, List.map_append, List.map_map]
  exact congrArg (· ++ _) hpicks

theorem pairwise_snd_zipIdx (xs : List β) : xs.zipIdx.Pairwise fun p q => p.2 < q.2 := by
  refine List.pairwise_map.mp ?_
  rw [List.zipIdx_map_snd]
  exact List.pairwise_lt_range' 1

theorem rel_of_mem_pairs {R : β → β → Prop} {xs : List β} (sorted : xs.Pairwise R) {y z : β}
    {rest : List β} (h : (y, z, rest) ∈ pairs xs) : R y z := by
  induction xs generalizing rest with
  | nil => simp [pairs] at h
  | cons x xs ih =>
      obtain ⟨hx, hxs⟩ := List.pairwise_cons.mp sorted
      simp only [pairs, List.mem_append, List.mem_map, Prod.mk.injEq] at h
      rcases h with ⟨entry, hentry, rfl, rfl, rfl⟩ | ⟨entry, hentry, rfl, rfl, rfl⟩
      · exact hx _ (mem_of_mem_picks hentry)
      · exact ih hxs hentry

theorem pairwise_members_pairs {R : β → β → Prop} {xs : List β} (sorted : xs.Pairwise R) :
    ((pairs xs).map members).Pairwise (Prod.Lex R R) := by
  induction xs with
  | nil => exact .nil
  | cons x xs ih =>
      obtain ⟨hx, hxs⟩ := List.pairwise_cons.mp sorted
      rw [map_members_pairs_cons, List.pairwise_append]
      refine ⟨?_, ih hxs, ?_⟩
      · exact List.pairwise_map.mpr (hxs.imp fun h => .right x h)
      · intro a ha b hb
        obtain ⟨y, _, rfl⟩ := List.mem_map.mp ha
        obtain ⟨⟨z, w, rest⟩, hentry, rfl⟩ := List.mem_map.mp hb
        exact .left y w (hx z (mem_of_mem_pairs hentry).1)

theorem mem_members_pairs_iff [Preorder β] {xs : List β} (sorted : xs.Pairwise (· < ·)) (y z : β) :
    (y, z) ∈ (pairs xs).map members ↔ y ∈ xs ∧ z ∈ xs ∧ y < z := by
  induction xs with
  | nil => simp [pairs]
  | cons x xs ih =>
      obtain ⟨hx, hxs⟩ := List.pairwise_cons.mp sorted
      rw [map_members_pairs_cons, List.mem_append, ih hxs]
      constructor
      · rintro (hfirst | ⟨hy, hz, hlt⟩)
        · obtain ⟨w, hw, heq⟩ := List.mem_map.mp hfirst
          obtain ⟨rfl, rfl⟩ := Prod.mk.inj heq
          exact ⟨List.mem_cons_self, List.mem_cons_of_mem _ hw, hx w hw⟩
        · exact ⟨List.mem_cons_of_mem x hy, List.mem_cons_of_mem x hz, hlt⟩
      · rintro ⟨hy, hz, hlt⟩
        rcases List.mem_cons.mp hy with rfl | hyxs
        · rcases List.mem_cons.mp hz with rfl | hzxs
          · exact absurd hlt (lt_irrefl _)
          · exact .inl (List.mem_map.mpr ⟨z, hzxs, rfl⟩)
        · rcases List.mem_cons.mp hz with rfl | hzxs
          · exact absurd (hx y hyxs) hlt.asymm
          · exact .inr ⟨hyxs, hzxs, hlt⟩

/-! ## Rearrangement -/

theorem filterMap_picks_cons (f : β × List β → Option γ) (x : β) (xs : List β) :
    (picks (x :: xs)).filterMap f =
      (f (x, xs)).toList ++ (picks xs).filterMap fun (y, rest) => f (y, x :: rest) := by
  cases h : f (x, xs) <;> simp [picks, h, List.filterMap_map]

theorem filterMap_pairs_cons (f : β × β × List β → Option γ) (x : β) (xs : List β) :
    (pairs (x :: xs)).filterMap f =
      ((picks xs).filterMap fun (y, rest) => f (x, y, rest)) ++
        (pairs xs).filterMap fun (y, z, rest) => f (y, z, x :: rest) := by
  simp [pairs, List.filterMap_map]

theorem filterMap_picks_perm {xs ys : List β} (h : xs.Perm ys) {f : β × List β → Option γ}
    (rest : ∀ y {r r' : List β}, r.Perm r' → f (y, r) = f (y, r')) :
    ((picks xs).filterMap f).Perm ((picks ys).filterMap f) := by
  induction h generalizing f with
  | nil => exact .refl _
  | cons x h ih =>
      rw [filterMap_picks_cons, filterMap_picks_cons, rest x h]
      refine .append_left _ (ih ?_)
      exact fun y _ _ hr => rest y (hr.cons x)
  | swap x y l =>
      have hrest : ∀ z r, f (z, y :: x :: r) = f (z, x :: y :: r) :=
        fun z r => rest z (.swap x y r)
      simp only [filterMap_picks_cons, hrest, ← List.append_assoc]
      exact List.perm_append_comm.append_right _
  | trans _ _ ih₁ ih₂ => exact (ih₁ rest).trans (ih₂ rest)

/-- What is made of a pair depends neither on which comes first nor on the order of the others. -/
structure Unordered (f : β × β × List β → Option γ) : Prop where
  pair : ∀ y z rest, f (y, z, rest) = f (z, y, rest)
  rest : ∀ y z {r r' : List β}, r.Perm r' → f (y, z, r) = f (y, z, r')

/-- A rearranged list has the same pairs, in another order. -/
theorem filterMap_pairs_perm {xs ys : List β} (h : xs.Perm ys) {f : β × β × List β → Option γ}
    (unordered : Unordered f) : ((pairs xs).filterMap f).Perm ((pairs ys).filterMap f) := by
  induction h generalizing f with
  | nil => exact .refl _
  | cons x h ih =>
      rw [filterMap_pairs_cons, filterMap_pairs_cons]
      refine .append (filterMap_picks_perm h ?_) (ih ⟨?_, ?_⟩)
      · exact fun y _ _ hr => unordered.rest x y hr
      · exact fun y z rest => unordered.pair y z (x :: rest)
      · exact fun y z _ _ hr => unordered.rest y z (hr.cons x)
  | swap x y l =>
      -- The pair of the two that change places stays, and the others see them in the other order.
      have hpair : f (y, x, l) = f (x, y, l) := unordered.pair y x l
      have hrest : ∀ z w r, f (z, w, y :: x :: r) = f (z, w, x :: y :: r) :=
        fun z w r => unordered.rest z w (.swap x y r)
      simp only [filterMap_pairs_cons, filterMap_picks_cons, hpair, hrest, List.append_assoc]
      refine .append_left _ ?_
      simp only [← List.append_assoc]
      exact List.perm_append_comm.append_right _
  | trans _ _ ih₁ ih₂ => exact (ih₁ unordered).trans (ih₂ unordered)

/-! ## One more element -/

theorem picks_concat (xs : List β) (x : β) :
    picks (xs ++ [x]) = (picks xs).map (fun (y, rest) => (y, rest ++ [x])) ++ [(x, xs)] := by
  induction xs with
  | nil => rfl
  | cons a xs ih => simp [picks, ih]

/-- The pairs without the last element are the old pairs, which leave it over besides. -/
theorem filter_pairs_concat {old : β → Bool} {xs : List β} (hxs : ∀ y ∈ xs, old y = true) {x : β}
    (hx : old x = false) :
    (pairs (xs ++ [x])).filter (fun entry => old entry.1 && old entry.2.1) =
      (pairs xs).map fun (y, z, rest) => (y, z, rest ++ [x]) := by
  induction xs with
  | nil => rfl
  | cons a xs ih =>
      obtain ⟨ha, hrest⟩ := List.forall_mem_cons.mp hxs
      have hpicks : (picks (xs ++ [x])).filter (fun entry => old entry.1) =
          (picks xs).map fun (y, rest) => (y, rest ++ [x]) := by
        have hlast : [(x, xs)].filter (fun entry => old entry.1) = [] := by simp [hx]
        rw [picks_concat, List.filter_append, hlast, List.append_nil, List.filter_eq_self]
        rintro _ hentry
        obtain ⟨entry, hmem, rfl⟩ := List.mem_map.mp hentry
        exact hrest entry.1 (mem_of_mem_picks hmem)
      have hpairs := ih hrest
      simp only [List.cons_append, pairs, List.filter_append, List.filter_map, Function.comp_def, ha,
        Bool.true_and, hpicks, hpairs, List.map_append, List.map_map]

/-! ## Filters -/

theorem filterMap_ite (p : β → Prop) [DecidablePred p] (f : β → γ) (xs : List β) :
    xs.filterMap (fun x => if p x then some (f x) else none) = (xs.filter (p ·)).map f := by
  induction xs with
  | nil => rfl
  | cons x xs ih => by_cases h : p x <;> simp [h, ih]

/-- Whatever answers more often answers all that was answered before, in the same order. -/
theorem filterMap_sublist {f g : β → Option γ} (h : ∀ x y, f x = some y → g x = some y)
    (xs : List β) : (xs.filterMap f).Sublist (xs.filterMap g) := by
  induction xs with
  | nil => exact .slnil
  | cons x xs ih =>
      cases hf : f x with
      | some y => simpa [hf, h x y hf] using ih
      | none =>
          rw [List.filterMap_cons_none hf]
          cases hg : g x with
          | none => simpa [hg] using ih
          | some y => simpa [hg] using ih.cons y

/-- A test of answers that can be made beforehand. -/
theorem filter_filterMap_comm {f : β → Option γ} {answered : γ → Bool} {asked : β → Bool}
    (h : ∀ x y, f x = some y → answered y = asked x) (xs : List β) :
    (xs.filterMap f).filter answered = (xs.filter asked).filterMap f := by
  rw [List.filter_filterMap, List.filterMap_filter]
  refine List.filterMap_congr fun x _ => ?_
  cases hf : f x with
  | none => simp
  | some y =>
      have hsame := h x y hf
      cases hasked : asked x <;> simp [Option.filter, hsame, hasked]

end SensorBar
