import Mathlib.Data.List.DropRight
import SensorBar.Filter.Chain

/-! # Runs of filters

A run over a stream in two parts is a run over the first part and, from where that leads, a run over
the second.  What a filter holds after a stream is therefore proved from the end of the stream, one
frame at a time.  The exchanges of a run keep every frame beside what was made of it, for statements
that compare the two.
-/

namespace SensorBar.Filter

/-! ## The end of a list -/

section Trailing

variable {β : Type} (p : β → Bool)

theorem length_rtakeWhile_concat (xs : List β) (x : β) :
    ((xs ++ [x]).rtakeWhile p).length = if p x then (xs.rtakeWhile p).length + 1 else 0 := by
  rw [List.rtakeWhile_concat]
  split <;> simp

theorem le_length_rtakeWhile_iff (n : Nat) (xs : List β) :
    n ≤ (xs.rtakeWhile p).length ↔ n ≤ xs.length ∧ ∀ x ∈ xs.rtake n, p x = true := by
  induction xs using List.reverseRecOn generalizing n with
  | nil => simp
  | append_singleton xs x ih =>
    cases n with
    | zero => simp
    | succ n =>
      rw [length_rtakeWhile_concat, List.rtake_concat_succ, List.forall_mem_append,
        List.forall_mem_singleton, List.length_append, List.length_singleton]
      cases hx : p x <;> simp [ih]

end Trailing

variable {α : Type}

/-- The position of the last valid frame of a stream. -/
def latestPosition (frames : List (Frame α)) : Option (Point α) :=
  (frames.filter (·.valid)).getLast?.map (·.position)

theorem latestPosition_concat (frames : List (Frame α)) (f : Frame α) :
    latestPosition (frames ++ [f]) =
      if f.valid then some f.position else latestPosition frames := by
  unfold latestPosition
  cases h : f.valid <;> simp [List.filter_append, h]

variable [Scalar α]

theorem run_cons (g : Filter α) (f : Frame α) (now : Nat) (rest : List (Frame α × Nat)) :
    g.run ((f, now) :: rest) =
      (((g.step now f).1.run rest).1, (g.step now f).2 :: ((g.step now f).1.run rest).2) :=
  rfl

theorem run_append (g : Filter α) (earlier later : List (Frame α × Nat)) :
    g.run (earlier ++ later) =
      (((g.run earlier).1.run later).1, (g.run earlier).2 ++ ((g.run earlier).1.run later).2) := by
  induction earlier generalizing g with
  | nil => rfl
  | cons entry rest ih => simp [run, ih]

theorem run_concat (g : Filter α) (past : List (Frame α × Nat)) (f : Frame α) (now : Nat) :
    g.run (past ++ [(f, now)]) =
      (((g.run past).1.step now f).1, (g.run past).2 ++ [((g.run past).1.step now f).2]) := by
  rw [run_append]
  rfl

/-- A run makes one frame of every frame. -/
theorem length_run (g : Filter α) (stream : List (Frame α × Nat)) :
    (g.run stream).2.length = stream.length := by
  induction stream generalizing g with
  | nil => rfl
  | cons entry rest ih => simp [run, ih]

/-- What leaves a filter by some frame depends on the frames up to that one. -/
theorem run_take (g : Filter α) (stream : List (Frame α × Nat)) (n : Nat) :
    (g.run (stream.take n)).2 = (g.run stream).2.take n := by
  induction stream generalizing g n with
  | nil => simp [run]
  | cons entry rest ih =>
    cases n with
    | zero => rfl
    | succ n => simp [run, ih]

/-- Every frame of a run is made by the filter that the frames before it led to. -/
theorem getElem?_run (g : Filter α) (stream : List (Frame α × Nat)) (k : Nat) :
    (g.run stream).2[k]? =
      stream[k]?.map fun entry => ((g.run (stream.take k)).1.step entry.2 entry.1).2 := by
  induction stream generalizing g k with
  | nil => simp [run]
  | cons entry rest ih =>
    cases k with
    | zero => simp [run]
    | succ k => simp [run, ih]

/-! ## Exchanges -/

/-- The frames of a stream, each with the frame that a run makes of it. -/
def exchanges (g : Filter α) (stream : List (Frame α × Nat)) : List (Frame α × Frame α) :=
  (stream.map (·.1)).zip (g.run stream).2

theorem map_fst_exchanges (g : Filter α) (stream : List (Frame α × Nat)) :
    (g.exchanges stream).map (·.1) = stream.map (·.1) :=
  List.map_fst_zip (by simp [length_run])

theorem map_snd_exchanges (g : Filter α) (stream : List (Frame α × Nat)) :
    (g.exchanges stream).map (·.2) = (g.run stream).2 :=
  List.map_snd_zip (by simp [length_run])

theorem exchanges_cons (g : Filter α) (f : Frame α) (now : Nat) (rest : List (Frame α × Nat)) :
    g.exchanges ((f, now) :: rest) = (f, (g.step now f).2) :: (g.step now f).1.exchanges rest :=
  rfl

theorem exchanges_concat (g : Filter α) (past : List (Frame α × Nat)) (f : Frame α) (now : Nat) :
    g.exchanges (past ++ [(f, now)]) =
      g.exchanges past ++ [(f, ((g.run past).1.step now f).2)] := by
  unfold exchanges
  rw [run_concat, List.map_append, List.zip_append (by simp [length_run])]
  rfl

theorem exchanges_take (g : Filter α) (stream : List (Frame α × Nat)) (n : Nat) :
    g.exchanges (stream.take n) = (g.exchanges stream).take n := by
  unfold exchanges
  rw [run_take, List.map_take]
  exact List.take_zipWith.symm

/-- The exchanges up to some point are those of a shorter stream. -/
theorem exists_exchanges_of_prefix {g : Filter α} {stream : List (Frame α × Nat)}
    {past : List (Frame α × Frame α)} (h : past <+: g.exchanges stream) :
    ∃ before, g.exchanges before = past := by
  refine ⟨stream.take past.length, ?_⟩
  rw [exchanges_take]
  exact (List.prefix_iff_eq_take.mp h).symm

/-- Every exchange is made by the filter that the exchanges before it led to. -/
theorem exists_step_of_exchanges {g : Filter α} {stream : List (Frame α × Nat)}
    {past later : List (Frame α × Frame α)} {f out : Frame α}
    (split : g.exchanges stream = past ++ (f, out) :: later) :
    ∃ before now, g.exchanges before = past ∧ ((g.run before).1.step now f).2 = out := by
  have hprefix : past ++ [(f, out)] <+: g.exchanges stream := ⟨later, by simp [split]⟩
  obtain ⟨upTo, hupTo⟩ := exists_exchanges_of_prefix hprefix
  cases upTo using List.reverseRecOn with
  | nil => simp [exchanges] at hupTo
  | append_singleton before entry =>
    obtain ⟨seen, now⟩ := entry
    rw [exchanges_concat] at hupTo
    obtain ⟨hpast, hlast⟩ := List.append_inj' hupTo rfl
    obtain ⟨rfl, hout⟩ := Prod.mk.inj (List.singleton_inj.mp hlast)
    exact ⟨before, now, hpast, hout⟩

end SensorBar.Filter
