import SensorBar.Proofs.Double.Arithmetic
import SensorBar.Proofs.GlitchRun

/-! # The wait of glitch rejection

A frame that glitch rejection holds back is told at the position before it, and nothing else of the
frame is changed.  The counter of a filter is the number of frames at the end of its run that were
held back, whatever mix of missing, near and far frames came before: a missing frame and a frame
told as it is both put it back to zero.  So no stretch of held frames is longer than the budget, and
a jump is told only at the end of a stretch that is as long.
-/

namespace SensorBar.Filter

/-! ## Held frames -/

section Held

variable {α : Type}

open scoped Classical in
/-- How many frames at the end of a run were told at another position than their own. -/
noncomputable def heldLast (history : List (Frame α × Frame α)) : Nat :=
  (history.rtakeWhile fun e => e.2.position ≠ e.1.position).length

open scoped Classical in
theorem heldLast_concat (history : List (Frame α × Frame α)) (f out : Frame α) :
    heldLast (history ++ [(f, out)]) =
      if out.position = f.position then 0 else heldLast history + 1 := by
  unfold heldLast
  rw [length_rtakeWhile_concat]
  by_cases same : out.position = f.position <;> simp [same]

theorem le_heldLast_iff (n : Nat) (history : List (Frame α × Frame α)) :
    n ≤ heldLast history ↔
      n ≤ history.length ∧ ∀ e ∈ history.rtake n, e.2.position ≠ e.1.position := by
  unfold heldLast
  rw [le_length_rtakeWhile_iff]
  simp only [decide_eq_true_eq]

theorem length_le_heldLast {history stretch : List (Frame α × Frame α)}
    (last : stretch <:+ history) (held : ∀ e ∈ stretch, e.2.position ≠ e.1.position) :
    stretch.length ≤ heldLast history := by
  have hlast : history.rtake stretch.length = stretch := (List.suffix_iff_eq_drop.mp last).symm
  rw [le_heldLast_iff, hlast]
  exact ⟨last.length_le, held⟩

end Held

/-! ## One step -/

namespace Glitch

variable {α : Type} [Scalar α] {g next : Glitch α} {f out : Frame α}

theorem Moves.eq_of_missing (moves : g.Moves f next out) (missing : f.valid = false) : out = f := by
  cases moves with
  | miss _ => rfl
  | accept valid due => rfl
  | hold told far within => exact absurd far (Frame.not_farFrom_of_missing missing)

theorem Moves.position_cases (moves : g.Moves f next out) :
    out.position = f.position ∨ g.position = some out.position := by
  cases moves with
  | miss missing => exact .inl rfl
  | accept valid due => exact .inl rfl
  | hold told far within => exact .inr told

theorem Moves.eq_of_near (moves : g.Moves f next out) {p : Point α} (told : g.position = some p)
    (near : ¬ g.distanceSquared < p.distSq f.position) : out = f := by
  cases moves with
  | miss missing => rfl
  | accept valid due => rfl
  | @hold q told' far within =>
    obtain rfl : p = q := Option.some.inj (told.symm.trans told')
    exact absurd far.2 near

open scoped Classical in
/-- The counter counts a frame that is told at another position, and any other frame clears it. -/
theorem Moves.count_eq (rests : Rests g.distanceSquared) (moves : g.Moves f next out) :
    next.count = if out.position = f.position then 0 else g.count + 1 := by
  cases moves with
  | miss missing => exact (if_pos rfl).symm
  | accept valid due => exact (if_pos rfl).symm
  | @hold p told far within =>
    have elsewhere : p ≠ f.position := by
      rintro rfl
      exact rests f.position far.2
    exact (if_neg elsewhere).symm

end Glitch

/-! ## Runs -/

section Run

variable {α : Type} [Scalar α] (maxCount : Nat) {distanceSquared : α}

/-- The counter of glitch rejection is the number of frames that were held back last. -/
theorem run_glitch_count (rests : Glitch.Rests distanceSquared) (stream : List (Frame α × Nat))
    {g : Glitch α}
    (after : ((Filter.glitch (.start maxCount distanceSquared)).run stream).1 = .glitch g) :
    g.count = heldLast ((Filter.glitch (.start maxCount distanceSquared)).exchanges stream) := by
  induction stream using List.reverseRecOn generalizing g with
  | nil =>
    obtain rfl := Filter.glitch.inj after
    rfl
  | append_singleton past entry ih =>
    obtain ⟨f, now⟩ := entry
    obtain ⟨before, hbefore, remembers⟩ := run_glitch_remembers maxCount rests past
    have hcount := ih hbefore
    rw [run_concat, hbefore] at after
    obtain rfl : (before.step f).1 = g := Filter.glitch.inj after
    have hdistance : before.distanceSquared = distanceSquared := remembers.settings.2
    have hnext := (before.step_moves f).count_eq (hdistance.symm ▸ rests)
    rw [exchanges_concat, heldLast_concat, hbefore, ← hcount]
    exact hnext

theorem heldLast_le (rests : Glitch.Rests distanceSquared) (stream : List (Frame α × Nat)) :
    heldLast ((Filter.glitch (.start maxCount distanceSquared)).exchanges stream) ≤ maxCount := by
  obtain ⟨g, hg, remembers⟩ := run_glitch_remembers maxCount rests stream
  exact run_glitch_count maxCount rests stream hg ▸ remembers.count_le

/-- No stretch of held frames, wherever it lies in a run, is longer than the budget. -/
theorem length_le_of_held (rests : Glitch.Rests distanceSquared) {stream : List (Frame α × Nat)}
    {stretch : List (Frame α × Frame α)}
    (within : stretch <:+: (Filter.glitch (.start maxCount distanceSquared)).exchanges stream)
    (held : ∀ e ∈ stretch, e.2.position ≠ e.1.position) : stretch.length ≤ maxCount := by
  obtain ⟨upTo, last, first⟩ := List.infix_iff_suffix_prefix.mp within
  obtain ⟨before, rfl⟩ := exists_exchanges_of_prefix first
  exact (length_le_heldLast last held).trans (heldLast_le maxCount rests before)

/-- Every exchange of a run is one move of a filter that remembers the exchanges before it. -/
theorem moves_of_exchanges (rests : Glitch.Rests distanceSquared) {stream : List (Frame α × Nat)}
    {past later : List (Frame α × Frame α)} {f out : Frame α}
    (split : (Filter.glitch (.start maxCount distanceSquared)).exchanges stream =
      past ++ (f, out) :: later) :
    ∃ g next : Glitch α, g.Moves f next out ∧
      g.Remembers maxCount distanceSquared (past.map (·.1)) (past.map (·.2)) ∧
      g.count = heldLast past := by
  obtain ⟨before, now, rfl, hout⟩ := exists_step_of_exchanges split
  obtain ⟨g, hg, remembers⟩ := run_glitch_remembers maxCount rests before
  have hcount := run_glitch_count maxCount rests before hg
  rw [hg] at hout
  obtain rfl : (g.step f).2 = out := hout
  rw [map_fst_exchanges, map_snd_exchanges]
  exact ⟨g, _, g.step_moves f, remembers, hcount⟩

/-- A jump is told at the end of a stretch of held frames that has used up the budget. -/
theorem exists_wait_of_jump (rests : Glitch.Rests distanceSquared) {stream : List (Frame α × Nat)}
    {past later : List (Frame α × Frame α)} {f out : Frame α}
    (split : (Filter.glitch (.start maxCount distanceSquared)).exchanges stream =
      past ++ (f, out) :: later) {p : Point α} (last : latestPosition (past.map (·.2)) = some p)
    (jump : out.FarFrom distanceSquared p) :
    ∃ wait, wait <:+ past ∧ wait.length = maxCount ∧
      ∀ e ∈ wait, e.1.valid = true ∧ e.2.position ≠ e.1.position := by
  obtain ⟨g, next, moves, remembers, hcount⟩ := moves_of_exchanges maxCount rests split
  have position : g.position = some p := remembers.position.trans last
  have used := ((remembers.farFrom_iff rests last moves).mp jump).2
  have hstreak := remembers.count p position
  have full : maxCount ≤ heldLast past := by omega
  obtain ⟨hlength, held⟩ := (le_heldLast_iff maxCount past).mp full
  have hwait : past.rtake maxCount <:+ past := List.drop_suffix _ past
  have hcovers : (past.rtake maxCount).length = maxCount := by
    rw [List.rtake, List.length_drop]
    omega
  refine ⟨past.rtake maxCount, hwait, hcovers, fun e he => ⟨?_, held e he⟩⟩
  -- A missing frame is told as it is, so it is not among the held ones.
  by_contra missing
  obtain ⟨earlier, rest, rfl⟩ := List.append_of_mem (hwait.mem he)
  have hsplit : (Filter.glitch (.start maxCount distanceSquared)).exchanges stream =
      earlier ++ (e.1, e.2) :: (rest ++ (f, out) :: later) := by
    simpa using split
  obtain ⟨_, _, held_moves, -⟩ := moves_of_exchanges maxCount rests hsplit
  exact held e he (congrArg _ (held_moves.eq_of_missing (by simpa using missing)))

end Run

/-! ## Machine numbers -/

/--
Glitch rejection tells a missing frame as it is.  Of a valid frame it changes the position at most,
and then to the one told at the latest valid frame before it, from which the frame is far.  It holds
back no more frames in a row than its budget, and a frame that is told far from the position before
it is told so at once after as many valid frames that were held back.
-/
theorem run_glitch_waits [Trigonometry Float] (maxCount : Nat) {distanceSquared : Float}
    (nonneg : 0 ≤ distanceSquared) (stream : List (Frame Float × Nat)) :
    let history := (Filter.glitch (.start maxCount distanceSquared)).exchanges stream
    (∀ past f out later, history = past ++ (f, out) :: later →
      let last := latestPosition (past.map (·.2))
      (f.valid = false → out = f) ∧
      (f.valid = true →
        out.valid = true ∧ out.health = f.health ∧ out.distance = f.distance ∧
        (out.position = f.position ∨ last = some out.position) ∧
        ∀ p, last = some p →
          (¬ distanceSquared < p.distSq f.position → out = f) ∧
          (distanceSquared < p.distSq out.position →
            ∃ wait, wait <:+ past ∧ wait.length = maxCount ∧
              ∀ e ∈ wait, e.1.valid = true ∧ e.2.position ≠ e.1.position))) ∧
    ∀ stretch, stretch <:+: history → (∀ e ∈ stretch, e.2.position ≠ e.1.position) →
      stretch.length ≤ maxCount := by
  intro history
  have rests : Glitch.Rests distanceSquared :=
    fun p => Double.not_lt_distance_self nonneg p.x p.y
  refine ⟨?_, fun stretch within held => length_le_of_held maxCount rests within held⟩
  intro past f out later split last
  obtain ⟨g, next, moves, remembers, -⟩ := moves_of_exchanges maxCount rests split
  have position : g.position = last := remembers.position
  refine ⟨moves.eq_of_missing, fun valid => ?_⟩
  have kept := moves.out_eq
  have hvalid : out.valid = true := by rw [kept, valid]
  refine ⟨hvalid, by rw [kept], by rw [kept], ?_, ?_⟩
  · rw [← position]
    exact moves.position_cases
  · intro p hp
    constructor
    · intro near
      rw [← remembers.settings.2] at near
      exact moves.eq_of_near (position.trans hp) near
    · intro far
      exact exists_wait_of_jump maxCount rests split hp ⟨hvalid, far⟩

/-- A jump that is interrupted by a missing frame, and then persists. -/
def interruptedJump : List (Frame Float × Nat) :=
  [(⟨true, .good, ⟨0, 0⟩, 1⟩, 0), (⟨true, .good, ⟨100, 0⟩, 1⟩, 10000000),
    (⟨false, .lost, ⟨0, 0⟩, 0⟩, 20000000), (⟨true, .good, ⟨100, 0⟩, 1⟩, 30000000),
    (⟨true, .good, ⟨100, 0⟩, 1⟩, 40000000), (⟨true, .good, ⟨100, 0⟩, 1⟩, 50000000)]

/-- The last frame is told as a jump, after the two valid ones since the missing frame. -/
theorem run_glitch_waits_of_interruptedJump :
    let history := (Filter.glitch (.start 2 1)).exchanges interruptedJump
    (0 : Float) ≤ 1 ∧ ∃ past f out later p, history = past ++ (f, out) :: later ∧
      past.length = 5 ∧ f.valid = true ∧ latestPosition (past.map (·.2)) = some p ∧
      1 < p.distSq out.position ∧
      (∃ wait, wait <:+ past ∧ wait.length = 2 ∧
        ∀ e ∈ wait, e.1.valid = true ∧ e.2.position ≠ e.1.position) ∧
      ∀ stretch, stretch <:+: history → (∀ e ∈ stretch, e.2.position ≠ e.1.position) →
        stretch.length ≤ 2 := by
  intro history
  have nonneg : (0 : Float) ≤ 1 := by decide +kernel
  have jump : ∃ e ∈ history[5]?, e.1.valid = true ∧
      ∃ p ∈ latestPosition ((history.take 5).map (·.2)), 1 < p.distSq e.2.position := by
    decide +kernel
  obtain ⟨⟨f, out⟩, he, valid, p, hp, far⟩ := jump
  obtain ⟨hlt, hget⟩ := List.getElem?_eq_some_iff.mp he
  have split : history = history.take 5 ++ (f, out) :: history.drop 6 := by
    rw [← hget, ← List.drop_eq_getElem_cons hlt, List.take_append_drop]
  have hlength : (history.take 5).length = 5 := by
    rw [List.length_take, Nat.min_eq_left hlt.le]
  obtain ⟨hsteps, hstretch⟩ := run_glitch_waits 2 nonneg interruptedJump
  obtain ⟨-, -, -, -, hjump⟩ := (hsteps _ f out _ split).2 valid
  exact ⟨nonneg, _, f, out, _, p, split, hlength, valid, hp, far, (hjump p hp).2 far, hstretch⟩

end SensorBar.Filter
