import Mathlib.Tactic.Tauto
import SensorBar.Proofs.FilterRun

/-! # Glitch rejection over a stream

What glitch rejection remembers is the position it told last, and how many frames at the end of the
stream are far from it.  A frame is told as a jump when it is far as well and the budget is used up,
so a jump is always the last of one frame more than the budget that are all far from one position.
All of this takes that no position is far from itself, as is so for every accepted distance.
-/

namespace SensorBar

variable {α : Type} [Scalar α]

/-- A valid frame that is more than a distance away from a position. -/
def Frame.FarFrom (distanceSquared : α) (p : Point α) (f : Frame α) : Prop :=
  f.valid = true ∧ distanceSquared < p.distSq f.position

instance (distanceSquared : α) (p : Point α) (f : Frame α) :
    Decidable (f.FarFrom distanceSquared p) :=
  inferInstanceAs (Decidable (_ ∧ _))

theorem Frame.not_farFrom_of_missing {distanceSquared : α} {p : Point α} {f : Frame α}
    (missing : f.valid = false) : ¬ f.FarFrom distanceSquared p := by
  simp [Frame.FarFrom, missing]

namespace Filter

/-! ## Streaks -/

section Streak

variable {distanceSquared : α} {p : Point α}

/-- How many frames at the end of a stream are far from a position. -/
def streak (distanceSquared : α) (p : Point α) (frames : List (Frame α)) : Nat :=
  (frames.rtakeWhile fun f => f.FarFrom distanceSquared p).length

@[simp] theorem streak_nil : streak distanceSquared p [] = 0 := rfl

theorem streak_concat (frames : List (Frame α)) (f : Frame α) :
    streak distanceSquared p (frames ++ [f]) =
      if f.FarFrom distanceSquared p then streak distanceSquared p frames + 1 else 0 := by
  unfold streak
  rw [length_rtakeWhile_concat]
  simp only [decide_eq_true_eq]

theorem le_streak_iff (n : Nat) (frames : List (Frame α)) :
    n ≤ streak distanceSquared p frames ↔
      n ≤ frames.length ∧ ∀ f ∈ frames.rtake n, f.FarFrom distanceSquared p := by
  unfold streak
  rw [le_length_rtakeWhile_iff]
  simp only [decide_eq_true_eq]

end Streak

/-! ## One step -/

namespace Glitch

/-- The ways in which a frame can move glitch rejection. -/
inductive Moves (g : Glitch α) (f : Frame α) : Glitch α → Frame α → Prop where
  | miss (missing : f.valid = false) : Moves g f { g with count := 0 } f
  | accept (valid : f.valid = true)
      (due : ∀ p, g.position = some p → f.FarFrom g.distanceSquared p → g.maxCount ≤ g.count) :
      Moves g f (g.accept f.position) f
  | hold {p : Point α} (told : g.position = some p) (far : f.FarFrom g.distanceSquared p)
      (within : g.count < g.maxCount) :
      Moves g f { g with count := g.count + 1 } { f with position := p }

theorem step_moves (g : Glitch α) (f : Frame α) : Moves g f (g.step f).1 (g.step f).2 := by
  unfold step
  split
  next valid =>
    split
    next unseen => exact .accept valid (by simp [unseen])
    next p told =>
      split
      next held => exact .hold told ⟨valid, held.1⟩ held.2
      next passes =>
        refine .accept valid fun q hq far => ?_
        obtain rfl : p = q := Option.some.inj (told.symm.trans hq)
        exact Nat.not_lt.mp fun within => passes ⟨far.2, within⟩
  next missing => exact .miss (by simpa using missing)

/-- Nothing but the position of a frame is ever changed. -/
theorem Moves.out_eq {g next : Glitch α} {f out : Frame α} (moves : g.Moves f next out) :
    out = { f with position := out.position } := by
  cases moves <;> rfl

/-- No position is far from itself. -/
def Rests (distanceSquared : α) : Prop :=
  ∀ p : Point α, ¬ distanceSquared < p.distSq p

/-- What glitch rejection remembers of a stream `seen` of which it made `told`. -/
structure Remembers (maxCount : Nat) (distanceSquared : α) (seen told : List (Frame α))
    (g : Glitch α) : Prop where
  settings : g.maxCount = maxCount ∧ g.distanceSquared = distanceSquared
  position : g.position = latestPosition told
  count_le : g.count ≤ maxCount
  count : ∀ p, g.position = some p → g.count = streak distanceSquared p seen
  /-- The position was told before the frames that count against it. -/
  held : latestPosition (told.rdrop g.count) = g.position

variable {maxCount : Nat} {distanceSquared : α} {seen told : List (Frame α)} {g : Glitch α}

theorem remembers_start :
    (start maxCount distanceSquared).Remembers maxCount distanceSquared [] [] :=
  ⟨⟨rfl, rfl⟩, rfl, Nat.zero_le _, nofun, rfl⟩

/-- After a frame that was told as it is the wait begins anew. -/
theorem Remembers.of_told (h : g.Remembers maxCount distanceSquared seen told) {next : Glitch α}
    {f : Frame α} (settings : next.maxCount = g.maxCount ∧ next.distanceSquared = g.distanceSquared)
    (count : next.count = 0) (position : next.position = latestPosition (told ++ [f]))
    (near : ∀ p, next.position = some p → ¬ f.FarFrom distanceSquared p) :
    next.Remembers maxCount distanceSquared (seen ++ [f]) (told ++ [f]) := by
  refine ⟨?_, position, by omega, ?_, ?_⟩
  · rw [settings.1, settings.2]
    exact h.settings
  · intro p hp
    rw [streak_concat, if_neg (near p hp), count]
  · rw [count, List.rdrop_zero, position]

theorem Remembers.moves (rests : Rests distanceSquared)
    (h : g.Remembers maxCount distanceSquared seen told) {f : Frame α} {next : Glitch α}
    {out : Frame α} (moves : g.Moves f next out) :
    next.Remembers maxCount distanceSquared (seen ++ [f]) (told ++ [out]) := by
  cases moves with
  | miss missing =>
    refine h.of_told ⟨rfl, rfl⟩ rfl ?_ fun p _ => Frame.not_farFrom_of_missing missing
    simp [latestPosition_concat, missing, h.position]
  | accept valid due =>
    refine h.of_told ⟨rfl, rfl⟩ rfl ?_ fun p hp far => ?_
    · simp [accept, latestPosition_concat, valid]
    · obtain rfl : f.position = p := Option.some.inj hp
      exact rests f.position far.2
  | @hold p position far within =>
    obtain ⟨hmax, hdistance⟩ := h.settings
    rw [hdistance] at far
    rw [hmax] at within
    refine ⟨h.settings, ?_, within, ?_, ?_⟩
    · simp [latestPosition_concat, far.1, position]
    · intro q hq
      obtain rfl : p = q := Option.some.inj (position.symm.trans hq)
      rw [streak_concat, if_pos far, ← h.count p position]
    · -- The streak grows by the frame that is held, and begins where it began.
      rw [List.rdrop_concat_succ]
      exact h.held

/-- A frame is told as a jump when it is one and the streak before it has used up the budget. -/
theorem Remembers.farFrom_iff (rests : Rests distanceSquared)
    (h : g.Remembers maxCount distanceSquared seen told) {p : Point α}
    (last : latestPosition told = some p) {f : Frame α} {next : Glitch α} {out : Frame α}
    (moves : g.Moves f next out) :
    out.FarFrom distanceSquared p ↔
      f.FarFrom distanceSquared p ∧ maxCount ≤ streak distanceSquared p seen := by
  have hposition : g.position = some p := h.position.trans last
  obtain ⟨hmax, hdistance⟩ := h.settings
  rw [← h.count p hposition]
  cases moves with
  | miss missing => simp [Frame.not_farFrom_of_missing missing]
  | accept valid due =>
    rw [hdistance, hmax] at due
    exact ⟨fun far => ⟨far, due p hposition far⟩, And.left⟩
  | @hold q position far within =>
    obtain rfl : p = q := Option.some.inj (hposition.symm.trans position)
    rw [hmax] at within
    exact ⟨fun jump => absurd jump.2 (rests p), fun used => absurd used.2 (by omega)⟩

end Glitch

/-! ## Runs -/

section Run

variable (maxCount : Nat) {distanceSquared : α}

theorem run_glitch_remembers (rests : Glitch.Rests distanceSquared)
    (stream : List (Frame α × Nat)) :
    ∃ g : Glitch α,
      ((Filter.glitch (.start maxCount distanceSquared)).run stream).1 = .glitch g ∧
        g.Remembers maxCount distanceSquared (stream.map (·.1))
          ((Filter.glitch (.start maxCount distanceSquared)).run stream).2 := by
  induction stream using List.reverseRecOn with
  | nil => exact ⟨_, rfl, Glitch.remembers_start⟩
  | append_singleton past entry ih =>
    obtain ⟨g, hg, remembers⟩ := ih
    rw [run_concat, hg, List.map_append, List.map_singleton]
    exact ⟨_, rfl, remembers.moves rests (g.step_moves entry.1)⟩

/--
A frame is told far from the position told before it exactly when it and as many frames before it as
the budget are all far from that position, which was told before all of them.
-/
theorem run_glitch_jump_iff (rests : Glitch.Rests distanceSquared) (stream : List (Frame α × Nat)) :
    let told := ((Filter.glitch (.start maxCount distanceSquared)).run stream).2
    let seen := stream.map (·.1)
    ∀ (k : Nat) (f : Frame α) (p : Point α), told[k]? = some f →
      latestPosition (told.take k) = some p →
        (f.FarFrom distanceSquared p ↔
          maxCount ≤ k ∧ ∀ far ∈ (seen.take (k + 1)).rtake (maxCount + 1),
            far.FarFrom distanceSquared p) ∧
        (f.FarFrom distanceSquared p → streak distanceSquared p (seen.take k) = maxCount ∧
          latestPosition ((told.take k).rdrop maxCount) = some p) := by
  intro told seen k f p hf last
  obtain ⟨entry, hentry, hf⟩ := Option.map_eq_some_iff.mp ((getElem?_run _ stream k).symm.trans hf)
  obtain ⟨g, hg, remembers⟩ := run_glitch_remembers maxCount rests (stream.take k)
  have hseen : seen.take (k + 1) = seen.take k ++ [entry.1] := by
    rw [← List.map_take, List.take_add_one, hentry, List.map_append, List.map_take]
    rfl
  have hlength : (seen.take k).length = k := by
    have hlt := (List.getElem?_eq_some_iff.mp hentry).1
    rw [List.length_take, List.length_map]
    omega
  rw [List.map_take, run_take] at remembers
  rw [hg] at hf
  obtain rfl : (g.step entry.1).2 = f := hf
  have jump := remembers.farFrom_iff rests last (g.step_moves entry.1)
  constructor
  · rw [jump, le_streak_iff, hlength, hseen, List.rtake_concat_succ, List.forall_mem_append,
      List.forall_mem_singleton]
    tauto
  · intro far
    have hposition : g.position = some p := remembers.position.trans last
    have hcount := remembers.count p hposition
    have hfull : g.count = maxCount :=
      Nat.le_antisymm remembers.count_le (hcount ▸ (jump.mp far).2)
    rw [← hfull]
    exact ⟨hcount.symm, remembers.held.trans hposition⟩

end Run

end Filter

end SensorBar
