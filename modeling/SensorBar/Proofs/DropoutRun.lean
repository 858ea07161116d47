import SensorBar.Proofs.FilterRun

/-! # Dropout repair over a stream

What dropout repair holds after a stream is told by the stream alone: the position of the last valid
frame, and how many frames have been missing since, up to the budget.  A frame therefore leaves it
valid exactly when some frame so far was valid and no more frames than the budget are missing now.
-/

namespace SensorBar.Filter

variable {α : Type}

/-- How many frames at the end of a stream are missing. -/
def gap (frames : List (Frame α)) : Nat :=
  (frames.rtakeWhile fun f => !f.valid).length

theorem gap_concat (frames : List (Frame α)) (f : Frame α) :
    gap (frames ++ [f]) = if f.valid then 0 else gap frames + 1 := by
  unfold gap
  rw [length_rtakeWhile_concat]
  cases f.valid <;> rfl

namespace Dropout

/-- What dropout repair with a budget of `maxCount` frames holds after a stream. -/
def after (maxCount : Nat) (frames : List (Frame α)) : Dropout α where
  maxCount
  count := if (latestPosition frames).isSome then min maxCount (gap frames) else 0
  position := latestPosition frames

theorem step_after_of_valid (maxCount : Nat) (past : List (Frame α)) {f : Frame α}
    (valid : f.valid = true) :
    (after maxCount past).step f = (after maxCount (past ++ [f]), f) := by
  simp [step, after, valid, latestPosition_concat, gap_concat]

/-- A missing frame before any valid one changes nothing. -/
theorem step_after_of_unseen (maxCount : Nat) {past : List (Frame α)} {f : Frame α}
    (missing : f.valid = false) (unseen : latestPosition past = none) :
    (after maxCount past).step f = (after maxCount (past ++ [f]), f) := by
  simp [step, after, missing, unseen, latestPosition_concat]

theorem after_of_seen (maxCount : Nat) {frames : List (Frame α)} {position : Point α}
    (seen : latestPosition frames = some position) :
    after maxCount frames = ⟨maxCount, min maxCount (gap frames), some position⟩ := by
  simp [after, seen]

theorem step_after_of_missing (maxCount : Nat) {past : List (Frame α)} {f : Frame α}
    {position : Point α} (missing : f.valid = false) (seen : latestPosition past = some position) :
    (after maxCount past).step f = (after maxCount (past ++ [f]),
      if gap past < maxCount then { f with position, valid := true } else f) := by
  have hseen : latestPosition (past ++ [f]) = some position := by
    simp [latestPosition_concat, missing, seen]
  have hgap : gap (past ++ [f]) = gap past + 1 := by
    simp [gap_concat, missing]
  rw [after_of_seen maxCount seen, after_of_seen maxCount hseen, hgap]
  simp only [step, missing, Bool.false_eq_true, if_false]
  by_cases within : gap past < maxCount
  · have hroom : min maxCount (gap past) < maxCount := by omega
    have hcount : min maxCount (gap past) + 1 = min maxCount (gap past + 1) := by omega
    rw [if_pos hroom, if_pos within, hcount]
  · have hfull : ¬ min maxCount (gap past) < maxCount := by omega
    have hcount : min maxCount (gap past) = min maxCount (gap past + 1) := by omega
    rw [if_neg hfull, if_neg within, hcount]

theorem step_after_fst (maxCount : Nat) (past : List (Frame α)) (f : Frame α) :
    ((after maxCount past).step f).1 = after maxCount (past ++ [f]) := by
  cases hvalid : f.valid with
  | true => rw [step_after_of_valid maxCount past hvalid]
  | false =>
      cases hseen : latestPosition past with
      | none => rw [step_after_of_unseen maxCount hvalid hseen]
      | some position => rw [step_after_of_missing maxCount hvalid hseen]

/-- The position that dropout repair with a budget of `maxCount` frames shows after a stream. -/
def shown (maxCount : Nat) (frames : List (Frame α)) : Option (Point α) :=
  if gap frames ≤ maxCount then latestPosition frames else none

theorem shown_eq_some_iff {maxCount : Nat} {frames : List (Frame α)} {position : Point α} :
    shown maxCount frames = some position ↔
      gap frames ≤ maxCount ∧ latestPosition frames = some position := by
  simp [shown]

theorem step_after_snd (maxCount : Nat) (past : List (Frame α)) (f : Frame α) :
    ((after maxCount past).step f).2 =
      match shown maxCount (past ++ [f]) with
      | some position => { f with position, valid := true }
      | none => f := by
  rw [shown, latestPosition_concat, gap_concat]
  cases hvalid : f.valid with
  | true => simp [step_after_of_valid maxCount past hvalid, ← hvalid]
  | false =>
      cases hseen : latestPosition past with
      | none => simp [step_after_of_unseen maxCount hvalid hseen]
      | some position =>
          rw [step_after_of_missing maxCount hvalid hseen]
          by_cases within : gap past < maxCount
          · simp [within, Nat.succ_le_of_lt within]
          · have full : ¬ gap past + 1 ≤ maxCount := within
            simp [within, full]

theorem valid_eq_false_of_shown_eq_none {maxCount : Nat} {past : List (Frame α)} {f : Frame α}
    (h : shown maxCount (past ++ [f]) = none) : f.valid = false := by
  cases hvalid : f.valid with
  | false => rfl
  | true => simp [shown, gap_concat, latestPosition_concat, hvalid] at h

/-- A frame leaves valid as long as the frames missing since the last valid one fit the budget. -/
theorem step_after_valid_iff (maxCount : Nat) (past : List (Frame α)) (f : Frame α) :
    ((after maxCount past).step f).2.valid = true ↔
      (latestPosition (past ++ [f])).isSome ∧ gap (past ++ [f]) ≤ maxCount := by
  rw [step_after_snd]
  cases hshown : shown maxCount (past ++ [f]) with
  | some position =>
      obtain ⟨hgap, hposition⟩ := shown_eq_some_iff.mp hshown
      simp [hgap, hposition]
  | none =>
      have missing := valid_eq_false_of_shown_eq_none hshown
      refine iff_of_false (by simp [missing]) ?_
      rintro ⟨seen, fits⟩
      rw [shown, if_pos fits] at hshown
      simp [hshown] at seen

end Dropout

/-- After a stream dropout repair holds what is told by the stream. -/
theorem run_dropout_fst [Scalar α] (maxCount : Nat) (stream : List (Frame α × Nat)) :
    ((Filter.dropout (.start maxCount)).run stream).1 =
      .dropout (.after maxCount (stream.map (·.1))) := by
  induction stream using List.reverseRecOn with
  | nil => rfl
  | append_singleton past entry ih =>
      rw [run_concat, ih, List.map_append, List.map_singleton, ← Dropout.step_after_fst]
      rfl

end SensorBar.Filter
