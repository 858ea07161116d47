import SensorBar.Proofs.Accepted
import SensorBar.Proofs.Double.Arithmetic
import SensorBar.Proofs.DropoutRun
import SensorBar.Proofs.FilterStages

/-! # What counts as evidence for a jump

Glitch rejection stands behind dropout repair, and what it counts are repaired frames.  A missing
frame that is bridged repeats the position shown before it, so it is as far away as that one was and
counts like it.  A streak of repaired frames begins with a frame that is valid by itself, and each
such frame bears at most as many bridged ones as dropout repair has a budget for.
-/

namespace SensorBar.Filter

section Evidence

variable {α : Type} [Scalar α] {distanceSquared : α} {p : Point α}

/-- A repaired frame is far away when the position that is shown by then is. -/
theorem farFrom_step_after_iff (maxCount : Nat) (past : List (Frame α)) (f : Frame α) :
    ((Dropout.after maxCount past).step f).2.FarFrom distanceSquared p ↔
      ∃ q, Dropout.shown maxCount (past ++ [f]) = some q ∧ distanceSquared < p.distSq q := by
  rw [Dropout.step_after_snd]
  cases hshown : Dropout.shown maxCount (past ++ [f]) with
  | some q => simp [Frame.FarFrom]
  | none =>
    have missing := Dropout.valid_eq_false_of_shown_eq_none hshown
    simp [Frame.FarFrom, missing]

/-- A repaired frame that is far away is so by itself, or repeats what was so before. -/
theorem farFrom_or_bridged {maxCount : Nat} {past : List (Frame α)} {f : Frame α}
    (far : ((Dropout.after maxCount past).step f).2.FarFrom distanceSquared p) :
    f.FarFrom distanceSquared p ∨ f.valid = false ∧
      ∃ q, Dropout.shown maxCount past = some q ∧ distanceSquared < p.distSq q := by
  obtain ⟨q, hq, away⟩ := (farFrom_step_after_iff maxCount past f).mp far
  obtain ⟨hgap, hposition⟩ := Dropout.shown_eq_some_iff.mp hq
  rw [gap_concat] at hgap
  rw [latestPosition_concat] at hposition
  cases hvalid : f.valid with
  | true =>
    rw [if_pos hvalid, Option.some.injEq] at hposition
    exact .inl ⟨hvalid, hposition ▸ away⟩
  | false =>
    rw [hvalid, if_neg Bool.false_ne_true] at hgap hposition
    exact .inr ⟨rfl, q, Dropout.shown_eq_some_iff.mpr ⟨Nat.le_of_succ_le hgap, hposition⟩, away⟩

/-- What the streak at the end of a repaired stream rests on. -/
structure RestsOn (maxCount : Nat) (distanceSquared : α) (p : Point α)
    (frames repaired : List (Frame α)) : Prop where
  shown : 0 < streak distanceSquared p repaired ↔
    ∃ q, Dropout.shown maxCount frames = some q ∧ distanceSquared < p.distSq q
  own : ∀ f ∈ frames.rtake (streak distanceSquared p repaired),
    f.valid = true → f.FarFrom distanceSquared p
  /-- A budget is set aside for the frames that the last frame of a streak may yet bear. -/
  bound : 0 < streak distanceSquared p repaired →
    streak distanceSquared p repaired + maxCount ≤
      (frames.rtake (streak distanceSquared p repaired)).countP (·.FarFrom distanceSquared p) *
        (maxCount + 1) + gap frames

theorem RestsOn.gap_le {maxCount : Nat} {frames repaired : List (Frame α)}
    (h : RestsOn maxCount distanceSquared p frames repaired)
    (begun : 0 < streak distanceSquared p repaired) : gap frames ≤ maxCount := by
  obtain ⟨q, hq, -⟩ := h.shown.mp begun
  exact (Dropout.shown_eq_some_iff.mp hq).1

theorem RestsOn.step {maxCount : Nat} {frames repaired : List (Frame α)}
    (h : RestsOn maxCount distanceSquared p frames repaired) (f : Frame α) :
    RestsOn maxCount distanceSquared p (frames ++ [f])
      (repaired ++ [((Dropout.after maxCount frames).step f).2]) := by
  by_cases far : ((Dropout.after maxCount frames).step f).2.FarFrom distanceSquared p
  · have hshown := (farFrom_step_after_iff maxCount frames f).mp far
    refine ⟨?_, ?_, fun _ => ?_⟩ <;> rw [streak_concat, if_pos far]
    · simp [hshown]
    · rw [List.rtake_concat_succ, List.forall_mem_append, List.forall_mem_singleton]
      refine ⟨h.own, fun valid => ?_⟩
      rcases farFrom_or_bridged far with counts | ⟨missing, -⟩
      · exact counts
      · exact absurd valid (by simp [missing])
    · rw [List.rtake_concat_succ, List.countP_append, List.countP_singleton, gap_concat]
      rcases farFrom_or_bridged far with counts | ⟨missing, before⟩
      · simp only [counts, counts.1, decide_true, if_true, Nat.succ_mul, Nat.add_zero]
        rcases Nat.eq_zero_or_pos (streak distanceSquared p repaired) with idle | begun
        · omega
        · have hgap := h.gap_le begun
          have hbound := h.bound begun
          omega
      · -- What is bridged was shown before, so the streak has begun already.
        have hbound := h.bound (h.shown.mpr before)
        simp only [Frame.not_farFrom_of_missing missing, missing, decide_false,
          Bool.false_eq_true, if_false, Nat.add_zero]
        omega
  · have hshown := mt (farFrom_step_after_iff maxCount frames f).mpr far
    refine ⟨?_, ?_, ?_⟩ <;> rw [streak_concat, if_neg far]
    · simp [hshown]
    · simp
    · simp

theorem restsOn_run (maxCount : Nat) (distanceSquared : α) (p : Point α)
    (stream : List (Frame α × Nat)) :
    RestsOn maxCount distanceSquared p (stream.map (·.1))
      ((Filter.dropout (.start maxCount)).run stream).2 := by
  induction stream using List.reverseRecOn with
  | nil => exact ⟨by simp [Dropout.shown, latestPosition, run], nofun, nofun⟩
  | append_singleton past entry ih =>
    rw [run_concat, run_dropout_fst, List.map_append, List.map_singleton]
    exact ih.step entry.1

/-- Every frame of a streak that is far by itself bears a budget of bridged frames at most. -/
theorem RestsOn.streak_le {maxCount : Nat} {frames repaired : List (Frame α)}
    (h : RestsOn maxCount distanceSquared p frames repaired) :
    streak distanceSquared p repaired ≤
      (frames.rtake (streak distanceSquared p repaired)).countP (·.FarFrom distanceSquared p) *
        (maxCount + 1) := by
  rcases Nat.eq_zero_or_pos (streak distanceSquared p repaired) with idle | begun
  · omega
  · have hgap := h.gap_le begun
    have hbound := h.bound begun
    omega

end Evidence

/-! ## The chain of both -/

theorem Glitch.rests_of_accepted [Trigonometry Float] {s : GlitchSettings Float}
    (accepted : Accepted s.checks) : Rests s.distanceSquared := by
  have hdistance : Scalar.isNonnegative s.distanceSquared = true :=
    accepted _ (List.mem_singleton_self _)
  intro p
  exact Double.not_lt_distance_self (of_decide_eq_true hdistance) p.x p.y

/--
A frame leaves dropout repair and glitch rejection far from the position before it exactly when it
and the whole wait before it are far from that position after repair.  The position was told before
the wait began.  Every frame of the wait that is not missing is far by itself, and these are as many
as it takes to bear the missing ones as bridged, so without a budget for bridging none is missing.
-/
theorem run_jump_iff [Trigonometry Float] (error : DropoutSettings)
    {glitch : GlitchSettings Float} (accepted : Accepted glitch.checks)
    (stream : List (Frame Float × Nat)) :
    let budget := error.maxCount.toNat
    let wait := glitch.maxCount.toNat
    let repaired := ((Filter.dropout (.ofSettings error)).run stream).2
    let told := ((Filter.chain (ofSettings ⟨error, glitch, .off, .off⟩)).run stream).2
    told.length = stream.length ∧
      ∀ (k : Nat) (f : Frame Float) (p : Point Float), told[k]? = some f →
        latestPosition (told.take k) = some p →
          (f.FarFrom glitch.distanceSquared p ↔ wait ≤ k ∧
            ∀ far ∈ (repaired.take (k + 1)).rtake (wait + 1),
              far.FarFrom glitch.distanceSquared p) ∧
          (f.FarFrom glitch.distanceSquared p →
            let waited := ((stream.map (·.1)).take k).rtake wait
            latestPosition ((told.take k).rdrop wait) = some p ∧
              (∀ raw ∈ waited, raw.valid = true → raw.FarFrom glitch.distanceSquared p) ∧
              wait ≤ waited.countP (·.FarFrom glitch.distanceSquared p) * (budget + 1)) := by
  intro budget wait repaired told
  refine ⟨length_run _ stream, ?_⟩
  intro k f p hf last
  let later := repaired.zip (stream.map (·.2))
  have hlater : later.map (·.1) = repaired := List.map_fst_zip (by simp [repaired, length_run])
  have htold : told = ((Filter.glitch (.ofSettings glitch)).run later).2 :=
    (run_chain_cons _ _ stream).trans (run_chain_singleton _ later)
  rw [htold] at hf last ⊢
  obtain ⟨jump, after⟩ :=
    run_glitch_jump_iff wait (Glitch.rests_of_accepted accepted) later k f p hf last
  rw [hlater] at jump after
  refine ⟨jump, fun far => ?_⟩
  obtain ⟨hstreak, held⟩ := after far
  have rests : RestsOn budget glitch.distanceSquared p ((stream.map (·.1)).take k)
      (repaired.take k) := by
    have rests := restsOn_run budget glitch.distanceSquared p (stream.take k)
    rwa [List.map_take, run_take] at rests
  have own := rests.own
  have bears := rests.streak_le
  rw [hstreak] at own bears
  exact ⟨held, own, bears⟩

/-! ## A jump that is seen once -/

/-- A frame at the origin, one far away, and then none any more. -/
def goneAstray : List (Frame Float × Nat) :=
  [(⟨true, .good, ⟨0, 0⟩, 1⟩, 0), (⟨true, .good, ⟨300, 0⟩, 1⟩, 10000000),
    (⟨false, .lost, ⟨0, 0⟩, 1⟩, 20000000), (⟨false, .lost, ⟨0, 0⟩, 1⟩, 30000000)]

/-- The second missing frame is told as a jump, though one frame only was far by itself. -/
theorem run_jump_of_goneAstray :
    let glitch : GlitchSettings Float := ⟨2, 22500⟩
    let told := ((Filter.chain (ofSettings ⟨⟨8⟩, glitch, .off, .off⟩)).run goneAstray).2
    Accepted glitch.checks ∧
      ∃ f ∈ told[3]?, ∃ p ∈ latestPosition (told.take 3), f.FarFrom glitch.distanceSquared p ∧
        ((goneAstray.map (·.1)).take 3).countP (·.FarFrom glitch.distanceSquared p) < 2 := by
  decide +kernel

/-- One frame and a budget of eight for it bear a wait of two. -/
theorem run_jump_iff_of_goneAstray :
    let glitch : GlitchSettings Float := ⟨2, 22500⟩
    let told := ((Filter.chain (ofSettings ⟨⟨8⟩, glitch, .off, .off⟩)).run goneAstray).2
    Accepted glitch.checks ∧ told.length = 4 ∧
      ∃ f p, told[3]? = some f ∧ latestPosition (told.take 3) = some p ∧
        f.FarFrom glitch.distanceSquared p ∧ latestPosition ((told.take 3).rdrop 2) = some p ∧
        2 ≤ (((goneAstray.map (·.1)).take 3).rtake 2).countP (·.FarFrom glitch.distanceSquared p) *
          9 := by
  intro glitch told
  have accepted : Accepted glitch.checks := by decide +kernel
  have jump : ∃ f ∈ told[3]?, ∃ p ∈ latestPosition (told.take 3),
      f.FarFrom glitch.distanceSquared p := by
    decide +kernel
  obtain ⟨f, hf, p, hp, far⟩ := jump
  obtain ⟨hlength, hjumps⟩ := run_jump_iff ⟨8⟩ accepted goneAstray
  obtain ⟨held, -, bears⟩ := (hjumps 3 f p hf hp).2 far
  exact ⟨accepted, hlength, f, p, hf, hp, far, held, bears⟩

end SensorBar.Filter
