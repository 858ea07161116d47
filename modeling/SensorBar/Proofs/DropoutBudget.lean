import SensorBar.Proofs.DropoutRun
import SensorBar.Proofs.FilterStages

/-! # Budgets of dropout repair

What dropout repair makes of a frame is a rule about the frames so far: a missing frame within the
budget is given the position of the latest valid one.  A stream that is repaired has the latest
positions of the stream itself, and gaps that are shorter by the budget.  So a second repair, whose
counter sees only what the first one leaves, goes on where the first one stopped, and two budgets
are worth their sum.
-/

namespace SensorBar.Filter

namespace Dropout

variable {α : Type}

/-- What repair with a budget makes of a frame that comes after others. -/
def repaired (maxCount : Nat) (past : List (Frame α)) (f : Frame α) : Frame α :=
  if f.valid then f
  else
    match latestPosition past with
    | none => f
    | some position =>
        if gap (past ++ [f]) ≤ maxCount then { f with position, valid := true } else f

/-! ## One frame -/

section Frames

variable {maxCount : Nat} {past : List (Frame α)} {f : Frame α}

theorem repaired_of_valid (valid : f.valid = true) : repaired maxCount past f = f :=
  if_pos valid

theorem repaired_of_unseen (unseen : latestPosition past = none) :
    repaired maxCount past f = f := by
  simp [repaired, unseen]

theorem gap_concat_of_missing (missing : f.valid = false) : gap (past ++ [f]) = gap past + 1 := by
  simp [gap_concat, missing]

theorem repaired_of_within (missing : f.valid = false) {position : Point α}
    (seen : latestPosition past = some position) (within : gap past < maxCount) :
    repaired maxCount past f = { f with position, valid := true } := by
  simp [repaired, missing, seen, gap_concat, Nat.succ_le_of_lt within]

theorem repaired_of_spent (missing : f.valid = false) (spent : maxCount ≤ gap past) :
    repaired maxCount past f = f := by
  have hgap : ¬ gap (past ++ [f]) ≤ maxCount := by
    rw [gap_concat_of_missing missing]
    omega
  cases seen : latestPosition past <;> simp [repaired, seen, hgap]

theorem step_after_eq_repaired (maxCount : Nat) (past : List (Frame α)) (f : Frame α) :
    ((after maxCount past).step f).2 = repaired maxCount past f := by
  cases hvalid : f.valid with
  | true => rw [step_after_of_valid maxCount past hvalid, repaired_of_valid hvalid]
  | false =>
    cases hseen : latestPosition past with
    | none => rw [step_after_of_unseen maxCount hvalid hseen, repaired_of_unseen hseen]
    | some position =>
      rw [step_after_of_missing maxCount hvalid hseen]
      split
      next within => rw [repaired_of_within hvalid hseen within]
      next spent => rw [repaired_of_spent hvalid (Nat.not_lt.mp spent)]

end Frames

/-! ## Streams -/

/-- A stream of frames, each repaired from the ones before it. -/
def repairedAll (maxCount : Nat) (frames : List (Frame α)) : List (Frame α) :=
  frames.mapIdx fun k f => repaired maxCount (frames.take k) f

theorem repairedAll_concat (maxCount : Nat) (past : List (Frame α)) (f : Frame α) :
    repairedAll maxCount (past ++ [f]) =
      repairedAll maxCount past ++ [repaired maxCount past f] := by
  unfold repairedAll
  rw [List.mapIdx_concat, List.take_left' rfl]
  congr 1
  rw [List.mapIdx_eq_mapIdx_iff]
  intro k hk
  rw [List.take_append_of_le_length hk.le]

theorem latestPosition_repairedAll (maxCount : Nat) (frames : List (Frame α)) :
    latestPosition (repairedAll maxCount frames) = latestPosition frames := by
  induction frames using List.reverseRecOn with
  | nil => rfl
  | append_singleton past f ih =>
    rw [repairedAll_concat, latestPosition_concat, latestPosition_concat, ih]
    cases hvalid : f.valid with
    | true => simp [repaired_of_valid hvalid, hvalid]
    | false =>
      cases hseen : latestPosition past with
      | none => simp [repaired_of_unseen hseen, hvalid]
      | some position =>
        rcases Nat.lt_or_ge (gap past) maxCount with within | spent
        · simp [repaired_of_within hvalid hseen within]
        · simp [repaired_of_spent hvalid spent, hvalid]

/-- Repair takes its budget off a gap. -/
theorem gap_repairedAll (maxCount : Nat) {frames : List (Frame α)} {position : Point α}
    (seen : latestPosition frames = some position) :
    gap (repairedAll maxCount frames) = gap frames - maxCount := by
  induction frames using List.reverseRecOn with
  | nil => cases seen
  | append_singleton past f ih =>
    rw [repairedAll_concat]
    cases hvalid : f.valid with
    | true => simp [repaired_of_valid hvalid, gap_concat, hvalid]
    | false =>
      have hpast : latestPosition past = some position := by
        simpa [latestPosition_concat, hvalid] using seen
      rw [gap_concat_of_missing hvalid]
      rcases Nat.lt_or_ge (gap past) maxCount with within | spent
      · rw [repaired_of_within hvalid hpast within, gap_concat, if_pos rfl]
        omega
      · rw [repaired_of_spent hvalid spent, gap_concat_of_missing hvalid, ih hpast]
        omega

/-- Repair of a repaired frame, each by its own history, is repair by both budgets. -/
theorem repaired_repaired (m n : Nat) (past : List (Frame α)) (f : Frame α) :
    repaired n (repairedAll m past) (repaired m past f) = repaired (m + n) past f := by
  have hlatest := latestPosition_repairedAll m past
  cases hvalid : f.valid with
  | true => rw [repaired_of_valid hvalid, repaired_of_valid hvalid, repaired_of_valid hvalid]
  | false =>
    cases hseen : latestPosition past with
    | none =>
      rw [repaired_of_unseen hseen, repaired_of_unseen hseen,
        repaired_of_unseen (hlatest.trans hseen)]
    | some position =>
      have hgap := gap_repairedAll m hseen
      rcases Nat.lt_or_ge (gap past) m with within | spent
      · rw [repaired_of_within hvalid hseen within, repaired_of_valid rfl,
          repaired_of_within hvalid hseen (by omega)]
      · rw [repaired_of_spent hvalid spent]
        rcases Nat.lt_or_ge (gap past) (m + n) with within | spent'
        · rw [repaired_of_within hvalid (hlatest.trans hseen) (by omega),
            repaired_of_within hvalid hseen within]
        · rw [repaired_of_spent hvalid (by omega), repaired_of_spent hvalid spent']

theorem repairedAll_repairedAll (m n : Nat) (frames : List (Frame α)) :
    repairedAll n (repairedAll m frames) = repairedAll (m + n) frames := by
  induction frames using List.reverseRecOn with
  | nil => rfl
  | append_singleton past f ih =>
    rw [repairedAll_concat, repairedAll_concat, repairedAll_concat, ih, repaired_repaired]

end Dropout

/-! ## Runs -/

variable {α : Type} [Scalar α]

theorem run_dropout_snd (maxCount : Nat) (stream : List (Frame α × Nat)) :
    ((Filter.dropout (.start maxCount)).run stream).2 =
      Dropout.repairedAll maxCount (stream.map (·.1)) := by
  induction stream using List.reverseRecOn with
  | nil => rfl
  | append_singleton past entry ih =>
    rw [run_concat, run_dropout_fst, ih, List.map_append, List.map_singleton,
      Dropout.repairedAll_concat, ← Dropout.step_after_eq_repaired]
    rfl

theorem run_chain_dropout_dropout (m n : Nat) (stream : List (Frame α × Nat)) :
    ((Filter.chain [.dropout (.start m), .dropout (.start n)]).run stream).2 =
      ((Filter.dropout (.start (m + n))).run stream).2 := by
  rw [run_chain_cons, run_chain_singleton, run_dropout_snd, run_dropout_snd, run_dropout_snd,
    ← Dropout.repairedAll_repairedAll]
  congr 1
  exact List.map_fst_zip (by simp [Dropout.repairedAll])

/--
Every frame leaves dropout repair as the frames before it in the stream say: a valid one as it is, a
missing one at the latest valid position as long as the gap fits the budget, and any other as it is.
Two repairs, one behind the other, are one repair with the sum of their budgets.
-/
theorem run_dropout_repairs (maxCount : UInt32) (stream : List (Frame α × Nat)) :
    (∀ k : Nat, ((Filter.dropout (.ofSettings ⟨maxCount⟩)).run stream).2[k]? =
      stream[k]?.map fun entry =>
        Dropout.repaired maxCount.toNat ((stream.take k).map (·.1)) entry.1) ∧
    ∀ further : UInt32, maxCount.toNat + further.toNat < UInt32.size →
      ((Filter.chain [.dropout (.ofSettings ⟨maxCount⟩),
          .dropout (.ofSettings ⟨further⟩)]).run stream).2 =
        ((Filter.dropout (.ofSettings ⟨maxCount + further⟩)).run stream).2 := by
  constructor
  · intro k
    rw [getElem?_run]
    congr 1
    funext entry
    unfold Dropout.ofSettings
    rw [run_dropout_fst, ← Dropout.step_after_eq_repaired]
    rfl
  · intro further fits
    have hsum : (maxCount + further).toNat = maxCount.toNat + further.toNat := by
      rw [UInt32.toNat_add, Nat.mod_eq_of_lt fits]
    unfold Dropout.ofSettings
    rw [hsum]
    exact run_chain_dropout_dropout maxCount.toNat further.toNat stream

/-- A position, and then a gap of four frames. -/
def longGap : List (Frame Float × Nat) :=
  [(⟨true, .good, ⟨10, 20⟩, 1⟩, 0), (.invalid .lost, 1), (.invalid .lost, 2), (.invalid .lost, 3),
    (.invalid .lost, 4)]

/-- Budgets of one and two bridge three frames of the gap, and leave the fourth one missing. -/
theorem run_dropout_repairs_of_longGap :
    let both :=
      ((Filter.chain [.dropout (.ofSettings ⟨1⟩), .dropout (.ofSettings ⟨2⟩)]).run longGap).2
    (1 : UInt32).toNat + (2 : UInt32).toNat < UInt32.size ∧
      both = ((Filter.dropout (.ofSettings ⟨1 + 2⟩)).run longGap).2 ∧
      both.map (·.valid) = [true, true, true, true, false] := by
  intro both
  have fits : (1 : UInt32).toNat + (2 : UInt32).toNat < UInt32.size := by decide
  exact ⟨fits, (run_dropout_repairs 1 longGap).2 2 fits, by decide +kernel⟩

end SensorBar.Filter
