import Mathlib.Data.List.SplitBy
import SensorBar.Proofs.FilterRun

/-! # Adaptive smoothing over a stream

Adaptive smoothing moves at the records of a stream, the valid frames that are later than all valid
frames before them, and every other frame leaves it as it is.  A gap between two records makes it
begin anew, so what it holds is told by the records since the latest gap: on each axis by the values
of that axis and by the times from one record to the next.
-/

namespace SensorBar.Filter

variable {α β : Type}

/-! ## Records -/

/-- Whether a frame is valid and later than all valid frames before it. -/
def IsRecord (past : List (Frame α × Nat)) (entry : Frame α × Nat) : Prop :=
  entry.1.valid = true ∧ ∀ earlier ∈ past, earlier.1.valid = true → earlier.2 < entry.2

instance (past : List (Frame α × Nat)) (entry : Frame α × Nat) : Decidable (IsRecord past entry) :=
  inferInstanceAs (Decidable (_ ∧ _))

/-- The elements that bring a record, after frames that have passed before them. -/
def recordsAfter (key : β → Frame α × Nat) (past : List (Frame α × Nat)) : List β → List β
  | [] => []
  | x :: xs =>
      let later := recordsAfter key (past ++ [key x]) xs
      if IsRecord past (key x) then x :: later else later

/-- The elements that bring a record, each by the frame and the instant that `key` gives. -/
def records (key : β → Frame α × Nat) (xs : List β) : List β :=
  recordsAfter key [] xs

section Records

variable (key : β → Frame α × Nat)

theorem recordsAfter_concat (past : List (Frame α × Nat)) (xs : List β) (x : β) :
    recordsAfter key past (xs ++ [x]) = recordsAfter key past xs ++
      if IsRecord (past ++ xs.map key) (key x) then [x] else [] := by
  induction xs generalizing past with
  | nil => simp [recordsAfter]
  | cons y ys ih =>
      simp only [List.cons_append, recordsAfter, ih, List.append_assoc, List.map_cons]
      split <;> rfl

theorem records_concat (xs : List β) (x : β) :
    records key (xs ++ [x]) =
      if IsRecord (xs.map key) (key x) then records key xs ++ [x] else records key xs := by
  rw [records, recordsAfter_concat, List.nil_append]
  split
  · rfl
  · exact List.append_nil _

end Records

theorem records_concat_of_record {past : List (Frame α × Nat)} {entry : Frame α × Nat}
    (h : IsRecord past entry) : records id (past ++ [entry]) = records id past ++ [entry] := by
  rw [records_concat, List.map_id, id_eq, if_pos h]

theorem records_concat_of_not_record {past : List (Frame α × Nat)} {entry : Frame α × Nat}
    (h : ¬ IsRecord past entry) : records id (past ++ [entry]) = records id past := by
  rw [records_concat, List.map_id, id_eq, if_neg h]

theorem valid_of_mem_records {past : List (Frame α × Nat)} {r : Frame α × Nat}
    (h : r ∈ records id past) : r ∈ past ∧ r.1.valid = true := by
  induction past using List.reverseRecOn with
  | nil => cases h
  | append_singleton past entry ih =>
      by_cases isRecord : IsRecord past entry
      · rw [records_concat_of_record isRecord, List.mem_append, List.mem_singleton] at h
        rcases h with h | rfl
        · exact ⟨List.mem_append_left _ (ih h).1, (ih h).2⟩
        · exact ⟨List.mem_append_right _ (List.mem_singleton_self _), isRecord.1⟩
      · rw [records_concat_of_not_record isRecord] at h
        exact ⟨List.mem_append_left _ (ih h).1, (ih h).2⟩

/-- No valid frame is later than the latest record. -/
theorem exists_record_ge {past : List (Frame α × Nat)} {entry : Frame α × Nat}
    (h : entry ∈ past) (valid : entry.1.valid = true) :
    ∃ r ∈ (records id past).getLast?, entry.2 ≤ r.2 := by
  induction past using List.reverseRecOn generalizing entry with
  | nil => cases h
  | append_singleton past d ih =>
      rw [List.mem_append, List.mem_singleton] at h
      by_cases isRecord : IsRecord past d
      · refine ⟨d, by simp [records_concat_of_record isRecord], ?_⟩
        rcases h with h | rfl
        · exact (isRecord.2 entry h valid).le
        · exact le_rfl
      · rw [records_concat_of_not_record isRecord]
        rcases h with h | rfl
        · exact ih h valid
        · simp only [IsRecord, valid, true_and, not_forall, not_lt] at isRecord
          obtain ⟨earlier, hearlier, hvalid, hle⟩ := isRecord
          obtain ⟨r, hr, hge⟩ := ih hearlier hvalid
          exact ⟨r, hr, hle.trans hge⟩

theorem isRecord_iff {past : List (Frame α × Nat)} {entry : Frame α × Nat} :
    IsRecord past entry ↔
      entry.1.valid = true ∧ ∀ r ∈ (records id past).getLast?, r.2 < entry.2 := by
  refine and_congr_right fun _ => ⟨fun h r hr => ?_, fun h earlier hearlier valid => ?_⟩
  · obtain ⟨hmem, valid⟩ := valid_of_mem_records (List.mem_of_getLast? hr)
    exact h r hmem valid
  · obtain ⟨r, hr, hge⟩ := exists_record_ge hearlier valid
    exact hge.trans_lt (h r hr)

/-- What is past the gap for every valid frame is so for the latest record. -/
theorem gap_of_forall {past : List (Frame α × Nat)} {now : Nat}
    (h : ∀ entry ∈ past, entry.1.valid = true → entry.2 + maxGap < now) :
    ∀ r ∈ (records id past).getLast?, r.2 + maxGap < now := by
  intro r hr
  obtain ⟨hmem, valid⟩ := valid_of_mem_records (List.mem_of_getLast? hr)
  exact h r hmem valid

/-! ## Stretches -/

section Runs

variable {γ : Type} {near : γ → γ → Bool} {xs : List γ} {x : γ}

theorem getLast?_splitBy_concat_of_apart (apart : ∀ last ∈ xs.getLast?, near last x = false) :
    ((xs ++ [x]).splitBy near).getLast? = some [x] := by
  rw [List.splitBy_append_cons [] apart, List.splitBy_of_isChain (List.cons_ne_nil _ _)
    (List.isChain_singleton x), List.getLast?_concat]

theorem getLast?_splitBy_concat_of_near {run : List γ} (last : (xs.splitBy near).getLast? = some run)
    (close : ∀ y ∈ run.getLast?, near y x = true) :
    ((xs ++ [x]).splitBy near).getLast? = some (run ++ [x]) := by
  obtain ⟨runs, hruns⟩ := List.getLast?_eq_some_iff.mp last
  obtain ⟨hflat, hnonempty, hchain, hbreaks⟩ := List.splitBy_eq_iff.mp hruns
  have hrun : run ≠ [] := List.ne_nil_of_mem_splitBy (hruns ▸ List.mem_append_right _ (by simp))
  have hsplit : (xs ++ [x]).splitBy near = runs ++ [run ++ [x]] := by
    rw [List.splitBy_eq_iff]
    refine ⟨by simp [hflat], by simpa [hrun] using hnonempty, ?_, ?_⟩
    · rw [List.forall_mem_append, List.forall_mem_singleton] at hchain ⊢
      refine ⟨hchain.1, ?_⟩
      rw [List.isChain_append]
      exact ⟨hchain.2, List.isChain_singleton x, by simpa using close⟩
    · rw [List.isChain_append] at hbreaks ⊢
      refine ⟨hbreaks.1, List.isChain_singleton _, ?_⟩
      rintro m hm - ⟨⟩
      obtain ⟨hm', hhead, broken⟩ := hbreaks.2.2 m hm run rfl
      exact ⟨hm', by simp, by rwa [List.head_append_of_ne_nil hhead]⟩
  rw [hsplit, List.getLast?_concat]

end Runs

/-- Whether a frame comes soon enough after another one to be smoothed. -/
def follows (earlier later : Frame α × Nat) : Bool :=
  later.2 ≤ earlier.2 + maxGap

/-- The records since the latest gap between two of them. -/
def stretch (stream : List (Frame α × Nat)) : List (Frame α × Nat) :=
  ((records id stream).splitBy follows).getLast?.getD []

/-- The latest record ends the latest stretch. -/
theorem getLast?_stretch (stream : List (Frame α × Nat)) :
    (stretch stream).getLast? = (records id stream).getLast? := by
  by_cases hrecords : records id stream = []
  · simp [stretch, hrecords]
  · have hsplit := List.splitBy_ne_nil (r := follows).mpr hrecords
    rw [stretch, List.getLast?_eq_some_getLast hsplit, Option.getD_some,
      List.getLast?_eq_some_getLast hrecords, ← List.getLast_getLast_splitBy follows hrecords]
    exact List.getLast?_eq_some_getLast _

section Concat

variable {past : List (Frame α × Nat)} {entry : Frame α × Nat}

theorem stretch_concat_of_gap (isRecord : IsRecord past entry)
    (gap : ∀ r ∈ (records id past).getLast?, r.2 + maxGap < entry.2) :
    stretch (past ++ [entry]) = [entry] := by
  rw [stretch, records_concat_of_record isRecord, getLast?_splitBy_concat_of_apart]
  · rfl
  · intro r hr
    simpa [follows] using gap r hr

theorem stretch_concat_of_near (isRecord : IsRecord past entry) {r : Frame α × Nat}
    (latest : (records id past).getLast? = some r) (near : entry.2 ≤ r.2 + maxGap) :
    stretch (past ++ [entry]) = stretch past ++ [entry] := by
  have hsplit : (records id past).splitBy follows ≠ [] := by
    rw [List.splitBy_ne_nil]
    rintro h
    simp [h] at latest
  obtain ⟨run, hrun⟩ := Option.ne_none_iff_exists'.mp (mt List.getLast?_eq_none_iff.mp hsplit)
  have hlast := getLast?_stretch past
  rw [stretch, hrun, Option.getD_some, latest] at hlast
  rw [stretch, stretch, records_concat_of_record isRecord, hrun,
    getLast?_splitBy_concat_of_near hrun]
  · rfl
  · intro y hy
    obtain rfl : r = y := Option.some.inj (hlast.symm.trans hy)
    simpa [follows] using near

theorem stretch_concat_of_not_record (h : ¬ IsRecord past entry) :
    stretch (past ++ [entry]) = stretch past := by
  rw [stretch, records_concat_of_not_record h, stretch]

end Concat

/-! ## One axis -/

/-- The positions of a stretch after its first one, each with the time since the one before it. -/
def strides : List (Frame α × Nat) → List (Nat × Point α)
  | earlier :: later :: rest => (later.2 - earlier.2, later.1.position) :: strides (later :: rest)
  | _ => []

theorem strides_concat {run : List (Frame α × Nat)} {last : Frame α × Nat}
    (h : run.getLast? = some last) (entry : Frame α × Nat) :
    strides (run ++ [entry]) = strides run ++ [(entry.2 - last.2, entry.1.position)] := by
  induction run with
  | nil => cases h
  | cons first rest ih =>
      cases rest with
      | nil =>
          obtain rfl : first = last := Option.some.inj h
          rfl
      | cons second rest =>
          rw [List.getLast?_cons_cons] at h
          simp only [List.cons_append, strides, List.cons.injEq, true_and]
          exact ih h

variable [Scalar α]

namespace LowPass

/-- A low-pass filter after a value and later ones, each with the time since the one before it. -/
def after (s : AdaptiveSettings α) (first : α) (later : List (Nat × α)) : LowPass α :=
  later.foldl (fun p (span, x) => p.update s (seconds span) x) (.start first)

/-- The low-pass filter of one axis after a stretch. -/
def along (s : AdaptiveSettings α) (axis : Point α → α) (first : Frame α × Nat)
    (rest : List (Frame α × Nat)) : LowPass α :=
  after s (axis first.1.position) ((strides (first :: rest)).map (Prod.map id axis))

theorem along_concat (s : AdaptiveSettings α) (axis : Point α → α) {first last : Frame α × Nat}
    {rest : List (Frame α × Nat)} (h : (first :: rest).getLast? = some last)
    (entry : Frame α × Nat) :
    along s axis first (rest ++ [entry]) =
      (along s axis first rest).update s (seconds (entry.2 - last.2)) (axis entry.1.position) := by
  have hstrides := strides_concat h entry
  rw [List.cons_append] at hstrides
  simp [along, after, hstrides]

end LowPass

/-! ## What is held -/

namespace Adaptive

/-- What adaptive smoothing holds after a stream. -/
def after (s : AdaptiveSettings α) (past : List (Frame α × Nat)) : Adaptive α where
  settings := s
  state :=
    match stretch past, (stretch past).getLast? with
    | first :: rest, some last =>
        some ⟨LowPass.along s (·.x) first rest, LowPass.along s (·.y) first rest, last.2⟩
    | _, _ => none

variable (s : AdaptiveSettings α) {past : List (Frame α × Nat)} {f : Frame α} {now : Nat}

theorem state_after {r : Frame α × Nat} (latest : (records id past).getLast? = some r) :
    ∃ first rest, stretch past = first :: rest ∧ (after s past).state =
      some ⟨LowPass.along s (·.x) first rest, LowPass.along s (·.y) first rest, r.2⟩ := by
  rw [← getLast?_stretch] at latest
  cases hstretch : stretch past with
  | nil => simp [hstretch] at latest
  | cons first rest =>
      rw [hstretch] at latest
      exact ⟨first, rest, rfl, by simp [after, hstretch, latest]⟩

theorem state_after_of_unseen (unseen : (records id past).getLast? = none) :
    (after s past).state = none := by
  rw [← getLast?_stretch, List.getLast?_eq_none_iff] at unseen
  simp [after, unseen]

theorem after_eq {state : Option (State α)} (h : (after s past).state = state) :
    after s past = ⟨s, state⟩ := by
  rw [← h]
  rfl

/-! ## One step -/

theorem after_concat_of_not_record (h : ¬ IsRecord past (f, now)) :
    after s (past ++ [(f, now)]) = after s past := by
  rw [after, after, stretch_concat_of_not_record h]

theorem step_after_of_missing (missing : f.valid = false) :
    (after s past).step f now = (after s past, f) := by
  simp [step, missing]

/-- A late frame changes nothing and gets the position of the latest record. -/
theorem step_after_of_late (valid : f.valid = true) (late : ¬ IsRecord past (f, now)) :
    ∃ state, (after s past).state = some state ∧
      (after s past).step f now = (after s past, { f with position := state.position }) := by
  simp only [isRecord_iff, valid, true_and, not_forall, not_lt] at late
  obtain ⟨r, hr, hlate⟩ := late
  obtain ⟨first, rest, -, hstate⟩ := state_after s hr
  exact ⟨_, hstate, by simp [step, valid, hstate, hlate]⟩

/-- Frames that are no records leave adaptive smoothing as it is. -/
theorem step_after_of_not_record (h : ¬ IsRecord past (f, now)) :
    ((after s past).step f now).1 = after s past := by
  cases hvalid : f.valid with
  | false => rw [step_after_of_missing s hvalid]
  | true =>
      obtain ⟨state, -, hstep⟩ := step_after_of_late s hvalid h
      rw [hstep]

/-- After a gap a record is taken over as it is, and nothing else is held. -/
theorem step_after_of_gap (isRecord : IsRecord past (f, now))
    (gap : ∀ r ∈ (records id past).getLast?, r.2 + maxGap < now) :
    (after s past).step f now = (ofSettings s).restart f now := by
  have valid : f.valid = true := isRecord.1
  cases hlast : (records id past).getLast? with
  | none =>
      rw [after_eq s (state_after_of_unseen s hlast)]
      simp [step, valid, restart, ofSettings]
  | some r =>
      obtain ⟨first, rest, -, hstate⟩ := state_after s hlast
      have hgap : maxGap < now - r.2 := by
        have := gap r hlast
        omega
      have hlater : ¬ now ≤ r.2 := by omega
      rw [after_eq s hstate]
      simp only [step, valid, if_true, if_neg hlater, if_pos hgap]
      rfl

/-- Close to the record before it a record moves the low-pass filters on. -/
theorem step_after_of_near (isRecord : IsRecord past (f, now)) {r : Frame α × Nat}
    (latest : (records id past).getLast? = some r) (near : now ≤ r.2 + maxGap) :
    ∃ state, (after s past).state = some state ∧ (after s past).step f now =
      (⟨s, some (state.advance s f.position now)⟩,
        { f with position := (state.advance s f.position now).position }) := by
  have valid : f.valid = true := isRecord.1
  have hlater : ¬ now ≤ r.2 := ((isRecord_iff.mp isRecord).2 r latest).not_ge
  have hclose : ¬ maxGap < now - r.2 := by omega
  obtain ⟨first, rest, -, hstate⟩ := state_after s latest
  refine ⟨_, hstate, ?_⟩
  rw [after_eq s hstate]
  simp only [step, valid, if_true, if_neg hlater, if_neg hclose]

/-- A record's position is that of the low-pass filters after the stretch that it ends. -/
theorem step_after_of_record (isRecord : IsRecord past (f, now)) :
    ∃ first rest, stretch (past ++ [(f, now)]) = first :: rest ∧
      (after s (past ++ [(f, now)])).state =
        some ⟨LowPass.along s (·.x) first rest, LowPass.along s (·.y) first rest, now⟩ ∧
      (after s past).step f now = (after s (past ++ [(f, now)]), { f with position :=
        ⟨(LowPass.along s (·.x) first rest).value, (LowPass.along s (·.y) first rest).value⟩ }) := by
  have hlatest : (records id (past ++ [(f, now)])).getLast? = some (f, now) := by
    rw [records_concat_of_record isRecord, List.getLast?_concat]
  obtain ⟨first, rest, hstretch, hstate⟩ := state_after s hlatest
  refine ⟨first, rest, hstretch, hstate, ?_⟩
  rw [after_eq s hstate]
  by_cases gap : ∀ r ∈ (records id past).getLast?, r.2 + maxGap < now
  · rw [stretch_concat_of_gap isRecord gap] at hstretch
    obtain ⟨rfl, rfl⟩ := List.cons.inj hstretch
    rw [step_after_of_gap s isRecord gap]
    rfl
  · simp only [not_forall, not_lt] at gap
    obtain ⟨r, latest, near⟩ := gap
    obtain ⟨first', rest', hpast, hheld⟩ := state_after s latest
    obtain ⟨state, hstate', hstep⟩ := step_after_of_near s isRecord latest near
    obtain rfl := Option.some.inj (hheld.symm.trans hstate')
    rw [stretch_concat_of_near isRecord latest near, hpast,
      List.cons_append] at hstretch
    obtain ⟨rfl, rfl⟩ := List.cons.inj hstretch
    rw [← getLast?_stretch, hpast] at latest
    rw [hstep, LowPass.along_concat s _ latest, LowPass.along_concat s _ latest]
    rfl

theorem step_after_fst (past : List (Frame α × Nat)) (f : Frame α) (now : Nat) :
    ((after s past).step f now).1 = after s (past ++ [(f, now)]) := by
  by_cases isRecord : IsRecord past (f, now)
  · obtain ⟨first, rest, -, -, hstep⟩ := step_after_of_record s isRecord
    rw [hstep]
  · rw [step_after_of_not_record s isRecord, after_concat_of_not_record s isRecord]

end Adaptive

/-! ## Runs -/

variable (s : AdaptiveSettings α)

theorem step_adaptive (now : Nat) (a : Adaptive α) (f : Frame α) :
    (Filter.adaptive a).step now f = (.adaptive (a.step f now).1, (a.step f now).2) := by
  rw [step]
  rfl

theorem run_adaptive_fst (stream : List (Frame α × Nat)) :
    ((Filter.adaptive (.ofSettings s)).run stream).1 = .adaptive (.after s stream) := by
  induction stream using List.reverseRecOn with
  | nil => rfl
  | append_singleton past entry ih =>
      rw [run_concat, ih, step_adaptive, Adaptive.step_after_fst]

/-- What a stream told, beside what it was told for. -/
def heard (g : Filter α) (stream : List (Frame α × Nat)) : List ((Frame α × Nat) × Frame α) :=
  stream.zip (g.run stream).2

theorem heard_concat (g : Filter α) (past : List (Frame α × Nat)) (f : Frame α) (now : Nat) :
    g.heard (past ++ [(f, now)]) =
      g.heard past ++ [((f, now), ((g.run past).1.step now f).2)] := by
  rw [heard, run_concat, List.zip_append (length_run g past).symm]
  rfl

theorem map_fst_heard (g : Filter α) (stream : List (Frame α × Nat)) :
    (g.heard stream).map Prod.fst = stream :=
  List.map_fst_zip (length_run g stream).ge

/-- Where adaptive smoothing holds a position, it is the one that it told at the latest record. -/
theorem position_after (past : List (Frame α × Nat)) :
    (Adaptive.after s past).state.map (·.position) =
      (records Prod.fst ((Filter.adaptive (.ofSettings s)).heard past)).getLast?.map
        (·.2.position) := by
  induction past using List.reverseRecOn with
  | nil => rfl
  | append_singleton past entry ih =>
      obtain ⟨f, now⟩ := entry
      rw [heard_concat, records_concat, map_fst_heard, run_adaptive_fst, step_adaptive]
      by_cases isRecord : IsRecord past (f, now)
      · obtain ⟨first, rest, -, hstate, hstep⟩ := Adaptive.step_after_of_record s isRecord
        rw [if_pos isRecord, List.getLast?_concat, hstate, hstep]
        rfl
      · rw [if_neg isRecord, ← ih, Adaptive.after_concat_of_not_record s isRecord]

/-- Without the frames that are no records, the records make adaptive smoothing tell the same. -/
theorem run_records (stream : List (Frame α × Nat)) :
    (Filter.adaptive (.ofSettings s)).run (records id stream) =
      (((Filter.adaptive (.ofSettings s)).run stream).1,
        (records Prod.fst ((Filter.adaptive (.ofSettings s)).heard stream)).map Prod.snd) := by
  induction stream using List.reverseRecOn with
  | nil => rfl
  | append_singleton past entry ih =>
      obtain ⟨f, now⟩ := entry
      rw [heard_concat, records_concat Prod.fst, map_fst_heard]
      by_cases isRecord : IsRecord past (f, now)
      · rw [if_pos isRecord, records_concat_of_record isRecord, run_concat, run_concat, ih,
          List.map_append]
        rfl
      · rw [if_neg isRecord, records_concat_of_not_record isRecord, ih, run_adaptive_fst,
          run_adaptive_fst, Adaptive.after_concat_of_not_record s isRecord]

/-- A frame past the gap makes adaptive smoothing what it is after that frame alone. -/
theorem step_run_of_gap {past : List (Frame α × Nat)} {f : Frame α} {now : Nat}
    (isRecord : IsRecord past (f, now))
    (gap : ∀ r ∈ (records id past).getLast?, r.2 + maxGap < now) :
    ((Filter.adaptive (.ofSettings s)).run past).1.step now f =
      (((Filter.adaptive (.ofSettings s)).step now f).1, f) := by
  have valid : f.valid = true := isRecord.1
  rw [run_adaptive_fst, step_adaptive, Adaptive.step_after_of_gap s isRecord gap, step_adaptive]
  simp [Adaptive.step, Adaptive.restart, Adaptive.ofSettings, valid]

/--
A missing frame passes as it is, and a late one gets the position told at the latest record; neither
changes what is held.  The first record and one after a gap pass as they are and make a new start.
Every record gets, on each axis, the value of the low-pass filter over that axis of the stretch that
the record ends.  So the records alone make adaptive smoothing tell the same of them and end the
same, and after a frame that is past the gap for two streams it does not matter which one it was.
-/
theorem adaptive_follows_records (s : AdaptiveSettings α) :
    let g : Filter α := .adaptive (.ofSettings s)
    (∀ (past : List (Frame α × Nat)) (f : Frame α) (now : Nat),
      let held := (g.run past).1
      (f.valid = false → held.step now f = (held, f)) ∧
      (f.valid = true → ¬ IsRecord past (f, now) →
        ∃ latest, (records Prod.fst (g.heard past)).getLast? = some latest ∧
          held.step now f = (held, { f with position := latest.2.position })) ∧
      (IsRecord past (f, now) → (∀ r ∈ (records id past).getLast?, r.2 + maxGap < now) →
        held.step now f = ((g.step now f).1, f)) ∧
      (IsRecord past (f, now) →
        ∃ first rest, stretch (past ++ [(f, now)]) = first :: rest ∧
          (held.step now f).2 = { f with position := ⟨(LowPass.along s (·.x) first rest).value,
            (LowPass.along s (·.y) first rest).value⟩ })) ∧
    (∀ stream, g.run (records id stream) =
      ((g.run stream).1, (records Prod.fst (g.heard stream)).map Prod.snd)) ∧
    ∀ (past past' : List (Frame α × Nat)) (f : Frame α) (now : Nat), f.valid = true →
      (∀ entry ∈ past ++ past', entry.1.valid = true → entry.2 + maxGap < now) →
      ∀ later, (g.run past).1.run ((f, now) :: later) = (g.run past').1.run ((f, now) :: later) := by
  intro g
  refine ⟨fun past f now => ?_, run_records s, ?_⟩
  · intro held
    have hheld : held = .adaptive (.after s past) := run_adaptive_fst s past
    refine ⟨fun missing => ?_, fun valid late => ?_, step_run_of_gap s, fun isRecord => ?_⟩
    · rw [hheld, step_adaptive, Adaptive.step_after_of_missing s missing]
    · obtain ⟨state, hstate, hstep⟩ := Adaptive.step_after_of_late s valid late
      have hposition := position_after s past
      rw [hstate, Option.map_some, eq_comm, Option.map_eq_some_iff] at hposition
      obtain ⟨latest, hlatest, hposition⟩ := hposition
      exact ⟨latest, hlatest, by rw [hheld, step_adaptive, hstep, hposition]⟩
    · obtain ⟨first, rest, hstretch, -, hstep⟩ := Adaptive.step_after_of_record s isRecord
      exact ⟨first, rest, hstretch, by rw [hheld, step_adaptive, hstep]⟩
  · intro past past' f now valid gap later
    rw [List.forall_mem_append] at gap
    have fresh : ∀ {earlier : List (Frame α × Nat)},
        (∀ entry ∈ earlier, entry.1.valid = true → entry.2 + maxGap < now) →
        (g.run earlier).1.step now f = ((g.step now f).1, f) := by
      intro earlier clear
      refine step_run_of_gap s ⟨valid, fun entry hentry hvalid => ?_⟩ (gap_of_forall clear)
      exact (Nat.le_add_right _ _).trans_lt (clear entry hentry hvalid)
    rw [run_cons, run_cons, fresh gap.1, fresh gap.2]

/-- A frame that stands at a position. -/
def standing (valid : Bool) (x y : Float) : Frame Float :=
  ⟨valid, .good, ⟨x, y⟩, 1⟩

/-- Two records ten milliseconds apart, then a missing frame and a late one. -/
def stutter : List (Frame Float × Nat) :=
  [(standing true 0 0, 0), (standing true 10 5, 10000000), (standing false 0 0, 20000000),
    (standing true 50 50, 5000000)]

theorem adaptive_follows_records_of_stutter :
    let g : Filter Float := .adaptive (.ofSettings .default)
    let held := (g.run stutter).1
    held.step 30000000 (standing false 1 1) = (held, standing false 1 1) ∧
      (∃ latest, (records Prod.fst (g.heard stutter)).getLast? = some latest ∧
        held.step 10000000 (standing true 7 7) =
          (held, { standing true 7 7 with position := latest.2.position })) ∧
      (∃ first rest, stretch (stutter ++ [(standing true 7 7, 510000000)]) = first :: rest ∧
        (held.step 510000000 (standing true 7 7)).2 = { standing true 7 7 with position :=
          ⟨(LowPass.along .default (·.x) first rest).value,
            (LowPass.along .default (·.y) first rest).value⟩ }) ∧
      held.step 510000001 (standing true 7 7) =
        ((g.step 510000001 (standing true 7 7)).1, standing true 7 7) ∧
      ∀ later, held.run ((standing true 7 7, 510000001) :: later) =
        g.run ((standing true 7 7, 510000001) :: later) := by
  intro g held
  obtain ⟨steps, -, agree⟩ := adaptive_follows_records AdaptiveSettings.default
  have late : ¬ IsRecord stutter (standing true 7 7, 10000000) := by decide
  have near : IsRecord stutter (standing true 7 7, 510000000) := by decide
  have gap : ∀ entry ∈ stutter, entry.1.valid = true → entry.2 + maxGap < 510000001 := by decide
  have clear : IsRecord stutter (standing true 7 7, 510000001) := by decide
  refine ⟨(steps stutter _ _).1 rfl, (steps stutter _ _).2.1 rfl late,
    (steps stutter _ _).2.2.2 near, (steps stutter _ _).2.2.1 clear (gap_of_forall gap), ?_⟩
  exact agree stutter [] _ _ rfl (by rwa [List.append_nil])

end SensorBar.Filter
