import Mathlib.Data.List.Induction
import Mathlib.Order.Bounds.Basic
import SensorBar.Proofs.ReportText

/-! # Reports on a sink that fills up

A sink of bounded capacity takes what fits of a line and refuses the rest.  It is full from then on,
and no line is empty, so every later frame is refused too.  What the sink holds is the start of the
whole text, wherever in a line it ends, and the counters are those of the frames written whole.
-/

namespace SensorBar.Report

/-- The report after some frames at their times, and which of them were written whole. -/
def recordAll : Report → List (Nat × Frame Float) → Report × List Bool
  | r, [] => (r, [])
  | r, e :: rest =>
      let (next, whole) := r.record e.1 e.2
      let (last, later) := next.recordAll rest
      (last, whole :: later)

/-! ## Single frames -/

section

variable (r : Report) (time : Nat) (f : Frame Float)

theorem sink_record : (r.record time f).1.sink = (r.sink.write (line time f).toUTF8).1 := by
  rw [record_eq]
  split
  all_goals next h => rw [h]

theorem whole_record : (r.record time f).2 = (r.sink.write (line time f).toUTF8).2 := by
  rw [record_eq]
  split
  all_goals next h => rw [h]

theorem frames_record :
    (r.record time f).1.frames = r.frames + (r.record time f).2.toNat := by
  rw [record_eq]
  split <;> rfl

/-- A frame that is refused changes no counter. -/
theorem valid_record :
    (r.record time f).1.valid = r.valid + (f.valid && (r.record time f).2).toNat := by
  rw [record_eq]
  split <;> simp

end

theorem size_line_pos (time : Nat) (f : Frame Float) : 0 < (line time f).toUTF8.size := by
  have hne : line time f ≠ "" := fun h => by
    have hchars := toList_line time f
    simp [h] at hchars
  rw [String.toUTF8, String.size_toByteArray]
  exact Nat.pos_of_ne_zero (mt String.utf8ByteSize_eq_zero_iff.mp hne)

/-! ## Sequences of frames -/

theorem recordAll_append (r : Report) (past later : List (Nat × Frame Float)) :
    r.recordAll (past ++ later) =
      (((r.recordAll past).1.recordAll later).1,
        (r.recordAll past).2 ++ ((r.recordAll past).1.recordAll later).2) := by
  induction past generalizing r with
  | nil => rfl
  | cons e past ih =>
      rw [List.cons_append, recordAll, recordAll]
      simp only [ih, List.cons_append]

theorem recordAll_concat (r : Report) (past : List (Nat × Frame Float))
    (e : Nat × Frame Float) :
    r.recordAll (past ++ [e]) =
      (((r.recordAll past).1.record e.1 e.2).1,
        (r.recordAll past).2 ++ [((r.recordAll past).1.record e.1 e.2).2]) :=
  recordAll_append r past [e]

theorem length_recordAll (r : Report) (entries : List (Nat × Frame Float)) :
    (r.recordAll entries).2.length = entries.length := by
  induction entries generalizing r with
  | nil => rfl
  | cons e rest ih => rw [recordAll, List.length_cons, ih, List.length_cons]

/-- Later frames do not change what was told of earlier ones. -/
theorem take_recordAll (r : Report) (entries : List (Nat × Frame Float)) (i : Nat) :
    (r.recordAll (entries.take i)).2 = (r.recordAll entries).2.take i := by
  induction entries generalizing r i with
  | nil => simp [recordAll]
  | cons e rest ih =>
      cases i with
      | zero => rfl
      | succ i =>
          rw [List.take_succ_cons, recordAll, recordAll]
          simp only [ih, List.take_succ_cons]

theorem text_concat (past : List (Nat × Frame Float)) (e : Nat × Frame Float) :
    (text (past ++ [e])).toUTF8 = (text past).toUTF8 ++ (line e.1 e.2).toUTF8 := by
  simp [text, String.toUTF8]

/-- The lines of frames are written as if they were one piece. -/
theorem sink_recordAll (r : Report) (entries : List (Nat × Frame Float)) :
    (r.recordAll entries).1.sink = (r.sink.write (text entries).toUTF8).1 := by
  induction entries using List.reverseRecOn with
  | nil => exact congrArg Prod.fst (Sink.write_empty r.sink).symm
  | append_singleton past e ih =>
      rw [recordAll_concat, sink_record, ih, text_concat, Sink.write_append]

theorem frames_recordAll (r : Report) (entries : List (Nat × Frame Float)) :
    (r.recordAll entries).1.frames = r.frames + (r.recordAll entries).2.count true := by
  induction entries using List.reverseRecOn with
  | nil => rfl
  | append_singleton past e ih =>
      rw [recordAll_concat, frames_record, ih, List.count_append, Nat.add_assoc]
      cases ((r.recordAll past).1.record e.1 e.2).2 <;> rfl

theorem valid_recordAll (r : Report) (entries : List (Nat × Frame Float)) :
    (r.recordAll entries).1.valid = r.valid +
      (entries.zip (r.recordAll entries).2).countP fun call => call.1.2.valid && call.2 := by
  induction entries using List.reverseRecOn with
  | nil => rfl
  | append_singleton past e ih =>
      have hlength := length_recordAll r past
      rw [recordAll_concat, valid_record, ih, List.zip_append hlength.symm, List.countP_append,
        Nat.add_assoc]
      congr 2

/-! ## Bounded sinks -/

section

variable (capacity : Nat)

theorem sink_recordAll_of_bounded (entries : List (Nat × Frame Float)) :
    ((start (some capacity)).recordAll entries).1.sink =
      ⟨some capacity, (text entries).toUTF8.extract 0 capacity⟩ := by
  rw [sink_recordAll, start, Sink.empty, Sink.write_bounded, ByteArray.size_empty, Nat.sub_zero,
    ByteArray.empty_append]

/-- A frame is written whole exactly when the text up to its line fits. -/
theorem whole_record_recordAll (past : List (Nat × Frame Float)) (e : Nat × Frame Float) :
    (((start (some capacity)).recordAll past).1.record e.1 e.2).2 =
      decide ((text (past ++ [e])).toUTF8.size ≤ capacity) := by
  have hpos := size_line_pos e.1 e.2
  rw [whole_record, sink_recordAll_of_bounded, Sink.write_bounded, text_concat,
    ByteArray.size_append, ByteArray.size_extract, decide_eq_decide]
  omega

/-- How many of the first lines fit. -/
def Fitting (entries : List (Nat × Frame Float)) : Nat → Prop :=
  IsGreatest {n | n ≤ entries.length ∧ (text (entries.take n)).toUTF8.size ≤ capacity}

variable {capacity}

theorem fitting_length {entries : List (Nat × Frame Float)}
    (h : (text entries).toUTF8.size ≤ capacity) : Fitting capacity entries entries.length := by
  refine ⟨⟨le_rfl, ?_⟩, fun n hn => hn.1⟩
  rwa [List.take_length]

theorem Fitting.concat {past : List (Nat × Frame Float)} {n : Nat} (h : Fitting capacity past n)
    {e : Nat × Frame Float} (hfull : ¬ (text (past ++ [e])).toUTF8.size ≤ capacity) :
    Fitting capacity (past ++ [e]) n := by
  obtain ⟨⟨hle, hfits⟩, hgreatest⟩ := h
  have hlength : (past ++ [e]).length = past.length + 1 := List.length_append
  refine ⟨⟨by omega, ?_⟩, fun m ⟨hm, hmfits⟩ => ?_⟩
  · rwa [List.take_append_of_le_length hle]
  · rw [hlength] at hm
    rcases Nat.lt_or_eq_of_le hm with hlt | rfl
    · have hmle : m ≤ past.length := Nat.le_of_lt_succ hlt
      rw [List.take_append_of_le_length hmle] at hmfits
      exact hgreatest ⟨hmle, hmfits⟩
    · rw [← hlength, List.take_length] at hmfits
      exact absurd hmfits hfull

variable (capacity)

theorem exists_fitting (entries : List (Nat × Frame Float)) :
    ∃ n, Fitting capacity entries n ∧ ((start (some capacity)).recordAll entries).2 =
      List.replicate n true ++ List.replicate (entries.length - n) false := by
  induction entries using List.reverseRecOn with
  | nil => exact ⟨0, fitting_length (Nat.zero_le _), rfl⟩
  | append_singleton past e ih =>
      obtain ⟨n, hn, hresults⟩ := ih
      have hlength : (past ++ [e]).length = past.length + 1 := List.length_append
      rw [recordAll_concat, whole_record_recordAll, hresults]
      by_cases hwhole : (text (past ++ [e])).toUTF8.size ≤ capacity
      · have hpast : (text past).toUTF8.size ≤ capacity := by
          rw [text_concat, ByteArray.size_append] at hwhole
          exact (Nat.le_add_right _ _).trans hwhole
        obtain rfl := hn.unique (fitting_length hpast)
        refine ⟨past.length + 1, hlength ▸ fitting_length hwhole, ?_⟩
        rw [decide_eq_true hwhole]
        simp [List.replicate_succ']
      · refine ⟨n, hn.concat hwhole, ?_⟩
        rw [hlength, Nat.succ_sub hn.1.1, List.replicate_succ', List.append_assoc,
          decide_eq_false hwhole]

/--
A sink of bounded capacity ends up with the first bytes of the whole text, as many as fit.  The
frames that are written whole are those whose lines fit together with all lines before them; every
later frame is refused.  At any time the counters are the number of frames written whole, and of
those among them that are valid.
-/
theorem recordAll_bounded (entries : List (Nat × Frame Float)) :
    let last := (start (some capacity)).recordAll entries
    let whole := (text entries).toUTF8
    last.1.sink.written = whole.extract 0 (min capacity whole.size) ∧
    (∃ n, Fitting capacity entries n ∧
      last.2 = List.replicate n true ++ List.replicate (entries.length - n) false) ∧
    ∀ i, let now := (start (some capacity)).recordAll (entries.take i)
      now.2 = last.2.take i ∧ now.1.frames = now.2.count true ∧
        now.1.valid = ((entries.take i).zip now.2).countP fun call => call.1.2.valid && call.2 := by
  intro last whole
  refine ⟨?_, exists_fitting capacity entries, fun i => ⟨?_, ?_, ?_⟩⟩
  · rw [sink_recordAll_of_bounded]
    rcases le_total capacity whole.size with hle | hle
    · rw [min_eq_left hle]
    · have hrest : whole.extract whole.size capacity = .empty := by
        rw [ByteArray.extract_eq_empty_iff]
        exact min_le_right ..
      rw [min_eq_right hle]
      change whole.extract 0 capacity = whole.extract 0 whole.size
      rw [ByteArray.extract_eq_extract_append_extract whole.size (Nat.zero_le _) hle, hrest,
        ByteArray.append_empty]
  · exact take_recordAll _ entries i
  · exact (frames_recordAll _ _).trans (Nat.zero_add _)
  · exact (valid_recordAll _ _).trans (Nat.zero_add _)

end

end SensorBar.Report
