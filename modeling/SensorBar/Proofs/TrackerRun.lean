import SensorBar.Tracker

/-! # Runs of the tracker

A run feeds sightings to a tracker one after another and keeps every transition.  `Moves` says once
what the dots of a frame can do to a tracker, and `Reaches` is the induction that every invariant of
a run goes through.  Nothing here depends on the arithmetic, so all of it holds of machine numbers.
-/

namespace SensorBar

namespace Bar

variable {α : Type} [Scalar α]

theorem select_eq_none_iff (preference : Preference) (bars : List (Bar α)) :
    select preference bars = none ↔ bars = [] :=
  winner_eq_none_iff (beats preference) bars

theorem mem_of_select {preference : Preference} {bars : List (Bar α)} {bar : Bar α}
    (h : select preference bars = some bar) : bar ∈ bars :=
  mem_of_winner h

/-! ## What recovery comes to -/

theorem mem_of_nearest {previous : Bar α} {tilted : List (Point α)} {m : Match α}
    (h : nearest previous tilted = some m) : m.dot ∈ tilted := by
  have hmem : m ∈ allMatches previous tilted := mem_of_winner h
  unfold allMatches at hmem
  obtain ⟨dot, hdot, hm⟩ := List.mem_flatMap.mp hmem
  simp only [List.mem_cons, List.not_mem_nil, or_false] at hm
  rcases hm with rfl | rfl
  · exact hdot
  · exact hdot

theorem followNearest_eq_some {s : PointerSettings α} {health : Health} {roll : α}
    {previous bar : Bar α} {tilted : List (Point α)}
    (h : followNearest s health roll previous tilted = some bar) :
    ∃ e, ∃ dot ∈ tilted, bar = previous.shiftTo e dot roll := by
  unfold followNearest at h
  cases hm : nearest previous tilted with
  | none => simp [hm] at h
  | some m =>
      simp only [hm] at h
      split at h
      · cases h
      · split at h
        · cases h
        · exact ⟨m.endpoint, m.dot, mem_of_nearest hm, (Option.some.inj h).symm⟩

theorem followEdge_eq (s : PointerSettings α) (roll : α) (previous : Bar α) (dot : Point α) :
    ∃ e, followEdge s roll previous dot = previous.shiftTo e dot roll :=
  ⟨_, rfl⟩

/-- The edge rule names a dot of the frame whenever there is one. -/
theorem edgemost_eq_some (height : α) {dots : List (Point α)} (h : dots ≠ []) :
    ∃ edge < dots.length, edgemost height dots = some edge := by
  unfold edgemost
  cases hw : winner (fun d best => decide (edgeMargin height d.1 < edgeMargin height best.1))
      dots.zipIdx with
  | none =>
      rw [winner_eq_none_iff, List.zipIdx_eq_nil_iff] at hw
      exact absurd hw h
  | some found =>
      have hlt : found.2 < dots.length := List.snd_lt_of_mem_zipIdx (mem_of_winner hw)
      exact ⟨found.2, hlt, rfl⟩

/-- What stands in the way of recovery; otherwise it always finds a bar. -/
def Unrecoverable (health : Health) (previous : Option (Bar α)) (dots : List (Point α)) : Prop :=
  previous = none ∨ health = .dead ∨ dots = []

theorem recover_of_unrecoverable (s : PointerSettings α) {health : Health} (roll : α)
    {previous : Option (Bar α)} {dots : List (Point α)} (tilted : List (Point α))
    (h : Unrecoverable health previous dots) :
    recover s health roll previous dots tilted = .ok none := by
  rcases h with rfl | rfl | rfl
  · rfl
  · cases previous <;> simp [recover]
  · cases previous <;> simp [recover, edgemost, winner]

theorem recover_eq_ok (s : PointerSettings α) {health : Health} (roll : α) (previous : Bar α)
    {dots : List (Point α)} (alive : health ≠ .dead) (hdots : dots ≠ []) :
    ∃ e, ∃ dot ∈ rotateAll dots roll,
      recover s health roll (some previous) dots (rotateAll dots roll) =
        .ok (some (previous.shiftTo e dot roll)) := by
  obtain ⟨edge, hlt, hedge⟩ := edgemost_eq_some s.height hdots
  simp only [recover, if_neg alive, hedge]
  cases hnear : followNearest s health roll previous (rotateAll dots roll) with
  | some found =>
      obtain ⟨e, dot, hdot, rfl⟩ := followNearest_eq_some hnear
      exact ⟨e, dot, hdot, rfl⟩
  | none =>
      have hedge' : edge < (rotateAll dots roll).length := (length_rotateAll dots roll).symm ▸ hlt
      rw [List.getElem?_eq_getElem hedge']
      obtain ⟨e, he⟩ := followEdge_eq s roll previous (rotateAll dots roll)[edge]
      exact ⟨e, (rotateAll dots roll)[edge], List.getElem_mem _, by rw [← he]⟩

/-- What recovery finds is the previous bar, moved onto one of the dots. -/
theorem eq_shiftTo_of_recover {s : PointerSettings α} {health : Health} {roll : α}
    {previous bar : Bar α} {dots : List (Point α)} (alive : health ≠ .dead) (hdots : dots ≠ [])
    (h : recover s health roll (some previous) dots (rotateAll dots roll) = .ok (some bar)) :
    ∃ e, ∃ dot ∈ rotateAll dots roll, bar = previous.shiftTo e dot roll := by
  obtain ⟨e, dot, hdot, hrec⟩ := recover_eq_ok s roll previous alive hdots
  rw [hrec] at h
  cases h
  exact ⟨e, dot, hdot, rfl⟩

end Bar

namespace Tracker

variable {α : Type} [Scalar α]

/-! ## One step -/

/-- The ways in which the dots of a frame can change a tracker. -/
inductive Moves (t : Tracker α) (roll : α) (points : List (Point α)) :
    Tracker α → Frame α → Prop where
  | lose (empty : points = []) : Moves t roll points t.lose t.lose.staleFrame
  | find {bar : Bar α}
      (selected : Bar.select t.settings.candidatePreference (t.candidates roll points) = some bar) :
      Moves t roll points (t.follow bar .good) (t.follow bar .good).liveFrame
  | carry {previous bar : Bar α} (dots : points ≠ []) (unseen : t.candidates roll points = [])
      (last : t.lastBar = some previous) (alive : t.health ≠ .dead)
      (recovered : Bar.recover t.settings t.health roll (some previous) points
        (rotateAll points roll) = .ok (some bar)) :
      Moves t roll points (t.follow bar .single) (t.follow bar .single).liveFrame
  | wait (dots : points ≠ []) (unseen : t.candidates roll points = [])
      (blind : t.lastBar = none ∨ t.health = .dead) : Moves t roll points t t.staleFrame

theorem Moves.settings {t next : Tracker α} {roll : α} {points : List (Point α)} {frame : Frame α}
    (h : Moves t roll points next frame) : next.settings = t.settings := by
  cases h <;> rfl

theorem locate_of_select {t : Tracker α} {roll : α} {points : List (Point α)} {bar : Bar α}
    (h : Bar.select t.settings.candidatePreference (t.candidates roll points) = some bar) :
    t.locate roll points = .ok (some (bar, .good)) := by
  simp [locate, h]

/-- A step that selects a bar follows it. -/
theorem advance_of_select {t : Tracker α} {roll : α} {points : List (Point α)} {bar : Bar α}
    (h : Bar.select t.settings.candidatePreference (t.candidates roll points) = some bar) :
    t.advance roll points = .ok (t.follow bar .good, (t.follow bar .good).liveFrame) := by
  cases points with
  | nil => cases h
  | cons p ps => simp [advance, locate_of_select h]

theorem locate_of_recover {t : Tracker α} {roll : α} {points : List (Point α)}
    {found : Option (Bar α)} (unseen : t.candidates roll points = [])
    (h : Bar.recover t.settings t.health roll t.lastBar points (rotateAll points roll) =
      .ok found) :
    t.locate roll points = .ok (found.map (·, .single)) := by
  have hselect := (Bar.select_eq_none_iff t.settings.candidatePreference _).mpr unseen
  simp [locate, hselect, h]

/-- A frame is never refused, and the tracker moves in one of the four ways. -/
theorem advance_moves (t : Tracker α) (roll : α) (points : List (Point α)) :
    ∃ next frame, t.advance roll points = .ok (next, frame) ∧ Moves t roll points next frame := by
  cases points with
  | nil => exact ⟨_, _, rfl, .lose rfl⟩
  | cons p ps =>
      have hdots : p :: ps ≠ [] := List.cons_ne_nil p ps
      cases hselect : Bar.select t.settings.candidatePreference (t.candidates roll (p :: ps)) with
      | some bar => exact ⟨_, _, advance_of_select hselect, .find hselect⟩
      | none =>
          have unseen := (Bar.select_eq_none_iff t.settings.candidatePreference _).mp hselect
          by_cases blind : t.lastBar = none ∨ t.health = .dead
          · have stuck : Bar.Unrecoverable t.health t.lastBar (p :: ps) := blind.imp_right .inl
            have hrec := Bar.recover_of_unrecoverable t.settings roll
              (rotateAll (p :: ps) roll) stuck
            refine ⟨_, _, ?_, .wait hdots unseen blind⟩
            simp [advance, locate_of_recover unseen hrec]
          · rw [not_or] at blind
            obtain ⟨hlast, alive⟩ := blind
            obtain ⟨previous, hprev⟩ := Option.ne_none_iff_exists'.mp hlast
            obtain ⟨e, dot, _, hrec⟩ := Bar.recover_eq_ok t.settings roll previous alive hdots
            refine ⟨_, _, ?_, .carry hdots unseen hprev alive hrec⟩
            rw [← hprev] at hrec
            simp [advance, locate_of_recover unseen hrec]

theorem moves_of_advance {t next : Tracker α} {roll : α} {points : List (Point α)}
    {frame : Frame α} (h : t.advance roll points = .ok (next, frame)) :
    Moves t roll points next frame := by
  obtain ⟨next', frame', h', moves⟩ := t.advance_moves roll points
  rw [h] at h'
  cases h'
  exact moves

theorem find?_outOfView_eq_none_iff (slots : Camera.Slots) :
    slots.spots.find? (fun s => decide (¬ s.InView)) = none ↔ slots.InView := by
  simp [Camera.Slots.InView]

theorem step_eq_ok_iff {t : Tracker α} {slots : Camera.Slots} {roll : α}
    {result : Tracker α × Frame α} :
    t.step slots roll = .ok result ↔ slots.InView ∧ t.advance roll slots.dots = .ok result := by
  unfold step
  rw [← find?_outOfView_eq_none_iff slots]
  cases slots.spots.find? (fun s => decide (¬ s.InView)) with
  | none => simp
  | some spot => simp

/-- Within the camera's promise every step succeeds. -/
theorem step_total (t : Tracker α) {slots : Camera.Slots} (roll : α) (h : slots.InView) :
    ∃ next frame, t.step slots roll = .ok (next, frame) := by
  obtain ⟨next, frame, hadvance, _⟩ := t.advance_moves roll slots.dots
  exact ⟨next, frame, step_eq_ok_iff.mpr ⟨h, hadvance⟩⟩

/-- Slots that break the camera's promise are refused. -/
theorem step_refused (t : Tracker α) {slots : Camera.Slots} (roll : α) (h : ¬ slots.InView) :
    ∃ breach, t.step slots roll = .error breach := by
  rw [← find?_outOfView_eq_none_iff] at h
  obtain ⟨spot, hspot⟩ := Option.ne_none_iff_exists'.mp h
  exact ⟨.outOfView spot, by simp only [step, hspot]⟩

theorem moves_of_step {t next : Tracker α} {slots : Camera.Slots} {roll : α} {frame : Frame α}
    (h : t.step slots roll = .ok (next, frame)) : Moves t roll slots.dots next frame :=
  moves_of_advance (step_eq_ok_iff.mp h).2

/-! ## Runs -/

/-- What the camera and the roll estimator report at one instant. -/
structure Sighting (α : Type) where
  slots : Camera.Slots
  roll : α

namespace Sighting

/-- A sighting of two spots at most. -/
def ofTwo (first second : Option Camera.Spot) (roll : α) : Sighting α :=
  ⟨#v[first, none, second, none], roll⟩

def dots (seen : Sighting α) : List (Point α) :=
  seen.slots.dots

/-- The bars that the dots of a sighting could be. -/
def bars (s : PointerSettings α) (seen : Sighting α) : List (Bar α) :=
  Bar.candidates s seen.roll (Dot.ofPoints seen.roll seen.dots)

/-- Whether a sighting alone shows the bar. -/
def Acquires (s : PointerSettings α) (seen : Sighting α) : Prop :=
  seen.bars s ≠ []

instance (s : PointerSettings α) (seen : Sighting α) : Decidable (seen.Acquires s) :=
  inferInstanceAs (Decidable (¬ seen.bars s = []))

end Sighting

/-- A step that was made. -/
structure Transition (α : Type) where
  before : Tracker α
  seen : Sighting α
  after : Tracker α
  frame : Frame α

/-- Whether a transition is the step that the tracker makes. -/
def Transition.Genuine (o : Transition α) : Prop :=
  o.before.step o.seen.slots o.seen.roll = .ok (o.after, o.frame)

/-- The transitions of a run over some sightings, up to the first breach. -/
def run : Tracker α → List (Sighting α) → List (Transition α)
  | _, [] => []
  | t, seen :: rest =>
      match t.step seen.slots seen.roll with
      | .error _ => []
      | .ok (next, frame) => ⟨t, seen, next, frame⟩ :: next.run rest

theorem run_cons_of_step {t next : Tracker α} {seen : Sighting α} {frame : Frame α}
    (rest : List (Sighting α)) (h : t.step seen.slots seen.roll = .ok (next, frame)) :
    t.run (seen :: rest) = ⟨t, seen, next, frame⟩ :: next.run rest := by
  simp [run, h]

/-- Within the camera's promise a run uses every sighting. -/
theorem map_seen_run (t : Tracker α) (sightings : List (Sighting α))
    (inView : ∀ seen ∈ sightings, seen.slots.InView) :
    (t.run sightings).map (·.seen) = sightings := by
  induction sightings generalizing t with
  | nil => rfl
  | cons seen rest ih =>
      have hseen : seen.slots.InView := inView seen List.mem_cons_self
      have hrest : ∀ later ∈ rest, later.slots.InView :=
        fun later hlater => inView later (List.mem_cons_of_mem seen hlater)
      obtain ⟨next, frame, hstep⟩ := t.step_total seen.roll hseen
      rw [run_cons_of_step rest hstep, List.map_cons, ih next hrest]

/-- A tracker after a list of genuine transitions, each from where the one before it led. -/
inductive Reaches (t : Tracker α) : List (Transition α) → Tracker α → Prop where
  | start : Reaches t [] t
  | step {past : List (Transition α)} {o : Transition α} (earlier : Reaches t past o.before)
      (genuine : o.Genuine) : Reaches t (past ++ [o]) o.after

theorem reaches_of_run_from {origin t : Tracker α} {earlier : List (Transition α)}
    (h : Reaches origin earlier t) {sightings : List (Sighting α)} {past later : List (Transition α)}
    {o : Transition α} (split : t.run sightings = past ++ o :: later) :
    Reaches origin (earlier ++ past) o.before ∧ o.Genuine := by
  induction sightings generalizing t earlier past with
  | nil => simp [run] at split
  | cons seen rest ih =>
      cases hstep : t.step seen.slots seen.roll with
      | error breach => simp [run, hstep] at split
      | ok result =>
          obtain ⟨next, frame⟩ := result
          rw [run_cons_of_step rest hstep] at split
          cases past with
          | nil =>
              obtain ⟨rfl, -⟩ := List.cons.inj split
              rw [List.append_nil]
              exact ⟨h, hstep⟩
          | cons first past =>
              -- A run unfolds from the front: its first transition moves over to `earlier`.
              obtain ⟨rfl, hrest⟩ := List.cons.inj split
              have hnext := Reaches.step (o := ⟨t, seen, next, frame⟩) h hstep
              simpa using ih hnext hrest

/-- Every transition of a run is genuine, and starts where the transitions before it lead. -/
theorem reaches_of_run {t : Tracker α} {sightings : List (Sighting α)}
    {past later : List (Transition α)} {o : Transition α}
    (split : t.run sightings = past ++ o :: later) : Reaches t past o.before ∧ o.Genuine :=
  reaches_of_run_from .start split

/-- A run takes its sightings in order, and goes on after each of its transitions as a run of its
own. -/
theorem run_drop_of_split {t : Tracker α} {sightings : List (Sighting α)}
    {past later : List (Transition α)} {o : Transition α}
    (split : t.run sightings = past ++ o :: later) :
    sightings.drop past.length = o.seen :: sightings.drop (past.length + 1) ∧
      o.after.run (sightings.drop (past.length + 1)) = later := by
  induction sightings generalizing t past with
  | nil => simp [run] at split
  | cons seen rest ih =>
      cases hstep : t.step seen.slots seen.roll with
      | error breach => simp [run, hstep] at split
      | ok result =>
          obtain ⟨next, frame⟩ := result
          rw [run_cons_of_step rest hstep] at split
          cases past with
          | nil =>
              obtain ⟨rfl, hlater⟩ := List.cons.inj split
              exact ⟨rfl, hlater⟩
          | cons first past => exact ih (List.cons.inj split).2

/-- The last transition with a valid frame. -/
def latestValid (past : List (Transition α)) : Option (Transition α) :=
  (past.filter (·.frame.valid)).getLast?

omit [Scalar α] in
theorem latestValid_concat (past : List (Transition α)) (o : Transition α) :
    latestValid (past ++ [o]) = if o.frame.valid then some o else latestValid past := by
  unfold latestValid
  cases h : o.frame.valid <;> simp [List.filter_append, h]

theorem Reaches.eq_last {t u : Tracker α} {past : List (Transition α)} (h : Reaches t past u) :
    u = (past.getLast?.map (·.after)).getD t := by
  cases h with
  | start => rfl
  | step earlier genuine => simp

theorem Reaches.settings {t u : Tracker α} {past : List (Transition α)} (h : Reaches t past u) :
    u.settings = t.settings := by
  induction h with
  | start => rfl
  | step earlier genuine ih =>
      rw [← ih]
      exact (moves_of_step genuine).settings

end Tracker

end SensorBar
