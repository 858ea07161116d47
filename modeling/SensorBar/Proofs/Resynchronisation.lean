import SensorBar.Proofs.ApparentBar

/-! # Resynchronisation

A step that finds the bar writes every field of a tracker but its settings, and reads no other field
to do so.  Two trackers with the same settings are therefore one and the same from the first sighting
on that shows the bar to both, and whatever went wrong before a good frame is forgotten with it.
-/

namespace SensorBar.Tracker

section Steps

variable {α : Type} [Scalar α] {t u : Tracker α} {seen : Sighting α}

theorem follow_eq_of_settings (same : t.settings = u.settings) (bar : Bar α) (health : Health) :
    t.follow bar health = u.follow bar health := by
  simp only [follow, same]

/-- To find the bar a tracker needs nothing but its settings. -/
theorem exists_advance_of_acquires (shown : seen.Acquires t.settings) :
    ∃ bar, ∀ u : Tracker α, u.settings = t.settings →
      u.advance seen.roll seen.dots = .ok (t.follow bar .good, (t.follow bar .good).liveFrame) := by
  have found : Bar.select t.settings.candidatePreference (seen.bars t.settings) ≠ none :=
    mt (Bar.select_eq_none_iff _ _).mp shown
  obtain ⟨bar, selected⟩ := Option.ne_none_iff_exists'.mp found
  refine ⟨bar, fun u same => ?_⟩
  rw [← same] at selected
  rw [← follow_eq_of_settings same bar .good]
  exact advance_of_select selected

theorem step_eq_of_acquires (same : t.settings = u.settings) (shown : seen.Acquires t.settings) :
    t.step seen.slots seen.roll = u.step seen.slots seen.roll := by
  obtain ⟨bar, hadvance⟩ := exists_advance_of_acquires shown
  have hboth := (hadvance t rfl).trans (hadvance u same.symm).symm
  simp only [Sighting.dots] at hboth
  rw [step, step, hboth]

theorem exists_good_step (shown : seen.Acquires t.settings) (inView : seen.slots.InView) :
    ∃ next frame, t.step seen.slots seen.roll = .ok (next, frame) ∧ frame.health = .good := by
  obtain ⟨bar, hadvance⟩ := exists_advance_of_acquires shown
  exact ⟨_, _, step_eq_ok_iff.mpr ⟨inView, hadvance t rfl⟩, rfl⟩

/-- Runs that begin with one and the same step differ in nothing but where they begin. -/
theorem run_eq_of_step_eq (h : t.step seen.slots seen.roll = u.step seen.slots seen.roll)
    (later : List (Sighting α)) :
    (t.run (seen :: later)).map (fun o => (o.frame, o.after)) =
      (u.run (seen :: later)).map fun o => (o.frame, o.after) := by
  cases hstep : u.step seen.slots seen.roll with
  | error breach => simp [run, h, hstep]
  | ok made =>
      obtain ⟨next, frame⟩ := made
      rw [run_cons_of_step later (h.trans hstep), run_cons_of_step later hstep]
      rfl

/-- From a good frame on, any tracker with the same settings does what the run did. -/
theorem run_drop_of_good {s : PointerSettings α} {sightings : List (Sighting α)}
    {past later : List (Transition α)} {o : Transition α}
    (split : (start s).run sightings = past ++ o :: later) (good : o.frame.health = .good)
    (same : u.settings = s) :
    u.run (sightings.drop past.length) = { o with before := u } :: later := by
  obtain ⟨reached, genuine⟩ := reaches_of_run split
  obtain ⟨hdrop, hlater⟩ := run_drop_of_split split
  have settings : o.before.settings = s := reached.settings
  have shown : o.seen.Acquires o.before.settings :=
    settings.symm ▸ (frame_good_iff reached genuine).mp good
  have hstep : u.step o.seen.slots o.seen.roll = .ok (o.after, o.frame) :=
    (step_eq_of_acquires (settings.trans same.symm) shown).symm.trans genuine
  rw [hdrop, run_cons_of_step _ hstep, hlater]

end Steps

/--
Two trackers with the same settings make one and the same step of a sighting that shows the bar,
whatever else they hold, and the same steps of everything that follows it.  So what a run from the
start tells from a good frame on is what any tracker with its settings, a fresh one among them, tells
of the sightings from that one on.
-/
theorem run_resynchronised {α : Type} [Scalar α] :
    (∀ (t u : Tracker α) (seen : Sighting α), t.settings = u.settings →
      seen.Acquires t.settings →
        t.step seen.slots seen.roll = u.step seen.slots seen.roll ∧
        (seen.slots.InView → ∃ next frame,
          t.step seen.slots seen.roll = .ok (next, frame) ∧ frame.health = .good) ∧
        ∀ later, (t.run (seen :: later)).map (fun o => (o.frame, o.after)) =
          (u.run (seen :: later)).map fun o => (o.frame, o.after)) ∧
    ∀ (s : PointerSettings α) (sightings : List (Sighting α)) past o later,
      (start s).run sightings = past ++ o :: later → o.frame.health = .good →
        ∀ u : Tracker α, u.settings = s →
          u.run (sightings.drop past.length) = { o with before := u } :: later := by
  constructor
  · intro t u seen same shown
    have hstep := step_eq_of_acquires same shown
    exact ⟨hstep, exists_good_step shown, run_eq_of_step_eq hstep⟩
  · intro s sightings past o later split good u same
    exact run_drop_of_good split good same

/-- A tracker that was led astray. -/
def astray {α : Type} [Scalar α] (s : PointerSettings α) : Tracker α :=
  ⟨s, .lost, none, ⟨(700 : Nat), (300 : Nat)⟩, (9 : Nat)⟩

/-- A stray dot is forgotten when the bar is shown. -/
theorem run_resynchronised_of_astray :
    let stray : Sighting ℝ := .ofTwo (some ⟨300, 500⟩) none 1
    let level : Sighting ℝ := .ofTwo (some ⟨200, 384⟩) (some ⟨800, 384⟩) 0
    let lost : Tracker ℝ := astray .exactDefault
    lost.step level.slots level.roll = (start .exactDefault).step level.slots level.roll ∧
      ∃ first good o, (start .exactDefault).run (stray :: turningBar) = [first] ++ good :: [o] ∧
        good.frame.health = .good ∧
        lost.run turningBar = { good with before := lost } :: [o] := by
  intro stray level lost
  obtain ⟨steps, runs⟩ := run_resynchronised (α := ℝ)
  refine ⟨(steps lost (start .exactDefault) level rfl acquires_level).1, ?_⟩
  have inView : ∀ seen ∈ stray :: turningBar, seen.slots.InView := by
    simp only [stray, turningBar, List.forall_mem_cons]
    decide
  have hseen := map_seen_run (start .exactDefault) (stray :: turningBar) inView
  obtain ⟨first, rest, hrun, -, hrest⟩ := List.map_eq_cons_iff.mp hseen
  obtain ⟨good, tail, rfl, hgood, htail⟩ := List.map_eq_cons_iff.mp hrest
  obtain ⟨o, tail, rfl, -, hnil⟩ := List.map_eq_cons_iff.mp htail
  obtain rfl := List.map_eq_nil_iff.mp hnil
  have split : (start .exactDefault).run (stray :: turningBar) = [first] ++ good :: [o] := hrun
  obtain ⟨reached, genuine⟩ := reaches_of_run split
  have found : good.frame.health = .good := by
    rw [frame_good_iff reached genuine, hgood]
    exact acquires_level
  exact ⟨first, good, o, split, found, runs _ _ _ _ _ split found lost rfl⟩

end SensorBar.Tracker
