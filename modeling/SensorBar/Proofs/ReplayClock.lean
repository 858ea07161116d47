import SensorBar.CommandLine
import SensorBar.Proofs.FilterClock
import SensorBar.Proofs.ReplayValidity

/-! # Replays and the clock

A replay hands its filters the time of each sample, counted from where the clock stands when the
replay begins.  The filters have heard nothing before that, so a replay that begins later is the
same replay with later instants in its filters: its steps, its text and its closing message are the
same.
-/

namespace SensorBar

namespace Replay

variable {α : Type} [Scalar α]

/-- The replay that began later by a delay, with filters that have heard everything later by it. -/
def delay (d : Nat) (r : Replay α) : Replay α :=
  { r with origin := d + r.origin, filters := r.filters.map (.delay d) }

theorem step_delay (d : Nat) (r : Replay α) (sample : Sample α) :
    (r.delay d).step sample = (r.step sample).map fun (next, o) => (next.delay d, o) := by
  simp only [step, delay, instant, Nat.add_assoc, Filter.stepAll_delay]
  cases r.tracker.step sample.slots (r.roll.update sample.accel).roll <;> rfl

/-- Two replays that begin apart go through the same steps and end in the same way. -/
theorem run_delay (d : Nat) (r : Replay α) (results : List (Except Error (Sample α))) :
    (r.delay d).run results = { r.run results with last := (r.run results).last.delay d } := by
  induction results generalizing r with
  | nil => rfl
  | cons result rest ih =>
      cases result with
      | error cause => rfl
      | ok sample =>
          have hdelay := r.step_delay d sample
          cases hstep : r.step sample with
          | error breach =>
              rw [hstep] at hdelay
              simp only [run, hdelay, hstep, Except.map]
          | ok made =>
              obtain ⟨next, o⟩ := made
              rw [hstep] at hdelay
              rw [run_cons_of_step hstep, run_cons_of_step hdelay, ih]

/-- A replay begins with filters that have heard nothing. -/
theorem delay_start (d : Nat) (s : Settings α) : (start s).delay d = startAt d s := by
  have unheard : ∀ g ∈ Filter.ofSettings s.filter, g.delay d = g :=
    fun g hg => Filter.delay_of_holdsNoInstant d (Filter.holdsNoInstant_of_mem_ofSettings hg)
  rw [delay, start, startAt, startAt, List.map_congr_left unheard, List.map_id', Nat.add_zero]

end Replay

namespace CommandLine.Outcome

theorem ofRun_startAt (origin : Nat) (s : Settings Float)
    (results : List (Except Error (Sample Float))) :
    ofRun ((Replay.startAt origin s).run results) = ofRun ((Replay.start s).run results) := by
  -- Of the state that a run ends in, only the health of the tracker is told.
  rw [← Replay.delay_start, Replay.run_delay]
  rfl

end CommandLine.Outcome

namespace Replay

/--
A filter that has heard the same frames, all of them later by one delay, tells the same and holds
the same but for that delay.  So a filter that holds no instant yet tells the same for two streams
whose instants differ by a constant, and one with no adaptive smoothing at any depth tells the same
whenever its frames come.  A replay comes to the same outcome wherever the clock stands when it
begins.
-/
theorem independent_of_clock {α : Type} [Scalar α] :
    (∀ (d : Nat) (g : Filter α) (stream : List (Frame α × Nat)),
      (g.delay d).run (Filter.delayed d stream) =
        ((g.run stream).1.delay d, (g.run stream).2)) ∧
    (∀ g : Filter α, g.HoldsNoInstant → ∀ (d d' : Nat) (stream stream' : List (Frame α × Nat)),
      Filter.delayed d stream = Filter.delayed d' stream' →
        (g.run stream).2 = (g.run stream').2) ∧
    (∀ g : Filter α, g.IgnoresTime → ∀ stream stream' : List (Frame α × Nat),
      stream.map (·.1) = stream'.map (·.1) → g.run stream = g.run stream') ∧
    ∀ (origin : Nat) (s : Settings Float) (results : List (Except Error (Sample Float))),
      CommandLine.Outcome.ofRun ((startAt origin s).run results) =
        CommandLine.Outcome.ofRun ((start s).run results) :=
  ⟨Filter.run_delay,
    fun _ unheard _ _ _ _ same => Filter.run_of_delayed_eq unheard same,
    fun _ timeless _ _ same => Filter.run_of_ignoresTime timeless same,
    CommandLine.Outcome.ofRun_startAt⟩

/-- Two frames, one that is missing, and one whose clock reads earlier than the last. -/
def sweep (origin : Nat) : List (Frame Float × Nat) :=
  [(⟨true, .good, ⟨0, 0⟩, 1⟩, origin), (⟨true, .good, ⟨40, 10⟩, 1⟩, origin + 16000000),
    (⟨false, .lost, ⟨0, 0⟩, 1⟩, origin + 32000000), (⟨true, .good, ⟨60, 15⟩, 1⟩, origin + 8000000)]

theorem independent_of_clock_of_sweep :
    let smoothing : Filter Float := .chain [.glitch (.ofSettings .default),
      .chain [.adaptive (.ofSettings .default)]]
    let timeless : Filter Float := .chain [.dropout (.ofSettings .default),
      .chain [.radius (.ofSettings .default)]]
    smoothing.HoldsNoInstant ∧ (smoothing.run (sweep 5)).2 = (smoothing.run (sweep 900000000)).2 ∧
      timeless.IgnoresTime ∧
      timeless.run (sweep 0) = timeless.run ((sweep 0).map fun (f, _) => (f, 7)) := by
  intro smoothing timeless
  obtain ⟨-, constant, whenever, -⟩ := independent_of_clock (α := Float)
  have unheard : smoothing.HoldsNoInstant := by
    intro a ha
    have fresh : a = .ofSettings .default := by
      simpa [smoothing, Filter.leaves, Filter.leavesAll] using ha
    rw [fresh]
    rfl
  have same : timeless.IgnoresTime := by
    intro a ha
    simp [timeless, Filter.leaves, Filter.leavesAll] at ha
  exact ⟨unheard, constant _ unheard 899999995 0 (sweep 5) (sweep 900000000) rfl, same,
    whenever _ same _ _ rfl⟩

end Replay

end SensorBar
