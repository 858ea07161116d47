import SensorBar.Error
import SensorBar.Filter.Chain
import SensorBar.Report
import SensorBar.Tracker

/-!
# Replay

A recorded trace is run through the roll estimator, the tracker and the filters.  The times of the
trace drive the filters, so that a replay does not depend on when it is made.
-/

namespace SensorBar

structure Replay (α : Type) where
  /-- Where the clock stood when the replay began, in nanoseconds. -/
  origin : Nat
  roll : RollEstimator α
  tracker : Tracker α
  filters : List (Filter α)

namespace Replay

variable {α : Type} [Scalar α]

def startAt (origin : Nat) (s : Settings α) : Replay α :=
  ⟨origin, .start s.roll, .start s.pointer, Filter.ofSettings s.filter⟩

def start (s : Settings α) : Replay α :=
  startAt 0 s

structure Step (α : Type) where
  time : Nat
  roll : α
  raw : Frame α
  filtered : Frame α

/-- The instant of a sample, in nanoseconds. -/
def instant (origin milliseconds : Nat) : Nat :=
  origin + milliseconds * 1000000

def step (r : Replay α) (s : Sample α) : Except Breach (Replay α × Step α) :=
  let roll := r.roll.update s.accel
  match r.tracker.step s.slots roll.roll with
  | .error breach => .error breach
  | .ok (tracker, raw) =>
      let (filters, filtered) := Filter.stepAll (instant r.origin s.time) r.filters raw
      .ok (⟨r.origin, roll, tracker, filters⟩, ⟨s.time, roll.roll, raw, filtered⟩)

/-! ## Runs -/

inductive Ending where
  | finished
  | failed (cause : Error)

structure Run (α : Type) where
  steps : List (Step α)
  last : Replay α
  ending : Ending

def run : Replay α → List (Except Error (Sample α)) → Run α
  | r, [] => ⟨[], r, .finished⟩
  | r, .error cause :: _ => ⟨[], r, .failed cause⟩
  | r, .ok sample :: rest =>
      match r.step sample with
      | .error breach => ⟨[], r, .failed (.breach breach)⟩
      | .ok (next, step) =>
          let later := next.run rest
          { later with steps := step :: later.steps }

def samples (bytes : List UInt8) : List (Except Error (Sample Float)) :=
  (Trace.read bytes).map (·.mapError Error.ofTrace)

def Run.report (run : Run Float) : Report :=
  run.steps.foldl (fun r s => (r.record s.time s.filtered).1) (.start none)

end Replay

end SensorBar
