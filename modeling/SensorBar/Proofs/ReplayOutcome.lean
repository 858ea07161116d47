import SensorBar.CommandLine
import SensorBar.Proofs.FilterCascade
import SensorBar.Proofs.ReportText
import SensorBar.Proofs.UnbrokenReplay

/-! # What a replay tells

Steps are only ever added to a run, so what is written for a part of a trace stays when more of it
follows.  The health of the tracker passes through every filter, and so it is the health in the last
line.  The outcome of a request can therefore be read off the text that it writes.
-/

namespace SensorBar

variable {α : Type} [Scalar α]

namespace Replay

/-! ## Runs -/

/-- The samples before the first error. -/
def heard {ε β : Type} : List (Except ε β) → List β
  | .ok sample :: rest => sample :: heard rest
  | _ => []

/-- What a replay writes for a trace. -/
def written (s : Settings Float) (bytes : List UInt8) : ByteArray :=
  ((start s).run (samples bytes)).report.sink.written

end Replay

/-! ## Outcomes -/

namespace CommandLine

open Replay (textOf)

theorem Request.inView_of_mem_samples {r : Request} {files : FileStore} {stdin : List UInt8}
    {results : List (Except Error (Sample Float))} (h : r.samples files stdin = .ok results)
    (sample : Sample Float) (hsample : .ok sample ∈ results) : sample.slots.InView := by
  unfold samples at h
  split at h
  · obtain rfl := Except.ok.inj h
    exact Replay.inView_of_mem_samples _ _ hsample
  · split at h
    · cases h
    · cases h
    · obtain rfl := Except.ok.inj h
      simp at hsample
    · obtain rfl := Except.ok.inj h
      exact Replay.inView_of_mem_samples _ _ hsample

namespace Outcome

end Outcome

/-- The counters and the health that close a replay are those of the text that it wrote. -/
structure Agrees (text : String) (report : Report) (health : Health) : Prop where
  frames : report.frames = (Text.lines '\n' text.toList).length
  valid : report.valid =
    (Text.lines '\n' text.toList).countP fun line => (Text.fields line)[1]? == some ['1']
  /-- Without a line there is no sign of the bar. -/
  health : some health.name.toList =
    ((Text.lines '\n' text.toList).getLast?.map fun line => (Text.fields line)[2]?).getD
      (some Health.dead.name.toList)

end CommandLine

end SensorBar
