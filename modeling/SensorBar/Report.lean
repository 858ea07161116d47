import SensorBar.Decimal.Fixed
import SensorBar.Frame

/-!
# Reports

The text of a run: a line for every frame, with the time, validity, health, position and distance.
Lines go to a sink that may be full, and a report counts the frames that it has written whole.
-/

namespace SensorBar

/-! ## Sinks -/

/-- A sequence of bytes, of bounded length when a capacity is given. -/
structure Sink where
  capacity : Option Nat
  written : ByteArray

namespace Sink

def empty (capacity : Option Nat) : Sink :=
  ⟨capacity, .empty⟩

/-- The sink after as many of the bytes as fit, and whether all of them did. -/
def write (s : Sink) (bytes : ByteArray) : Sink × Bool :=
  match s.capacity with
  | none => ({ s with written := s.written ++ bytes }, true)
  | some capacity =>
      let room := capacity - s.written.size
      ({ s with written := s.written ++ bytes.extract 0 room }, decide (bytes.size ≤ room))

/-- Writes pieces in turn, and stops at the first one that does not fit. -/
def writeAll : Sink → List String → Sink × Bool
  | s, [] => (s, true)
  | s, piece :: rest =>
      match s.write piece.toUTF8 with
      | (s, true) => s.writeAll rest
      | (s, false) => (s, false)

end Sink

/-! ## Lines -/

structure Report where
  sink : Sink
  frames : Nat
  valid : Nat

namespace Report

def start (capacity : Option Nat) : Report :=
  ⟨.empty capacity, 0, 0⟩

def number : Decimal.FixedFormat :=
  ⟨3, "NaN", "inf"⟩

def fields (time : Nat) (f : Frame Float) : List String :=
  [toString time, if f.valid then "1" else "0", f.health.name, number.write f.position.x,
    number.write f.position.y, number.write f.distance]

/-- A line in the pieces in which it is written: fields, the blanks between them, and its end. -/
def pieces (time : Nat) (f : Frame Float) : List String :=
  (fields time f).intersperse " " ++ ["\n"]

def line (time : Nat) (f : Frame Float) : String :=
  String.join (pieces time f)

/-- The report after one more frame, and whether its line was written whole.  A frame counts if so. -/
def record (r : Report) (time : Nat) (f : Frame Float) : Report × Bool :=
  match r.sink.writeAll (pieces time f) with
  | (sink, true) => (⟨sink, r.frames + 1, r.valid + f.valid.toNat⟩, true)
  | (sink, false) => ({ r with sink }, false)

end Report

end SensorBar
