import SensorBar.Proofs.Lines
import SensorBar.Replay

/-! # The text of a report

The sink of a run has no bound, so every line is written whole, and the text of a run is the lines
of its steps.  Nothing that is written in a field is a blank or a line feed.  So the text can be
taken apart again: it has a line for every step, and each line has its six fields.
-/

namespace SensorBar

/-! ## Fields -/

namespace Text

/-- Text that is neither cut by blanks nor by line feeds. -/
def Solid (cs : List Char) : Prop :=
  ∀ c ∈ cs, c ≠ ' ' ∧ c ≠ '\n'

theorem Solid.append {xs ys : List Char} (hx : Solid xs) (hy : Solid ys) : Solid (xs ++ ys) :=
  List.forall_mem_append.mpr ⟨hx, hy⟩

theorem solid_toDigits (n : Nat) : Solid (Nat.toDigits 10 n) := by
  intro c hc
  have digit := Nat.isDigit_of_mem_toDigits (by decide) (by decide) hc
  constructor <;> rintro rfl <;> contradiction

theorem not_mem_intercalate {c : Char} {sep : List Char} (between : c ∉ sep)
    {pieces : List (List Char)} (within : ∀ piece ∈ pieces, c ∉ piece) :
    c ∉ sep.intercalate pieces := by
  induction pieces with
  | nil => simp
  | cons piece rest ih =>
      rw [List.forall_mem_cons] at within
      cases rest with
      | nil => simpa using within.1
      | cons next later =>
          rw [List.intercalate_cons_cons, List.mem_append, List.mem_append]
          rintro ((hpiece | hsep) | hrest)
          · exact within.1 hpiece
          · exact between hsep
          · exact ih within.2 hrest

/-- The fields of a line lie between single blanks. -/
def fields (line : List Char) : List (List Char) :=
  line.splitOn ' '

end Text

namespace Decimal

open Text (Solid)

theorem solid_padded (width n : Nat) : Solid (padded width n) :=
  Solid.append (fun c hc => by simp [List.eq_of_mem_replicate hc]) (Text.solid_toDigits n)

namespace FixedFormat

theorem solid_magnitude (f : FixedFormat) (units : Nat) : Solid (f.magnitude units) :=
  (Text.solid_toDigits _).append
    (List.forall_mem_cons.mpr ⟨by simp, solid_padded f.places _⟩)

theorem solid_sign (negative : Bool) : Solid (sign negative) := by
  cases negative <;> simp [sign, Solid]

/-- The words of a format are its only letters. -/
theorem solid_writeExact {f : FixedFormat} (nan : Solid f.nan.toList)
    (infinity : Solid f.infinity.toList) (x : Binary64) : Solid (f.writeExact x) := by
  cases x with
  | nan => exact nan
  | infinite negative => exact (solid_sign negative).append infinity
  | finite negative m e => exact (solid_sign negative).append (f.solid_magnitude _)

end FixedFormat

end Decimal

/-! ## Lines -/

namespace Report

open Text (Solid)

theorem solid_number (x : Float) : Solid (number.write x).toList := by
  rw [Decimal.FixedFormat.write, String.toList_ofList]
  exact Decimal.FixedFormat.solid_writeExact (by simp [number, Solid]) (by simp [number, Solid]) _

theorem solid_fields (time : Nat) (f : Frame Float) :
    ∀ field ∈ fields time f, Solid field.toList := by
  have htime : Solid (toString time).toList := by
    rw [Nat.toString_eq_repr, Nat.toList_repr]
    exact Text.solid_toDigits time
  have hvalid : Solid (if f.valid then "1" else "0").toList := by
    cases f.valid <;> simp [Solid]
  have hhealth : Solid f.health.name.toList := by
    cases f.health <;> simp [Health.name, Solid]
  simp only [fields, List.forall_mem_cons]
  exact ⟨htime, hvalid, hhealth, solid_number _, solid_number _, solid_number _,
    List.forall_mem_nil _⟩

/-- A line without its end. -/
def body (time : Nat) (f : Frame Float) : List Char :=
  List.intercalate [' '] ((fields time f).map String.toList)

theorem toList_line (time : Nat) (f : Frame Float) :
    (line time f).toList = body time f ++ ['\n'] := by
  simp [line, pieces, body, fields, List.intercalate]

theorem fields_body (time : Nat) (f : Frame Float) :
    Text.fields (body time f) = (fields time f).map String.toList := by
  refine List.splitOn_intercalate ' ' ?_ (by simp [fields])
  rw [List.forall_mem_map]
  exact fun field hfield blank => (solid_fields time f field hfield _ blank).1 rfl

theorem lineFeed_not_mem_body (time : Nat) (f : Frame Float) : '\n' ∉ body time f := by
  refine Text.not_mem_intercalate (by decide) ?_
  rw [List.forall_mem_map]
  exact fun field hfield feed => (solid_fields time f field hfield _ feed).2 rfl

/-- The lines of frames at their times. -/
def text (entries : List (Nat × Frame Float)) : String :=
  String.join (entries.map fun e => line e.1 e.2)

theorem toList_text (entries : List (Nat × Frame Float)) :
    (text entries).toList = (entries.map fun e => body e.1 e.2).flatMap (· ++ ['\n']) := by
  rw [text, String.toList_join, List.flatMap_map, List.flatMap_map]
  exact congrArg (fun line => List.flatMap line entries)
    (funext fun e => toList_line e.1 e.2)

/-- The text of frames has a line for each of them. -/
theorem lines_text (entries : List (Nat × Frame Float)) :
    Text.lines '\n' (text entries).toList = entries.map fun e => body e.1 e.2 := by
  rw [toList_text]
  refine Text.lines_flatMap ?_
  rw [List.forall_mem_map]
  exact fun e _ => lineFeed_not_mem_body e.1 e.2

end Report

/-! ## Sinks -/

namespace Sink

theorem write_bounded (capacity : Nat) (written bytes : ByteArray) :
    Sink.write ⟨some capacity, written⟩ bytes =
      (⟨some capacity, written ++ bytes.extract 0 (capacity - written.size)⟩,
        decide (bytes.size ≤ capacity - written.size)) :=
  rfl

/-- What is left of the capacity after a write. -/
theorem room_append (capacity : Nat) (written bytes : ByteArray) :
    capacity - (written ++ bytes.extract 0 (capacity - written.size)).size =
      capacity - written.size - bytes.size := by
  rw [ByteArray.size_append, ByteArray.size_extract]
  omega

/-- Bytes may be written in any pieces. -/
theorem write_append (s : Sink) (xs ys : ByteArray) :
    s.write (xs ++ ys) =
      (((s.write xs).1.write ys).1, (s.write xs).2 && ((s.write xs).1.write ys).2) := by
  obtain ⟨capacity, written⟩ := s
  cases capacity with
  | none => simp [write, ByteArray.append_assoc]
  | some capacity =>
      rw [write_bounded, write_bounded, write_bounded, room_append, ByteArray.extract_append,
        ByteArray.append_assoc, ByteArray.size_append, Nat.zero_sub, ← Bool.decide_and,
        Prod.mk.injEq, decide_eq_decide]
      exact ⟨rfl, by omega⟩

/-- A sink that has refused bytes is full. -/
theorem write_of_refused {s t : Sink} {bytes : ByteArray} (refused : s.write bytes = (t, false))
    (more : ByteArray) : (t.write more).1 = t := by
  obtain ⟨capacity, written⟩ := s
  cases capacity with
  | none => cases refused
  | some capacity =>
      rw [write_bounded, Prod.mk.injEq, decide_eq_false_iff_not] at refused
      obtain ⟨rfl, hlong⟩ := refused
      have hfull : capacity - written.size - bytes.size = 0 := by omega
      rw [write_bounded, room_append, hfull, ByteArray.extract_same, ByteArray.append_empty]

theorem write_empty (s : Sink) : s.write .empty = (s, true) := by
  obtain ⟨capacity, written⟩ := s
  cases capacity with
  | none => simp [write]
  | some capacity =>
      have hnothing : ByteArray.empty.extract 0 (capacity - written.size) = .empty := by
        simp [ByteArray.extract_eq_empty_iff]
      simp [write_bounded, hnothing]

/-- Where a line is cut into pieces makes no difference, also when the sink fills up in it. -/
theorem writeAll_eq_write (s : Sink) (pieces : List String) :
    s.writeAll pieces = s.write (String.join pieces).toUTF8 := by
  induction pieces generalizing s with
  | nil => exact (write_empty s).symm
  | cons piece rest ih =>
      have hjoin : (String.join (piece :: rest)).toUTF8 =
          piece.toUTF8 ++ (String.join rest).toUTF8 := by
        rw [String.join_cons]
        exact String.toByteArray_append
      rw [hjoin, write_append, writeAll]
      split
      next t hpiece => rw [hpiece, ih, Bool.true_and]
      next t hpiece => rw [hpiece, write_of_refused hpiece, Bool.false_and]

end Sink

theorem Report.record_eq (r : Report) (time : Nat) (f : Frame Float) :
    r.record time f =
      match r.sink.write (line time f).toUTF8 with
      | (sink, true) => (⟨sink, r.frames + 1, r.valid + f.valid.toNat⟩, true)
      | (sink, false) => ({ r with sink }, false) := by
  rw [record, Sink.writeAll_eq_write]
  rfl

namespace Replay

def Step.line (o : Step Float) : String :=
  Report.line o.time o.filtered

/-- The line of a step without its end. -/
def Step.body (o : Step Float) : List Char :=
  Report.body o.time o.filtered

def textOf (steps : List (Step Float)) : String :=
  String.join (steps.map Step.line)

end Replay

end SensorBar
