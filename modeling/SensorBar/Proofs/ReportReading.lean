import SensorBar.Proofs.FixedPlaces
import SensorBar.Proofs.ReportText

/-! # Reports read back

A line has six fields.  The first three are read back as they were; the last three are decimals of
three places, or words for what is not finite.  So the lines of a report tell the times, validities
and health of its frames.
-/

namespace SensorBar

/-! ## Readers -/

namespace Health

def ofName? (name : List Char) : Option Health :=
  [dead, lost, single, good].find? (·.name.toList == name)

theorem ofName?_name (h : Health) : ofName? h.name.toList = some h := by
  cases h <;> decide

end Health

namespace Report

def time? (field : List Char) : Option Nat :=
  if field.isEmpty || !field.all Char.isDigit then none else some (Nat.ofDigitChars 10 field 0)

def flag? : List Char → Option Bool
  | ['1'] => some true
  | ['0'] => some false
  | _ => none

/-- The time, validity and health in a line without its end. -/
def heading? (line : List Char) : Option (Nat × Bool × Health) :=
  match Text.fields line with
  | [time, valid, health, _, _, _] => do
      let time ← time? time
      let valid ← flag? valid
      let health ← Health.ofName? health
      some (time, valid, health)
  | _ => none

/-! ## What is read -/

theorem time?_eq_some_iff {field : List Char} {n : Nat} :
    time? field = some n ↔ Decimal.Digits field ∧ Nat.ofDigitChars 10 field 0 = n := by
  rw [time?, Option.ite_none_left_eq_some, Decimal.digits_iff, Option.some_inj]

theorem time?_toString (time : Nat) : time? (toString time).toList = some time := by
  rw [Nat.toString_eq_repr, Nat.toList_repr, time?_eq_some_iff]
  exact ⟨Decimal.digits_toDigits time, Nat.ofDigitChars_ten_toDigits⟩

theorem heading?_body (time : Nat) (f : Frame Float) :
    heading? (body time f) = some (time, f.valid, f.health) := by
  have hflag : flag? (if f.valid then "1" else "0").toList = some f.valid := by
    cases f.valid <;> decide
  rw [heading?, fields_body]
  simp only [fields, List.map_cons, List.map_nil, time?_toString, hflag, Health.ofName?_name,
    Option.bind_eq_bind, Option.bind_some]

theorem heading_eq_of_line_eq {time time' : Nat} {f f' : Frame Float}
    (h : line time f = line time' f') :
    (time, f.valid, f.health) = (time', f'.valid, f'.health) := by
  have hlines := congrArg String.toList h
  rw [toList_line, toList_line, List.append_left_inj] at hlines
  have hheading := congrArg heading? hlines
  rw [heading?_body, heading?_body] at hheading
  exact Option.some.inj hheading

/-- The headings of a text are those of its frames. -/
theorem mapM_heading?_text (entries : List (Nat × Frame Float)) :
    (Text.lines '\n' (text entries).toList).mapM heading? =
      some (entries.map fun e => (e.1, e.2.valid, e.2.health)) := by
  have hmap : (heading? ∘ fun e : Nat × Frame Float => body e.1 e.2) =
      fun e => pure (e.1, e.2.valid, e.2.health) :=
    funext fun e => heading?_body e.1 e.2
  rw [lines_text, List.mapM_map, hmap, List.mapM_pure]
  rfl

theorem number_ne_nil (x : Float) : (number.write x).toList ≠ [] := by
  rw [Decimal.FixedFormat.write, String.toList_ofList]
  cases Binary64.ofFloat x <;>
    simp [Decimal.FixedFormat.writeExact, Decimal.FixedFormat.magnitude, number]

theorem fields_ne_nil (time : Nat) (f : Frame Float) :
    ∀ field ∈ (fields time f).map String.toList, field ≠ [] := by
  have htime := (time?_eq_some_iff.mp (time?_toString time)).1.1
  have hflag : (if f.valid then "1" else "0").toList ≠ [] := by
    cases f.valid <;> decide
  have hhealth : f.health.name.toList ≠ [] := by
    cases f.health <;> decide
  simp only [fields, List.map_cons, List.map_nil, List.forall_mem_cons]
  exact ⟨htime, hflag, hhealth, number_ne_nil _, number_ne_nil _, number_ne_nil _,
    List.forall_mem_nil _⟩

/--
A line ends in its only line feed, and single blanks divide it into six fields.  The first three are
the time in digits, a flag and the name of the health, and are read back.  The last three are
written to three places, within half a unit of the third one.  Lines of different times, validities
or health differ, and the text of any frames gives all of these back.
-/
theorem text_read_back :
    (∀ (time : Nat) (f : Frame Float), ∃ t v h x y d : List Char,
      (line time f).toList = body time f ++ ['\n'] ∧ '\n' ∉ body time f ∧
      Text.fields (body time f) = [t, v, h, x, y, d] ∧
      (∀ field ∈ [t, v, h, x, y, d], field ≠ []) ∧
      heading? (body time f) = some (time, f.valid, f.health) ∧
      number.Writes x f.position.x ∧ number.Writes y f.position.y ∧
      number.Writes d f.distance) ∧
    (∀ (time time' : Nat) (f f' : Frame Float), line time f = line time' f' →
      (time, f.valid, f.health) = (time', f'.valid, f'.health)) ∧
    ∀ entries : List (Nat × Frame Float),
      (Text.lines '\n' (text entries).toList).mapM heading? =
        some (entries.map fun e => (e.1, e.2.valid, e.2.health)) := by
  refine ⟨fun time f => ?_, fun _ _ _ _ => heading_eq_of_line_eq, mapM_heading?_text⟩
  exact ⟨_, _, _, _, _, _, toList_line time f, lineFeed_not_mem_body time f, fields_body time f,
    fields_ne_nil time f, heading?_body time f, number.writes_write (by decide) _,
    number.writes_write (by decide) _, number.writes_write (by decide) _⟩

/-- A coordinate that is rounded away, a zero with a sign, and no distance. -/
def faint (x : Float) : Frame Float :=
  ⟨true, .single, ⟨x, -0.0⟩, 1.0 / 0.0⟩

example : line 20 (faint (-0.0004)) = "20 1 single -0.000 -0.000 inf\n" := by decide +kernel

/-- Lines that are equal although the frames are not. -/
theorem text_read_back_of_faint :
    line 20 (faint 0.0001) = line 20 (faint 0.0002) ∧
      (20, (faint 0.0001).valid, (faint 0.0001).health) =
        (20, (faint 0.0002).valid, (faint 0.0002).health) ∧
      (Text.lines '\n' (text [(20, faint 0.0001), (30, faint 0.0002)]).toList).mapM heading? =
        some [(20, true, .single), (30, true, .single)] := by
  have hlines : line 20 (faint 0.0001) = line 20 (faint 0.0002) := by decide +kernel
  exact ⟨hlines, text_read_back.2.1 _ _ _ _ hlines, text_read_back.2.2 _⟩

end Report

end SensorBar
