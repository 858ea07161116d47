import Mathlib.Data.List.FinRange
import SensorBar.Proofs.Numerals
import SensorBar.Trace.Line

/-! # The grammar of a trace line

What a line says, field by field, apart from how it is read; and the checks that a line is put to,
in the order in which they are made.  A line is read when it passes all of them, and otherwise the
first one that fails is the one that is told.
-/

namespace SensorBar

namespace Camera.Spot

theorem isMarker_iff (spot : Spot) :
    spot.isMarker = true ↔ spot.x.toNat = 1023 ∧ spot.y.toNat = 1023 := by
  rw [isMarker, Bool.and_eq_true, beq_iff_eq, beq_iff_eq, ← UInt16.toNat_inj, ← UInt16.toNat_inj]
  rfl

theorem inView_iff {spot : Spot} :
    spot.InView ↔ spot.x.toNat ≤ 1023 ∧ spot.y.toNat ≤ 1023 ∧
      ¬ (spot.x.toNat = 1023 ∧ spot.y.toNat = 1023) := by
  rw [InView, ← Bool.not_eq_true, isMarker_iff, UInt16.le_iff_toNat_le, UInt16.le_iff_toNat_le]
  rfl

end Camera.Spot

namespace Trace

open Decimal (NumeralBelow Literal)

/-! ## What a line says -/

/-- Where a field stands on a line. -/
def Field.position : Field → Nat
  | .timestamp => 0
  | .x slot => 1 + 2 * slot
  | .y slot => 2 + 2 * slot
  | .ax => 9
  | .ay => 10
  | .az => 11

/-- A field is there, and its text stands for `b`. -/
def Shows {β : Type} (fields : List (List Char)) (field : Field) (reads : List Char → β → Prop)
    (b : β) : Prop :=
  ∃ text, fields[field.position]? = some text ∧ reads text b

/-- What two coordinates say of a slot. -/
def Stands (x y : Nat) : Option Camera.Spot → Prop
  | none => x = 1023 ∧ y = 1023
  | some spot => ¬ (x = 1023 ∧ y = 1023) ∧ spot.x.toNat = x ∧ spot.y.toNat = y

/-- Two fields of a line say what a slot holds. -/
def SpellsSlot (fields : List (List Char)) (i : Fin 4) (slot : Option Camera.Spot) : Prop :=
  ∃ x y, Shows fields (.x i) (NumeralBelow UInt16.size) x ∧
    Shows fields (.y i) (NumeralBelow UInt16.size) y ∧ x ≤ 1023 ∧ y ≤ 1023 ∧ Stands x y slot

/-- The fields of a line say what a sample holds. -/
structure Spells (fields : List (List Char)) (sample : Sample Float) : Prop where
  count : fields.length = 12
  time : Shows fields .timestamp (NumeralBelow UInt64.size) sample.time
  slot (i : Fin 4) : SpellsSlot fields i sample.slots[i]
  ax : Shows fields .ax Literal sample.accel.x
  ay : Shows fields .ay Literal sample.accel.y
  az : Shows fields .az Literal sample.accel.z

/-! ## What can be wrong with it -/

/-- The texts that a field may have. -/
def Field.Accepts : Field → List Char → Prop
  | .timestamp, text => ∃ n, NumeralBelow UInt64.size text n
  | .x _, text | .y _, text => ∃ n, NumeralBelow UInt16.size text n
  | .ax, text | .ay, text | .az, text => ∃ x, Literal text x

inductive Check where
  | field (field : Field)
  | range (slot : Fin 4)
  | trailing

namespace Check

def ofSlot (i : Fin 4) : List Check :=
  [.field (.x i), .field (.y i), .range i]

/-- All checks in their order. -/
def order : List Check :=
  .field .timestamp :: (List.finRange 4).flatMap ofSlot ++
    [.field .ax, .field .ay, .field .az, .trailing]

/-- What a check finds wrong with the fields of a line. -/
inductive Fails (fields : List (List Char)) : Check → LineError → Prop where
  | missing {field : Field} (absent : fields[field.position]? = none) :
      Fails fields (.field field) (.missing field)
  | bad {field : Field} {text : List Char} (present : fields[field.position]? = some text)
      (unreadable : ¬ field.Accepts text) : Fails fields (.field field) (.bad field text)
  | outOfRange {slot : Fin 4} {x y : Nat}
      (first : Shows fields (.x slot) (NumeralBelow UInt16.size) x)
      (second : Shows fields (.y slot) (NumeralBelow UInt16.size) y)
      (beyond : 1023 < x ∨ 1023 < y) : Fails fields (.range slot) (.outOfRange slot x y)
  | trailing {text : List Char} (extra : fields[12]? = some text) :
      Fails fields .trailing (.trailing text)

def Passes (fields : List (List Char)) (check : Check) : Prop :=
  ∀ cause, ¬ check.Fails fields cause

end Check

/-- The first of some checks that fails finds `cause`. -/
inductive FirstFault (fields : List (List Char)) : List Check → LineError → Prop where
  | here {check : Check} {later : List Check} {cause : LineError}
      (fails : check.Fails fields cause) : FirstFault fields (check :: later) cause
  | later {check : Check} {later : List Check} {cause : LineError} (passes : check.Passes fields)
      (fault : FirstFault fields later cause) : FirstFault fields (check :: later) cause

variable {fields : List (List Char)}

/-! ## One line says one thing -/

theorem Shows.eq {β : Type} {field : Field} {reads : List Char → β → Prop} {b b' : β}
    (h : Shows fields field reads b) (h' : Shows fields field reads b')
    (unique : ∀ {text b b'}, reads text b → reads text b' → b = b') : b = b' := by
  obtain ⟨text, htext, hb⟩ := h
  obtain ⟨text', htext', hb'⟩ := h'
  obtain rfl := Option.some.inj (htext.symm.trans htext')
  exact unique hb hb'

theorem Stands.eq {x y : Nat} {slot slot' : Option Camera.Spot} (h : Stands x y slot)
    (h' : Stands x y slot') : slot = slot' := by
  cases slot with
  | none =>
      cases slot' with
      | none => rfl
      | some spot' => exact absurd h h'.1
  | some spot =>
      cases slot' with
      | none => exact absurd h' h.1
      | some spot' =>
          obtain ⟨-, hx, hy⟩ := h
          obtain ⟨-, hx', hy'⟩ := h'
          have hxs : spot.x = spot'.x := UInt16.toNat_inj.mp (hx.trans hx'.symm)
          have hys : spot.y = spot'.y := UInt16.toNat_inj.mp (hy.trans hy'.symm)
          cases spot
          cases spot'
          simp_all

theorem SpellsSlot.eq {i : Fin 4} {slot slot' : Option Camera.Spot} (h : SpellsSlot fields i slot)
    (h' : SpellsSlot fields i slot') : slot = slot' := by
  obtain ⟨x, y, hx, hy, -, -, hslot⟩ := h
  obtain ⟨x', y', hx', hy', -, -, hslot'⟩ := h'
  obtain rfl := hx.eq hx' NumeralBelow.unique
  obtain rfl := hy.eq hy' NumeralBelow.unique
  exact hslot.eq hslot'

theorem Spells.eq {sample sample' : Sample Float} (h : Spells fields sample)
    (h' : Spells fields sample') : sample = sample' := by
  obtain ⟨time, slots, ax, ay, az⟩ := sample
  obtain ⟨time', slots', ax', ay', az'⟩ := sample'
  obtain rfl : time = time' := h.time.eq h'.time NumeralBelow.unique
  obtain rfl : ax = ax' := h.ax.eq h'.ax Literal.unique
  obtain rfl : ay = ay' := h.ay.eq h'.ay Literal.unique
  obtain rfl : az = az' := h.az.eq h'.az Literal.unique
  obtain rfl : slots = slots' := by
    ext1 i hi
    exact (h.slot ⟨i, hi⟩).eq (h'.slot ⟨i, hi⟩)
  rfl

theorem Check.Fails.eq {check : Check} {cause cause' : LineError} (h : check.Fails fields cause)
    (h' : check.Fails fields cause') : cause = cause' := by
  cases h with
  | missing absent =>
      cases h' with
      | missing => rfl
      | bad present => rw [absent] at present; cases present
  | bad present =>
      cases h' with
      | missing absent => rw [absent] at present; cases present
      | bad present' => rw [Option.some.inj (present.symm.trans present')]
  | outOfRange first second =>
      cases h' with
      | outOfRange first' second' =>
          rw [first.eq first' NumeralBelow.unique, second.eq second' NumeralBelow.unique]
  | trailing extra =>
      cases h' with
      | trailing extra' => rw [Option.some.inj (extra.symm.trans extra')]

namespace FirstFault

variable {checks later : List Check} {cause cause' : LineError}

theorem eq (h : FirstFault fields checks cause) (h' : FirstFault fields checks cause') :
    cause = cause' := by
  induction h with
  | here fails =>
      cases h' with
      | here fails' => exact fails.eq fails'
      | later passes => exact absurd fails (passes _)
  | later passes _ ih =>
      cases h' with
      | here fails => exact absurd fails (passes _)
      | later _ fault => exact ih fault

theorem not_passes (h : FirstFault fields checks cause) :
    ¬ ∀ check ∈ checks, check.Passes fields := by
  induction h with
  | here fails => exact fun hall => hall _ List.mem_cons_self _ fails
  | later _ _ ih => exact fun hall => ih fun check hcheck => hall _ (List.mem_cons_of_mem _ hcheck)

theorem append_right (h : FirstFault fields checks cause) (later : List Check) :
    FirstFault fields (checks ++ later) cause := by
  induction h with
  | here fails => exact .here fails
  | later passes _ ih => exact .later passes ih

theorem append_left (h : FirstFault fields later cause)
    (passed : ∀ check ∈ checks, check.Passes fields) :
    FirstFault fields (checks ++ later) cause := by
  induction checks with
  | nil => exact h
  | cons check checks ih =>
      rw [List.forall_mem_cons] at passed
      exact .later passed.1 (ih passed.2)

end FirstFault

/-! ## Lines without faults -/

namespace Check

theorem passes_field {field : Field} {text : List Char}
    (htext : fields[field.position]? = some text) (haccepts : field.Accepts text) :
    (Check.field field).Passes fields := by
  intro cause fails
  cases fails with
  | missing absent =>
      rw [htext] at absent
      cases absent
  | bad present unreadable =>
      obtain rfl := Option.some.inj (htext.symm.trans present)
      exact unreadable haccepts

theorem passes_trailing (hle : fields.length ≤ 12) : Check.trailing.Passes fields := by
  intro cause fails
  cases fails with
  | trailing extra => exact hle.not_gt (List.getElem?_eq_some_iff.mp extra).1

end Check

theorem SpellsSlot.passes_range {i : Fin 4} {slot : Option Camera.Spot}
    (h : SpellsSlot fields i slot) : (Check.range i).Passes fields := by
  obtain ⟨x, y, hx, hy, hxle, hyle, -⟩ := h
  intro cause fails
  cases fails with
  | outOfRange first second beyond =>
      rw [first.eq hx NumeralBelow.unique, second.eq hy NumeralBelow.unique] at beyond
      omega

namespace Spells

variable {sample : Sample Float}

theorem accepts (h : Spells fields sample) (field : Field) :
    ∃ text, fields[field.position]? = some text ∧ field.Accepts text := by
  have accepted {β : Type} {field : Field} {reads : List Char → β → Prop} {b : β}
      (hshows : Shows fields field reads b) :
      ∃ text, fields[field.position]? = some text ∧ ∃ b, reads text b := by
    obtain ⟨text, htext, hb⟩ := hshows
    exact ⟨text, htext, b, hb⟩
  cases field with
  | timestamp => exact accepted h.time
  | x i =>
      obtain ⟨x, y, hx, hy, -⟩ := h.slot i
      exact accepted hx
  | y i =>
      obtain ⟨x, y, hx, hy, -⟩ := h.slot i
      exact accepted hy
  | ax => exact accepted h.ax
  | ay => exact accepted h.ay
  | az => exact accepted h.az

theorem passes (h : Spells fields sample) (check : Check) : check.Passes fields := by
  cases check with
  | field field =>
      obtain ⟨text, htext, haccepts⟩ := h.accepts field
      exact Check.passes_field htext haccepts
  | range i => exact (h.slot i).passes_range
  | trailing => exact Check.passes_trailing h.count.le

/-- A sample that is spelled keeps what the camera promises. -/
theorem inView (h : Spells fields sample) : sample.slots.InView := by
  intro spot hspot
  obtain ⟨slot, hslot, hread⟩ := List.mem_filterMap.mp hspot
  obtain ⟨i, hi, rfl⟩ := Vector.mem_iff_getElem.mp (Vector.mem_toList_iff.mp hslot)
  obtain ⟨x, y, -, -, hx, hy, hstands⟩ := h.slot ⟨i, hi⟩
  obtain ⟨hmarker, rfl, rfl⟩ : Stands x y (some spot) := hread ▸ hstands
  exact Camera.Spot.inView_iff.mpr ⟨hx, hy, hmarker⟩

end Spells

end Trace

end SensorBar
