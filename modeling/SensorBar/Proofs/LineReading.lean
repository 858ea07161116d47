import SensorBar.Proofs.Double.Decimals
import SensorBar.Proofs.LineGrammar

/-! # Reading a trace line

The reader takes one field after another, so at every point it has made some of the checks and has
the remaining fields before it.  One stage reads a field, three more read a slot, and a line is a
sequence of them: it says what the line spells, or it tells the first fault.
-/

namespace SensorBar.Trace

open Decimal (NumeralBelow Literal)
open Text (IsWord Spaced)

variable {fields : List (List Char)}

/-! ## Stages -/

/-- Some checks account for a result: all are passed and its value is as expected, or the first one
that fails is told. -/
inductive Explains (fields : List (List Char)) (checks : List Check) {β : Type} :
    Except LineError β → (β → Prop) → Prop where
  | ok {b : β} {P : β → Prop} (passed : ∀ check ∈ checks, check.Passes fields) (value : P b) :
      Explains fields checks (.ok b) P
  | error {cause : LineError} {P : β → Prop} (fault : FirstFault fields checks cause) :
      Explains fields checks (.error cause) P

theorem Explains.bind {checks later : List Check} {β γ : Type} {result : Except LineError β}
    {next : β → Except LineError γ} {P : β → Prop} {Q : γ → Prop}
    (h : Explains fields checks result P)
    (hnext : ∀ b, P b → Explains fields later (next b) Q) :
    Explains fields (checks ++ later) (result >>= next) Q := by
  cases h with
  | error fault => exact .error (fault.append_right later)
  | @ok b _ passed value =>
      change Explains fields (checks ++ later) (next b) Q
      generalize hresult : next b = after
      have hafter := hnext b value
      rw [hresult] at hafter
      cases hafter with
      | ok passed' value' => exact .ok (List.forall_mem_append.mpr ⟨passed, passed'⟩) value'
      | error fault => exact .error (fault.append_left passed)

theorem Explains.imp {checks : List Check} {β : Type} {result : Except LineError β}
    {P Q : β → Prop} (h : Explains fields checks result P) (himp : ∀ b, P b → Q b) :
    Explains fields checks result Q := by
  cases h with
  | ok passed value => exact .ok passed (himp _ value)
  | error fault => exact .error fault

theorem getElem?_of_drop_eq_nil {k : Nat} (h : fields.drop k = []) : fields[k]? = none := by
  rw [← List.head?_drop, h]
  rfl

theorem getElem?_of_drop_eq_cons {k : Nat} {text : List Char} {rest : List (List Char)}
    (h : fields.drop k = text :: rest) :
    fields[k]? = some text ∧ rest = fields.drop (k + 1) := by
  rw [← List.head?_drop, ← List.tail_drop, h]
  exact ⟨rfl, rfl⟩

/-- A field is read where it stands. -/
theorem next_explained {β : Type} (field : Field) {read : List Char → Option β}
    {reads : List Char → β → Prop} (hread : ∀ {text b}, read text = some b ↔ reads text b)
    (haccepts : ∀ text, field.Accepts text ↔ ∃ b, reads text b) {k : Nat}
    (hk : field.position = k) :
    Explains fields [.field field] (next field read (fields.drop k))
      fun result => Shows fields field reads result.1 ∧ result.2 = fields.drop (k + 1) := by
  subst hk
  cases hdrop : fields.drop field.position with
  | nil => exact .error (.here (.missing (getElem?_of_drop_eq_nil hdrop)))
  | cons text rest =>
      obtain ⟨htext, hrest⟩ := getElem?_of_drop_eq_cons hdrop
      cases hvalue : read text with
      | none =>
          simp only [next, hvalue]
          refine .error (.here (.bad htext fun haccept => ?_))
          obtain ⟨b, hb⟩ := (haccepts text).mp haccept
          rw [hread.mpr hb] at hvalue
          cases hvalue
      | some b =>
          simp only [next, hvalue]
          have hreads := hread.mp hvalue
          have passes := Check.passes_field htext ((haccepts text).mpr ⟨b, hreads⟩)
          exact .ok (List.forall_mem_singleton.mpr passes) ⟨⟨text, htext, hreads⟩, hrest⟩

theorem stands_ofWire? {x y : Nat} (hx : x ≤ 1023) (hy : y ≤ 1023) :
    Stands x y (Camera.Spot.ofWire? x.toUInt16 y.toUInt16) := by
  have hx' : x.toUInt16.toNat = x := UInt16.toNat_ofNat_of_lt' (hx.trans_lt (by decide))
  have hy' : y.toUInt16.toNat = y := UInt16.toNat_ofNat_of_lt' (hy.trans_lt (by decide))
  have hmarker := Camera.Spot.isMarker_iff ⟨x.toUInt16, y.toUInt16⟩
  rw [hx', hy'] at hmarker
  unfold Camera.Spot.ofWire?
  split
  next h => exact hmarker.mp h
  next h => exact ⟨mt hmarker.mpr h, hx', hy'⟩

/-- A slot is two fields and a look at both of them. -/
theorem nextSlot_explained (i : Fin 4) :
    Explains fields (Check.ofSlot i) (nextSlot i (fields.drop (1 + 2 * i)))
      fun result => SpellsSlot fields i result.1 ∧ result.2 = fields.drop (3 + 2 * i) := by
  have hread {text : List Char} {n : Nat} :
      readCoordinate? text = some n ↔ NumeralBelow UInt16.size text n :=
    Decimal.readNat?_pred_eq_some_iff (by decide)
  change Explains fields ([_] ++ ([_] ++ [_])) _ _
  refine (next_explained (.x i) hread (fun _ => Iff.rfl) rfl).bind ?_
  rintro ⟨x, -⟩ ⟨hx, rfl⟩
  refine (next_explained (.y i) hread (fun _ => Iff.rfl)
    (by rw [Field.position]; omega : _ = 1 + 2 * i.val + 1)).bind ?_
  rintro ⟨y, -⟩ ⟨hy, rfl⟩
  have hend : 1 + 2 * i.val + 1 + 1 = 3 + 2 * i.val := by omega
  rw [hend]
  change Explains fields _ (if 1023 < x ∨ 1023 < y then _ else _) _
  split
  next beyond => exact .error (.here (.outOfRange hx hy beyond))
  next within =>
    obtain ⟨hx', hy'⟩ : x ≤ 1023 ∧ y ≤ 1023 := by omega
    have hslot : SpellsSlot fields i _ := ⟨x, y, hx, hy, hx', hy', stands_ofWire? hx' hy'⟩
    exact .ok (List.forall_mem_singleton.mpr hslot.passes_range) ⟨hslot, rfl⟩

/-- Nothing may follow the last field. -/
theorem end_explained {β : Type} (b : β) :
    Explains fields [.trailing]
      (match fields.drop 12 with
        | [] => .ok b
        | extra :: _ => .error (.trailing extra))
      fun b' => b' = b ∧ fields.length ≤ 12 := by
  cases hdrop : fields.drop 12 with
  | cons extra rest => exact .error (.here (.trailing (getElem?_of_drop_eq_cons hdrop).1))
  | nil =>
      have hle := List.drop_eq_nil_iff.mp hdrop
      exact .ok (List.forall_mem_singleton.mpr (Check.passes_trailing hle)) ⟨rfl, hle⟩

/-! ## Lines -/

theorem ofFields_explained (fields : List (List Char)) :
    Explains fields Check.order (ofFields fields) (Spells fields) := by
  have hread {text : List Char} {n : Nat} :
      readTime? text = some n ↔ NumeralBelow UInt64.size text n :=
    Decimal.readNat?_pred_eq_some_iff (by decide)
  have hfloat {text : List Char} {x : Float} : Decimal.readFloat? text = some x ↔ Literal text x :=
    Decimal.readFloat?_eq_some_iff
  change Explains fields ([_] ++ (Check.ofSlot 0 ++ (Check.ofSlot 1 ++ (Check.ofSlot 2 ++
    (Check.ofSlot 3 ++ ([_] ++ ([_] ++ ([_] ++ [_])))))))) _ _
  refine (next_explained .timestamp hread (fun _ => Iff.rfl) (k := 0) rfl).bind ?_
  rintro ⟨time, -⟩ ⟨htime, rfl⟩
  refine (nextSlot_explained 0).bind ?_
  rintro ⟨s0, -⟩ ⟨h0, rfl⟩
  refine (nextSlot_explained 1).bind ?_
  rintro ⟨s1, -⟩ ⟨h1, rfl⟩
  refine (nextSlot_explained 2).bind ?_
  rintro ⟨s2, -⟩ ⟨h2, rfl⟩
  refine (nextSlot_explained 3).bind ?_
  rintro ⟨s3, -⟩ ⟨h3, rfl⟩
  refine (next_explained .ax hfloat (fun _ => Iff.rfl) rfl).bind ?_
  rintro ⟨ax, -⟩ ⟨hax, rfl⟩
  refine (next_explained .ay hfloat (fun _ => Iff.rfl) rfl).bind ?_
  rintro ⟨ay, -⟩ ⟨hay, rfl⟩
  refine (next_explained .az hfloat (fun _ => Iff.rfl) rfl).bind ?_
  rintro ⟨az, -⟩ ⟨haz, rfl⟩
  refine (end_explained _).imp ?_
  rintro sample ⟨rfl, hle⟩
  refine ⟨hle.antisymm ?_, htime, fun i => ?_, hax, hay, haz⟩
  · obtain ⟨text, htext, -⟩ := haz
    exact (List.getElem?_eq_some_iff.mp htext).1
  · match i with
    | 0 => exact h0
    | 1 => exact h1
    | 2 => exact h2
    | 3 => exact h3

theorem ofFields_eq_ok_iff {sample : Sample Float} :
    ofFields fields = .ok sample ↔ Spells fields sample := by
  have h := ofFields_explained fields
  constructor
  · intro hok
    rw [hok] at h
    cases h with
    | ok _ value => exact value
  · intro hspells
    cases hresult : ofFields fields <;> rw [hresult] at h
    · cases h with
      | error fault => exact absurd (fun check _ => hspells.passes check) fault.not_passes
    · cases h with
      | ok _ value => rw [value.eq hspells]

theorem ofFields_eq_error_iff {cause : LineError} :
    ofFields fields = .error cause ↔ FirstFault fields Check.order cause := by
  have h := ofFields_explained fields
  constructor
  · intro herror
    rw [herror] at h
    cases h with
    | error fault => exact fault
  · intro hfault
    cases hresult : ofFields fields <;> rw [hresult] at h
    · cases h with
      | error fault => rw [fault.eq hfault]
    · cases h with
      | ok passed => exact absurd passed hfault.not_passes

-- Both coordinates are read before either of them is found to be out of range.
example : ofLine "1 1024 70000".toList = .error (.bad (.y 0) "70000".toList) :=
  rfl

theorem exists_ofFields_eq_ok_iff :
    (∃ sample, ofFields fields = .ok sample) ↔ ∀ check ∈ Check.order, check.Passes fields := by
  constructor
  · rintro ⟨sample, hok⟩ check -
    exact (ofFields_eq_ok_iff.mp hok).passes check
  · intro passes
    cases hresult : ofFields fields with
    | ok sample => exact ⟨sample, rfl⟩
    | error cause => exact absurd passes (ofFields_eq_error_iff.mp hresult).not_passes

/-! ## Writing a line -/

/-- The coordinates that are transmitted for a slot. -/
def wire : Option Camera.Spot → Nat × Nat
  | none => (1023, 1023)
  | some spot => (spot.x.toNat, spot.y.toNat)

/-- The fields of a line for a sample, with given texts for the accelerometer. -/
def written (time : Nat) (slots : Camera.Slots) (ax ay az : List Char) : List (List Char) :=
  Nat.toDigits 10 time :: slots.toList.flatMap
    (fun slot => [Nat.toDigits 10 (wire slot).1, Nat.toDigits 10 (wire slot).2]) ++ [ax, ay, az]

theorem stands_wire {slot : Option Camera.Spot} (view : ∀ spot ∈ slot, spot.InView) :
    (wire slot).1 ≤ 1023 ∧ (wire slot).2 ≤ 1023 ∧ Stands (wire slot).1 (wire slot).2 slot := by
  cases slot with
  | none => exact ⟨le_rfl, le_rfl, rfl, rfl⟩
  | some spot =>
      obtain ⟨hx, hy, hmarker⟩ := Camera.Spot.inView_iff.mp (view spot rfl)
      exact ⟨hx, hy, hmarker, rfl, rfl⟩

theorem spellsSlot_of_wire {i : Fin 4} {slot : Option Camera.Spot}
    (hx : fields[1 + 2 * i.val]? = some (Nat.toDigits 10 (wire slot).1))
    (hy : fields[2 + 2 * i.val]? = some (Nat.toDigits 10 (wire slot).2))
    (view : ∀ spot ∈ slot, spot.InView) : SpellsSlot fields i slot := by
  obtain ⟨hxle, hyle, hstands⟩ := stands_wire view
  exact ⟨_, _, ⟨_, hx, Decimal.numeral_toDigits _, hxle.trans_lt (by decide)⟩,
    ⟨_, hy, Decimal.numeral_toDigits _, hyle.trans_lt (by decide)⟩, hxle, hyle, hstands⟩

section

variable {time : Nat} {slots : Camera.Slots} {accel : Accel Float} {ax ay az : List Char}

theorem spells_written (htime : time < UInt64.size) (view : slots.InView) (hax : Literal ax accel.x)
    (hay : Literal ay accel.y) (haz : Literal az accel.z) :
    Spells (written time slots ax ay az) ⟨time, slots, accel⟩ := by
  have hview (i : Fin 4) : ∀ spot ∈ slots[i], spot.InView := fun spot hspot =>
    view spot (List.mem_filterMap.mpr ⟨slots[i], by simp, hspot⟩)
  obtain ⟨s0, s1, s2, s3, rfl⟩ : ∃ s0 s1 s2 s3, slots = #v[s0, s1, s2, s3] :=
    ⟨slots[0], slots[1], slots[2], slots[3], by ext1 i hi; match i with | 0 | 1 | 2 | 3 => rfl⟩
  refine ⟨rfl, ⟨_, rfl, Decimal.numeral_toDigits time, htime⟩, fun i => ?_, ⟨ax, rfl, hax⟩,
    ⟨ay, rfl, hay⟩, ⟨az, rfl, haz⟩⟩
  match i with
  | 0 => exact spellsSlot_of_wire rfl rfl (hview 0)
  | 1 => exact spellsSlot_of_wire rfl rfl (hview 1)
  | 2 => exact spellsSlot_of_wire rfl rfl (hview 2)
  | 3 => exact spellsSlot_of_wire rfl rfl (hview 3)

theorem isWord_of_mem_written (hax : Literal ax accel.x) (hay : Literal ay accel.y)
    (haz : Literal az accel.z) : ∀ w ∈ written time slots ax ay az, IsWord w := by
  have hdigits (n : Nat) : IsWord (Nat.toDigits 10 n) := (Decimal.numeral_toDigits n).isWord
  refine List.forall_mem_append.mpr ⟨List.forall_mem_cons.mpr ⟨hdigits time, fun w hw => ?_⟩, ?_⟩
  · obtain ⟨slot, -, hw⟩ := List.mem_flatMap.mp hw
    exact List.forall_mem_cons.mpr ⟨hdigits _, List.forall_mem_singleton.mpr (hdigits _)⟩ w hw
  · exact List.forall_mem_cons.mpr ⟨hax.isWord,
      List.forall_mem_cons.mpr ⟨hay.isWord, List.forall_mem_singleton.mpr haz.isWord⟩⟩

end

/--
A line is read exactly when it passes all checks, and then as the sample that its fields spell;
otherwise the first fault in the order of the checks is told.  The fields are the only pieces
without blanks that the line is put together from, and the decimals among them are rounded to
nearest.  So a sample that is written with any blanks between its fields is read back.
-/
theorem ofLine_exact (line : List Char) :
    (∀ fields, Text.words line = fields ↔ (∀ w ∈ fields, IsWord w) ∧ Spaced fields line) ∧
      ((∃ sample, ofLine line = .ok sample) ↔
        ∀ check ∈ Check.order, check.Passes (Text.words line)) ∧
      (∀ sample, ofLine line = .ok sample ↔ Spells (Text.words line) sample) ∧
      (∀ cause, ofLine line = .error cause ↔ FirstFault (Text.words line) Check.order cause) ∧
      (∀ d : Decimal, Double.RoundedTo d.toFloat d.value) ∧
      ∀ time slots accel ax ay az, time < UInt64.size → slots.InView →
        Literal ax accel.x → Literal ay accel.y → Literal az accel.z →
        Spaced (written time slots ax ay az) line →
        ofLine line = .ok ⟨time, slots, accel⟩ := by
  refine ⟨fun _ => Text.words_eq_iff, exists_ofFields_eq_ok_iff, fun _ => ofFields_eq_ok_iff,
    fun _ => ofFields_eq_error_iff, Decimal.toFloat_roundedTo, ?_⟩
  intro time slots accel ax ay az htime view hax hay haz hspaced
  have hwords := Text.words_of_spaced (isWord_of_mem_written hax hay haz) hspaced
  rw [ofLine, hwords]
  exact ofFields_eq_ok_iff.mpr (spells_written htime view hax hay haz)

/-- A slot at one edge of the view, blanks of several kinds, and three kinds of literals. -/
theorem ofLine_exact_of_blanks :
    let line := "\t7  512 384 1023 1023 1023 0 1023 1023\u3000-INF .5e1 +1\r".toList
    let slots : Camera.Slots := #v[some ⟨512, 384⟩, none, some ⟨1023, 0⟩, none]
    let accel : Accel Float := ⟨-(1.0 / 0.0), 5.0, 1.0⟩
    (slots.InView ∧ Literal "-INF".toList accel.x ∧ Literal ".5e1".toList accel.y ∧
      Literal "+1".toList accel.z ∧
      Spaced (written 7 slots "-INF".toList ".5e1".toList "+1".toList) line) ∧
    ofLine line = .ok ⟨7, slots, accel⟩ := by
  intro line slots accel
  have hview : slots.InView := by decide
  have hax : Literal "-INF".toList accel.x := Decimal.readFloat?_eq_some_iff.mp (by decide)
  have hay : Literal ".5e1".toList accel.y := Decimal.readFloat?_eq_some_iff.mp (by decide)
  have haz : Literal "+1".toList accel.z := Decimal.readFloat?_eq_some_iff.mp (by decide)
  obtain ⟨hwords, -, -, -, -, hwritten⟩ := ofLine_exact line
  have hspaced := ((hwords (written 7 slots "-INF".toList ".5e1".toList "+1".toList)).mp
    (by decide)).2
  exact ⟨⟨hview, hax, hay, haz, hspaced⟩,
    hwritten 7 slots accel _ _ _ (by decide) hview hax hay haz hspaced⟩

end SensorBar.Trace
