import Mathlib.Data.List.TakeDrop
import SensorBar.Proofs.Settings.Fields
import SensorBar.Toml.Document

/-! # Documents with one header

The only header of a document can begin a list of tables, and nothing that such a table holds is
made by a header in turn.  A document that spends its header on the list of roll settings holds
nothing else, and the list has no choice of an axis, so such a document is never read.
-/

namespace SensorBar.Toml

namespace Value

def isScalar : Value → Bool
  | .array _ => false
  | .table _ _ => false
  | _ => true

/-- Whether a value is a table that the only header of a document begins. -/
def isSole : Value → Bool
  | .table .soleHeader _ => true
  | _ => false

/-- Whether a value is neither a table nor a list of tables that the only header begins. -/
def Headless (v : Value) : Prop :=
  v.isSole = false ∧ v.isLoneList = false

theorem headless_of_isScalar {v : Value} (h : v.isScalar = true) : v.Headless := by
  cases v with
  | array items => cases h
  | table form entries => cases h
  | _ => exact ⟨rfl, rfl⟩

theorem headless_array {items : List Value} (h : ∀ item ∈ items, item.Headless) :
    (array items).Headless := by
  refine ⟨rfl, ?_⟩
  unfold isLoneList
  split
  · next entries rest heq =>
      cases heq
      cases (h _ List.mem_cons_self).1
  · rfl

end Value

/-! ## What a line gives -/

namespace Reader

variable {β γ : Type} {P : β → Prop}

/-- Whether whatever is read has a property. -/
def Yields (r : Reader β) (P : β → Prop) : Prop :=
  ∀ ts b rest, r.run ts = some (b, rest) → P b

theorem Yields.pure {b : β} (h : P b) : Yields (pure b) P := by
  intro ts b' rest hb
  cases hb
  exact h

theorem Yields.failure : Yields (failure : Reader β) P := by
  intro ts b rest hb
  cases hb

theorem Yields.andThen {r : Reader γ} {f : γ → Reader β} {Q : γ → Prop} (hr : r.Yields Q)
    (hf : ∀ c, Q c → (f c).Yields P) : (r >>= f).Yields P := by
  intro ts b rest hb
  rw [StateT.run_bind] at hb
  obtain ⟨⟨c, middle⟩, hc, hb⟩ := Option.bind_eq_some_iff.mp hb
  exact hf c (hr ts c middle hc) middle b rest hb

theorem Yields.bind {r : Reader γ} {f : γ → Reader β} (hf : ∀ c, (f c).Yields P) :
    (r >>= f).Yields P :=
  Yields.andThen (Q := fun _ => True) (fun _ _ _ _ => trivial) fun c _ => hf c

theorem Yields.ite {c : Prop} [Decidable c] {r s : Reader β} (hr : r.Yields P) (hs : s.Yields P) :
    (if c then r else s).Yields P := by
  split
  · exact hr
  · exact hs

theorem yields_integer (radix : Nat) (cs : List Char) :
    (integer radix cs).Yields (·.isScalar = true) :=
  .bind fun _ => .pure rfl

theorem yields_float (w : List Char) (afterPeriod : Option (List Char)) :
    (float w afterPeriod).Yields (·.isScalar = true) := by
  unfold float
  refine .bind fun ⟨negative, whole, tail⟩ => ?_
  have finish (fraction tail : List Char) : Yields (do
      let e ← exponent tail
      let d : Decimal :=
        ⟨negative, Decimal.digitsValue (whole ++ fraction), e - (fraction.length : Int)⟩
      let x ← StateT.lift (Number.finite? d)
      return Value.float x) (·.isScalar = true) :=
    .bind fun _ => .bind fun _ => .pure rfl
  cases afterPeriod with
  | none => exact .bind fun _ => finish _ _
  | some after => exact .ite (.bind fun _ => .bind fun _ => finish _ _) (.bind fun _ => finish _ _)

theorem yields_number (w : List Char) : (number w).Yields (·.isScalar = true) := by
  unfold number
  split
  · exact yields_integer 16 _
  · exact yields_integer 8 _
  · exact yields_integer 2 _
  · refine .ite (yields_float w none) (.bind fun period => ?_)
    refine .ite (.bind fun after => yields_float w (some after)) ?_
    exact .ite (.pure rfl) (.ite (.pure rfl) (.ite (.pure rfl) (.ite (.pure rfl)
      (yields_integer 10 w))))

theorem yields_datetime (colonTaken : Bool) :
    (datetime colonTaken).Yields (·.isScalar = true) := by
  have finish (colon : Bool) : Yields (do
      if colon then timeAfterHours
      return Value.datetime) (·.isScalar = true) :=
    .ite (.bind fun _ => .pure rfl) (.pure rfl)
  have rest : Yields (do
      let colon ← if colonTaken then pure true else eat .colon
      if colon then timeAfterHours
      return Value.datetime) (·.isScalar = true) :=
    .ite (.bind finish) (.bind finish)
  unfold datetime
  refine .bind fun ts => ?_
  dsimp only
  split
  · exact .bind fun _ => rest
  · exact rest

theorem yields_ofWord (w : List Char) : (ofWord w).Yields (·.isScalar = true) := by
  have numeric : (numberOrDate w).Yields (·.isScalar = true) :=
    .ite (yields_datetime false) (.bind fun _ => .ite (yields_datetime true) (yields_number w))
  refine .ite (.pure rfl) (.ite (.pure rfl) (.ite numeric ?_))
  split
  · exact .ite numeric .failure
  · exact .failure

theorem Yields.mono {Q : β → Prop} {r : Reader β} (hr : r.Yields Q) (h : ∀ b, Q b → P b) :
    r.Yields P :=
  fun ts b rest hb => h b (hr ts b rest hb)

/-- Tables between braces are in no header, and arrays hold no others. -/
theorem yields_value (fuel : Nat) :
    (value fuel).Yields Value.Headless ∧ (items fuel).Yields fun vs => ∀ v ∈ vs, v.Headless := by
  induction fuel with
  | zero => exact ⟨.failure, .failure⟩
  | succ fuel ih =>
      constructor
      · unfold value
        refine .bind fun t => ?_
        cases t with
        | string text multiline => exact .pure ⟨rfl, rfl⟩
        | word w => exact (yields_ofWord w).mono fun _ => Value.headless_of_isScalar
        | plus => exact .bind fun w => (yields_number w).mono fun _ => Value.headless_of_isScalar
        | openBrace =>
            refine .bind fun _ => .bind fun _ => .ite (.pure ⟨rfl, rfl⟩) ?_
            exact .bind fun entries => .pure ⟨rfl, rfl⟩
        | openBracket => exact .andThen ih.2 fun vs hvs => .pure (Value.headless_array hvs)
        | _ => exact .failure
      · unfold items
        refine .bind fun _ => .bind fun closed => .ite (.pure nofun) ?_
        refine .andThen ih.1 fun v hv => .bind fun _ => .bind fun comma => .ite ?_ ?_
        · exact .andThen ih.2 fun vs hvs => .pure (List.forall_mem_cons.mpr ⟨hv, hvs⟩)
        · exact .bind fun _ => .pure (List.forall_mem_singleton.mpr hv)

/-- Whether a line names no value that is made by a header. -/
def Line.Headless : Line → Prop
  | .header _ _ => True
  | .entry _ v => v.Headless

theorem yields_lines (fuel : Nat) : (lines fuel).Yields fun ls => ∀ l ∈ ls, l.Headless := by
  have yields_header : header.Yields Line.Headless :=
    .bind fun _ => .bind fun _ => .bind fun _ => .bind fun _ => .bind fun _ => .ite
      (.bind fun _ => .bind fun _ => .pure trivial) (.bind fun _ => .pure trivial)
  have yields_entry : entry.Yields Line.Headless :=
    .bind fun _ => .bind fun _ => .bind fun _ => .bind fun _ =>
      .andThen (yields_value _).1 fun v hv => .bind fun _ => .pure hv
  induction fuel with
  | zero => exact .failure
  | succ fuel ih =>
      unfold lines
      refine .bind fun _ => .bind fun t => ?_
      cases t with
      | none => exact .pure nofun
      | some t =>
          have more (l : Line) (hl : l.Headless) : Yields (do return l :: (← lines fuel))
              fun ls => ∀ l ∈ ls, l.Headless :=
            .andThen ih fun ls hls => .pure (List.forall_mem_cons.mpr ⟨hl, hls⟩)
          exact .ite (.andThen yields_header more) (.andThen yields_entry more)

end Reader

/-! ## Sections -/

theorem Entries.headless_insert? {v : Value} (hv : v.Headless) {path : List String}
    {entries more : Entries} (hentries : ∀ e ∈ entries, e.2.Headless)
    (h : entries.insert? v path = some more) : ∀ e ∈ more, e.2.Headless := by
  have hdotted (inner : Entries) : (Value.table .dotted inner).Headless := ⟨rfl, rfl⟩
  unfold insert? at h
  split at h
  · cases h
  · cases h
    exact List.forall_mem_append.mpr ⟨hentries, List.forall_mem_singleton.mpr hv⟩
  · next key path _ =>
      split at h
      · obtain ⟨inner, -, hmore⟩ := Option.bind_eq_some_iff.mp h
        cases hmore
        exact List.forall_mem_append.mpr ⟨hentries, List.forall_mem_singleton.mpr (hdotted inner)⟩
      · next before key' inner after hspan =>
          obtain ⟨inner', -, hmore⟩ := Option.bind_eq_some_iff.mp h
          cases hmore
          rw [List.span_eq_takeWhile_dropWhile, Prod.mk.injEq] at hspan
          have hparts : before ++ (key', .table .dotted inner) :: after = entries := by
            rw [← hspan.1, ← hspan.2, List.takeWhile_append_dropWhile]
          rw [← hparts, List.forall_mem_append, List.forall_mem_cons] at hentries
          exact List.forall_mem_append.mpr
            ⟨hentries.1, List.forall_mem_cons.mpr ⟨hdotted inner', hentries.2.2⟩⟩
      · cases h

namespace Section

/-- Whether no entry of a section has a value that is made by a header. -/
def Headless (s : Section) : Prop :=
  ∀ e ∈ s.entries, e.2.Headless

theorem headless_ofLines {current : Option Section} {lines : List Reader.Line}
    {sections : List Section} (hcurrent : ∀ s ∈ current, s.Headless)
    (hlines : ∀ l ∈ lines, l.Headless) (h : ofLines current lines = some sections) :
    ∀ s ∈ sections, s.Headless := by
  have hlist {current : Option Section} (hcurrent : ∀ s ∈ current, s.Headless) :
      ∀ s ∈ current.toList, s.Headless := fun s hs => hcurrent s (Option.mem_toList.mp hs)
  induction lines generalizing current sections with
  | nil =>
      cases h
      exact hlist hcurrent
  | cons line rest ih =>
      rw [List.forall_mem_cons] at hlines
      cases line with
      | header path isArray =>
          obtain ⟨later, hlater, hsections⟩ := Option.bind_eq_some_iff.mp h
          cases hsections
          refine List.forall_mem_append.mpr ⟨hlist hcurrent, ih ?_ hlines.2 hlater⟩
          rintro s ⟨⟩ e he
          cases he
      | entry path value =>
          obtain ⟨entries, hentries, hrest⟩ := Option.bind_eq_some_iff.mp h
          refine ih ?_ hlines.2 hrest
          rintro s ⟨⟩
          refine Entries.headless_insert? hlines.1 ?_ hentries
          cases current with
          | none => exact nofun
          | some s => exact hcurrent s rfl

theorem headless_ofText? {cs : List Char} {sections : List Section}
    (h : ofText? cs = some sections) : ∀ s ∈ sections, s.Headless := by
  obtain ⟨tokens, -, h⟩ := Option.bind_eq_some_iff.mp h
  obtain ⟨⟨lines, rest⟩, hlines, h⟩ := Option.bind_eq_some_iff.mp h
  exact headless_ofLines (fun s hs => by cases hs)
    (Reader.yields_lines _ tokens lines rest hlines) h

end Section

/-! ## Documents -/

namespace Document

variable {form : Form} {fuel : Nat}

theorem under_outside_subset (key : String) (sections : List Section) :
    (under key sections).2 ⊆ sections := by
  induction sections with
  | nil => exact List.Subset.refl _
  | cons s rest ih =>
      simp only [under]
      split
      · split
        · exact List.subset_cons_of_subset s ih
        · exact List.cons_subset_cons s ih
      · exact List.cons_subset_cons s ih

/-- An entry stands in a section, or is made up of the sections of its key. -/
theorem mem_entries {headed : Bool} {sections : List Section} {es : Entries}
    (h : entries form fuel headed sections = some es) {e : String × Value} (he : e ∈ es) :
    (∃ s ∈ sections, e ∈ s.entries) ∨ ∃ fuel' group, value form fuel' group = some e.2 := by
  induction fuel generalizing headed sections es with
  | zero => cases h
  | succ fuel ih =>
      cases sections with
      | nil =>
          cases h
          cases he
      | cons s rest =>
          rw [entries] at h
          split at h
          · split at h
            · cases h
            · obtain ⟨later, hlater, hes⟩ := Option.bind_eq_some_iff.mp h
              cases hes
              rcases List.mem_append.mp he with hs | hrest
              · exact .inl ⟨s, List.mem_cons_self, hs⟩
              · refine (ih hlater hrest).imp_left ?_
                rintro ⟨s', hs', he'⟩
                exact ⟨s', List.mem_cons_of_mem s hs', he'⟩
          · next key path _ =>
              obtain ⟨v, hv, h⟩ := Option.bind_eq_some_iff.mp h
              obtain ⟨later, hlater, hes⟩ := Option.bind_eq_some_iff.mp h
              cases hes
              rcases List.mem_cons.mp he with rfl | hrest
              · exact .inr ⟨_, _, hv⟩
              · refine (ih hlater hrest).imp_left ?_
                rintro ⟨s', hs', he'⟩
                exact ⟨s', List.mem_cons_of_mem s (under_outside_subset key rest hs'), he'⟩

/-- Only the one header of a document can begin a lone list. -/
theorem eq_soleHeader_of_isLoneList {group : List Section} {v : Value}
    (h : value form fuel group = some v) (lone : v.isLoneList = true) : form = .soleHeader := by
  cases fuel with
  | zero => cases h
  | succ fuel =>
      cases group with
      | nil => cases h
      | cons s rest =>
          rw [value] at h
          split at h
          · obtain ⟨tables, htables, hv⟩ := Option.bind_eq_some_iff.mp h
            cases hv
            cases hgroups : (elements (s :: rest)).2 with
            | nil =>
                rw [hgroups] at htables
                cases htables
                cases lone
            | cons group groups =>
                rw [hgroups, List.mapM_cons] at htables
                obtain ⟨table, htable, htables⟩ := Option.bind_eq_some_iff.mp htables
                obtain ⟨others, -, htables⟩ := Option.bind_eq_some_iff.mp htables
                obtain ⟨es, -, rfl⟩ := Option.map_eq_some_iff.mp htable
                cases htables
                cases form with
                | soleHeader => rfl
                | _ => cases lone
          · obtain ⟨es, -, rfl⟩ := Option.map_eq_some_iff.mp h
            cases lone

theorem eq_nil_of_entries {headed : Bool} {es : Entries}
    (h : entries form fuel headed [] = some es) : es = [] := by
  cases fuel with
  | zero => cases h
  | succ fuel => exact (Option.some.inj h).symm

theorem eq_of_entries_own {headed : Bool} {s : Section} {es : Entries} (hpath : s.path = [])
    (h : entries form fuel headed [s] = some es) : es = s.entries := by
  cases fuel with
  | zero => cases h
  | succ fuel =>
      rw [entries, hpath] at h
      dsimp only at h
      split at h
      · cases h
      · obtain ⟨later, hlater, hes⟩ := Option.bind_eq_some_iff.mp h
        rw [eq_nil_of_entries hlater, List.append_nil] at hes
        exact (Option.some.inj hes).symm

/-- A section that alone makes up a lone list gives the entries of its item. -/
theorem eq_of_value_singleton {s : Section} {v : Value} (h : value form fuel [s] = some v)
    (lone : v.isLoneList = true) : v = .array [.table form s.entries] := by
  cases fuel with
  | zero => cases h
  | succ fuel =>
      rw [value] at h
      split at h
      · next element =>
          have hgroups : (elements [s]).2 = [[{ s with isArray := false }]] := by
            simp [elements, element]
          have hpath : s.path = [] := by
            simp only [isElement, Bool.and_eq_true, List.isEmpty_iff] at element
            exact element.1
          rw [hgroups, List.mapM_cons, List.mapM_nil] at h
          obtain ⟨tables, htables, hv⟩ := Option.bind_eq_some_iff.mp h
          obtain ⟨table, htable, htables⟩ := Option.bind_eq_some_iff.mp htables
          obtain ⟨es, hes, rfl⟩ := Option.map_eq_some_iff.mp htable
          cases htables
          cases hv
          have hitem : es = s.entries :=
            eq_of_entries_own (s := { s with isArray := false }) hpath hes
          rw [hitem]
      · obtain ⟨es, -, rfl⟩ := Option.map_eq_some_iff.mp h
        cases lone

/--
A document whose root holds a lone list holds nothing else, and no part of the list is made by a
header in turn.
-/
theorem eq_of_lookup_isLoneList {text : String} {form : Form} {root : Entries} {key : String}
    {v : Value} (h : ofText? text = some (.table form root)) (hv : root.lookup key = some v)
    (lone : v.isLoneList = true) :
    form = .soleHeader ∧ ∃ es, root = [(key, .array [.table .soleHeader es])] ∧
      ∀ e ∈ es, e.2.Headless := by
  obtain ⟨sections, hsections, h⟩ := Option.bind_eq_some_iff.mp h
  have headless := Section.headless_ofText? hsections
  have hmade {s : Section} (hs : s ∈ sections) : (key, v) ∉ s.entries := by
    intro he
    rw [(headless s hs _ he).2] at lone
    cases lone
  obtain ⟨es, hes, htree⟩ := Option.map_eq_some_iff.mp h
  cases htree
  have hmem := Entries.mem_of_lookup hv
  obtain ⟨fuel, group, hvalue⟩ : ∃ fuel group, value _ fuel group = some v :=
    (mem_entries hes hmem).resolve_left fun ⟨s, hs, he⟩ => hmade hs he
  have hform := eq_soleHeader_of_isLoneList hvalue lone
  have hlength : sections.length = 1 := by
    by_contra hne
    rw [if_neg hne] at hform
    cases hform
  obtain ⟨s, rfl⟩ := List.length_eq_one_iff.mp hlength
  refine ⟨hform, ?_⟩
  rw [hform] at hes
  generalize List.foldl _ 2 [s] = bound at hes
  cases bound with
  | zero => cases hes
  | succ bound =>
      cases hpath : s.path with
      | nil =>
          rw [eq_of_entries_own hpath hes] at hmem
          exact absurd hmem (hmade List.mem_cons_self)
      | cons first path =>
          rw [entries, hpath] at hes
          obtain ⟨w, hw, hes⟩ := Option.bind_eq_some_iff.mp hes
          obtain ⟨later, hlater, hes⟩ := Option.bind_eq_some_iff.mp hes
          cases hes
          cases eq_nil_of_entries hlater
          cases List.mem_singleton.mp hmem
          rw [eq_of_value_singleton hw lone]
          exact ⟨s.entries, rfl, headless s List.mem_cons_self⟩

end Document

/-! ## A spent header -/

namespace Value

theorem lastHeader?_eq_none {v : Value} (h : v.isSole = false) : v.lastHeader? = none := by
  unfold lastHeader?
  split
  · cases h
  · cases h
  · cases h
  · rfl

theorem choice?_soleHeader_eq_none {es : Entries} (h : ∀ e ∈ es, e.2.Headless) :
    (table .soleHeader es).choice? = none := by
  change (table .soleHeader es).lastHeader? = none
  unfold lastHeader?
  split
  · next heq =>
      cases heq
      cases (h _ List.mem_cons_self).1
  · next heq =>
      cases heq
      cases (h _ List.mem_cons_self).2
  · next heq =>
      cases heq
      exact lastHeader?_eq_none (h _ List.mem_cons_self).1
  · rfl

end Value

end SensorBar.Toml

namespace SensorBar

open Toml

/-- A lone list leaves the axis without a choice. -/
theorem RollSettings.ofValue?_lone {es : Entries} (h : ∀ e ∈ es, e.2.Headless) :
    ofValue? (.array [.table .soleHeader es]) = none := by
  refine Option.eq_none_iff_forall_ne_some.mpr fun s hs => ?_
  obtain ⟨r, hr, hfields⟩ := (spells.eq_some_iff _ s).mp hs
  cases hr
  have haxis : RollAxis.ofValue? (.table .soleHeader es) = some s.axis :=
    hfields _ List.mem_cons_self
  rw [RollAxis.ofValue?, Value.choice?_soleHeader_eq_none h] at haxis
  cases haxis

namespace Settings

/-- What a document that spends its header is: a list of roll settings and nothing else. -/
theorem exists_of_spendsHeader {text : String} {tree : Value}
    (h : Document.ofText? text = some tree) (spends : spendsHeader tree = true) :
    ∃ es, tree = .table .soleHeader [("roll", .array [.table .soleHeader es])] ∧
      ∀ e ∈ es, e.2.Headless := by
  cases tree with
  | table form root =>
      rw [spendsHeader] at spends
      cases hv : root.lookup "roll" with
      | none =>
          rw [hv] at spends
          cases spends
      | some v =>
          rw [hv] at spends
          obtain ⟨rfl, es, rfl, headless⟩ := Document.eq_of_lookup_isLoneList h hv spends
          exact ⟨es, rfl, headless⟩
  | _ => cases spends

theorem ofValue?_of_spendsHeader {text : String} {tree : Value}
    (h : Document.ofText? text = some tree) (spends : spendsHeader tree = true) :
    ofValue? tree = none := by
  obtain ⟨es, rfl, headless⟩ := exists_of_spendsHeader h spends
  exact spells.eq_none_of_mem (f := rollField) (by simp [schema]) List.mem_cons_self
    (RollSettings.ofValue?_lone headless)

end Settings

end SensorBar
