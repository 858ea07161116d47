import Mathlib.Data.List.Forall2
import Mathlib.Data.List.Perm.Lattice
import SensorBar.Proofs.Settings.Fields

/-! # The order of keys and sections

Two trees that differ in the order of the entries of their tables are read alike.  What a tree is
reordered into has, up to the order, the same names with reordered values, and that is all that a
reader of records looks at.
-/

namespace SensorBar

namespace Toml

/-- Whether a value differs from another in the order of the entries of its tables alone. -/
inductive Reordered : Value → Value → Prop
  | refl (v : Value) : Reordered v v
  | trans {u v w : Value} : Reordered u v → Reordered v w → Reordered u w
  | entries {form : Form} {es es' : Entries} : es.Perm es' →
      Reordered (.table form es) (.table form es')
  | entry {form : Form} {before after : Entries} {key : String} {v w : Value} : Reordered v w →
      Reordered (.table form (before ++ (key, v) :: after))
        (.table form (before ++ (key, w) :: after))
  | item {before after : List Value} {v w : Value} : Reordered v w →
      Reordered (.array (before ++ v :: after)) (.array (before ++ w :: after))

namespace Reordered

theorem symm {v w : Value} (h : Reordered v w) : Reordered w v := by
  induction h with
  | refl v => exact .refl v
  | trans _ _ first second => exact second.trans first
  | entries h => exact .entries h.symm
  | entry _ ih => exact .entry ih
  | item _ ih => exact .item ih

/-- Entries of one name whose values differ in the order of their entries alone. -/
def Alike (e e' : String × Value) : Prop :=
  e.1 = e'.1 ∧ Reordered e.2 e'.2

instance : Std.Refl Reordered :=
  ⟨.refl⟩

instance : Std.Refl Alike :=
  ⟨fun e => ⟨rfl, .refl e.2⟩⟩

theorem Alike.trans {a b c : String × Value} (h : Alike a b) (h' : Alike b c) : Alike a c :=
  ⟨h.1.trans h'.1, h.2.trans h'.2⟩

theorem forall₂_trans {β : Type} {R : β → β → Prop} (htrans : ∀ a b c, R a b → R b c → R a c)
    {as bs cs : List β} (h : List.Forall₂ R as bs) (h' : List.Forall₂ R bs cs) :
    List.Forall₂ R as cs := by
  induction h generalizing cs with
  | nil => exact h'
  | cons head _ ih =>
      cases h' with
      | cons head' tail' => exact .cons (htrans _ _ _ head head') (ih tail')

/-! ## What a value is reordered into -/

theorem exists_of_table {form : Form} {es : Entries} {v w : Value} (h : Reordered v w)
    (hv : v = .table form es) :
    ∃ mid es', w = .table form es' ∧ List.Forall₂ Alike es mid ∧ mid.Perm es' := by
  induction h generalizing es with
  | refl v => exact ⟨es, es, hv, List.forall₂_refl es, .refl es⟩
  | trans _ _ first second =>
      obtain ⟨mid, es', rfl, alike, perm⟩ := first hv
      obtain ⟨mid', es'', hw, alike', perm'⟩ := second rfl
      -- Entries that are first permuted and then changed could as well be changed first.
      obtain ⟨swapped, hchanged, hpermuted⟩ := List.perm_comp_forall₂ perm alike'
      exact ⟨swapped, es'', hw, forall₂_trans (fun _ _ _ => .trans) alike hchanged,
        hpermuted.trans perm'⟩
  | entries perm =>
      cases hv
      exact ⟨_, _, rfl, List.forall₂_refl _, perm⟩
  | @entry _ before after key v w inner =>
      cases hv
      have changed : Alike (key, v) (key, w) := ⟨rfl, inner⟩
      exact ⟨_, _, rfl, List.rel_append (List.forall₂_refl before)
        (.cons changed (List.forall₂_refl after)), .refl _⟩
  | item => cases hv

theorem exists_of_array {items : List Value} {v w : Value} (h : Reordered v w)
    (hv : v = .array items) :
    ∃ items', w = .array items' ∧ List.Forall₂ Reordered items items' := by
  induction h generalizing items with
  | refl v => exact ⟨items, hv, List.forall₂_refl items⟩
  | trans _ _ first second =>
      obtain ⟨items', rfl, h⟩ := first hv
      obtain ⟨items'', hw, h'⟩ := second rfl
      exact ⟨items'', hw, forall₂_trans (fun _ _ _ => .trans) h h'⟩
  | entries => cases hv
  | entry => cases hv
  | @item before after _ _ inner =>
      cases hv
      exact ⟨_, rfl, List.rel_append (List.forall₂_refl before)
        (.cons inner (List.forall₂_refl after))⟩

theorem eq_of_scalar {v w : Value} (h : Reordered v w) (table : ∀ form es, v ≠ .table form es)
    (array : ∀ items, v ≠ .array items) : w = v := by
  induction h with
  | refl v => rfl
  | trans _ _ first second =>
      cases first table array
      exact second table array
  | entries => exact absurd rfl (table _ _)
  | entry => exact absurd rfl (table _ _)
  | item => exact absurd rfl (array _)

theorem eq_string {name : String} {w : Value} (h : Reordered (.string name) w) :
    w = .string name :=
  h.eq_of_scalar nofun nofun

theorem exists_of_singleton {form : Form} {e : String × Value} {w : Value}
    (h : Reordered (.table form [e]) w) : ∃ v, w = .table form [(e.1, v)] ∧ Reordered e.2 v := by
  obtain ⟨mid, es', rfl, alike, perm⟩ := h.exists_of_table rfl
  obtain ⟨⟨key, v⟩, rest, ⟨rfl, inner⟩, hrest, rfl⟩ := List.forall₂_cons_left_iff.mp alike
  cases hrest
  cases List.singleton_perm.mp perm
  exact ⟨v, rfl, inner⟩

theorem eq_empty {form : Form} {w : Value} (h : Reordered (.table form []) w) :
    w = .table form [] := by
  obtain ⟨mid, es', rfl, alike, perm⟩ := h.exists_of_table rfl
  cases alike
  rw [List.nil_perm.mp perm]

theorem of_forall₂ {form : Form} {es es' : Entries} (h : List.Forall₂ Alike es es') :
    Reordered (.table form es) (.table form es') := by
  suffices ∀ before, Reordered (.table form (before ++ es)) (.table form (before ++ es')) from
    this []
  induction h with
  | nil => exact fun before => .refl _
  | @cons e e' rest rest' head _ ih =>
      intro before
      obtain ⟨key, v⟩ := e
      obtain ⟨key', w⟩ := e'
      obtain ⟨rfl, inner⟩ := head
      have tail := ih (before ++ [(key, w)])
      rw [List.append_assoc, List.append_assoc] at tail
      exact (Reordered.entry inner).trans tail

theorem of_items {items items' : List Value} (h : List.Forall₂ Reordered items items') :
    Reordered (.array items) (.array items') := by
  suffices ∀ before, Reordered (.array (before ++ items)) (.array (before ++ items')) from this []
  induction h with
  | nil => exact fun before => .refl _
  | @cons v w rest rest' head _ ih =>
      intro before
      have tail := ih (before ++ [w])
      rw [List.append_assoc, List.append_assoc] at tail
      exact (Reordered.item head).trans tail

end Reordered

/-! ## Readers that do not see the order -/

/-- Whether a reader reads reordered values alike. -/
def IgnoresOrder {β : Type} (read : Value → Option β) : Prop :=
  ∀ v w, Reordered v w → read v = read w

theorem IgnoresOrder.of_forward {β : Type} {read : Value → Option β}
    (h : ∀ v w b, Reordered v w → read v = some b → read w = some b) : IgnoresOrder read :=
  fun v w hvw => Option.ext fun b => ⟨h v w b hvw, h w v b hvw.symm⟩

/-- What reads neither tables nor arrays sees no order. -/
theorem IgnoresOrder.of_scalar {β : Type} {read : Value → Option β}
    (table : ∀ form es, read (.table form es) = none)
    (array : ∀ items, read (.array items) = none) : IgnoresOrder read := by
  refine .of_forward fun v w b hvw hv => ?_
  have heq : w = v := by
    refine hvw.eq_of_scalar ?_ ?_
    · rintro form es rfl
      rw [table] at hv
      cases hv
    · rintro items rfl
      rw [array] at hv
      cases hv
  rw [heq, hv]

namespace Value

theorem ignoresOrder_float? : IgnoresOrder float? :=
  .of_scalar (fun _ _ => rfl) fun _ => rfl

theorem ignoresOrder_count? : IgnoresOrder count? :=
  .of_scalar (fun _ _ => rfl) fun _ => rfl

theorem ignoresOrder_boolean? : IgnoresOrder boolean? :=
  .of_scalar (fun _ _ => rfl) fun _ => rfl

theorem ignoresOrder_lastHeader? : IgnoresOrder lastHeader? := by
  refine .of_forward fun v w name hvw hv => ?_
  fun_induction lastHeader? v generalizing w with
  | case1 key =>
      obtain ⟨v, rfl, inner⟩ := hvw.exists_of_singleton
      rw [inner.eq_empty]
      exact hv
  | case2 key =>
      obtain ⟨v, rfl, inner⟩ := hvw.exists_of_singleton
      obtain ⟨items, rfl, hitems⟩ := inner.exists_of_array rfl
      obtain ⟨item, rest, hitem, hrest, rfl⟩ := List.forall₂_cons_left_iff.mp hitems
      cases hrest
      rw [hitem.eq_empty]
      exact hv
  | case3 key v noTable noList ih =>
      obtain ⟨w, rfl, inner⟩ := hvw.exists_of_singleton
      have noTable' : w ≠ .table .soleHeader [] := fun heq => noTable (heq ▸ inner).symm.eq_empty
      have noList' : w ≠ .array [.table .soleHeader []] := by
        rintro rfl
        obtain ⟨items, rfl, hitems⟩ := inner.symm.exists_of_array rfl
        obtain ⟨item, rest, hitem, hrest, rfl⟩ := List.forall₂_cons_left_iff.mp hitems
        cases hrest
        exact noList (by rw [hitem.eq_empty])
      rw [lastHeader?]
      · exact ih w inner hv
      · exact noTable'
      · exact noList'
  | case4 => cases hv

theorem ignoresOrder_choice? : IgnoresOrder choice? := by
  refine .of_forward fun v w name hvw hv => ?_
  unfold choice? at hv
  split at hv
  · rw [hvw.eq_string]
    exact hv
  · obtain ⟨v, rfl, inner⟩ := hvw.exists_of_singleton
    rw [inner.eq_empty]
    exact hv
  · next noString noTable =>
      have noString' : ∀ name, w ≠ .string name := fun name heq =>
        noString name (heq ▸ hvw).symm.eq_string
      have noTable' : ∀ name form, w ≠ .table .inline [(name, .table form [])] := by
        rintro name form rfl
        obtain ⟨v, rfl, inner⟩ := hvw.symm.exists_of_singleton
        exact noTable name form (by rw [inner.eq_empty])
      rw [choice?]
      · rw [← ignoresOrder_lastHeader? v w hvw]
        exact hv
      · exact noString'
      · exact noTable'

/-- A list of tables that the only header begins is one in any order. -/
theorem isLoneList_congr {v w : Value} (h : Reordered v w) : v.isLoneList = w.isLoneList := by
  suffices ∀ v w, Reordered v w → v.isLoneList = true → w.isLoneList = true from
    Bool.eq_iff_iff.mpr ⟨this v w h, this w v h.symm⟩
  intro v w h hv
  unfold isLoneList at hv
  split at hv
  · obtain ⟨items, rfl, hitems⟩ := h.exists_of_array rfl
    obtain ⟨item, rest, hitem, -, rfl⟩ := List.forall₂_cons_left_iff.mp hitems
    obtain ⟨-, entries, rfl, -, -⟩ := hitem.exists_of_table rfl
    rfl
  · cases hv

end Value

theorem IgnoresOrder.bind {β γ : Type} {read : Value → Option β} (h : IgnoresOrder read)
    (f : β → Option γ) : IgnoresOrder fun v => (read v).bind f :=
  fun v w hvw => congrArg (·.bind f) (h v w hvw)

/-! ## Records -/

open Reordered

theorem Entries.rel_lookup {es es' : Entries} (h : List.Forall₂ Alike es es') (name : String) :
    Option.Rel Reordered (es.lookup name) (es'.lookup name) := by
  induction h with
  | nil => exact .none
  | @cons e e' rest rest' head _ ih =>
      obtain ⟨key, v⟩ := e
      obtain ⟨key', w⟩ := e'
      obtain ⟨rfl, inner⟩ := head
      by_cases heq : name = key
      · subst heq
        rw [List.lookup_cons_self, List.lookup_cons_self]
        exact .some inner
      · rw [lookup_cons_of_ne heq, lookup_cons_of_ne heq]
        exact ih

theorem Field.value?_congr {σ : Type} {f : Field σ} (hf : IgnoresOrder f.kind.read)
    {a b : Option Value} (h : Option.Rel Reordered a b) : f.value? a = f.value? b := by
  cases h with
  | none => rfl
  | some inner => exact hf _ _ inner

theorem Entries.Distinct.lookup_perm {names : List String} {es es' : Entries}
    (h : es.Distinct names) (h' : es'.Distinct names) (perm : es.Perm es') {name : String}
    (hname : name ∈ names) : es.lookup name = es'.lookup name :=
  Option.ext fun _ =>
    ⟨fun hv => h'.lookup_of_mem hname (perm.mem_iff.mp (mem_of_lookup hv)),
      fun hv => h.lookup_of_mem hname (perm.mem_iff.mpr (mem_of_lookup hv))⟩

theorem Entries.forall₂_filter {es es' : Entries} (h : List.Forall₂ Alike es es')
    (p : String → Bool) :
    List.Forall₂ Alike (es.filter fun e => p e.1) (es'.filter fun e => p e.1) :=
  List.rel_filter (fun _ _ hab => iff_of_eq (congrArg (p · = true) hab.1)) h

theorem Entries.map_fst_of_alike {es es' : Entries} (h : List.Forall₂ Alike es es') :
    es.map (·.1) = es'.map (·.1) :=
  List.forall₂_eq_eq_eq ▸ List.rel_map (fun _ _ hab => hab.1) h

theorem Record.exists_of_ofItems? {names : List String} {items items' : List Value} {r : Record}
    (h : ofItems? names items = some r) (alike : List.Forall₂ Reordered items items') :
    ∃ r', ofItems? names items' = some r' ∧ List.Forall₂ Alike r r' := by
  unfold ofItems? at h ⊢
  rw [alike.length_eq] at h
  split at h
  · next fits =>
      cases h
      refine ⟨_, if_pos fits, ?_⟩
      clear fits
      induction alike generalizing names with
      | nil => simp
      | cons head _ ih =>
          cases names with
          | nil => simp
          | cons name rest => exact .cons ⟨rfl, head⟩ ih
  · cases h

namespace Schema

variable {σ : Type} {c : Schema σ}

theorem Names.of_alike {es es' : Entries} (h : c.Names es) (alike : List.Forall₂ Alike es es') :
    c.Names es' where
  known := by
    intro closed e he
    have hkey : e.1 ∈ es.map (·.1) :=
      Entries.map_fst_of_alike alike ▸ List.mem_map_of_mem he
    obtain ⟨first, hfirst, heq⟩ := List.mem_map.mp hkey
    exact heq ▸ h.known closed first hfirst
  distinct := by
    have hkeys := Entries.map_fst_of_alike (Entries.forall₂_filter alike c.names.contains)
    rw [Entries.Distinct, ← hkeys]
    exact h.distinct

theorem Names.of_perm {es es' : Entries} (h : c.Names es) (perm : es.Perm es') : c.Names es' where
  known := fun closed e he => h.known closed e (perm.mem_iff.mpr he)
  distinct := ((perm.filter _).map _).nodup_iff.mp h.distinct

/-- Records of fields that do not see the order do not see it. -/
theorem Spells.ignoresOrder {read : Value → Option σ} (h : c.Spells read)
    (hfields : ∀ f ∈ c.fields, IgnoresOrder f.kind.read) : IgnoresOrder read := by
  refine .of_forward fun v w s hvw hv => ?_
  cases v with
  | table form es =>
      obtain ⟨mid, es', rfl, alike, perm⟩ := hvw.exists_of_table rfl
      obtain ⟨hnames, hvalues⟩ := h.table_eq_some_iff.mp hv
      have hmid := hnames.of_alike alike
      have hlast := hmid.of_perm perm
      refine h.table_eq_some_iff.mpr ⟨hlast, fun f hf => ?_⟩
      rw [← hmid.distinct.lookup_perm hlast.distinct perm (List.mem_map_of_mem hf),
        ← Field.value?_congr (hfields f hf) (Entries.rel_lookup alike f.name)]
      exact hvalues f hf
  | array items =>
      obtain ⟨items', rfl, alike⟩ := hvw.exists_of_array rfl
      obtain ⟨r, hr, hvalues⟩ := (h.eq_some_iff _ s).mp hv
      obtain ⟨r', hr', hrecord⟩ := Record.exists_of_ofItems? hr alike
      refine (h.eq_some_iff _ s).mpr ⟨r', hr', fun f hf => ?_⟩
      rw [← Field.value?_congr (hfields f hf) (Entries.rel_lookup hrecord f.name)]
      exact hvalues f hf
  | _ =>
      obtain ⟨r, hr, -⟩ := (h.eq_some_iff _ s).mp hv
      cases hr

end Schema

/-! ## Tagged records -/

theorem isBare_congr {v w : Value} (h : Reordered v w) : isBare v = isBare w := by
  cases v with
  | table form es =>
      obtain ⟨-, es', rfl, -, -⟩ := h.exists_of_table rfl
      rfl
  | array items =>
      obtain ⟨items', rfl, hitems⟩ := h.exists_of_array rfl
      cases hitems <;> rfl
  | _ => rw [h.eq_of_scalar nofun nofun]

theorem exists_tagged? {tag name : String} {v w rest : Value} (h : Reordered v w)
    (hv : tagged? tag v = some (name, rest)) :
    ∃ rest', tagged? tag w = some (name, rest') ∧ Reordered rest rest' := by
  cases v with
  | table form es =>
      obtain ⟨mid, es', rfl, alike, perm⟩ := h.exists_of_table rfl
      obtain ⟨htag, rfl⟩ := tagged?_table_eq_some_iff.mp hv
      have htag' : List.Forall₂ Alike [(tag, .string name)] (mid.filter (·.1 == tag)) :=
        htag ▸ Entries.forall₂_filter alike (· == tag)
      obtain ⟨⟨key, v⟩, none, ⟨rfl, inner⟩, hnone, hmid⟩ := List.forall₂_cons_left_iff.mp htag'
      cases hnone
      cases inner.eq_string
      have hlast : es'.filter (·.1 == tag) = [(tag, .string name)] :=
        List.perm_singleton.mp (hmid ▸ (perm.filter _).symm)
      refine ⟨_, tagged?_table_eq_some_iff.mpr ⟨hlast, rfl⟩, ?_⟩
      exact (Reordered.of_forall₂ (Entries.forall₂_filter alike (· != tag))).trans
        (.entries (perm.filter _))
  | array items =>
      obtain ⟨items', rfl, hitems⟩ := h.exists_of_array rfl
      obtain ⟨others, rfl, rfl⟩ := tagged?_array_eq_some_iff.mp hv
      obtain ⟨first, others', inner, hothers, rfl⟩ := List.forall₂_cons_left_iff.mp hitems
      refine ⟨_, tagged?_array_eq_some_iff.mpr ⟨others', by rw [inner.eq_string], rfl⟩, ?_⟩
      exact .of_items hothers
  | _ => cases hv

theorem IgnoresOrder.tagged {β : Type} {tag : String} {read : String → Value → Option β}
    (hread : ∀ name, IgnoresOrder (read name)) :
    IgnoresOrder fun v => (tagged? tag v).bind fun tagged => read tagged.1 tagged.2 := by
  refine .of_forward fun v w b hvw hv => ?_
  obtain ⟨⟨name, rest⟩, htag, hb⟩ := Option.bind_eq_some_iff.mp hv
  obtain ⟨rest', htag', inner⟩ := exists_tagged? hvw htag
  exact Option.bind_eq_some_iff.mpr ⟨(name, rest'), htag', hread name rest rest' inner ▸ hb⟩

theorem IgnoresOrder.map {β γ : Type} {read : Value → Option β} (h : IgnoresOrder read)
    (f : β → γ) : IgnoresOrder fun v => (read v).map f :=
  fun v w hvw => congrArg (·.map f) (h v w hvw)

theorem ignoresOrder_bare {β : Type} (o : Option β) :
    IgnoresOrder fun v => if isBare v then o else none :=
  fun v w hvw => by simp only [isBare_congr hvw]

end Toml

/-! ## All settings -/

open Toml

theorem Preference.ignoresOrder : IgnoresOrder Preference.ofValue? :=
  Value.ignoresOrder_choice?.bind Preference.ofName?

theorem RollAxis.ignoresOrder : IgnoresOrder RollAxis.ofValue? :=
  Value.ignoresOrder_choice?.bind RollAxis.ofName?

theorem PointerSettings.ignoresOrder : IgnoresOrder PointerSettings.ofValue? :=
  spells.ignoresOrder (by simp [schema, Value.ignoresOrder_float?, Preference.ignoresOrder])

theorem RollSettings.ignoresOrder : IgnoresOrder RollSettings.ofValue? :=
  spells.ignoresOrder (by simp [schema, Value.ignoresOrder_float?, RollAxis.ignoresOrder])

theorem DropoutSettings.ignoresOrder : IgnoresOrder DropoutSettings.ofValue? :=
  spells.ignoresOrder (by simp [schema, Value.ignoresOrder_count?])

theorem GlitchSettings.ignoresOrder : IgnoresOrder GlitchSettings.ofValue? :=
  spells.ignoresOrder (by simp [schema, Value.ignoresOrder_count?, Value.ignoresOrder_float?])

theorem RadiusSettings.ignoresOrder : IgnoresOrder RadiusSettings.ofValue? :=
  spells.ignoresOrder (by simp [schema, Value.ignoresOrder_float?])

theorem AdaptiveSettings.ignoresOrder : IgnoresOrder AdaptiveSettings.ofValue? :=
  spells.ignoresOrder (by simp [schema, Value.ignoresOrder_float?])

theorem Point.ignoresOrder : IgnoresOrder Point.ofValue? :=
  spells.ignoresOrder (by simp [schema, Value.ignoresOrder_float?])

theorem Rect.ignoresOrder : IgnoresOrder Rect.ofValue? :=
  spells.ignoresOrder (by simp [schema, Point.ignoresOrder])

theorem Mapping.ignoresOrder : IgnoresOrder Mapping.ofValue? :=
  spells.ignoresOrder (by simp [schema, Rect.ignoresOrder, Value.ignoresOrder_boolean?])

theorem Smoothing.ignoresOrder : IgnoresOrder Smoothing.ofValue? := by
  rw [funext ofValue?_eq_bind]
  refine .tagged fun kind => ?_
  unfold ofKind?
  split
  · exact ignoresOrder_bare _
  · exact RadiusSettings.ignoresOrder.map _
  · exact AdaptiveSettings.ignoresOrder.map _
  · exact fun _ _ _ => rfl

theorem Translation.ignoresOrder : IgnoresOrder Translation.ofValue? := by
  rw [funext ofValue?_eq_bind]
  refine .tagged fun preset => ?_
  unfold ofFields?
  split
  · exact Mapping.ignoresOrder.map _
  · exact ignoresOrder_bare _

theorem FilterSettings.ignoresOrder : IgnoresOrder FilterSettings.ofValue? :=
  spells.ignoresOrder (by
    simp [schema, errorField, glitchField, smoothingField, translateField,
      DropoutSettings.ignoresOrder, GlitchSettings.ignoresOrder, Smoothing.ignoresOrder,
      Translation.ignoresOrder])

theorem Settings.ignoresOrder : IgnoresOrder Settings.ofValue? :=
  spells.ignoresOrder (by
    simp [schema, pointerField, rollField, filterField, PointerSettings.ignoresOrder,
      RollSettings.ignoresOrder, FilterSettings.ignoresOrder])

end SensorBar
