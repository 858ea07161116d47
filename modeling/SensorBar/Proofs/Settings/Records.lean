import Mathlib.Data.List.Nodup
import Mathlib.Data.List.Perm.Basic
import SensorBar.Proofs.Settings.Kinds
import SensorBar.Proofs.Settings.Trees

/-! # Records and what they say of their fields

A record is read field by field, each under its own name by its own kind, and with a value to fall
back on unless it has to be given.  A table says of each field what the only entry of that name
holds, an array what the item in its place is.  So how a table is read is known from what is looked
up in it: entries of other names are ignored or, in a closed record, refused.
-/

namespace SensorBar.Toml

/-! ## Entries -/

namespace Entries

/-- Whether each of some names is given at most once. -/
def Distinct (names : List String) (entries : Entries) : Prop :=
  ((entries.filter fun e => names.contains e.1).map (·.1)).Nodup

instance (names : List String) (entries : Entries) : Decidable (Distinct names entries) :=
  inferInstanceAs (Decidable (List.Nodup _))

theorem lookup_cons_of_ne {name other : String} (h : name ≠ other) (v : Value)
    (rest : Entries) : List.lookup name ((other, v) :: rest) = rest.lookup name := by
  have test : (name == other) = false := beq_eq_false_iff_ne.mpr h
  simp only [List.lookup_cons, test]

theorem lookup_of_mem {entries : Entries} (h : (entries.map (·.1)).Nodup) {name : String}
    {v : Value} (hmem : (name, v) ∈ entries) : entries.lookup name = some v := by
  induction entries with
  | nil => cases hmem
  | cons e rest ih =>
      obtain ⟨other, w⟩ := e
      rw [List.map_cons, List.nodup_cons] at h
      rcases List.mem_cons.mp hmem with heq | hrest
      · cases heq
        exact List.lookup_cons_self
      · have hne : name ≠ other := by
          rintro rfl
          exact h.1 (List.mem_map.mpr ⟨(name, v), hrest, rfl⟩)
        rw [lookup_cons_of_ne hne]
        exact ih h.2 hrest

theorem mem_of_lookup {entries : Entries} {name : String} {v : Value}
    (h : entries.lookup name = some v) : (name, v) ∈ entries := by
  obtain ⟨before, after, heq, -⟩ := List.lookup_eq_some_iff.mp h
  simp [heq]

theorem lookup_filter {p : String → Bool} {name : String} (h : p name = true) (entries : Entries) :
    (entries.filter fun e => p e.1).lookup name = entries.lookup name := by
  induction entries with
  | nil => rfl
  | cons e rest ih =>
      obtain ⟨other, w⟩ := e
      by_cases hother : p other
      · by_cases heq : name = other
        · subst heq
          simp [h]
        · simp only [List.filter_cons, hother, if_true, lookup_cons_of_ne heq, ih]
      · have hne : name ≠ other := fun heq => hother (heq ▸ h)
        have hskip : ((other, w) :: rest).filter (fun e => p e.1) = rest.filter fun e => p e.1 :=
          List.filter_cons_of_neg hother
        rw [hskip, lookup_cons_of_ne hne, ih]

/-- Names that are given values in order are given one by its place. -/
theorem lookup_zip {names : List String} (h : names.Nodup) (items : List Value) {i : Nat}
    {name : String} (hname : names[i]? = some name) :
    (names.zip items).lookup name = items[i]? := by
  induction names generalizing items i with
  | nil => cases hname
  | cons first rest ih =>
      rw [List.nodup_cons] at h
      cases items with
      | nil => rfl
      | cons v items =>
          rw [List.zip_cons_cons]
          cases i with
          | zero =>
              cases hname
              exact List.lookup_cons_self
          | succ i =>
              have hne : name ≠ first := by
                rintro rfl
                exact h.1 (List.mem_of_getElem? hname)
              rw [lookup_cons_of_ne hne]
              exact ih h.2 items hname

variable {names : List String} {entries : Entries} {name : String}

theorem Distinct.lookup_of_mem (h : Distinct names entries) (hname : name ∈ names) {v : Value}
    (hmem : (name, v) ∈ entries) : entries.lookup name = some v := by
  have hp : names.contains name = true := List.contains_iff_mem.mpr hname
  rw [← lookup_filter hp]
  exact Entries.lookup_of_mem h (List.mem_filter.mpr ⟨hmem, hp⟩)

theorem Distinct.mono {fewer : List String} (h : Distinct names entries) (hsub : fewer ⊆ names) :
    Distinct fewer entries := by
  refine h.sublist (List.Sublist.map _ (List.monotone_filter_right entries ?_))
  intro e he
  exact List.contains_iff_mem.mpr (hsub (List.contains_iff_mem.mp he))

/-- Leaving out entries by their names leaves no name given more often. -/
theorem Distinct.filter (h : Distinct names entries) (p : String → Bool) :
    Distinct names (entries.filter fun e => p e.1) := by
  refine h.sublist (List.Sublist.map _ ?_)
  rw [List.filter_filter, List.filter_congr fun e _ => Bool.and_comm _ _, ← List.filter_filter]
  exact List.filter_sublist

end Entries

/-! ## The fields that a value gives -/

namespace Record

theorem distinct_iff (entries : Entries) : distinct entries = true ↔ (entries.map (·.1)).Nodup := by
  induction entries with
  | nil => simp [distinct]
  | cons e rest ih =>
      have hnew : (!rest.any (·.1 == e.1)) = true ↔ e.1 ∉ rest.map (·.1) := by
        simp only [Bool.not_eq_true', List.any_eq_false, beq_iff_eq, List.mem_map, not_exists,
          not_and]
      rw [List.map_cons, List.nodup_cons, ← ih, ← hnew, ← Bool.and_eq_true]
      rfl

theorem ofEntries?_eq_some_iff {names : List String} {closed : Bool} {entries : Entries}
    {r : Record} : ofEntries? names closed entries = some r ↔
      (closed = true → ∀ e ∈ entries, e.1 ∈ names) ∧ entries.Distinct names ∧
        r = entries.filter fun e => names.contains e.1 := by
  have hstray : (closed && entries.any fun e => !names.contains e.1) = true ↔
      ¬ (closed = true → ∀ e ∈ entries, e.1 ∈ names) := by
    simp
  rw [Entries.Distinct, ← distinct_iff]
  unfold ofEntries?
  simp only [hstray]
  by_cases hknown : closed = true → ∀ e ∈ entries, e.1 ∈ names
  · rw [if_neg (not_not.mpr hknown)]
    by_cases hdistinct : distinct (entries.filter fun e => names.contains e.1) = true
    · rw [if_pos hdistinct, Option.some_inj]
      exact ⟨fun h => ⟨hknown, hdistinct, h.symm⟩, fun h => h.2.2.symm⟩
    · rw [if_neg hdistinct]
      exact ⟨nofun, fun h => absurd h.2.1 hdistinct⟩
  · rw [if_pos hknown]
    exact ⟨nofun, fun h => absurd h.1 hknown⟩

end Record

/-! ## Schemas -/

variable {σ : Type}

/-- A field of a record. -/
structure Field (σ : Type) where
  {β : Type}
  name : String
  kind : Kind β
  get : σ → β
  /-- What an absent field is; nothing if it has to be given. -/
  otherwise : Option β

namespace Field

/-- What a field is by what is given for it. -/
def value? (f : Field σ) : Option Value → Option f.β
  | none => f.otherwise
  | some v => f.kind.read v

/-- Whether a field is something by what is given for it. -/
def Means (f : Field σ) (given : Option Value) (b : f.β) : Prop :=
  match given with
  | none => f.otherwise = some b
  | some v => f.kind.Means v b

/-- Whether a record has a field as it is given, or else as a default record has it. -/
def Agrees (f : Field σ) (default : σ) (given : Option Value) (s : σ) : Prop :=
  match given with
  | none => f.get s = f.get default
  | some v => f.kind.Means v (f.get s)

theorem value?_eq_some_iff (f : Field σ) (given : Option Value) (b : f.β) :
    f.value? given = some b ↔ f.Means given b := by
  cases given with
  | none => exact Iff.rfl
  | some v => exact f.kind.read_eq_some_iff v b

theorem isSome_value?_iff (f : Field σ) (given : Option Value) :
    (f.value? given).isSome ↔ ∃ b, f.Means given b := by
  simp only [Option.isSome_iff_exists, value?_eq_some_iff]

instance (f : Field σ) (given : Option Value) : Decidable (∃ b, f.Means given b) :=
  decidable_of_iff _ (f.isSome_value?_iff given)

theorem value?_eq_get_iff {f : Field σ} {default : σ} (h : f.otherwise = some (f.get default))
    (given : Option Value) (s : σ) :
    f.value? given = some (f.get s) ↔ f.Agrees default given s := by
  cases given with
  | none => simp only [value?, Agrees, h, Option.some_inj, eq_comm]
  | some v => exact f.kind.read_eq_some_iff v (f.get s)

theorem value?_optional {β : Type} (name : String) (kind : Kind β) (get : σ → β)
    (default : β) (r : Record) :
    value? ⟨name, kind, get, some default⟩ (r.lookup name) = r.optional name kind.read default :=
  rfl

theorem value?_required {β : Type} (name : String) (kind : Kind β) (get : σ → β)
    (r : Record) :
    value? ⟨name, kind, get, none⟩ (r.lookup name) = r.required name kind.read := by
  unfold value? Record.required
  cases r.lookup name <;> rfl

end Field

/-- The fields of a record in their order; a closed one admits no other names. -/
structure Schema (σ : Type) where
  closed : Bool
  fields : List (Field σ)

namespace Schema

def names (c : Schema σ) : List String :=
  c.fields.map (·.name)

/-- Whether a reader reads records by a schema. -/
structure Spells (c : Schema σ) (read : Value → Option σ) : Prop where
  eq_some_iff : ∀ v s, read v = some s ↔
    ∃ r, Record.ofValue? c.names c.closed v = some r ∧
      ∀ f ∈ c.fields, f.value? (r.lookup f.name) = some (f.get s)
  isSome : ∀ v r, Record.ofValue? c.names c.closed v = some r →
    (∀ f ∈ c.fields, (f.value? (r.lookup f.name)).isSome) → (read v).isSome

/-- Whether the names of some entries are such that a record can be read. -/
structure Names (c : Schema σ) (entries : Entries) : Prop where
  known : c.closed = true → ∀ e ∈ entries, e.1 ∈ c.names
  distinct : entries.Distinct c.names

/-- Whether a value is a table with names such that a record can be read. -/
def Lists (c : Schema σ) (v : Value) : Prop :=
  ∃ form entries, v = .table form entries ∧ c.Names entries

/-- Whether a value is a table of fields of their kinds, with all that have to be given. -/
def Fits (c : Schema σ) (v : Value) : Prop :=
  c.Lists v ∧ ∀ f ∈ c.fields, ∃ b, f.Means (v.at? [f.name]) b

/-- What a value has to be to stand for a record: a table by names, or an array in their order. -/
inductive Means (c : Schema σ) : Value → σ → Prop
  | table {form : Form} {entries : Entries} {s : σ} : c.Names entries →
      (∀ f ∈ c.fields, f.Means (entries.lookup f.name) (f.get s)) → Means c (.table form entries) s
  | array {items : List Value} {s : σ} : items.length ≤ c.fields.length →
      (∀ (i : Nat) (f : Field σ), c.fields[i]? = some f → f.Means items[i]? (f.get s)) →
        Means c (.array items) s

/-- Whether a record has the fields that are given, and the others as a default record has them. -/
def Overrides (c : Schema σ) (default : σ) (given : String → Option Value) (s : σ) : Prop :=
  ∀ f ∈ c.fields, f.Agrees default (given f.name) s

/-- Whether a record is known from its fields, and those of a default record are the defaults. -/
structure Complete (c : Schema σ) (default : σ) : Prop where
  otherwise : ∀ f ∈ c.fields, f.otherwise = some (f.get default)
  ext : ∀ s s', (∀ f ∈ c.fields, f.get s = f.get s') → s = s'

theorem Complete.overrides_iff {c : Schema σ} {default : σ} (h : c.Complete default)
    (given : String → Option Value) (s : σ) :
    c.Overrides default given s ↔ ∀ f ∈ c.fields, f.value? (given f.name) = some (f.get s) :=
  forall₂_congr fun f hf => (f.value?_eq_get_iff (h.otherwise f hf) _ s).symm

variable {c : Schema σ} {read : Value → Option σ} {form : Form} {entries : Entries}

theorem lookup_of_ofEntries? {r : Record}
    (h : Record.ofEntries? c.names c.closed entries = some r) {f : Field σ} (hf : f ∈ c.fields) :
    r.lookup f.name = entries.lookup f.name := by
  obtain ⟨-, -, rfl⟩ := Record.ofEntries?_eq_some_iff.mp h
  exact Entries.lookup_filter (List.contains_iff_mem.mpr (List.mem_map_of_mem hf)) entries

theorem exists_ofEntries?_iff :
    (∃ r, Record.ofEntries? c.names c.closed entries = some r) ↔ c.Names entries := by
  constructor
  · rintro ⟨r, h⟩
    obtain ⟨known, distinct, -⟩ := Record.ofEntries?_eq_some_iff.mp h
    exact ⟨known, distinct⟩
  · intro h
    exact ⟨_, Record.ofEntries?_eq_some_iff.mpr ⟨h.known, h.distinct, rfl⟩⟩

theorem isSome_bind {β γ : Type} {o : Option β} {f : β → Option γ} (ho : o.isSome)
    (hf : ∀ b, (f b).isSome) : (o.bind f).isSome := by
  obtain ⟨b, rfl⟩ := Option.isSome_iff_exists.mp ho
  exact hf b

namespace Spells

theorem of_bind {body : Record → Option σ}
    (hread : ∀ v, read v = (Record.ofValue? c.names c.closed v).bind body)
    (hbody : ∀ r s, body r = some s ↔
      ∀ f ∈ c.fields, f.value? (r.lookup f.name) = some (f.get s))
    (htotal : ∀ r : Record, (∀ f ∈ c.fields, (f.value? (r.lookup f.name)).isSome) →
      (body r).isSome) : c.Spells read where
  eq_some_iff := by
    intro v s
    simp only [hread, Option.bind_eq_some_iff, hbody]
  isSome := by
    intro v r hr given
    rw [hread, hr]
    exact htotal r given

/-- A table is read by what is looked up in it. -/
theorem table_eq_some_iff (h : c.Spells read) {s : σ} :
    read (.table form entries) = some s ↔ c.Names entries ∧
      ∀ f ∈ c.fields, f.value? (entries.lookup f.name) = some (f.get s) := by
  rw [h.eq_some_iff]
  constructor
  · rintro ⟨r, hr, hfields⟩
    exact ⟨exists_ofEntries?_iff.mp ⟨r, hr⟩,
      fun f hf => lookup_of_ofEntries? hr hf ▸ hfields f hf⟩
  · rintro ⟨hnames, hfields⟩
    obtain ⟨r, hr⟩ := exists_ofEntries?_iff.mpr hnames
    exact ⟨r, hr, fun f hf => (lookup_of_ofEntries? hr hf).symm ▸ hfields f hf⟩

theorem table_isSome (h : c.Spells read) (hnames : c.Names entries)
    (hfields : ∀ f ∈ c.fields, (f.value? (entries.lookup f.name)).isSome) :
    (read (.table form entries)).isSome := by
  obtain ⟨r, hr⟩ := exists_ofEntries?_iff.mpr hnames
  exact h.isSome _ r hr fun f hf => (lookup_of_ofEntries? hr hf).symm ▸ hfields f hf

/-- An array is read by the places of its items. -/
theorem array_eq_some_iff (h : c.Spells read) (distinct : c.names.Nodup) {items : List Value}
    {s : σ} : read (.array items) = some s ↔ items.length ≤ c.fields.length ∧
      ∀ (i : Nat) (f : Field σ), c.fields[i]? = some f → f.value? items[i]? = some (f.get s) := by
  have hlength : c.names.length = c.fields.length := List.length_map _
  have hplace {i : Nat} {f : Field σ} (hf : c.fields[i]? = some f) :
      List.lookup f.name (c.names.zip items) = items[i]? :=
    Entries.lookup_zip distinct items (by rw [names, List.getElem?_map, hf]; rfl)
  rw [h.eq_some_iff, Record.ofValue?, Record.ofItems?, hlength]
  constructor
  · rintro ⟨r, hr, hfields⟩
    split at hr
    · next fits =>
        cases hr
        exact ⟨fits, fun i f hf => hplace hf ▸ hfields f (List.mem_of_getElem? hf)⟩
    · cases hr
  · rintro ⟨fits, hfields⟩
    refine ⟨_, if_pos fits, fun f hf => ?_⟩
    obtain ⟨i, hi⟩ := List.getElem?_of_mem hf
    rw [hplace hi]
    exact hfields i f hi

theorem read_eq_some_iff (h : c.Spells read) (distinct : c.names.Nodup) (v : Value) (s : σ) :
    read v = some s ↔ c.Means v s := by
  constructor
  · intro hs
    cases v with
    | table form entries =>
        obtain ⟨hnames, hfields⟩ := h.table_eq_some_iff.mp hs
        exact .table hnames fun f hf => (f.value?_eq_some_iff _ _).mp (hfields f hf)
    | array items =>
        obtain ⟨fits, hfields⟩ := (h.array_eq_some_iff distinct).mp hs
        exact .array fits fun i f hf => (f.value?_eq_some_iff _ _).mp (hfields i f hf)
    | _ =>
        obtain ⟨r, hr, -⟩ := (h.eq_some_iff _ s).mp hs
        cases hr
  · intro hs
    cases hs with
    | table hnames hfields =>
        exact h.table_eq_some_iff.mpr
          ⟨hnames, fun f hf => (f.value?_eq_some_iff _ _).mpr (hfields f hf)⟩
    | array fits hfields =>
        exact (h.array_eq_some_iff distinct).mpr
          ⟨fits, fun i f hf => (f.value?_eq_some_iff _ _).mpr (hfields i f hf)⟩

/-- Records are a kind of value, known from their fields. -/
def kind (h : c.Spells read) (distinct : c.names.Nodup) : Kind σ where
  read := read
  Means := c.Means
  read_eq_some_iff := h.read_eq_some_iff distinct

@[simp] theorem kind_read (h : c.Spells read) (distinct : c.names.Nodup) :
    (h.kind distinct).read = read := rfl

theorem eq_some_iff_of_lists (h : c.Spells read) {v : Value} (hv : c.Lists v) (s : σ) :
    read v = some s ↔ ∀ f ∈ c.fields, f.value? (v.at? [f.name]) = some (f.get s) := by
  obtain ⟨form, entries, rfl, hnames⟩ := hv
  rw [h.table_eq_some_iff, and_iff_right hnames]
  simp only [Value.at?_table_singleton]

theorem isSome_of_fits (h : c.Spells read) {v : Value} (hv : c.Fits v) : (read v).isSome := by
  obtain ⟨⟨form, entries, rfl, hnames⟩, hfields⟩ := hv
  simp only [Value.at?_table_singleton, ← Field.isSome_value?_iff] at hfields
  exact h.table_isSome hnames hfields

/-- A record with a default is known from its fields even when it is not given. -/
theorem value?_eq_some_iff (h : c.Spells read) {default : σ} (complete : c.Complete default)
    {τ : Type} {name : String} {get : τ → σ} {given : Option Value}
    (hgiven : ∀ v ∈ given, c.Lists v) (s : σ) :
    Field.value? ⟨name, .ofReader read, get, some default⟩ given = some s ↔
      ∀ f ∈ c.fields, f.value? (given.bind (·.at? [f.name])) = some (f.get s) := by
  cases given with
  | some v => exact h.eq_some_iff_of_lists (hgiven v rfl) s
  | none =>
      have habsent : ∀ f ∈ c.fields, f.value? none = some (f.get default) := complete.otherwise
      simp only [Field.value?, Option.some_inj, Option.bind_none]
      constructor
      · rintro rfl
        exact habsent
      · intro hs
        exact complete.ext default s fun f hf =>
          Option.some_inj.mp ((habsent f hf).symm.trans (hs f hf))

theorem eq_none_of_unknown (h : c.Spells read) (closed : c.closed = true) {e : String × Value}
    (he : e ∈ entries) (hname : e.1 ∉ c.names) : read (.table form entries) = none := by
  refine Option.eq_none_iff_forall_ne_some.mpr fun s hs => ?_
  exact hname ((h.table_eq_some_iff.mp hs).1.known closed e he)

/-- A field that cannot be read spoils the record. -/
theorem eq_none_of_mem (h : c.Spells read) {f : Field σ} (hf : f ∈ c.fields) {v : Value}
    (hmem : (f.name, v) ∈ entries) (hv : f.kind.read v = none) :
    read (.table form entries) = none := by
  refine Option.eq_none_iff_forall_ne_some.mpr fun s hs => ?_
  obtain ⟨hnames, hfields⟩ := h.table_eq_some_iff.mp hs
  have hgiven := hfields f hf
  rw [hnames.distinct.lookup_of_mem (List.mem_map_of_mem hf) hmem, Field.value?, hv] at hgiven
  cases hgiven

theorem eq_none_of_reaches (h : c.Spells read) {f : Field σ} (hf : f ∈ c.fields)
    {path : List String} {v w : Value} (hpath : v.Reaches (f.name :: path) w)
    (hread : ∀ u : Value, u.Reaches path w → f.kind.read u = none) : read v = none := by
  generalize hkeys : f.name :: path = keys at hpath
  cases hpath with
  | refl => cases hkeys
  | entry hmem hinner =>
      cases hkeys
      exact h.eq_none_of_mem hf hmem (hread _ hinner)

end Spells

end Schema

/-! ## Tagged records -/

theorem tagged?_table_eq_some_iff {tag name : String} {form : Form} {entries : Entries}
    {rest : Value} : tagged? tag (.table form entries) = some (name, rest) ↔
      entries.filter (·.1 == tag) = [(tag, .string name)] ∧
        rest = .table form (entries.filter (·.1 != tag)) := by
  have hkeys : ∀ e ∈ entries.filter (·.1 == tag), e.1 = tag :=
    fun e he => beq_iff_eq.mp (List.mem_filter.mp he).2
  simp only [tagged?]
  split
  · next key given htag =>
      have hkey : key = tag := hkeys (key, .string given) (htag ▸ List.mem_singleton_self _)
      rw [htag, hkey]
      simp [eq_comm]
  · next other =>
      constructor
      · intro h
        cases h
      · intro h
        exact absurd h.1 (other tag name)

theorem tagged?_array_eq_some_iff {tag name : String} {items : List Value} {rest : Value} :
    tagged? tag (.array items) = some (name, rest) ↔
      ∃ others, items = .string name :: others ∧ rest = .array others := by
  cases items with
  | nil => simp [tagged?]
  | cons item others =>
      cases item with
      | string given => simp [tagged?, eq_comm]
      | _ => simp [tagged?]

/-- Whether a value has a tag of some name, as an entry or as the first item. -/
def Value.HasTag (tag name : String) : Value → Prop
  | .table _ entries => (tag, .string name) ∈ entries
  | .array (first :: _) => first = .string name
  | _ => False

theorem hasTag_of_tagged? {tag name : String} {v rest : Value}
    (h : tagged? tag v = some (name, rest)) : v.HasTag tag name := by
  cases v with
  | table form entries =>
      have hmem : (tag, .string name) ∈ entries.filter (·.1 == tag) :=
        (tagged?_table_eq_some_iff.mp h).1 ▸ List.mem_singleton_self _
      exact (List.mem_filter.mp hmem).1
  | array items =>
      obtain ⟨others, rfl, -⟩ := tagged?_array_eq_some_iff.mp h
      exact rfl
  | _ => cases h

theorem filter_eq_singleton {tag : String} {entries : Entries} (h : entries.Distinct [tag])
    {v : Value} (hmem : (tag, v) ∈ entries) : entries.filter (·.1 == tag) = [(tag, v)] := by
  have hfilter : (entries.filter fun e => [tag].contains e.1) = entries.filter (·.1 == tag) :=
    List.filter_congr fun e _ => by simp [beq_eq_decide]
  rw [Entries.Distinct, hfilter] at h
  have hkeys : ∀ e ∈ entries.filter (·.1 == tag), e.1 = tag :=
    fun e he => beq_iff_eq.mp (List.mem_filter.mp he).2
  have hv : (tag, v) ∈ entries.filter (·.1 == tag) :=
    List.mem_filter.mpr ⟨hmem, beq_self_eq_true tag⟩
  generalize entries.filter (·.1 == tag) = tags at h hkeys hv
  match tags with
  | [] => cases hv
  | [e] => rw [List.mem_singleton.mp hv]
  | e :: e' :: rest =>
      rw [List.forall_mem_cons, List.forall_mem_cons] at hkeys
      simp [hkeys.1, hkeys.2.1] at h

/-- Whether a value is a table with a tag, once, and beside it the fields of a record. -/
def Schema.FitsTagged (c : Schema σ) (tag name : String) (v : Value) : Prop :=
  ∃ form entries, v = .table form entries ∧ Entries.Distinct (tag :: c.names) entries ∧
    v.at? [tag] = some (.string name) ∧ ∀ f ∈ c.fields, ∃ b, f.Means (v.at? [f.name]) b

/-- The tag of an open record is told apart from the fields, which stay as they are. -/
theorem Schema.FitsTagged.exists_tagged? {c : Schema σ} {tag name : String} {v : Value}
    (h : c.FitsTagged tag name v) (hopen : c.closed = false) (htag : tag ∉ c.names) :
    ∃ rest, tagged? tag v = some (name, rest) ∧ isBare rest = true ∧ c.Fits rest ∧
      ∀ f ∈ c.fields, rest.at? [f.name] = v.at? [f.name] := by
  obtain ⟨form, entries, rfl, distinct, hname, hfields⟩ := h
  rw [Value.at?_table_singleton] at hname
  have once : entries.filter (·.1 == tag) = [(tag, .string name)] :=
    filter_eq_singleton (distinct.mono (by simp)) (Entries.mem_of_lookup hname)
  have hsame : ∀ f ∈ c.fields,
      (Value.table form (entries.filter (·.1 != tag))).at? [f.name] =
        (Value.table form entries).at? [f.name] := by
    intro f hf
    have hne : (f.name != tag) = true :=
      bne_iff_ne.mpr fun heq => htag (heq ▸ List.mem_map_of_mem hf)
    rw [Value.at?_table_singleton, Value.at?_table_singleton,
      Entries.lookup_filter (p := (· != tag)) hne]
  refine ⟨_, tagged?_table_eq_some_iff.mpr ⟨once, rfl⟩, rfl,
    ⟨⟨form, _, rfl, ⟨?_, ?_⟩⟩, ?_⟩, hsame⟩
  · intro closed
    rw [hopen] at closed
    cases closed
  · exact (distinct.mono (List.subset_cons_self tag c.names)).filter (· != tag)
  · intro f hf
    rw [hsame f hf]
    exact hfields f hf

/-- What is made of the fields beside a tag is known from the fields of the whole. -/
theorem Schema.FitsTagged.eq_some_iff {c : Schema σ} {read : Value → Option σ} {tag name : String}
    {v : Value} (h : c.FitsTagged tag name v) (hread : c.Spells read) (hopen : c.closed = false)
    (htag : tag ∉ c.names) {τ : Type} {o : Option τ} {make : σ → τ}
    (ho : ∀ rest, tagged? tag v = some (name, rest) → o = (read rest).map make) :
    o.isSome ∧ ∀ t, o = some t ↔
      ∃ s, (∀ f ∈ c.fields, f.value? (v.at? [f.name]) = some (f.get s)) ∧ make s = t := by
  obtain ⟨rest, htagged, -, hfits, hsame⟩ := h.exists_tagged? hopen htag
  rw [ho rest htagged]
  constructor
  · rw [Option.isSome_map]
    exact hread.isSome_of_fits hfits
  · intro t
    rw [Option.map_eq_some_iff]
    refine exists_congr fun s => and_congr_left' ?_
    rw [hread.eq_some_iff_of_lists hfits.1]
    exact forall₂_congr fun f hf => by rw [hsame f hf]

theorem Schema.FitsTagged.at?_tag {c : Schema σ} {tag name : String} {v : Value}
    (h : c.FitsTagged tag name v) : v.at? [tag] = some (.string name) := by
  obtain ⟨-, -, -, -, htag, -⟩ := h
  exact htag

end SensorBar.Toml
