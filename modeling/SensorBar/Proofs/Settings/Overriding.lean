import SensorBar.Proofs.Settings.LoneHeader
import SensorBar.Proofs.Settings.Ranges
import SensorBar.Proofs.Settings.Reordering

/-! # Partial settings

A document names some of the settings, and what it names takes the place of the defaults.  Which
value that is shows at the end of one path, so naming one setting has no part in another, and the
order of keys and sections has none in any.
-/

namespace SensorBar

open Toml

/-! ## Tagged settings -/

/-- The fields of a tag that has none. -/
def Toml.Schema.bare : Schema Unit :=
  ⟨false, []⟩

namespace Smoothing

def kinds : List String :=
  ["none", "radius", "adaptive"]

theorem ofValue?_eq_none {v : Value} (h : ∀ kind ∈ kinds, ¬ v.HasTag "kind" kind) :
    ofValue? v = none := by
  rw [ofValue?_eq_bind]
  cases htagged : tagged? "kind" v with
  | none => rfl
  | some tagged =>
      obtain ⟨kind, rest⟩ := tagged
      have hkind : kind ∉ kinds := fun hmem => h kind hmem (hasTag_of_tagged? htagged)
      simp only [kinds, List.mem_cons, List.not_mem_nil, or_false, not_or] at hkind
      simp [ofKind?, hkind]

/-- Whether a value is a table with a known kind and with fields of that kind. -/
def Fits (v : Value) : Prop :=
  Schema.bare.FitsTagged "kind" "none" v ∨ RadiusSettings.schema.FitsTagged "kind" "radius" v ∨
    AdaptiveSettings.schema.FitsTagged "kind" "adaptive" v

/-- Whether smoothing is of the kind that is given, with the defaults of that kind otherwise. -/
def Overrides (given : Option Value) (s : Smoothing Float) : Prop :=
  match given, s with
  | none, s => s = FilterSettings.default.smoothing
  | some v, .off => v.at? ["kind"] = some (.string "none")
  | some v, .radius r => v.at? ["kind"] = some (.string "radius") ∧
      RadiusSettings.schema.Overrides .default (fun key => v.at? [key]) r
  | some v, .adaptive a => v.at? ["kind"] = some (.string "adaptive") ∧
      AdaptiveSettings.schema.Overrides .default (fun key => v.at? [key]) a

theorem ofValue?_of_fits {v : Value} (h : Fits v) :
    (ofValue? v).isSome ∧ ∀ s, ofValue? v = some s ↔ Overrides (some v) s := by
  rcases h with h | h | h
  case inl =>
    have hkind := h.at?_tag
    obtain ⟨rest, htagged, hbare, -, -⟩ := h.exists_tagged? rfl (by decide)
    have hread : ofValue? v = some .off := by
      rw [ofValue?_eq_bind, htagged, Option.bind_some, ofKind?, if_pos hbare]
    refine ⟨hread ▸ rfl, fun s => ?_⟩
    cases s <;> simp [hread, Overrides, hkind]
  case inr.inl =>
    have hmap (rest : Value) (htagged : tagged? "kind" v = some ("radius", rest)) :
        ofValue? v = (RadiusSettings.ofValue? rest).map .radius := by
      rw [ofValue?_eq_bind, htagged]
      rfl
    obtain ⟨total, hread⟩ := h.eq_some_iff RadiusSettings.spells rfl (by decide) hmap
    refine ⟨total, fun s => (hread s).trans ?_⟩
    cases s <;> simp [Overrides, h.at?_tag, RadiusSettings.schema_complete.overrides_iff]
  case inr.inr =>
    have hmap (rest : Value) (htagged : tagged? "kind" v = some ("adaptive", rest)) :
        ofValue? v = (AdaptiveSettings.ofValue? rest).map .adaptive := by
      rw [ofValue?_eq_bind, htagged]
      rfl
    obtain ⟨total, hread⟩ := h.eq_some_iff AdaptiveSettings.spells rfl (by decide) hmap
    refine ⟨total, fun s => (hread s).trans ?_⟩
    cases s <;> simp [Overrides, h.at?_tag, AdaptiveSettings.schema_complete.overrides_iff]

theorem value?_eq_some_iff {given : Option Value} (h : ∀ v ∈ given, Fits v)
    (s : Smoothing Float) :
    FilterSettings.smoothingField.value? given = some s ↔ Overrides given s := by
  cases given with
  | none => exact Option.some_inj.trans eq_comm
  | some v => exact (ofValue?_of_fits (h v rfl)).2 s

end Smoothing

namespace Translation

/-- The presets that have no fields. -/
def presets : List (String × Translation Float) :=
  [("none", .off), ("safe-top", .safeTop), ("safe-bottom", .safeBottom), ("wide-top", .wideTop),
    ("wide-bottom", .wideBottom)]

def names : List String :=
  "custom" :: presets.map (·.1)

theorem ofPreset?_eq_some_iff {preset : String} {t : Translation Float} :
    ofPreset? preset = some t ↔ (preset, t) ∈ presets := by
  unfold ofPreset?
  split <;> simp_all [presets, eq_comm]

theorem ofValue?_eq_none {v : Value} (h : ∀ preset ∈ names, ¬ v.HasTag "preset" preset) :
    ofValue? v = none := by
  rw [ofValue?_eq_bind]
  cases htagged : tagged? "preset" v with
  | none => rfl
  | some tagged =>
      obtain ⟨preset, rest⟩ := tagged
      have hpreset : preset ∉ names := fun hmem => h preset hmem (hasTag_of_tagged? htagged)
      have hunknown : ofPreset? preset = none := by
        refine Option.eq_none_iff_forall_ne_some.mpr fun t ht => hpreset ?_
        exact List.mem_cons_of_mem _ (List.mem_map_of_mem (ofPreset?_eq_some_iff.mp ht))
      have hcustom : preset ≠ "custom" := by
        rintro rfl
        exact hpreset List.mem_cons_self
      rw [Option.bind_some, ofFields?, if_neg hcustom, hunknown, ite_self]

theorem ne_custom_of_mem_presets :
    ∀ entry ∈ presets, entry.1 ≠ "custom" ∧ ∀ m, entry.2 ≠ .custom m := by
  simp [presets]

/-- Whether a value is a table with a known preset and, if it is a custom one, its fields. -/
def Fits (v : Value) : Prop :=
  (∃ entry ∈ presets, Schema.bare.FitsTagged "preset" entry.1 v) ∨
    Mapping.schema.FitsTagged "preset" "custom" v

/--
Whether a translation is the one of the preset that is given.  A custom one has the rectangles and
the clamp that are given beside the tag, and does not clamp unless it is told to.
-/
def Overrides (given : Option Value) (t : Translation Float) : Prop :=
  match given, t with
  | none, t => t = FilterSettings.default.translate
  | some v, .custom m => v.at? ["preset"] = some (.string "custom") ∧
      ∀ f ∈ Mapping.schema.fields, f.Means (v.at? [f.name]) (f.get m)
  | some v, t => ∃ preset, v.at? ["preset"] = some (.string preset) ∧ (preset, t) ∈ presets

theorem ofValue?_of_fits {v : Value} (h : Fits v) :
    (ofValue? v).isSome ∧ ∀ t, ofValue? v = some t ↔ Overrides (some v) t := by
  rcases h with ⟨entry, hentry, h⟩ | h
  case inl =>
    have hpreset := h.at?_tag
    obtain ⟨rest, htagged, hbare, -, -⟩ := h.exists_tagged? rfl (by decide)
    obtain ⟨hbuiltin, hplain⟩ := ne_custom_of_mem_presets entry hentry
    have hname : ofPreset? entry.1 = some entry.2 := ofPreset?_eq_some_iff.mpr hentry
    have hread : ofValue? v = some entry.2 := by
      rw [ofValue?_eq_bind, htagged, Option.bind_some, ofFields?, if_neg hbuiltin, if_pos hbare,
        hname]
    refine ⟨hread ▸ rfl, fun t => ?_⟩
    cases t with
    | custom m => simp [hread, Overrides, hpreset, hbuiltin, hplain]
    | _ => simp [hread, Overrides, hpreset, ← ofPreset?_eq_some_iff, hname]
  case inr =>
    have hmap (rest : Value) (htagged : tagged? "preset" v = some ("custom", rest)) :
        ofValue? v = (Mapping.ofValue? rest).map .custom := by
      rw [ofValue?_eq_bind, htagged]
      rfl
    obtain ⟨total, hread⟩ := h.eq_some_iff Mapping.spells rfl (by decide) hmap
    refine ⟨total, fun t => (hread t).trans ?_⟩
    cases t <;> simp [Overrides, h.at?_tag, presets, Field.value?_eq_some_iff]

theorem value?_eq_some_iff {given : Option Value} (h : ∀ v ∈ given, Fits v)
    (t : Translation Float) :
    FilterSettings.translateField.value? given = some t ↔ Overrides given t := by
  cases given with
  | none => exact Option.some_inj.trans eq_comm
  | some v => exact (ofValue?_of_fits (h v rfl)).2 t

end Translation

/-! ## Partial documents -/

namespace Settings

/--
A document with any of the known keys, each at most once.  Their values are of the types of the
fields, and smoothing and translation have a known tag with the fields that it requires.
-/
structure Partial (tree : Value) : Prop where
  root : schema.Lists tree
  pointer : ∀ v ∈ tree.at? ["pointer"], PointerSettings.schema.Fits v
  roll : ∀ v ∈ tree.at? ["roll"], RollSettings.schema.Fits v
  filter : ∀ v ∈ tree.at? ["filter"], FilterSettings.schema.Lists v
  error : ∀ v ∈ tree.at? ["filter", "error"], DropoutSettings.schema.Fits v
  glitch : ∀ v ∈ tree.at? ["filter", "glitch"], GlitchSettings.schema.Fits v
  smoothing : ∀ v ∈ tree.at? ["filter", "smoothing"], Smoothing.Fits v
  translate : ∀ v ∈ tree.at? ["filter", "translate"], Translation.Fits v

/-- Settings with the values that a document names, and the defaults in all other places. -/
structure Overrides (tree : Value) (s : Settings Float) : Prop where
  pointer : PointerSettings.schema.Overrides .default (fun key => tree.at? ["pointer", key])
    s.pointer
  roll : RollSettings.schema.Overrides .default (fun key => tree.at? ["roll", key]) s.roll
  error : DropoutSettings.schema.Overrides .default (fun key => tree.at? ["filter", "error", key])
    s.filter.error
  glitch : GlitchSettings.schema.Overrides .default (fun key => tree.at? ["filter", "glitch", key])
    s.filter.glitch
  smoothing : Smoothing.Overrides (tree.at? ["filter", "smoothing"]) s.filter.smoothing
  translate : Translation.Overrides (tree.at? ["filter", "translate"]) s.filter.translate

variable {tree : Value}

/-- A section is read as what overrides its defaults, also when it is left out. -/
theorem section_iff {σ τ : Type} {c : Schema σ} {read : Value → Option σ} (h : c.Spells read)
    {default : σ} (complete : c.Complete default) {name : String} {get : τ → σ}
    {path : List String} (hfits : ∀ v ∈ tree.at? path, c.Fits v) (s : σ) :
    Field.value? ⟨name, .ofReader read, get, some default⟩ (tree.at? path) = some s ↔
      c.Overrides default (fun key => tree.at? (path ++ [key])) s := by
  simp only [h.value?_eq_some_iff complete (fun v hv => (hfits v hv).1), complete.overrides_iff,
    Value.at?_append]

theorem filter_iff (h : Partial tree) (s : FilterSettings Float) :
    filterField.value? (tree.at? ["filter"]) = some s ↔
      DropoutSettings.schema.Overrides .default (fun key => tree.at? ["filter", "error", key])
          s.error ∧
        GlitchSettings.schema.Overrides .default (fun key => tree.at? ["filter", "glitch", key])
          s.glitch ∧
        Smoothing.Overrides (tree.at? ["filter", "smoothing"]) s.smoothing ∧
        Translation.Overrides (tree.at? ["filter", "translate"]) s.translate := by
  refine (FilterSettings.spells.value?_eq_some_iff FilterSettings.schema_complete h.filter s).trans
    ?_
  simp only [FilterSettings.schema, List.forall_mem_cons, ← Value.at?_append]
  exact and_congr (section_iff DropoutSettings.spells DropoutSettings.schema_complete h.error _)
    (and_congr (section_iff GlitchSettings.spells GlitchSettings.schema_complete h.glitch _)
      (and_congr (Smoothing.value?_eq_some_iff h.smoothing _)
        ((and_iff_left (by simp)).trans (Translation.value?_eq_some_iff h.translate _))))

theorem ofValue?_eq_some_iff (h : Partial tree) (s : Settings Float) :
    ofValue? tree = some s ↔ Overrides tree s := by
  have pointer_iff : pointerField.value? (tree.at? ["pointer"]) = some s.pointer ↔ _ :=
    section_iff PointerSettings.spells PointerSettings.schema_complete h.pointer s.pointer
  have roll_iff : rollField.value? (tree.at? ["roll"]) = some s.roll ↔ _ :=
    section_iff RollSettings.spells RollSettings.schema_complete h.roll s.roll
  rw [spells.eq_some_iff_of_lists h.root]
  simp only [schema, List.forall_mem_cons]
  constructor
  · rintro ⟨hpointer, hroll, hfilter, -⟩
    obtain ⟨error, glitch, smoothing, translate⟩ := (filter_iff h s.filter).mp hfilter
    exact ⟨pointer_iff.mp hpointer, roll_iff.mp hroll, error, glitch, smoothing, translate⟩
  · intro o
    exact ⟨pointer_iff.mpr o.pointer, roll_iff.mpr o.roll,
      (filter_iff h s.filter).mpr ⟨o.error, o.glitch, o.smoothing, o.translate⟩, by simp⟩

/-- A field with a default can be read if what is given for it can. -/
theorem exists_means {σ τ : Type} {read : Value → Option σ} {name : String} {get : τ → σ}
    {default : σ} {given : Option Value} (h : ∀ v ∈ given, (read v).isSome) :
    ∃ s, Field.Means ⟨name, .ofReader read, get, some default⟩ given s := by
  cases given with
  | none => exact ⟨default, rfl⟩
  | some v => exact Option.isSome_iff_exists.mp (h v rfl)

theorem isSome_ofValue? (h : Partial tree) : (ofValue? tree).isSome := by
  refine spells.isSome_of_fits ⟨h.root, ?_⟩
  simp only [schema, List.forall_mem_cons]
  refine ⟨exists_means fun v hv => PointerSettings.spells.isSome_of_fits (h.pointer v hv),
    exists_means fun v hv => RollSettings.spells.isSome_of_fits (h.roll v hv),
    exists_means fun v hv => ?_, by simp⟩
  have hfilter : tree.at? ["filter"] = some v := hv
  have inside (key : String) : v.at? [key] = tree.at? ["filter", key] := by
    have hpath := tree.at?_append ["filter"] [key]
    rw [hfilter] at hpath
    exact hpath.symm
  refine FilterSettings.spells.isSome_of_fits ⟨h.filter v hv, ?_⟩
  simp only [FilterSettings.schema, List.forall_mem_cons, inside]
  exact ⟨exists_means fun w hw => DropoutSettings.spells.isSome_of_fits (h.error w hw),
    exists_means fun w hw => GlitchSettings.spells.isSome_of_fits (h.glitch w hw),
    exists_means fun w hw => (Smoothing.ofValue?_of_fits (h.smoothing w hw)).1,
    exists_means fun w hw => (Translation.ofValue?_of_fits (h.translate w hw)).1, by simp⟩

/-! ## Stray keys and tags -/

/-- The sections that admit no other keys, with the keys that they admit. -/
def closedSections : List (List String × List String) :=
  [([], fields), (["pointer"], PointerSettings.fields), (["roll"], RollSettings.fields),
    (["filter"], FilterSettings.fields), (["filter", "error"], DropoutSettings.fields),
    (["filter", "glitch"], GlitchSettings.fields)]

/-- Whether a document has a key in a closed section that is not known there, or lacks a tag. -/
inductive Stray (tree : Value) : Prop
  | key {path names : List String} {form : Form} {entries : Entries} {e : String × Value} :
      (path, names) ∈ closedSections → tree.Reaches path (.table form entries) → e ∈ entries →
        e.1 ∉ names → Stray tree
  | kind {v : Value} : tree.Reaches ["filter", "smoothing"] v →
      (∀ name ∈ Smoothing.kinds, ¬ v.HasTag "kind" name) → Stray tree
  | preset {v : Value} : tree.Reaches ["filter", "translate"] v →
      (∀ name ∈ Translation.names, ¬ v.HasTag "preset" name) → Stray tree

theorem eq_none_of_pointer {w : Value} (hpath : tree.Reaches ["pointer"] w)
    (hw : PointerSettings.ofValue? w = none) : ofValue? tree = none :=
  spells.eq_none_of_reaches (f := pointerField) (by simp [schema]) hpath fun u hu => by
    cases hu
    exact hw

theorem eq_none_of_roll {w : Value} (hpath : tree.Reaches ["roll"] w)
    (hw : RollSettings.ofValue? w = none) : ofValue? tree = none :=
  spells.eq_none_of_reaches (f := rollField) (by simp [schema]) hpath fun u hu => by
    cases hu
    exact hw

theorem eq_none_of_filter {path : List String} {w : Value}
    (hpath : tree.Reaches ("filter" :: path) w)
    (hw : ∀ v : Value, v.Reaches path w → FilterSettings.ofValue? v = none) :
    ofValue? tree = none :=
  spells.eq_none_of_reaches (f := filterField) (by simp [schema]) hpath hw

theorem eq_none_of_field {f : Toml.Field (FilterSettings Float)}
    (hf : f ∈ FilterSettings.schema.fields) {w : Value}
    (hpath : tree.Reaches ["filter", f.name] w) (hw : f.kind.read w = none) :
    ofValue? tree = none :=
  eq_none_of_filter hpath fun v hv => FilterSettings.spells.eq_none_of_reaches hf hv fun u hu => by
    cases hu
    exact hw

theorem Stray.ofValue?_eq_none (h : Stray tree) : ofValue? tree = none := by
  open FilterSettings in
  cases h with
  | @key path names form entries e hsection hpath he hname =>
      simp only [closedSections, List.mem_cons, List.not_mem_nil, or_false, Prod.mk.injEq]
        at hsection
      rcases hsection with ⟨rfl, rfl⟩ | ⟨rfl, rfl⟩ | ⟨rfl, rfl⟩ | ⟨rfl, rfl⟩ | ⟨rfl, rfl⟩ |
        ⟨rfl, rfl⟩
      · cases hpath
        exact spells.eq_none_of_unknown rfl he hname
      · exact eq_none_of_pointer hpath (PointerSettings.spells.eq_none_of_unknown rfl he hname)
      · exact eq_none_of_roll hpath (RollSettings.spells.eq_none_of_unknown rfl he hname)
      · refine eq_none_of_filter hpath fun v hv => ?_
        cases hv
        exact FilterSettings.spells.eq_none_of_unknown rfl he hname
      · exact eq_none_of_field (f := errorField) (by simp [FilterSettings.schema]) hpath
          (DropoutSettings.spells.eq_none_of_unknown rfl he hname)
      · exact eq_none_of_field (f := glitchField) (by simp [FilterSettings.schema]) hpath
          (GlitchSettings.spells.eq_none_of_unknown rfl he hname)
  | kind hpath hkind =>
      exact eq_none_of_field (f := smoothingField) (by simp [FilterSettings.schema]) hpath
        (Smoothing.ofValue?_eq_none hkind)
  | preset hpath hpreset =>
      exact eq_none_of_field (f := translateField) (by simp [FilterSettings.schema]) hpath
        (Translation.ofValue?_eq_none hpreset)

/-- A document that spends its header has no place for a stray key. -/
theorem Stray.spendsHeader_eq_false {text : String} (h : Document.ofText? text = some tree)
    (stray : Stray tree) : spendsHeader tree = false := by
  by_contra spends
  obtain ⟨es, rfl, -⟩ := exists_of_spendsHeader h (Bool.eq_true_of_not_eq_false spends)
  have inside {key : String} {path : List String} {w : Value}
      (hpath : Value.Reaches (.table .soleHeader [("roll", .array [.table .soleHeader es])])
        (key :: path) w) : key = "roll" ∧ w = .array [.table .soleHeader es] := by
    cases hpath with
    | entry hmem hinner =>
        cases List.mem_singleton.mp hmem
        cases hinner
        exact ⟨rfl, rfl⟩
  cases stray with
  | @key path names form entries e hsection hpath he hname =>
      cases path with
      | nil =>
          cases hpath
          cases List.mem_singleton.mp he
          have hnames : names = fields := by simpa [closedSections] using hsection
          exact hname (by simp [hnames, fields])
      | cons key path => cases (inside hpath).2
  | kind hpath _ => exact absurd (inside hpath).1 (by decide)
  | preset hpath _ => exact absurd (inside hpath).1 (by decide)

/-! ## Order -/

theorem spendsHeader_of_reordered {text : String} {other : Value}
    (h : Document.ofText? text = some tree) (reordered : Reordered tree other)
    (spends : spendsHeader tree = true) : spendsHeader other = true := by
  obtain ⟨es, rfl, -⟩ := exists_of_spendsHeader h spends
  obtain ⟨v, rfl, inner⟩ := reordered.exists_of_singleton
  rw [spendsHeader, List.lookup_cons_self]
  exact (Value.isLoneList_congr inner).symm

/--
What a document is read as, and what its text loads.

A partial document is read as the defaults with the values that it names in their places, and as
nothing else.  A document with a stray key or without a tag is malformed, whatever else it holds.
The order of keys and sections makes no difference.  Settings that can be read are loaded if no
range is violated, and else the first violated range is reported.
-/
theorem ofText_overrides {text : String} {tree : Value}
    (h : Document.ofText? text = some tree) :
    (Partial tree → ∃ s, ofValue? tree = some s ∧ ∀ s', Overrides tree s' ↔ s' = s) ∧
    (Stray tree → ofText text = .error .malformed) ∧
    (∀ text' tree', Document.ofText? text' = some tree' → Reordered tree tree' →
      ofValue? tree' = ofValue? tree ∧ ofText text' = ofText text) ∧
    ∀ s, ofValue? tree = some s →
      (∀ s', ofText text = .ok s' ↔ s' = s ∧ ∀ v : Violation, ¬ v.IsBroken s) ∧
      ∀ cause, ofText text = .error cause ↔ ∃ v : Violation, cause = .invalid v ∧ v.IsFirst s := by
  have hload : ofText text = ofTree tree := by rw [ofText, h]
  refine ⟨fun named => ?partly, fun stray => ?stray, fun text' tree' h' reordered => ?order,
    fun s hs => ?ranges⟩
  case partly =>
    obtain ⟨s, hs⟩ := Option.isSome_iff_exists.mp (isSome_ofValue? named)
    refine ⟨s, hs, fun s' => ?_⟩
    rw [← ofValue?_eq_some_iff named, hs, Option.some_inj, eq_comm]
  case stray =>
    rw [hload, ofTree, stray.spendsHeader_eq_false h, stray.ofValue?_eq_none]
    rfl
  case order =>
    have hread : ofValue? tree' = ofValue? tree := (ignoresOrder tree tree' reordered).symm
    have hspends : spendsHeader tree' = spendsHeader tree :=
      Bool.eq_iff_iff.mpr ⟨spendsHeader_of_reordered h' reordered.symm,
        spendsHeader_of_reordered h reordered⟩
    refine ⟨hread, ?_⟩
    rw [hload, ofText, h']
    simp only [ofTree, hread, hspends]
  case ranges =>
    have unspent : spendsHeader tree = false := by
      by_contra spends
      rw [ofValue?_of_spendsHeader h (Bool.eq_true_of_not_eq_false spends)] at hs
      cases hs
    have hvalid : ofText text = s.validate := by
      rw [hload, ofTree, unspent, hs]
      rfl
    rw [hvalid]
    exact ⟨s.validate_eq_ok_iff, s.validate_eq_error_iff⟩

/-- Two sections with a fault each, the one that is checked first in the second place. -/
def faultyText : String :=
  "[filter.smoothing]\nkind = \"radius\"\nspeed = 2\n\n[pointer]\nmin_width = 0\n"

def faultyTree : Value :=
  .table .header
    [("filter", .table .header
      [("smoothing", .table .header [("kind", .string "radius"), ("speed", .integer 2)])]),
      ("pointer", .table .header [("min_width", .integer 0)])]

/-- What the faulty text names, in its places. -/
def faulty : Settings Float where
  pointer := { PointerSettings.default with minWidth := 0 }
  roll := .default
  filter :=
    { FilterSettings.default with smoothing := .radius { RadiusSettings.default with speed := 2 } }

theorem partial_faultyTree : Partial faultyTree where
  root := ⟨_, _, rfl, by decide, by decide⟩
  pointer := by
    rintro v ⟨⟩
    exact ⟨⟨_, _, rfl, by decide, by decide⟩, by decide +kernel⟩
  roll := nofun
  filter := by
    rintro v ⟨⟩
    exact ⟨_, _, rfl, by decide, by decide⟩
  error := nofun
  glitch := nofun
  smoothing := by
    rintro v ⟨⟩
    exact .inr (.inl ⟨_, _, rfl, by decide, by decide, by decide +kernel⟩)
  translate := nofun

/-- The same sections and keys the other way round. -/
def swappedText : String :=
  "[pointer]\nmin_width = 0\n\n[filter.smoothing]\nspeed = 2\nkind = \"radius\"\n"

def swappedTree : Value :=
  .table .header
    [("pointer", .table .header [("min_width", .integer 0)]),
      ("filter", .table .header
        [("smoothing", .table .header [("speed", .integer 2), ("kind", .string "radius")])])]

theorem reordered_swappedTree : Reordered faultyTree swappedTree := by
  have keys (kind speed : String × Value) :
      Reordered (.table .header [kind, speed]) (.table .header [speed, kind]) :=
    .entries (.swap speed kind [])
  exact (Reordered.entries (.swap _ _ [])).trans
    (@Reordered.entry _ [_] [] "filter" _ _ (@Reordered.entry _ [] [] "smoothing" _ _ (keys _ _)))

/-- A misspelt key after a fault. -/
def misspeltText : String :=
  "[pointer]\nmin_width = 0\n\n[filter.error]\nmax_cuont = 3\n"

def misspeltTree : Value :=
  .table .header
    [("pointer", .table .header [("min_width", .integer 0)]),
      ("filter", .table .header [("error", .table .header [("max_cuont", .integer 3)])])]

theorem stray_misspeltTree : Stray misspeltTree := by
  have known : (["filter", "error"], DropoutSettings.fields) ∈ closedSections := by decide
  exact .key known (.entry (List.mem_cons_of_mem _ List.mem_cons_self)
    (.entry List.mem_cons_self (.refl _))) List.mem_cons_self (by decide)

/-- Two rectangles, one by the names of its parts and one by their places. -/
def customText : String :=
  "[filter.translate]\npreset = \"custom\"\ndestination = [[4, 5], [6, 7]]\n" ++
    "source = \x7b max = \x7b y = 3, x = 2 \x7d, min = [0, 1] \x7d\n\n" ++
    "[pointer]\ncandidate_preference = \"widest\"\n"

def customTree : Value :=
  .table .header
    [("filter", .table .header
      [("translate", .table .header
        [("preset", .string "custom"),
          ("destination", .array
            [.array [.integer 4, .integer 5], .array [.integer 6, .integer 7]]),
          ("source", .table .inline
            [("max", .table .inline [("y", .integer 3), ("x", .integer 2)]),
              ("min", .array [.integer 0, .integer 1])])])]),
      ("pointer", .table .header [("candidate_preference", .string "widest")])]

def custom : Settings Float where
  pointer := { PointerSettings.default with candidatePreference := .widest }
  roll := .default
  filter :=
    { FilterSettings.default with
      translate := .custom
        { source := ⟨⟨0, 1⟩, ⟨2, 3⟩⟩, destination := ⟨⟨4, 5⟩, ⟨6, 7⟩⟩, clamp := false } }

theorem partial_customTree : Partial customTree where
  root := ⟨_, _, rfl, by decide, by decide⟩
  pointer := by
    rintro v ⟨⟩
    exact ⟨⟨_, _, rfl, by decide, by decide⟩, by decide +kernel⟩
  roll := nofun
  filter := by
    rintro v ⟨⟩
    exact ⟨_, _, rfl, by decide, by decide⟩
  error := nofun
  glitch := nofun
  smoothing := nofun
  translate := by
    rintro v ⟨⟩
    exact .inr ⟨_, _, rfl, by decide, by decide, by decide +kernel⟩

theorem ofText_overrides_of_faulty :
    (Document.ofText? faultyText = some faultyTree ∧ Partial faultyTree ∧
      Overrides faultyTree faulty) ∧
    (Document.ofText? swappedText = some swappedTree ∧ Reordered faultyTree swappedTree ∧
      ofText swappedText = .error (.invalid .minWidth)) ∧
    (Document.ofText? misspeltText = some misspeltTree ∧ Stray misspeltTree ∧
      ofText misspeltText = .error .malformed) ∧
    (Document.ofText? customText = some customTree ∧ Partial customTree ∧
      Overrides customTree custom) := by
  have parsed : Document.ofText? faultyText = some faultyTree := by decide +kernel
  have parsed_swapped : Document.ofText? swappedText = some swappedTree := by decide +kernel
  have parsed_misspelt : Document.ofText? misspeltText = some misspeltTree := by decide +kernel
  have parsed_custom : Document.ofText? customText = some customTree := by decide +kernel
  have read : ofValue? faultyTree = some faulty := rfl
  have read_custom : ofValue? customTree = some custom := rfl
  have first : Violation.IsFirst faulty .minWidth :=
    (faulty.violation?_eq_some_iff .minWidth).mp (by decide +kernel)
  obtain ⟨named, -, order, ranges⟩ := ofText_overrides parsed
  refine ⟨⟨parsed, partial_faultyTree, ?_⟩, ⟨parsed_swapped, reordered_swappedTree, ?_⟩,
    ⟨parsed_misspelt, stray_misspeltTree,
      (ofText_overrides parsed_misspelt).2.1 stray_misspeltTree⟩,
    parsed_custom, partial_customTree, ?_⟩
  · obtain ⟨s, hs, unique⟩ := named partial_faultyTree
    exact (unique faulty).mpr (Option.some_inj.mp (read.symm.trans hs))
  · rw [(order swappedText swappedTree parsed_swapped reordered_swappedTree).2]
    exact ((ranges faulty read).2 _).mpr ⟨.minWidth, rfl, first⟩
  · obtain ⟨s, hs, unique⟩ := (ofText_overrides parsed_custom).1 partial_customTree
    exact (unique custom).mpr (Option.some_inj.mp (read_custom.symm.trans hs))

end Settings

end SensorBar
