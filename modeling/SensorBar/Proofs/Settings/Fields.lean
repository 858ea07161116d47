import SensorBar.Proofs.Settings.Records
import SensorBar.Settings.Decode

/-! # The fields of the settings

Every record of the settings with its fields: their names, what kinds of values they hold, and what
they are when they are not given.
-/

namespace SensorBar

open Toml

/-! ## Pointer and roll -/

def Preference.kind : Kind Preference :=
  .choice ofName? [("narrowest", .narrowest), ("widest", .widest)] fun name _ => by
    unfold ofName?
    split <;> simp_all [eq_comm]

@[simp] theorem Preference.kind_read : kind.read = ofValue? := rfl

def RollAxis.kind : Kind RollAxis :=
  .choice ofName? [("y", .y), ("z", .z)] fun name _ => by
    unfold ofName?
    split <;> simp_all [eq_comm]

@[simp] theorem RollAxis.kind_read : kind.read = ofValue? := rfl

def PointerSettings.schema : Schema (PointerSettings Float) where
  closed := true
  fields :=
    [⟨"height", .float, (·.height), some default.height⟩,
      ⟨"max_slope", .float, (·.maxSlope), some default.maxSlope⟩,
      ⟨"min_width", .float, (·.minWidth), some default.minWidth⟩,
      ⟨"bar_width", .float, (·.barWidth), some default.barWidth⟩,
      ⟨"dot_width", .float, (·.dotWidth), some default.dotWidth⟩,
      ⟨"dot_height", .float, (·.dotHeight), some default.dotHeight⟩,
      ⟨"off_screen_x", .float, (·.offScreenX), some default.offScreenX⟩,
      ⟨"off_screen_y", .float, (·.offScreenY), some default.offScreenY⟩,
      ⟨"single_no_guess_distance", .float, (·.singleNoGuessDistance),
        some default.singleNoGuessDistance⟩,
      ⟨"fov_coefficient", .float, (·.fovCoefficient), some default.fovCoefficient⟩,
      ⟨"candidate_preference", Preference.kind, (·.candidatePreference),
        some default.candidatePreference⟩]

theorem PointerSettings.schema_complete : schema.Complete default where
  otherwise := by simp [schema]
  ext := by
    rintro ⟨⟩ ⟨⟩ same
    simpa [schema] using same

theorem PointerSettings.spells : schema.Spells ofValue? := by
  refine .of_bind (fun _ => rfl) (fun r s => ?fields) (fun r given => ?total)
  case fields =>
    cases s
    simp [schema, Field.value?_optional, Option.bind_eq_some_iff]
  case total =>
    simp only [schema, List.forall_mem_cons, Field.value?_optional] at given
    obtain ⟨height, maxSlope, minWidth, barWidth, dotWidth, dotHeight, offScreenX, offScreenY,
      singleNoGuessDistance, fovCoefficient, candidatePreference, -⟩ := given
    exact Schema.isSome_bind height fun _ => Schema.isSome_bind maxSlope fun _ =>
      Schema.isSome_bind minWidth fun _ => Schema.isSome_bind barWidth fun _ =>
      Schema.isSome_bind dotWidth fun _ => Schema.isSome_bind dotHeight fun _ =>
      Schema.isSome_bind offScreenX fun _ => Schema.isSome_bind offScreenY fun _ =>
      Schema.isSome_bind singleNoGuessDistance fun _ => Schema.isSome_bind fovCoefficient fun _ =>
      Schema.isSome_bind candidatePreference fun _ => rfl

def RollSettings.schema : Schema (RollSettings Float) where
  closed := true
  fields :=
    [⟨"axis", RollAxis.kind, (·.axis), some default.axis⟩,
      ⟨"gravity", .float, (·.gravity), some default.gravity⟩,
      ⟨"tolerance", .float, (·.tolerance), some default.tolerance⟩]

theorem RollSettings.schema_complete : schema.Complete default where
  otherwise := by simp [schema]
  ext := by
    rintro ⟨⟩ ⟨⟩ same
    simpa [schema] using same

theorem RollSettings.spells : schema.Spells ofValue? := by
  refine .of_bind (fun _ => rfl) (fun r s => ?fields) (fun r given => ?total)
  case fields =>
    cases s
    simp [schema, Field.value?_optional, Option.bind_eq_some_iff]
  case total =>
    simp only [schema, List.forall_mem_cons, Field.value?_optional] at given
    obtain ⟨axis, gravity, tolerance, -⟩ := given
    exact Schema.isSome_bind axis fun _ => Schema.isSome_bind gravity fun _ =>
      Schema.isSome_bind tolerance fun _ => rfl

/-! ## Filters -/

def DropoutSettings.schema : Schema DropoutSettings where
  closed := true
  fields :=
    [⟨"max_count", .count, (·.maxCount), some default.maxCount⟩]

theorem DropoutSettings.schema_complete : schema.Complete default where
  otherwise := by simp [schema]
  ext := by
    rintro ⟨⟩ ⟨⟩ same
    simpa [schema] using same

theorem DropoutSettings.spells : schema.Spells ofValue? := by
  refine .of_bind (fun _ => rfl) (fun r s => ?fields) (fun r given => ?total)
  case fields =>
    cases s
    simp [schema, Field.value?_optional, Option.bind_eq_some_iff]
  case total =>
    simp only [schema, List.forall_mem_cons, Field.value?_optional] at given
    obtain ⟨maxCount, -⟩ := given
    exact Schema.isSome_bind maxCount fun _ => rfl

def GlitchSettings.schema : Schema (GlitchSettings Float) where
  closed := true
  fields :=
    [⟨"max_count", .count, (·.maxCount), some default.maxCount⟩,
      ⟨"distance_squared", .float, (·.distanceSquared), some default.distanceSquared⟩]

theorem GlitchSettings.schema_complete : schema.Complete default where
  otherwise := by simp [schema]
  ext := by
    rintro ⟨⟩ ⟨⟩ same
    simpa [schema] using same

theorem GlitchSettings.spells : schema.Spells ofValue? := by
  refine .of_bind (fun _ => rfl) (fun r s => ?fields) (fun r given => ?total)
  case fields =>
    cases s
    simp [schema, Field.value?_optional, Option.bind_eq_some_iff]
  case total =>
    simp only [schema, List.forall_mem_cons, Field.value?_optional] at given
    obtain ⟨maxCount, distanceSquared, -⟩ := given
    exact Schema.isSome_bind maxCount fun _ => Schema.isSome_bind distanceSquared fun _ => rfl

def RadiusSettings.schema : Schema (RadiusSettings Float) where
  closed := false
  fields :=
    [⟨"radius", .float, (·.radius), some default.radius⟩,
      ⟨"speed", .float, (·.speed), some default.speed⟩,
      ⟨"deadzone", .float, (·.deadzone), some default.deadzone⟩]

theorem RadiusSettings.schema_complete : schema.Complete default where
  otherwise := by simp [schema]
  ext := by
    rintro ⟨⟩ ⟨⟩ same
    simpa [schema] using same

theorem RadiusSettings.spells : schema.Spells ofValue? := by
  refine .of_bind (fun _ => rfl) (fun r s => ?fields) (fun r given => ?total)
  case fields =>
    cases s
    simp [schema, Field.value?_optional, Option.bind_eq_some_iff]
  case total =>
    simp only [schema, List.forall_mem_cons, Field.value?_optional] at given
    obtain ⟨radius, speed, deadzone, -⟩ := given
    exact Schema.isSome_bind radius fun _ => Schema.isSome_bind speed fun _ =>
      Schema.isSome_bind deadzone fun _ => rfl

def AdaptiveSettings.schema : Schema (AdaptiveSettings Float) where
  closed := false
  fields :=
    [⟨"min_cutoff", .float, (·.minCutoff), some default.minCutoff⟩,
      ⟨"beta", .float, (·.beta), some default.beta⟩,
      ⟨"d_cutoff", .float, (·.dCutoff), some default.dCutoff⟩]

theorem AdaptiveSettings.schema_complete : schema.Complete default where
  otherwise := by simp [schema]
  ext := by
    rintro ⟨⟩ ⟨⟩ same
    simpa [schema] using same

theorem AdaptiveSettings.spells : schema.Spells ofValue? := by
  refine .of_bind (fun _ => rfl) (fun r s => ?fields) (fun r given => ?total)
  case fields =>
    cases s
    simp [schema, Field.value?_optional, Option.bind_eq_some_iff]
  case total =>
    simp only [schema, List.forall_mem_cons, Field.value?_optional] at given
    obtain ⟨minCutoff, beta, dCutoff, -⟩ := given
    exact Schema.isSome_bind minCutoff fun _ => Schema.isSome_bind beta fun _ =>
      Schema.isSome_bind dCutoff fun _ => rfl

def Point.schema : Schema (Point Float) where
  closed := false
  fields :=
    [⟨"x", .float, (·.x), none⟩,
      ⟨"y", .float, (·.y), none⟩]

theorem Point.spells : schema.Spells ofValue? := by
  refine .of_bind (fun _ => rfl) (fun r s => ?fields) (fun r given => ?total)
  case fields =>
    cases s
    simp [schema, Field.value?_required, Option.bind_eq_some_iff]
  case total =>
    simp only [schema, List.forall_mem_cons, Field.value?_required] at given
    obtain ⟨x, y, -⟩ := given
    exact Schema.isSome_bind x fun _ => Schema.isSome_bind y fun _ => rfl

def Point.kind : Kind (Point Float) :=
  spells.kind (by decide)

@[simp] theorem Point.kind_read : kind.read = ofValue? := rfl

def Rect.schema : Schema (Rect Float) where
  closed := false
  fields :=
    [⟨"min", Point.kind, (·.min), none⟩,
      ⟨"max", Point.kind, (·.max), none⟩]

theorem Rect.spells : schema.Spells ofValue? := by
  refine .of_bind (fun _ => rfl) (fun r s => ?fields) (fun r given => ?total)
  case fields =>
    cases s
    simp [schema, Field.value?_required, Option.bind_eq_some_iff]
  case total =>
    simp only [schema, List.forall_mem_cons, Field.value?_required] at given
    obtain ⟨min, max, -⟩ := given
    exact Schema.isSome_bind min fun _ => Schema.isSome_bind max fun _ => rfl

def Rect.kind : Kind (Rect Float) :=
  spells.kind (by decide)

@[simp] theorem Rect.kind_read : kind.read = ofValue? := rfl

def Mapping.schema : Schema (Mapping Float) where
  closed := false
  fields :=
    [⟨"source", Rect.kind, (·.source), none⟩,
      ⟨"destination", Rect.kind, (·.destination), none⟩,
      ⟨"clamp", .boolean, (·.clamp), some false⟩]

theorem Mapping.spells : schema.Spells ofValue? := by
  refine .of_bind (fun _ => rfl) (fun r s => ?fields) (fun r given => ?total)
  case fields =>
    cases s
    simp [schema, Field.value?_required, Field.value?_optional, Option.bind_eq_some_iff,
      -Bool.exists_bool]
  case total =>
    simp only [schema, List.forall_mem_cons, Field.value?_required, Field.value?_optional] at given
    obtain ⟨source, destination, clamp, -⟩ := given
    exact Schema.isSome_bind source fun _ => Schema.isSome_bind destination fun _ =>
      Schema.isSome_bind clamp fun _ => rfl

/-- What smoothing of a kind is by the value that holds its fields. -/
def Smoothing.ofKind? (kind : String) (rest : Value) : Option (Smoothing Float) :=
  match kind with
  | "none" => if isBare rest then some .off else none
  | "radius" => (RadiusSettings.ofValue? rest).map .radius
  | "adaptive" => (AdaptiveSettings.ofValue? rest).map .adaptive
  | _ => none

theorem Smoothing.ofValue?_eq_bind (v : Value) :
    ofValue? v = (tagged? "kind" v).bind fun tagged => ofKind? tagged.1 tagged.2 := by
  unfold ofValue? ofKind?
  cases tagged? "kind" v with
  | none => rfl
  | some tagged =>
      obtain ⟨kind, rest⟩ := tagged
      rw [Option.bind_some]
      split <;> simp_all

/-- What the translation of a preset is by the value that holds its fields. -/
def Translation.ofFields? (preset : String) (rest : Value) : Option (Translation Float) :=
  if preset = "custom" then (Mapping.ofValue? rest).map .custom
  else if isBare rest then ofPreset? preset
  else none

theorem Translation.ofValue?_eq_bind (v : Value) :
    ofValue? v = (tagged? "preset" v).bind fun tagged => ofFields? tagged.1 tagged.2 := by
  unfold ofValue? ofFields?
  cases tagged? "preset" v with
  | none => rfl
  | some tagged =>
      obtain ⟨preset, rest⟩ := tagged
      rw [Option.bind_some]
      split <;> simp_all

namespace FilterSettings

def errorField : Toml.Field (FilterSettings Float) :=
  ⟨"error", .ofReader DropoutSettings.ofValue?, (·.error), some default.error⟩

def glitchField : Toml.Field (FilterSettings Float) :=
  ⟨"glitch", .ofReader GlitchSettings.ofValue?, (·.glitch), some default.glitch⟩

def smoothingField : Toml.Field (FilterSettings Float) :=
  ⟨"smoothing", .ofReader Smoothing.ofValue?, (·.smoothing), some default.smoothing⟩

def translateField : Toml.Field (FilterSettings Float) :=
  ⟨"translate", .ofReader Translation.ofValue?, (·.translate), some default.translate⟩

def schema : Schema (FilterSettings Float) where
  closed := true
  fields := [errorField, glitchField, smoothingField, translateField]

theorem schema_complete : schema.Complete default where
  otherwise := by simp [schema, errorField, glitchField, smoothingField, translateField]
  ext := by
    rintro ⟨⟩ ⟨⟩ same
    simpa [schema, errorField, glitchField, smoothingField, translateField] using same

theorem spells : schema.Spells ofValue? := by
  refine .of_bind (fun _ => rfl) (fun r s => ?fields) (fun r given => ?total)
  case fields =>
    cases s
    simp [schema, errorField, glitchField, smoothingField, translateField,
      Field.value?_optional, Option.bind_eq_some_iff]
  case total =>
    simp only [schema, errorField, glitchField, smoothingField, translateField,
      List.forall_mem_cons, Field.value?_optional] at given
    obtain ⟨error, glitch, smoothing, translate, -⟩ := given
    exact Schema.isSome_bind error fun _ => Schema.isSome_bind glitch fun _ =>
      Schema.isSome_bind smoothing fun _ => Schema.isSome_bind translate fun _ => rfl

end FilterSettings

/-! ## All settings -/

namespace Settings

def pointerField : Toml.Field (Settings Float) :=
  ⟨"pointer", .ofReader PointerSettings.ofValue?, (·.pointer), some default.pointer⟩

def rollField : Toml.Field (Settings Float) :=
  ⟨"roll", .ofReader RollSettings.ofValue?, (·.roll), some default.roll⟩

def filterField : Toml.Field (Settings Float) :=
  ⟨"filter", .ofReader FilterSettings.ofValue?, (·.filter), some default.filter⟩

def schema : Schema (Settings Float) where
  closed := true
  fields := [pointerField, rollField, filterField]

theorem spells : schema.Spells ofValue? := by
  refine .of_bind (fun _ => rfl) (fun r s => ?fields) (fun r given => ?total)
  case fields =>
    cases s
    simp [schema, pointerField, rollField, filterField, Field.value?_optional,
      Option.bind_eq_some_iff]
  case total =>
    simp only [schema, pointerField, rollField, filterField, List.forall_mem_cons,
      Field.value?_optional] at given
    obtain ⟨pointer, roll, filter, -⟩ := given
    exact Schema.isSome_bind pointer fun _ => Schema.isSome_bind roll fun _ =>
      Schema.isSome_bind filter fun _ => rfl

end Settings

end SensorBar
