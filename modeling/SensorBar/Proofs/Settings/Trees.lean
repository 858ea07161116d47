import SensorBar.Toml.Value

/-! # Trees

When two trees are the same, and what the paths of keys lead to in one.
-/

namespace SensorBar.Toml.Value

/-! ## Equality -/

mutual

/-- Whether two values are the same. -/
def same : Value → Value → Bool
  | .string a, .string b => a == b
  | .integer a, .integer b => a == b
  | .float a, .float b => decide (a = b)
  | .boolean a, .boolean b => a == b
  | .datetime, .datetime => true
  | .array a, .array b => sameItems a b
  | .table f a, .table g b => decide (f = g) && sameEntries a b
  | _, _ => false

def sameItems : List Value → List Value → Bool
  | [], [] => true
  | v :: a, w :: b => v.same w && sameItems a b
  | _, _ => false

def sameEntries : List (String × Value) → List (String × Value) → Bool
  | [], [] => true
  | (k, v) :: a, (l, w) :: b => k == l && v.same w && sameEntries a b
  | _, _ => false

end

mutual

theorem same_iff : ∀ v w : Value, v.same w = true ↔ v = w
  | .string a, w => by cases w <;> simp [same]
  | .integer a, w => by cases w <;> simp [same]
  | .float a, w => by cases w <;> simp [same]
  | .boolean a, w => by cases w <;> simp [same]
  | .datetime, w => by cases w <;> simp [same]
  | .array a, w => by cases w <;> simp [same, sameItems_iff a]
  | .table f a, w => by cases w <;> simp [same, sameEntries_iff a]

theorem sameItems_iff : ∀ a b : List Value, sameItems a b = true ↔ a = b
  | [], b => by cases b <;> simp [sameItems]
  | v :: a, b => by cases b <;> simp [sameItems, same_iff v, sameItems_iff a]

theorem sameEntries_iff : ∀ a b : List (String × Value), sameEntries a b = true ↔ a = b
  | [], b => by cases b <;> simp [sameEntries]
  | (k, v) :: a, b => by
      cases b <;> simp [sameEntries, same_iff v, sameEntries_iff a, Prod.ext_iff]

end

instance : DecidableEq Value :=
  fun v w => decidable_of_iff _ (same_iff v w)

/-! ## Paths -/

/-- What a path of keys leads to, by the first entry of every key. -/
def at? : Value → List String → Option Value
  | v, [] => some v
  | .table _ entries, key :: path => (entries.lookup key).bind (at? · path)
  | _, _ :: _ => none

/-- Whether a path of keys leads to a value, by any entries of its keys. -/
inductive Reaches : Value → List String → Value → Prop
  | refl (v : Value) : Reaches v [] v
  | entry {form : Form} {entries : Entries} {key : String} {path : List String} {v w : Value} :
      (key, v) ∈ entries → Reaches v path w → Reaches (.table form entries) (key :: path) w

theorem at?_append (v : Value) (path more : List String) :
    v.at? (path ++ more) = (v.at? path).bind (·.at? more) := by
  induction path generalizing v with
  | nil => cases v <;> rfl
  | cons key path ih =>
      cases v with
      | table form entries => cases h : entries.lookup key <;> simp [at?, h, ih]
      | _ => rfl

theorem at?_table_singleton (form : Form) (entries : Entries) (key : String) :
    (table form entries).at? [key] = entries.lookup key := by
  cases h : entries.lookup key <;> simp [at?, h]

end SensorBar.Toml.Value
