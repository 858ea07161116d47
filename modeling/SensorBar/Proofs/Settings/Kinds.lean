import SensorBar.Toml.Record

/-! # Kinds of values

What a value of a document has to be to stand for a number, a count, a truth value or one of several
names.  A kind is a reader together with what it reads, told without it; only what is known from its
parts, such as a section, is left to its reader.
-/

namespace SensorBar.Toml

/-- A reader of values, and what a value has to be for it to be read as something. -/
structure Kind (β : Type) where
  read : Value → Option β
  Means : Value → β → Prop
  read_eq_some_iff : ∀ v b, read v = some b ↔ Means v b

namespace Value

/-! ## Choices -/

/-- A name is the last one on the path of the only header, and nothing stands under it. -/
inductive LastHeader : Value → String → Prop
  | table (name : String) :
      LastHeader (.table .soleHeader [(name, .table .soleHeader [])]) name
  | list (name : String) :
      LastHeader (.table .soleHeader [(name, .array [.table .soleHeader []])]) name
  | under {v : Value} {name : String} (key : String) (inner : LastHeader v name) :
      LastHeader (.table .soleHeader [(key, v)]) name

/-- A value chooses a name: by a string, by a key with an empty table, or by the only header. -/
inductive Chooses : Value → String → Prop
  | string (name : String) : Chooses (.string name) name
  | key (name : String) (form : Form) : Chooses (.table .inline [(name, .table form [])]) name
  | header {v : Value} {name : String} (last : LastHeader v name) : Chooses v name

theorem lastHeader?_eq_some_iff {v : Value} {name : String} :
    v.lastHeader? = some name ↔ v.LastHeader name := by
  constructor
  · intro h
    fun_induction lastHeader? v with
    | case1 key =>
        cases h
        exact .table _
    | case2 key =>
        cases h
        exact .list _
    | case3 key v _ _ ih => exact .under key (ih h)
    | case4 => cases h
  · intro h
    induction h with
    | table name => rfl
    | list name => rfl
    | @under v name key inner ih =>
        rw [lastHeader?]
        · exact ih
        · rintro rfl
          cases inner
        · rintro rfl
          cases inner

theorem choice?_eq_some_iff {v : Value} {name : String} :
    v.choice? = some name ↔ v.Chooses name := by
  constructor
  · intro h
    unfold choice? at h
    split at h
    · cases h
      exact .string name
    · cases h
      exact .key name _
    · exact .header (lastHeader?_eq_some_iff.mp h)
  · intro h
    cases h with
    | string => rfl
    | key => rfl
    | header last =>
        rw [choice?, lastHeader?_eq_some_iff]
        · exact last
        · rintro other rfl
          cases last
        · rintro other form rfl
          cases last

end Value

/-! ## The kinds -/

namespace Kind

variable {β : Type}

/-- A double; an integer stands for the double that it is converted to. -/
def float : Kind Float where
  read := Value.float?
  Means v x := v = .float x ∨ ∃ n, v = .integer n ∧ x = Float.ofInt n
  read_eq_some_iff v x := by
    cases v <;> simp [Value.float?, eq_comm]

def count : Kind UInt32 where
  read := Value.count?
  Means v n := v = .integer n.toNat
  read_eq_some_iff v n := by
    cases v with
    | integer i =>
        rw [Value.count?, Value.integer.injEq]
        have hlt : n.toNat < UInt32.size := n.toNat_lt
        constructor
        · intro h
          split at h
          next hrange =>
            have hfits : i.toNat < UInt32.size := by omega
            cases h
            rw [Nat.toUInt32_eq, UInt32.toNat_ofNat_of_lt' hfits]
            omega
          next => cases h
        · rintro rfl
          rw [if_pos (by omega), Int.toNat_natCast]
          simp
    | _ => simp [Value.count?]

def boolean : Kind Bool where
  read := Value.boolean?
  Means v b := v = .boolean b
  read_eq_some_iff v b := by
    cases v <;> simp [Value.boolean?]

/-- One of several things, each by its name. -/
def choice (ofName? : String → Option β) (names : List (String × β))
    (named : ∀ name b, ofName? name = some b ↔ (name, b) ∈ names) : Kind β where
  read v := v.choice?.bind ofName?
  Means v b := ∃ name, v.Chooses name ∧ (name, b) ∈ names
  read_eq_some_iff v b := by
    simp only [Option.bind_eq_some_iff, Value.choice?_eq_some_iff, named]

/-- What a reader makes of a value that is told of by its parts instead. -/
def ofReader (read : Value → Option β) : Kind β where
  read := read
  Means v b := read v = some b
  read_eq_some_iff _ _ := Iff.rfl

@[simp] theorem float_read : float.read = Value.float? := rfl

@[simp] theorem count_read : count.read = Value.count? := rfl

@[simp] theorem boolean_read : boolean.read = Value.boolean? := rfl

@[simp] theorem ofReader_read (read : Value → Option β) : (ofReader read).read = read := rfl

end Kind

end SensorBar.Toml
