import SensorBar.Toml.Value

/-!
# Records in settings text

How a value of a document is read as a record of named fields, as a choice between names, or as a
number.  A record is written as a table, or as an array of its fields in their order.
-/

namespace SensorBar.Toml

namespace Value

/-! ## Scalars -/

/-- A double; an integer stands for the double nearest to it. -/
def float? : Value → Option Float
  | .float x => some x
  | .integer n => some (Float.ofInt n)
  | _ => none

def count? : Value → Option UInt32
  | .integer n => if 0 ≤ n ∧ n < UInt32.size then some n.toNat.toUInt32 else none
  | _ => none

def boolean? : Value → Option Bool
  | .boolean b => some b
  | _ => none

/-! ## Choices -/

/--
The last name on the path of the only header of a document, when no entries are under it.  The
header may begin a list of tables.
-/
def lastHeader? : Value → Option String
  | .table .soleHeader [(name, .table .soleHeader [])] => some name
  | .table .soleHeader [(name, .array [.table .soleHeader []])] => some name
  | .table .soleHeader [(_, v)] => lastHeader? v
  | _ => none

/-- The name that a value chooses: a string, or the only key of a table around an empty one. -/
def choice? : Value → Option String
  | .string name => some name
  | .table .inline [(name, .table _ [])] => some name
  | v => lastHeader? v

/-- Whether a value is the list of tables that the only header of a document begins. -/
def isLoneList : Value → Bool
  | .array (.table .soleHeader _ :: _) => true
  | _ => false

end Value

/-! ## Records -/

/-- The fields that were given, each at most once. -/
abbrev Record := List (String × Value)

namespace Record

def distinct : Entries → Bool
  | [] => true
  | (name, _) :: rest => !rest.any (·.1 == name) && distinct rest

/-- The known fields among some entries.  A closed record has no others. -/
def ofEntries? (fields : List String) (closed : Bool) (entries : Entries) : Option Record :=
  let known := entries.filter fun e => fields.contains e.1
  if closed && entries.any (fun e => !fields.contains e.1) then none
  else if distinct known then some known
  else none

/-- The fields that a list of values gives in order. -/
def ofItems? (fields : List String) (items : List Value) : Option Record :=
  if items.length ≤ fields.length then some (fields.zip items) else none

def ofValue? (fields : List String) (closed : Bool) : Value → Option Record
  | .table _ entries => ofEntries? fields closed entries
  | .array items => ofItems? fields items
  | _ => none

/-- A field that has to be given. -/
def required {β : Type} (r : Record) (name : String) (read : Value → Option β) : Option β :=
  (r.lookup name).bind read

/-- A field that has a default. -/
def optional {β : Type} (r : Record) (name : String) (read : Value → Option β) (default : β) :
    Option β :=
  match r.lookup name with
  | none => some default
  | some v => read v

end Record

/-! ## Tagged records -/

/--
The tag of a tagged record and the value that holds its other fields.  In a table the tag is the
entry of that name, given once; in an array it is the first item.
-/
def tagged? (tag : String) : Value → Option (String × Value)
  | .table form entries =>
      match entries.filter (·.1 == tag) with
      | [(_, .string name)] => some (name, .table form (entries.filter (·.1 != tag)))
      | _ => none
  | .array (.string name :: items) => some (name, .array items)
  | _ => none

/-- Whether the value beside a tag can stand for no fields: a table may hold anything. -/
def isBare : Value → Bool
  | .table _ _ => true
  | .array items => items.isEmpty
  | _ => false

end SensorBar.Toml
