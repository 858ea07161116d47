/-!
# Values of settings text

The tree that a document stands for.  A table keeps its entries in the order in which they were
met, with a key that was given twice in it twice, and remembers how it was written.
-/

namespace SensorBar.Toml

inductive Form where
  /-- Between braces. -/
  | inline
  /-- By keys with periods. -/
  | dotted
  /-- By headers. -/
  | header
  /-- By the only header of a document without other entries. -/
  | soleHeader
  deriving DecidableEq

inductive Value where
  | string (text : String)
  | integer (value : Int)
  | float (value : Float)
  | boolean (value : Bool)
  | datetime
  | array (items : List Value)
  | table (form : Form) (entries : List (String × Value))

abbrev Entries := List (String × Value)

namespace Entries

/--
The entries with one more under a dotted key.  Keys before the last one must be new or name a
table that dotted keys have made.
-/
def insert? (value : Value) : List String → Entries → Option Entries
  | [], _ => none
  | [key], entries => some (entries ++ [(key, value)])
  | key :: path, entries =>
      match entries.span fun e => e.1 != key with
      | (_, []) => do
          let inner ← insert? value path []
          some (entries ++ [(key, .table .dotted inner)])
      | (before, (_, .table .dotted inner) :: after) => do
          let inner ← insert? value path inner
          some (before ++ (key, .table .dotted inner) :: after)
      | _ => none

end Entries

end SensorBar.Toml
