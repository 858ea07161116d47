import SensorBar.Toml.Section

/-!
# Documents of settings text

The tables that the sections of a document make up.  A table may be given by one header of its
own, and by the headers of its inner tables before and after it; a list of tables is given by
headers in double brackets, each with the inner tables up to the next one.
-/

namespace SensorBar.Toml.Document

/-- The sections whose path begins with `key`, without it, and the other ones. -/
def under (key : String) : List Section → List Section × List Section
  | [] => ([], [])
  | s :: rest =>
      let (inside, outside) := under key rest
      match s.path with
      | k :: path =>
          if k = key then ({ s with path } :: inside, outside) else (inside, s :: outside)
      | [] => (inside, s :: outside)

/-- Whether a section is an element of the list of tables that its group is about. -/
def isElement (s : Section) : Bool :=
  s.path.isEmpty && s.isArray

/-- The sections before the first element of a list of tables, and those of each element. -/
def elements : List Section → List Section × List (List Section)
  | [] => ([], [])
  | s :: rest =>
      let (before, groups) := elements rest
      if isElement s then ([], ({ s with isArray := false } :: before) :: groups)
      else (s :: before, groups)

mutual

/--
The entries of a table from its sections; `headed` tells whether its own header has been met, and
`fuel` bounds the length of the paths and the number of sections.
-/
def entries (form : Form) : Nat → Bool → List Section → Option Entries
  | 0, _, _ => none
  | _ + 1, _, [] => some []
  | fuel + 1, headed, s :: rest =>
      match s.path with
      | [] =>
          if headed || s.isArray then none
          else do
            let later ← entries form fuel true rest
            some (s.entries ++ later)
      | key :: path => do
          let (inside, outside) := under key rest
          let v ← value form fuel ({ s with path } :: inside)
          let later ← entries form fuel headed outside
          some ((key, v) :: later)

/-- The table, or the list of tables, that a group of sections makes up. -/
def value (form : Form) : Nat → List Section → Option Value
  | fuel + 1, s :: rest =>
      if isElement s then do
        let tables ← (elements (s :: rest)).2.mapM fun group =>
          (entries form fuel false group).map (.table form)
        some (.array tables)
      else (entries form fuel false (s :: rest)).map (.table form)
  | _, _ => none

end

def ofSections? (sections : List Section) : Option Value :=
  let form := if sections.length = 1 then .soleHeader else .header
  let fuel := sections.foldl (fun n s => n + 2 * s.path.length + 2) 2
  (entries form fuel false sections).map (.table form)

def ofText? (text : String) : Option Value := do
  ofSections? (← Section.ofText? text.toList)

end SensorBar.Toml.Document
