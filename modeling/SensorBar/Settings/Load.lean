import SensorBar.Error
import SensorBar.Settings.Decode
import SensorBar.Toml.Document

/-!
# Loading settings

From a text, or from a file among those that can be reached by name, to settings that have passed
every check.
-/

namespace SensorBar

/-- What a name stands for among files. -/
inductive FileEntry where
  | file (bytes : List UInt8)
  | directory
  | broken (cause : IoError)

abbrev FileStore := String → Option FileEntry

namespace FileStore

def readText (files : FileStore) (path : String) : Except IoError String :=
  match files path with
  | none => .error .notFound
  | some .directory => .error .isDirectory
  | some (.broken cause) => .error cause
  | some (.file bytes) =>
      match String.fromUTF8? ⟨bytes.toArray⟩ with
      | none => .error .notUtf8
      | some text => .ok text

end FileStore

namespace Settings

def validate (s : Settings Float) : Except Error (Settings Float) :=
  match s.violation? with
  | none => .ok s
  | some v => .error (.invalid v)

def ofTree (tree : Toml.Value) : Except Error (Settings Float) :=
  if spendsHeader tree then .error (.breach .spentHeader)
  else
    match ofValue? tree with
    | none => .error .malformed
    | some s => s.validate

def ofText (text : String) : Except Error (Settings Float) :=
  match Toml.Document.ofText? text with
  | none => .error .malformed
  | some tree => ofTree tree

def load (files : FileStore) (path : String) : Except Error (Settings Float) :=
  match files.readText path with
  | .error cause => .error (.unreadable path cause)
  | .ok text => ofText text

end Settings

end SensorBar
