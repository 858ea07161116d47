import SensorBar.Breach
import SensorBar.Settings.Basic
import SensorBar.Trace.Reader

/-!
# Errors

Everything that can go wrong with settings, traces, runs and reports, and its wording.
-/

namespace SensorBar

/-- Why a file could not be read or written. -/
inductive IoError where
  | notFound
  | isDirectory
  | notUtf8
  | full
  | other (text : String)
  deriving DecidableEq

def IoError.message : IoError → String
  | notFound => "No such file or directory (os error 2)"
  | isDirectory => "Is a directory (os error 21)"
  | notUtf8 => "stream did not contain valid UTF-8"
  | full => "failed to write whole buffer"
  | other text => text

inductive Error where
  /-- The settings file cannot be read. -/
  | unreadable (path : String) (cause : IoError)
  /-- The settings text is no document of settings. -/
  | malformed
  | invalid (cause : Violation)
  | line (number : Nat) (cause : Trace.LineError)
  | io (cause : IoError)
  /-- A promise does not hold, and nothing further is done. -/
  | breach (cause : Breach)
  deriving DecidableEq

namespace Error

def message : Error → String
  | unreadable path cause => "failed to read settings from " ++ path ++ ": " ++ cause.message
  | malformed => "failed to parse settings"
  | invalid cause => "invalid settings: " ++ cause.reason
  | line number cause => "trace line " ++ toString number ++ ": " ++ cause.reason
  | io cause => "i/o error: " ++ cause.message
  | breach cause => cause.reason

def ofTrace : Trace.Error → Error
  | .line number cause => line number cause
  | .notUtf8 => io .notUtf8

end Error

end SensorBar
