import SensorBar.Camera.Slot
import SensorBar.Decimal.Read
import SensorBar.Roll
import SensorBar.Text.Blank
import SensorBar.Text.Quoted

/-!
# Trace lines

One sensor report as a line of twelve fields between blanks: a time in milliseconds, the
coordinates of four slots, and an accelerometer reading.  Fields are read from left to right, and
the first one that fails is blamed.
-/

namespace SensorBar

structure Sample (α : Type) where
  time : Nat
  slots : Camera.Slots
  accel : Accel α

namespace Trace

inductive Field where
  | timestamp
  | x (slot : Fin 4)
  | y (slot : Fin 4)
  | ax
  | ay
  | az
  deriving DecidableEq

def Field.name : Field → String
  | .timestamp => "timestamp"
  | .x slot => "x" ++ toString slot.val
  | .y slot => "y" ++ toString slot.val
  | .ax => "ax"
  | .ay => "ay"
  | .az => "az"

inductive LineError where
  | missing (field : Field)
  | bad (field : Field) (text : List Char)
  | outOfRange (slot : Fin 4) (x y : Nat)
  | trailing (text : List Char)
  deriving DecidableEq

namespace LineError

def quoted (text : List Char) : String :=
  String.ofList (Text.quote text)

def reason : LineError → String
  | missing field => "missing " ++ field.name
  | bad field text => "bad " ++ field.name ++ " " ++ quoted text
  | outOfRange slot x y =>
      "slot " ++ toString slot.val ++ " out of range: (" ++ toString x ++ ", " ++ toString y ++ ")"
  | trailing text => "unexpected trailing field " ++ quoted text

end LineError

/-! ## Reading -/

/-- The value of the next field and the fields after it. -/
def next {β : Type} (field : Field) (read : List Char → Option β) :
    List (List Char) → Except LineError (β × List (List Char))
  | [] => .error (.missing field)
  | word :: rest =>
      match read word with
      | none => .error (.bad field word)
      | some value => .ok (value, rest)

def readTime? : List Char → Option Nat :=
  Decimal.readNat? (UInt64.size - 1)

def readCoordinate? : List Char → Option Nat :=
  Decimal.readNat? (UInt16.size - 1)

def nextSlot (slot : Fin 4) (fields : List (List Char)) :
    Except LineError (Option Camera.Spot × List (List Char)) := do
  let (x, fields) ← next (.x slot) readCoordinate? fields
  let (y, fields) ← next (.y slot) readCoordinate? fields
  if Camera.coordinateLimit.toNat < x ∨ Camera.coordinateLimit.toNat < y then
    .error (.outOfRange slot x y)
  else .ok (Camera.Spot.ofWire? x.toUInt16 y.toUInt16, fields)

def ofFields (fields : List (List Char)) : Except LineError (Sample Float) := do
  let (time, fields) ← next .timestamp readTime? fields
  let (s0, fields) ← nextSlot 0 fields
  let (s1, fields) ← nextSlot 1 fields
  let (s2, fields) ← nextSlot 2 fields
  let (s3, fields) ← nextSlot 3 fields
  let (ax, fields) ← next .ax Decimal.readFloat? fields
  let (ay, fields) ← next .ay Decimal.readFloat? fields
  let (az, fields) ← next .az Decimal.readFloat? fields
  match fields with
  | [] => .ok ⟨time, #v[s0, s1, s2, s3], ⟨ax, ay, az⟩⟩
  | extra :: _ => .error (.trailing extra)

def ofLine (cs : List Char) : Except LineError (Sample Float) :=
  ofFields (Text.words cs)

end Trace

end SensorBar
