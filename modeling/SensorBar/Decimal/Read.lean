/-!
# Reading numbers

Decimal text of whole numbers and of doubles.  A decimal is first read exactly, and then rounded
once to the nearest double.
-/

namespace SensorBar

/-- The exact number `± coefficient * 10 ^ exponent`. -/
structure Decimal where
  negative : Bool
  coefficient : Nat
  exponent : Int
  deriving DecidableEq

namespace Decimal

def digitsValue (ds : List Char) : Nat :=
  ds.foldl (fun n c => 10 * n + (c.toNat - '0'.toNat)) 0

/-! ## Whole numbers -/

/--
A whole number of at most `limit`: decimal digits, after an optional plus sign.
-/
def readNat? (limit : Nat) (cs : List Char) : Option Nat :=
  let ds := match cs with
    | '+' :: rest => rest
    | _ => cs
  if ds.isEmpty || !ds.all Char.isDigit then none
  else if digitsValue ds ≤ limit then some (digitsValue ds)
  else none

/-! ## Doubles -/

/--
The double nearest to a decimal.  Magnitudes far outside the range of doubles are settled by the
number of digits alone.
-/
def toFloat (d : Decimal) : Float :=
  let size : Int := (Nat.toDigits 10 d.coefficient).length
  let magnitude : Float :=
    if d.coefficient = 0 ∨ size + d.exponent ≤ -324 then 0.0
    else if 310 ≤ size + d.exponent then 1.0 / 0.0
    else Float.ofScientific d.coefficient (d.exponent < 0) d.exponent.natAbs
  if d.negative then -magnitude else magnitude

def readSign : List Char → Bool × List Char
  | '-' :: rest => (true, rest)
  | '+' :: rest => (false, rest)
  | cs => (false, cs)

/-- Digits that end the text, after an optional sign. -/
def readExponent? (cs : List Char) : Option Int :=
  let (negative, ds) := readSign cs
  if ds.isEmpty || !ds.all Char.isDigit then none
  else some (if negative then -(digitsValue ds : Int) else digitsValue ds)

/-- Digits, with a point among or around them and an optional exponent after them. -/
def readUnsigned? (negative : Bool) (cs : List Char) : Option Decimal :=
  let (whole, afterWhole) := cs.span Char.isDigit
  let (fraction, tail) := match afterWhole with
    | '.' :: rest => rest.span Char.isDigit
    | _ => ([], afterWhole)
  if whole.isEmpty && fraction.isEmpty then none
  else
    let places : Int := fraction.length
    match tail with
    | [] => some ⟨negative, digitsValue (whole ++ fraction), -places⟩
    | c :: rest =>
        if c == 'e' || c == 'E' then
          (readExponent? rest).map fun e => ⟨negative, digitsValue (whole ++ fraction), e - places⟩
        else none

/-- Words for values that are not decimals, in any case. -/
def readWord? (cs : List Char) : Option Float :=
  let word := String.ofList (cs.map Char.toLower)
  if word == "inf" || word == "infinity" then some (1.0 / 0.0)
  else if word == "nan" then some (0.0 / 0.0)
  else none

/-- A double: an optional sign, and then a word or a decimal. -/
def readFloat? (cs : List Char) : Option Float :=
  let (negative, rest) := readSign cs
  match readWord? rest with
  | some x => some (if negative then -x else x)
  | none => (readUnsigned? negative rest).map toFloat

end Decimal

end SensorBar
