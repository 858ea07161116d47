import SensorBar.Decimal.Read
import SensorBar.Toml.Value

/-!
# Numbers of settings text

Integers of sixty-four bits and finite doubles.  Digits may be grouped by single underscores, and
decimal numbers have no leading zeros.
-/

namespace SensorBar.Toml.Number

/-- The value of a digit in a radix of at most sixteen. -/
def digit? (radix : Nat) (c : Char) : Option Nat :=
  let value :=
    if c.isDigit then some (c.toNat - '0'.toNat)
    else if 'a' ≤ c && c ≤ 'f' then some (c.toNat - 'a'.toNat + 10)
    else if 'A' ≤ c && c ≤ 'F' then some (c.toNat - 'A'.toNat + 10)
    else none
  value.filter (· < radix)

def isDigit (radix : Nat) (c : Char) : Bool :=
  (digit? radix c).isSome

/-- Whether every underscore stands between two digits. -/
def wellGrouped : List Char → Bool
  | [] => false
  | ['_'] => false
  | '_' :: '_' :: _ => false
  | [_] => true
  | _ :: cs => wellGrouped cs

def readDigits? (radix : Nat) (leadingZeros : Bool) (cs : List Char) :
    Option (List Char × List Char) :=
  let (group, rest) := cs.span fun c => isDigit radix c || c == '_'
  let digits := group.filter (· != '_')
  if group.head? == some '_' || !wellGrouped group then none
  else if !leadingZeros && digits.head? == some '0' && 1 < digits.length then none
  else some (digits, rest)

def readSigned? (leadingZeros : Bool) (cs : List Char) : Option (Bool × List Char × List Char) := do
  let (negative, cs) := Decimal.readSign cs
  let (digits, rest) ← readDigits? 10 leadingZeros cs
  some (negative, digits, rest)

def valueOf (radix : Nat) (digits : List Char) : Nat :=
  digits.foldl (fun n c => radix * n + (digit? radix c).getD 0) 0

def fits (n : Int) : Bool :=
  Int64.minValue.toInt ≤ n && n ≤ Int64.maxValue.toInt

def readInteger? (radix : Nat) (cs : List Char) : Option Int := do
  let (negative, digits, rest) ←
    if radix = 10 then readSigned? false cs
    else (readDigits? radix true cs).map fun (digits, rest) => (false, digits, rest)
  let value : Int := if negative then -(valueOf radix digits : Int) else valueOf radix digits
  if rest.isEmpty && fits value then some value else none

/-- A double, unless it is too large. -/
def finite? (d : Decimal) : Option Float :=
  let x := d.toFloat
  if x.isFinite then some x else none

end SensorBar.Toml.Number
