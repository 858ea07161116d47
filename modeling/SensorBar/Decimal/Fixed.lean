import SensorBar.Decimal.Binary64

/-!
# Decimals with a fixed number of places

Writes the exact value of a double, rounded once to a given number of places.  A tie goes to the
even neighbour, the sign of zero is kept, and there is never an exponent.
-/

namespace SensorBar.Decimal

/-- The integer nearest to `num / den`; a tie goes to the even one. -/
def roundHalfEven (num den : Nat) : Nat :=
  let q := num / den
  let r := num % den
  if 2 * r < den then q
  else if den < 2 * r then q + 1
  else if q % 2 = 0 then q else q + 1

/-- The value `m * 2 ^ e` in units of the last of `places` decimal places. -/
def scaled (places m : Nat) (e : Int) : Nat :=
  if 0 ≤ e then m * Nat.pow 2 e.toNat * Nat.pow 10 places
  else roundHalfEven (m * Nat.pow 10 places) (Nat.pow 2 (-e).toNat)

/-- The decimal digits of `n`, filled up with zeros on the left to at least `width` digits. -/
def padded (width n : Nat) : List Char :=
  let digits := Nat.toDigits 10 n
  List.replicate (width - digits.length) '0' ++ digits

/-- How many places are written, and the words for values that have no digits. -/
structure FixedFormat where
  places : Nat
  nan : String
  infinity : String

namespace FixedFormat

/-- The text of a count of units of the last place. -/
def magnitude (f : FixedFormat) (units : Nat) : List Char :=
  let unit := Nat.pow 10 f.places
  Nat.toDigits 10 (units / unit) ++ '.' :: padded f.places (units % unit)

def sign (negative : Bool) : List Char :=
  if negative then ['-'] else []

def writeExact (f : FixedFormat) : Binary64 → List Char
  | .nan => f.nan.toList
  | .infinite negative => sign negative ++ f.infinity.toList
  | .finite negative m e => sign negative ++ f.magnitude (scaled f.places m e)

def write (f : FixedFormat) (x : Float) : String :=
  String.ofList (f.writeExact (.ofFloat x))

end FixedFormat

end SensorBar.Decimal
