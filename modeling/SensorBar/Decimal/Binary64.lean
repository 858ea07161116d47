/-!
# Binary floating-point values

The exact value of a double-precision number, read off its 64 bits.
-/

namespace SensorBar

/-- A double: `finite negative m e` has the magnitude `m * 2 ^ e`, and zero keeps its sign. -/
inductive Binary64 where
  | nan
  | infinite (negative : Bool)
  | finite (negative : Bool) (mantissa : Nat) (exponent : Int)
  deriving DecidableEq

namespace Binary64

/-- Decodes a sign bit, eleven bits of biased exponent and fifty-two bits of fraction. -/
def ofBits (bits : UInt64) : Binary64 :=
  let n := bits.toNat
  let negative := n / Nat.pow 2 63 % 2 == 1
  let biased : Nat := n / Nat.pow 2 52 % Nat.pow 2 11
  let fraction : Nat := n % Nat.pow 2 52
  if biased = 2047 then
    if fraction = 0 then infinite negative else nan
  else if biased = 0 then finite negative fraction (-1074)
  else finite negative (Nat.pow 2 52 + fraction) (biased - 1075)

def ofFloat (x : Float) : Binary64 :=
  ofBits x.toBits

end Binary64

end SensorBar
