/-!
# Character classes as ranges

A class of characters given by the ranges of its code points.
-/

namespace SensorBar.Text

/-- Whether a character lies in one of several ranges of code points, ends included. -/
def inRanges (ranges : List (Nat × Nat)) (c : Char) : Bool :=
  ranges.any fun (first, last) => first ≤ c.toNat && c.toNat ≤ last

end SensorBar.Text
