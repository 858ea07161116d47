import SensorBar.Text.Ranges

/-!
# Blanks

The characters with the Unicode property `White_Space`, and the words of a text between them.
-/

namespace SensorBar.Text

def isBlank (c : Char) : Bool :=
  inRanges
    [
    (0x0009, 0x000D), (0x0020, 0x0020), (0x0085, 0x0085), (0x00A0, 0x00A0), (0x1680, 0x1680),
    (0x2000, 0x200A), (0x2028, 0x2029), (0x202F, 0x202F), (0x205F, 0x205F), (0x3000, 0x3000)
    ] c

/-- A text without the blanks at both of its ends. -/
def trim (cs : List Char) : List Char :=
  ((cs.dropWhile isBlank).reverse.dropWhile isBlank).reverse

/-- The longest pieces of a text that hold no blank, in order. -/
def words (cs : List Char) : List (List Char) :=
  (cs.splitOnP isBlank).filter fun w => !w.isEmpty

end SensorBar.Text
