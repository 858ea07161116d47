import SensorBar.Text.Combining
import SensorBar.Text.Ignorable
import SensorBar.Text.Unprintable

/-!
# Quoted text

Text between double quotes in which every character can be told apart: quotes, backslashes and
control characters are escaped, and so is whatever would not show on its own.
-/

namespace SensorBar.Text

/-- Whether a character cannot be seen, or cannot be told from the character before it. -/
def isHidden (c : Char) : Bool :=
  isUnprintable c || isCombining c || isIgnorable c

/-- A code point in braces, in hexadecimal without leading zeros. -/
def escapeCodePoint (c : Char) : List Char :=
  ['\\', 'u', '\x7b'] ++ Nat.toDigits 16 c.toNat ++ ['\x7d']

def escape (c : Char) : List Char :=
  if c = '"' then ['\\', '"']
  else if c = '\\' then ['\\', '\\']
  else if c = '\t' then ['\\', 't']
  else if c = '\n' then ['\\', 'n']
  else if c = '\r' then ['\\', 'r']
  else if c = '\x00' then ['\\', '0']
  else if isHidden c then escapeCodePoint c
  else [c]

def quote (cs : List Char) : List Char :=
  '"' :: cs.flatMap escape ++ ['"']

end SensorBar.Text
