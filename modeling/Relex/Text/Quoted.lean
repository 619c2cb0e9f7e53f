import Relex.Unicode.CharClass

/-! # Quoted literals

A text can be shown on one line, whatever it holds, as a literal between double quotes. Quotes and
backslashes are escaped by a backslash, the common controls by a letter, and every character that
has no glyph of its own, or would attach to its neighbour, by its code point in hexadecimal.
-/

namespace Relex.Text

/-- The hexadecimal escape of a character: its code point without leading zeros, in lower case. -/
def hexEscape (c : Char) : List Char :=
  ['\\', 'u', '{'] ++ Nat.toDigits 16 c.toNat ++ ['}']

/-- How a character is written inside a quoted literal. -/
def escape (c : Char) : List Char :=
  if c = '\x00' then ['\\', '0']
  else if c = '\t' then ['\\', 't']
  else if c = '\n' then ['\\', 'n']
  else if c = '\r' then ['\\', 'r']
  else if c = '\x22' then ['\\', '\x22']
  else if c = '\\' then ['\\', '\\']
  else if Unicode.extendsGrapheme c || !Unicode.isPrintable c then hexEscape c
  else [c]

/-- A text as a literal between double quotes. -/
def quoted (cs : List Char) : List Char :=
  '\x22' :: cs.flatMap escape ++ ['\x22']

end Relex.Text
