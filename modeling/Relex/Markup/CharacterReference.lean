import Relex.Text.Search
import Relex.Unicode.CharClass

/-! # Character references

A reference to a character stands between an ampersand and a semicolon: a name such as `amp`, a
decimal number behind `#`, or a hexadecimal number behind `#x`.
-/

namespace Relex.Markup

open Text Unicode

/-- A run of at least one character of a class, and a semicolon: how long both are together. -/
def terminatedRun? (p : Char → Bool) (cs : List Char) : Option Nat :=
  let run := runLength p cs
  if run != 0 && begins [';'] (cs.drop run) then some (run + 1) else none

/-- How many characters behind an ampersand belong to a reference, if there is one. -/
def characterReference? (cs : List Char) : Option Nat :=
  if begins ['#', 'x'] cs || begins ['#', 'X'] cs then
    (terminatedRun? isHexDigit (cs.drop 2)).map (· + 2)
  else if begins ['#'] cs then
    (terminatedRun? Char.isDigit (cs.drop 1)).map (· + 1)
  else if headIs Char.isAlpha cs then
    terminatedRun? Char.isAlphanum cs
  else
    none

end Relex.Markup
