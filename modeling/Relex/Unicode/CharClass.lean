import Relex.Unicode.Alphabetic
import Relex.Unicode.Numeric
import Relex.Unicode.Uppercase
import Relex.Unicode.WhiteSpace
import Relex.Unicode.GraphemeExtend
import Relex.Unicode.Unprintable

/-! # Character classes

The classes by which lexers tell characters apart, over all of Unicode and not ASCII alone.
-/

namespace Relex.Unicode

/-- Blanks and line breaks of every kind. -/
def isWhiteSpace (c : Char) : Bool :=
  whiteSpaceRanges.covers c.toNat

/-- Letters, and what counts as a letter. -/
def isAlphabetic (c : Char) : Bool :=
  alphabeticRanges.covers c.toNat

/-- Letters and numbers. -/
def isAlphanumeric (c : Char) : Bool :=
  isAlphabetic c || numericRanges.covers c.toNat

/-- Capital letters. -/
def isUppercase (c : Char) : Bool :=
  uppercaseRanges.covers c.toNat

/-- The control characters: U+0000 to U+001F and U+007F to U+009F. -/
def isControl (c : Char) : Bool :=
  c.toNat < 0x20 || (0x7F ≤ c.toNat && c.toNat < 0xA0)

/-- Marks that attach to the character before them. -/
def extendsGrapheme (c : Char) : Bool :=
  graphemeExtendRanges.covers c.toNat

/-- Characters that show a glyph, and the ordinary space. -/
def isPrintable (c : Char) : Bool :=
  !unprintableRanges.covers c.toNat

/-- Digits of hexadecimal numerals in either case. -/
def isHexDigit (c : Char) : Bool :=
  c.isDigit || ('a' ≤ c && c ≤ 'f') || ('A' ≤ c && c ≤ 'F')

/-- The white space of ASCII that markup recognises: space, tab, line feed, form feed and carriage
    return. -/
def isMarkupSpace (c : Char) : Bool :=
  c == ' ' || c == '\t' || c == '\n' || c == '\x0C' || c == '\r'

end Relex.Unicode
