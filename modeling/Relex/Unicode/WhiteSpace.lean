import Relex.Unicode.CodeRange

/-! # White space

Blanks and line breaks. The zero-width space and the byte order mark are not among them.
-/

namespace Relex.Unicode

/-- The code points with the property White_Space. -/
def whiteSpaceRanges : CodeRanges where
  ranges :=
    [(0x9, 0xD), (0x20, 0x20), (0x85, 0x85), (0xA0, 0xA0), (0x1680, 0x1680), (0x2000, 0x200A),
     (0x2028, 0x2029), (0x202F, 0x202F), (0x205F, 0x205F), (0x3000, 0x3000)]

end Relex.Unicode
