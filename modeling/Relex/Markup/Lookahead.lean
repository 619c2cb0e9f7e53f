import Relex.Text.Search
import Relex.Unicode.CharClass

/-! # Looking ahead in markup

What the rules of the markup grammar ask about the text in front of them: what begins there, and how
far it reaches. Reaches count characters.
-/

namespace Relex.Markup

open Text Unicode

/-! ## What begins here -/

/-- The fence before and behind the frontmatter. -/
def fence : List Char :=
  ['-', '-', '-']

/-- Whether the name of a tag can begin here, or the tag ends without one. Names begin with a
    letter of ASCII, even though they can go on with letters of any script. -/
def opensName (cs : List Char) : Bool :=
  headIs (fun c => c.isAlpha || c == '>') cs

def opensStartTag (cs : List Char) : Bool :=
  begins ['<'] cs && opensName (cs.drop 1)

def opensEndTag (cs : List Char) : Bool :=
  begins ['<', '/'] cs && opensName (cs.drop 2)

/-- Whether the end tag of a raw text element begins here. Its name may differ in case, and it
    must end with the text, before white space, or before a sign that ends the tag. -/
def endsRawText (name : String) (cs : List Char) : Bool :=
  let afterName := cs.drop (2 + name.toList.length)
  begins ['<', '/'] cs &&
    equalIgnoringCase name.toList ((cs.drop 2).take name.toList.length) &&
    (afterName.isEmpty || headIs (fun c => c == '>' || c == '/' || isMarkupSpace c) afterName)

/-- Whether an attribute value without quotes ends here: at white space or at the end of the tag. -/
def endsBareValue (cs : List Char) : Bool :=
  headIs (fun c => isWhiteSpace c || c == '>') cs || begins ['/', '>'] cs

/-- Whether a line of a comment ends here: at a line break or at the end of the comment. -/
def endsCommentLine (cs : List Char) : Bool :=
  begins ['\n'] cs || begins ['-', '-', '>'] cs

/-! ## How far it reaches -/

/-- White space up to and including the first line break. -/
def lineSpaceLength : List Char → Nat
  | [] => 0
  | c :: cs =>
    if !isWhiteSpace c then 0
    else if c = '\n' then 1
    else lineSpaceLength cs + 1

/-- What belongs to the white space `c` behind it: the white space on the same line, with the line
    break. -/
def lineSpaceRest (c : Char) (cs : List Char) : Nat :=
  if c = '\n' then 0 else lineSpaceLength cs

/-- Everything up to and including the first closing angle bracket, or all there is. -/
def declarationRest (cs : List Char) : Nat :=
  ((seek? (begins ['>']) cs).map (· + 1)).getD cs.length

/-- What belongs to the script that begins with `c`: all lines up to one that begins with the
    fence, or all there is. -/
def frontmatterRest (c : Char) (cs : List Char) : Nat :=
  -- The line break before the fence is the last character of the script.
  (seek? (begins ('\n' :: fence)) (c :: cs)).getD cs.length

end Relex.Markup
