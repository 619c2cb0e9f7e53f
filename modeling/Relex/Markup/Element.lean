import Relex.Text.Search
import Relex.Unicode.CharClass

/-! # Element names

What the name of an element says about it: whether it is a component, whether it has content at all,
and whether its content is read as markup.
-/

namespace Relex.Markup

open Text Unicode

/-- Elements whose content is raw text. -/
def rawTextElements : List String :=
  ["script", "style"]

/-- Elements without content. -/
def voidElements : List String :=
  ["area", "base", "br", "col", "embed", "hr", "img", "input", "link", "meta", "param", "source",
   "track", "wbr"]

/-- Whether a name denotes a component: it begins with a capital letter. -/
def isComponentName (name : String) : Bool :=
  headIs isUppercase name.toList

/-- Whether an end tag closes an open element. The names must agree; those of raw text elements may
    differ in case. -/
def endTagMatches (openName endName : String) : Bool :=
  openName == endName ||
    (rawTextElements.contains openName && equalIgnoringCase openName.toList endName.toList)

/-- What a tag name is made of. -/
def inTagName (c : Char) : Bool :=
  isAlphanumeric c || c == '-' || c == '_' || c == '.' || c == ':'

/-- What an attribute name is made of. -/
def inAttributeName (c : Char) : Bool :=
  !isWhiteSpace c &&
    !(c == '=' || c == '>' || c == '/' || c == '{' || c == '}' || c == '\x22' || c == '\x27' ||
      c == '<')

end Relex.Markup
