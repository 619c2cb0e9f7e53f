import Relex.Markup.CharacterReference
import Relex.Markup.Lookahead
import Relex.Markup.Nesting
import Relex.Script.Lexeme

/-! # The rules of the markup grammar

Markup is read one token at a time, by a rule for each state. A rule looks at the first character
and at what follows it, and answers a `Transition`: the kind of the token, how many characters of
what follows belong to it, the state behind it, and the change that it makes to the nesting. No
token is empty.
-/

namespace Relex.Markup

open Text Unicode

/-- A token, and what moving past it does. -/
structure Transition where
  kind : Kind
  /-- How many characters belong to the token besides the first. -/
  more : Nat
  /-- The state behind the token. Content stands for whatever is read outside tags there. -/
  next : State
  change : Change := .keep

/-- All that the grammar remembers between two tokens. -/
structure Context where
  state : State
  nesting : Nesting
  deriving DecidableEq

namespace Rule

variable (nesting : Nesting) (c : Char) (cs : List Char)

/-- Text and tags. -/
def content : Transition :=
  -- Signs of markup come first: the text rules at the end would take their first characters.
  if begins ['<', '!', '-', '-'] (c :: cs) then
    { kind := .commentStart, more := 3, next := .comment }
  else if begins ['<', '!'] (c :: cs) then
    { kind := .doctype, more := declarationRest cs, next := .content }
  else if opensEndTag (c :: cs) then
    { kind := .endTagStart, more := 1, next := .endTagName }
  else if opensStartTag (c :: cs) then
    { kind := .tagStart, more := 0, next := .startTagName }
  else if c = '{' then
    { kind := .expressionStart, more := 0, next := .expression
      change := .openExpression (nesting.opening .content) }
  else if c = '&' then
    match characterReference? cs with
    | some more => { kind := .charEntityRef, more := more, next := .content }
    | none => { kind := .dataCharacters, more := 0, next := .content }
  else if isWhiteSpace c then
    { kind := .whiteSpace, more := lineSpaceRest c cs, next := .content }
  else if isControl c then
    { kind := .badCharacter, more := 0, next := .content }
  else if isAlphanumeric c then
    { kind := .dataCharacters, more := runLength isAlphanumeric cs, next := .content }
  else
    { kind := .dataCharacters, more := 0, next := .content }

/-- White space and the fence before the frontmatter. Anything else is content. -/
def initial : Transition :=
  if isWhiteSpace c then
    { kind := .whiteSpace, more := lineSpaceRest c cs, next := .initial }
  else if begins fence (c :: cs) then
    { kind := .frontmatterSeparator, more := 2, next := .frontmatter }
  else
    content nesting c cs

/-- The script of the frontmatter as one token. -/
def frontmatter : Transition where
  kind := .frontmatterScript
  more := frontmatterRest c cs
  next := .frontmatterClose

/-- The fence behind the frontmatter. -/
def frontmatterClose : Transition :=
  if begins fence (c :: cs) then
    { kind := .frontmatterSeparator, more := 2, next := .content }
  else
    content nesting c cs

/-- The end of a start tag. An element that can have no content is left at once, and the content
    of a raw text element is read as such. -/
def startTagEnd : Transition :=
  match nesting.innermost? with
  | some name =>
    if voidElements.contains name then
      { kind := .tagEnd, more := 0, next := .content, change := .leaveElement }
    else if rawTextElements.contains name then
      { kind := .tagEnd, more := 0, next := .rawText }
    else
      { kind := .tagEnd, more := 0, next := .content }
  | none => { kind := .tagEnd, more := 0, next := .content }

/-- Attributes, and the end of the start tag. -/
def attributes : Transition :=
  if isWhiteSpace c then
    { kind := .whiteSpace, more := lineSpaceRest c cs, next := .attributes }
  else if c = '>' then
    startTagEnd nesting
  else if c = '/' && begins ['>'] cs then
    { kind := .emptyElementEnd, more := 1, next := .content, change := .leaveElement }
  else if c = '{' then
    { kind := .expressionStart, more := 0, next := .expression
      change := .openExpression (nesting.opening .attributes) }
  else if c = '=' then
    { kind := .equals, more := 0, next := .valueStart }
  else if inAttributeName c then
    { kind := .attributeName, more := runLength inAttributeName cs, next := .attributes }
  else
    { kind := .tagCharacters, more := 0, next := .attributes }

/-- The value of an attribute: in quotes, in braces or bare. -/
def valueStart : Transition :=
  if isWhiteSpace c then
    { kind := .whiteSpace, more := lineSpaceRest c cs, next := .valueStart }
  else if c = '\x22' then
    { kind := .attributeValueStartDelimiter, more := 0, next := .doubleQuotedValue }
  else if c = '\x27' then
    { kind := .attributeValueStartDelimiter, more := 0, next := .singleQuotedValue }
  else if c = '{' then
    { kind := .expressionStart, more := 0, next := .expression
      change := .openExpression (nesting.opening .attributes) }
  else if endsBareValue (c :: cs) then
    attributes nesting c cs
  else
    { kind := .attributeValue, more := seek endsBareValue cs, next := .attributes }

/-- The text between quotes, word by word, in the state that stands for these quotes. -/
def quotedValue (quote : Char) (state : State) : Transition :=
  if c = quote then
    { kind := .attributeValueEndDelimiter, more := 0, next := .attributes }
  else if c = '&' then
    match characterReference? cs with
    | some more => { kind := .charEntityRef, more := more, next := state }
    | none => { kind := .attributeValue, more := 0, next := state }
  else if isWhiteSpace c then
    { kind := .attributeValue, more := lineSpaceRest c cs, next := state }
  else
    { kind := .attributeValue
      more := runLength (fun d => d != quote && d != '&' && !isWhiteSpace d) cs
      next := state }

/-- An end tag behind its name. -/
def endTagBody : Transition :=
  if isWhiteSpace c then
    { kind := .whiteSpace, more := lineSpaceRest c cs, next := .endTagBody }
  else if c = '>' then
    { kind := .tagEnd, more := 0, next := .content }
  else
    { kind := .tagCharacters, more := 0, next := .endTagBody }

/-- The kind of the name of a tag. -/
def tagNameKind (name : String) : Kind :=
  if isComponentName name then .componentName else .tagName

/-- The name of a start tag. A tag without a name opens an element whose name is empty. -/
def startTagName : Transition :=
  if c = '>' then
    { kind := .tagEnd, more := 0, next := .content, change := .openElement "" }
  else if inTagName c then
    let more := runLength inTagName cs
    let name := String.ofList (c :: cs.take more)
    { kind := tagNameKind name, more := more, next := .attributes, change := .openElement name }
  else
    attributes nesting c cs

/-- The name of an end tag. -/
def endTagName : Transition :=
  if c = '>' then
    { kind := .tagEnd, more := 0, next := .content, change := .closeElement "" }
  else if inTagName c then
    let more := runLength inTagName cs
    let name := String.ofList (c :: cs.take more)
    { kind := tagNameKind name, more := more, next := .endTagBody, change := .closeElement name }
  else
    endTagBody c cs

/-- A comment, line by line. -/
def comment : Transition :=
  if begins ['-', '-', '>'] (c :: cs) then
    { kind := .commentEnd, more := 2, next := .content }
  else if c = '\n' then
    { kind := .commentCharacters, more := 0, next := .comment }
  else
    { kind := .commentCharacters, more := seek endsCommentLine cs, next := .comment }

/-- Raw text, up to the end tag of the innermost element; without one it runs to the end. -/
def rawText : Transition :=
  match nesting.elements.top?.bind fun name => seek? (endsRawText name) (c :: cs) with
  | some 0 => { kind := .endTagStart, more := 1, next := .endTagName }
  | some (before + 1) => { kind := .rawText, more := before, next := .rawText }
  | none => { kind := .rawText, more := cs.length, next := .rawText }

/-- Script between braces, with tags in it. Braces inside it are part of the script, which ends
    with the brace that closes the one before it. -/
def expression : Transition :=
  if c = '{' then
    { kind := .script .lBrace, more := 0, next := .expression
      change := .openExpression (nesting.opening .expression) }
  else if c = '}' then
    match nesting.expressions.top? with
    | none => { kind := .badCharacter, more := 0, next := .expression }
    | some opening =>
      if opening.stateBehind = .expression then
        { kind := .script .rBrace, more := 0, next := .expression, change := .closeExpression }
      else
        { kind := .expressionEnd, more := 0, next := opening.stateBehind
          change := .closeExpression }
  else if opensEndTag (c :: cs) then
    { kind := .endTagStart, more := 1, next := .endTagName }
  else if opensStartTag (c :: cs) then
    { kind := .tagStart, more := 0, next := .startTagName }
  else
    let lexeme := Script.Lexeme.front c cs
    { kind := .script lexeme.kind, more := lexeme.more, next := .expression }

end Rule

namespace Context

/-- The token that begins with `c`, when `cs` follows. In a state that is not listed it is read as
    content. -/
def transition (context : Context) (c : Char) (cs : List Char) : Transition :=
  match context.state with
  | .initial => Rule.initial context.nesting c cs
  | .content => Rule.content context.nesting c cs
  | .startTagName => Rule.startTagName context.nesting c cs
  | .endTagName => Rule.endTagName c cs
  | .attributes => Rule.attributes context.nesting c cs
  | .valueStart => Rule.valueStart context.nesting c cs
  | .doubleQuotedValue => Rule.quotedValue c cs '\x22' .doubleQuotedValue
  | .singleQuotedValue => Rule.quotedValue c cs '\x27' .singleQuotedValue
  | .endTagBody => Rule.endTagBody c cs
  | .comment => Rule.comment c cs
  | .rawText => Rule.rawText context.nesting c cs
  | .expression => Rule.expression context.nesting c cs
  | .frontmatter => Rule.frontmatter c cs
  | .frontmatterClose => Rule.frontmatterClose context.nesting c cs
  | .unlisted _ _ => Rule.content context.nesting c cs

/-- The context behind a token. -/
def after (form : Form) (context : Context) (transition : Transition) : Context :=
  let nesting := context.nesting.apply transition.change
  { state := if transition.next = .content then nesting.ambientState form else transition.next
    nesting := nesting }

end Context

end Relex.Markup
