/-! # Token kinds

A token is classified by a `Kind`. Markup has its own kinds; a token of embedded script carries the
kind of the script grammar, a `ScriptKind`. A kind is shown by its name, from which it can be found
again (`ofName?_name`).
-/

namespace Relex

/-- The classes of tokens of the script grammar. -/
inductive ScriptKind where
  | whiteSpace | lineComment | blockComment
  | identifier | keyword | number | string | templateString
  | lParen | rParen | lBracket | rBracket | lBrace | rBrace
  | semicolon | comma | dot | eq | operator
  | badCharacter
  deriving Repr, DecidableEq

/-- The classes of tokens. -/
inductive Kind where
  /-- The fence `---` at either end of the frontmatter. -/
  | frontmatterSeparator
  /-- All of the script between the fences, as one token. -/
  | frontmatterScript
  | tagStart | endTagStart | tagEnd | emptyElementEnd
  | tagName | componentName
  /-- Stray characters inside a tag. -/
  | tagCharacters
  | attributeName | equals
  | attributeValueStartDelimiter | attributeValue | attributeValueEndDelimiter
  /-- Text between tags. -/
  | dataCharacters
  | whiteSpace | charEntityRef
  /-- The content of a script or style element. -/
  | rawText
  | doctype
  | commentStart | commentCharacters | commentEnd
  | expressionStart | expressionEnd
  /-- A token of the script grammar. -/
  | script (kind : ScriptKind)
  /-- A control character in markup, or a closing brace that closes nothing. -/
  | badCharacter
  deriving Repr, DecidableEq

namespace ScriptKind

def name : ScriptKind → String
  | .whiteSpace => "WhiteSpace"
  | .lineComment => "LineComment"
  | .blockComment => "BlockComment"
  | .identifier => "Identifier"
  | .keyword => "Keyword"
  | .number => "Number"
  | .string => "String"
  | .templateString => "TemplateString"
  | .lParen => "LParen"
  | .rParen => "RParen"
  | .lBracket => "LBracket"
  | .rBracket => "RBracket"
  | .lBrace => "LBrace"
  | .rBrace => "RBrace"
  | .semicolon => "Semicolon"
  | .comma => "Comma"
  | .dot => "Dot"
  | .eq => "Eq"
  | .operator => "Operator"
  | .badCharacter => "BadCharacter"

/-- Every script kind once. -/
def all : List ScriptKind :=
  [.whiteSpace, .lineComment, .blockComment, .identifier, .keyword, .number, .string,
   .templateString, .lParen, .rParen, .lBracket, .rBracket, .lBrace, .rBrace, .semicolon, .comma,
   .dot, .eq, .operator, .badCharacter]

end ScriptKind

namespace Kind

/-- The name of a kind. That of a script token wraps the name of its script kind. -/
def name : Kind → String
  | .frontmatterSeparator => "FrontmatterSeparator"
  | .frontmatterScript => "FrontmatterScript"
  | .tagStart => "TagStart"
  | .endTagStart => "EndTagStart"
  | .tagEnd => "TagEnd"
  | .emptyElementEnd => "EmptyElementEnd"
  | .tagName => "TagName"
  | .componentName => "ComponentName"
  | .tagCharacters => "TagCharacters"
  | .attributeName => "AttributeName"
  | .equals => "Equals"
  | .attributeValueStartDelimiter => "AttributeValueStartDelimiter"
  | .attributeValue => "AttributeValue"
  | .attributeValueEndDelimiter => "AttributeValueEndDelimiter"
  | .dataCharacters => "DataCharacters"
  | .whiteSpace => "WhiteSpace"
  | .charEntityRef => "CharEntityRef"
  | .rawText => "RawText"
  | .doctype => "Doctype"
  | .commentStart => "CommentStart"
  | .commentCharacters => "CommentCharacters"
  | .commentEnd => "CommentEnd"
  | .expressionStart => "ExpressionStart"
  | .expressionEnd => "ExpressionEnd"
  | .script kind => "Script(" ++ kind.name ++ ")"
  | .badCharacter => "BadCharacter"

/-- Every kind once. -/
def all : List Kind :=
  [.frontmatterSeparator, .frontmatterScript, .tagStart, .endTagStart, .tagEnd, .emptyElementEnd,
   .tagName, .componentName, .tagCharacters, .attributeName, .equals,
   .attributeValueStartDelimiter, .attributeValue, .attributeValueEndDelimiter, .dataCharacters,
   .whiteSpace, .charEntityRef, .rawText, .doctype, .commentStart, .commentCharacters, .commentEnd,
   .expressionStart, .expressionEnd, .badCharacter] ++
    ScriptKind.all.map .script

/-- The kind of a given name. -/
def ofName? (name : String) : Option Kind :=
  all.find? fun kind => kind.name == name

/-- Kinds of which neighbouring tokens belong together, as pieces of one run of text. -/
def joinsNeighbours : Kind → Bool
  | .commentCharacters | .whiteSpace | .attributeValue | .dataCharacters | .tagCharacters
  | .script .templateString | .badCharacter => true
  | _ => false

/-- Pieces of an attribute value: its text, and references to characters. -/
def isValuePiece : Kind → Bool
  | .charEntityRef | .attributeValue => true
  | _ => false

/-- Kinds that stand for a whole region of another grammar, to be read by that grammar. -/
def opensEmbedment : Kind → Bool
  | .frontmatterScript => true
  | _ => false

theorem ofName?_name (kind : Kind) : ofName? kind.name = some kind := by
  cases kind with
  | script kind => cases kind <;> decide
  | _ => decide

end Kind

end Relex
