import Mathlib.Data.List.Chain
import Relex.Script.Lexeme
import Relex.Text.Offset

/-! # Written script

Script as it is written: one lexeme after the other, with a space between two of them, or a line break
behind a comment to the end of the line. A written lexeme carries the proofs that its characters are
such as its kind asks for. Nothing is said about how far a lexer would look ahead.
-/

namespace Relex.Script

open Text Unicode

/-! ## Names and numerals -/

structure Name where
  first : Char
  more : List Char
  first_startsName : startsName first = true
  more_continuesName : more.all continuesName = true

namespace Name

def chars (name : Name) : List Char := name.first :: name.more

def text (name : Name) : String := String.ofList name.chars

end Name

/-- The exponent of a numeral, with or without a sign. -/
structure Exponent where
  letter : Char
  signs : List Char
  first : Char
  more : List Char
  letter_eq : letter = 'e' ∨ letter = 'E'
  signs_eq : signs = [] ∨ signs = ['+'] ∨ signs = ['-']
  first_isDigit : first.isDigit = true
  more_isDigit : more.all Char.isDigit = true

def Exponent.chars (exponent : Exponent) : List Char :=
  exponent.letter :: (exponent.signs ++ exponent.first :: exponent.more)

inductive Numeral where
  | decimal (first : Char) (more : List Char) (fraction : Option (List Char))
      (exponent : Option Exponent) (hfirst : first.isDigit = true)
      (hmore : more.all Char.isDigit = true)
      (hfraction : ∀ digits ∈ fraction, digits.all Char.isDigit = true)
  | hexadecimal (digits : List Char) (hdigits : digits.all isHexDigit = true)

def Numeral.chars : Numeral → List Char
  | decimal first more fraction exponent .. =>
    first :: (more ++ fraction.elim [] ('.' :: ·) ++ exponent.elim [] Exponent.chars)
  | hexadecimal digits _ => '0' :: 'x' :: digits

/-! ## Strings and templates -/

/-- A piece of the text between two quotes. -/
inductive StringPiece (quote : Char) where
  | escape (c : Char)
  | plain (c : Char) (hquote : c ≠ quote) (hbackslash : c ≠ '\\') (hline : isLineBreak c = false)

def StringPiece.chars {quote : Char} : StringPiece quote → List Char
  | escape c => ['\\', c]
  | plain c .. => [c]

/-- A text without its escapes, unless a backslash is left at its end with nothing to escape. -/
def withoutEscapes : List Char → Option (List Char)
  | [] => some []
  | ['\\'] => none
  | '\\' :: _ :: cs => withoutEscapes cs
  | c :: cs => (withoutEscapes cs).map (c :: ·)

/-- No brace is closed before it is opened, and none is left open. -/
def BraceBalanced (text : List Char) : Prop :=
  (∀ front ∈ text.inits, front.count '}' ≤ front.count '{') ∧ text.count '}' = text.count '{'

instance (text : List Char) : Decidable (BraceBalanced text) :=
  inferInstanceAs (Decidable (_ ∧ _))

/-- A piece of the text between two backticks. -/
inductive TemplatePiece where
  | escape (c : Char)
  | plain (c : Char) (hquote : c ≠ '\x60') (hbackslash : c ≠ '\\')
  | substitution (script bare : List Char) (hbare : withoutEscapes script = some bare)
      (hbalanced : BraceBalanced bare)

def TemplatePiece.chars : TemplatePiece → List Char
  | escape c => ['\\', c]
  | plain c .. => [c]
  | substitution script .. => '$' :: '{' :: (script ++ ['}'])

/-! ## Lexemes -/

/-- The signs that are lexemes by themselves. -/
inductive Mark where
  | lParen | rParen | lBracket | rBracket | lBrace | rBrace | semicolon | comma | dot | equals

namespace Mark

def char : Mark → Char
  | lParen => '('
  | rParen => ')'
  | lBracket => '['
  | rBracket => ']'
  | lBrace => '{'
  | rBrace => '}'
  | semicolon => ';'
  | comma => ','
  | dot => '.'
  | equals => '='

def kind : Mark → ScriptKind
  | lParen => .lParen
  | rParen => .rParen
  | lBracket => .lBracket
  | rBracket => .rBracket
  | lBrace => .lBrace
  | rBrace => .rBrace
  | semicolon => .semicolon
  | comma => .comma
  | dot => .dot
  | equals => .eq

end Mark

/-- A lexeme as it is written. -/
inductive Written where
  | identifier (name : Name) (hname : name.text ∉ keywords)
  | keyword (word : String) (hword : word ∈ keywords)
  | number (numeral : Numeral)
  | string (quote : Char) (pieces : List (StringPiece quote)) (hquote : quote = '\x22' ∨ quote = '\x27')
  /-- No plain dollar sign stands in front of a plain brace, which would be a substitution. -/
  | template (pieces : List TemplatePiece)
      (hdollar : pieces.IsChain fun piece next =>
        piece.chars = ['$'] → next.chars.head? ≠ some '{')
  /-- The first sign that closes the comment ends it. -/
  | blockComment (body : List Char) (hend : ∀ before behind,
      body ++ ['*', '/'] = before ++ ['*', '/'] ++ behind → behind = [])
  | lineComment (body : List Char) (hline : ∀ c ∈ body, isLineBreak c = false)
  | spread
  | mark (sign : Mark)
  /-- The signs are not those of a comment, and an equals sign alone is a mark. -/
  | operator (first : Char) (more : List Char) (hsigns : (first :: more).all isOperatorSign = true)
      (hcomment : first = '/' → more.head? ≠ some '/' ∧ more.head? ≠ some '*')
      (hequals : first = '=' → more.head? = some '=' ∨ more.head? = some '>')

namespace Written

def chars : Written → List Char
  | .identifier name _ => name.chars
  | .keyword word _ => word.toList
  | .number numeral => numeral.chars
  | .string quote pieces _ => quote :: (pieces.flatMap StringPiece.chars ++ [quote])
  | .template pieces _ => '\x60' :: (pieces.flatMap TemplatePiece.chars ++ ['\x60'])
  | .blockComment body _ => '/' :: '*' :: (body ++ ['*', '/'])
  | .lineComment body _ => '/' :: '/' :: body
  | .spread => ['.', '.', '.']
  | .mark sign => [sign.char]
  | .operator first more .. => first :: more

def kind : Written → ScriptKind
  | .identifier .. => .identifier
  | .keyword .. => .keyword
  | .number .. => .number
  | .string .. => .string
  | .template .. => .templateString
  | .blockComment .. => .blockComment
  | .lineComment .. => .lineComment
  | .spread => .operator
  | .mark sign => sign.kind
  | .operator .. => .operator

/-- What stands behind a lexeme in front of the next one. -/
def separator : Written → Char
  | .lineComment .. => '\n'
  | _ => ' '

/-- The kinds and texts of lexemes, with those of what separates them. -/
def withSeparators : List Written → List (ScriptKind × List Char)
  | [] => []
  | [w] => [(w.kind, w.chars)]
  | w :: v :: ws => (w.kind, w.chars) :: (.whiteSpace, [w.separator]) :: withSeparators (v :: ws)

/-- The text of lexemes. -/
def print (ws : List Written) : List Char := (withSeparators ws).flatMap Prod.snd

def source (ws : List Written) : String := String.ofList (print ws)

end Written

/-- The tokens of texts that stand one behind the other, from an offset on. -/
def tokensFrom (offset : Nat) : List (ScriptKind × List Char) → List Token
  | [] => []
  | (kind, text) :: more =>
    ⟨.script kind, offset, offset + byteLength text⟩ :: tokensFrom (offset + byteLength text) more

end Relex.Script
