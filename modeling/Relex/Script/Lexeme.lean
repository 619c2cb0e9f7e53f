import Relex.Text.Search
import Relex.Token.Basic
import Relex.Unicode.CharClass

/-! # Lexemes of the script grammar

The script grammar is that of frontmatter and of expressions. Its lexemes can be told apart from the
left, one at a time and without memory: `Lexeme.front` looks at the first character and at what
follows it. It answers how many characters of what follows belong to the lexeme, so none is empty.
-/

namespace Relex.Script

open Text Unicode

/-- The reserved names. -/
def keywords : List String :=
  ["as", "async", "await", "break", "case", "catch", "class", "const", "continue", "default",
   "delete", "do", "else", "export", "extends", "false", "finally", "for", "from", "function",
   "if", "import", "in", "instanceof", "interface", "let", "new", "null", "of", "return", "switch",
   "this", "throw", "true", "try", "type", "typeof", "undefined", "var", "void", "while", "yield"]

/-- The signs of which operators are made. -/
def operatorSigns : List Char :=
  ['+', '-', '*', '/', '%', '<', '>', '!', '&', '|', '^', '~', '?', ':', '=', '@', '#']

def isOperatorSign (c : Char) : Bool :=
  operatorSigns.contains c

/-- What a name can begin with. -/
def startsName (c : Char) : Bool :=
  isAlphabetic c || c == '_' || c == '$'

/-- What a name can go on with. -/
def continuesName (c : Char) : Bool :=
  isAlphanumeric c || c == '_' || c == '$'

/-- The ends of a line. -/
def isLineBreak (c : Char) : Bool :=
  c == '\n' || c == '\r'

/-- What follows the opening quote of a string and belongs to it: everything up to and including
    the closing quote, or up to the end of the line if the string is left open. A backslash takes
    the next character with it, whatever that is. -/
def stringRest (quote : Char) : List Char → Nat
  | [] => 0
  | ['\\'] => 1
  | '\\' :: _ :: cs => stringRest quote cs + 2
  | c :: cs =>
    if isLineBreak c then 0
    else if c = quote then 1
    else stringRest quote cs + 1

/-- What belongs to a template behind its opening backtick, inside as many open braces as `depth`. A
    backslash takes the next character with it. Outside braces a dollar sign with a brace opens a
    substitution and a backtick ends the template; inside, only braces count. -/
def templateRest : (depth : Nat) → List Char → Nat
  | _, [] => 0
  | _, ['\\'] => 1
  | depth, '\\' :: _ :: cs => templateRest depth cs + 2
  | 0, '$' :: '{' :: cs => templateRest 1 cs + 2
  | 0, c :: cs => if c = '\x60' then 1 else templateRest 0 cs + 1
  | depth + 1, c :: cs =>
    if c = '{' then templateRest (depth + 2) cs + 1
    else if c = '}' then templateRest depth cs + 1
    else templateRest (depth + 1) cs + 1

/-- An exponent: its letter, perhaps a sign, and at least one digit. -/
def exponentLength (cs : List Char) : Nat :=
  if headIs (fun c => c == 'e' || c == 'E') cs then
    let sign := if headIs (fun c => c == '+' || c == '-') (cs.drop 1) then 1 else 0
    let digits := runLength Char.isDigit (cs.drop (1 + sign))
    if digits = 0 then 0 else 1 + sign + digits
  else
    0

/-- What belongs to a numeral behind its first character. A hexadecimal numeral runs over its
    digits and underscores; any other over digits, underscores and dots, and then over an
    exponent. -/
def numberRest (first : Char) (cs : List Char) : Nat :=
  if first = '0' && headIs (fun c => c == 'x' || c == 'X') cs then
    1 + runLength (fun c => isHexDigit c || c == '_') (cs.drop 1)
  else
    let body := runLength (fun c => c.isDigit || c == '_' || c == '.') cs
    body + exponentLength (cs.drop body)

/-- What belongs to a block comment behind its opening `/*`: everything up to and including the
    first `*/`, or all the rest. -/
def blockCommentRest (cs : List Char) : Nat :=
  match seek? (begins ['*', '/']) cs with
  | some before => before + 2
  | none => cs.length

/-- The kind of a name: reserved or not. -/
def nameKind (name : List Char) : ScriptKind :=
  if keywords.contains (String.ofList name) then .keyword else .identifier

/-- The bracket and separator signs that are lexemes by themselves. -/
def delimiter? : Char → Option ScriptKind
  | '(' => some .lParen
  | ')' => some .rParen
  | '[' => some .lBracket
  | ']' => some .rBracket
  | '{' => some .lBrace
  | '}' => some .rBrace
  | ';' => some .semicolon
  | ',' => some .comma
  | _ => none

/-- A lexeme at the front of a text: its kind, and how many characters belong to it besides the
    first. -/
structure Lexeme where
  kind : ScriptKind
  more : Nat
  deriving Repr, DecidableEq

/-- The lexeme that begins with `c`, when `cs` follows. The first rule that fits decides. -/
def Lexeme.front (c : Char) (cs : List Char) : Lexeme :=
  if isWhiteSpace c then
    ⟨.whiteSpace, runLength isWhiteSpace cs⟩
  -- Comments come before operators, which would begin with the same sign.
  else if c = '/' && begins ['/'] cs then
    ⟨.lineComment, runLength (fun d => !isLineBreak d) cs⟩
  else if c = '/' && begins ['*'] cs then
    ⟨.blockComment, 1 + blockCommentRest (cs.drop 1)⟩
  else if c = '\x22' || c = '\x27' then
    ⟨.string, stringRest c cs⟩
  else if c = '\x60' then
    ⟨.templateString, templateRest 0 cs⟩
  else if c.isDigit || (c = '.' && headIs Char.isDigit cs) then
    ⟨.number, numberRest c cs⟩
  else if startsName c then
    let more := runLength continuesName cs
    ⟨nameKind (c :: cs.take more), more⟩
  else if c = '.' then
    if begins ['.', '.'] cs then ⟨.operator, 2⟩ else ⟨.dot, 0⟩
  -- An equals sign assigns unless a comparison or an arrow begins with it.
  else if c = '=' && !headIs (fun d => d == '=' || d == '>') cs then
    ⟨.eq, 0⟩
  else if isOperatorSign c then
    ⟨.operator, runLength isOperatorSign cs⟩
  else
    ⟨(delimiter? c).getD .badCharacter, 0⟩

end Relex.Script
