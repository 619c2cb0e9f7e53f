import Relex.Text.Offset
import Relex.Text.Quoted
import Relex.Token.Basic

/-! # Dumps of a token stream

Tokens are shown in two formats: as a listing with a line for each token, which holds its range, its
kind and its text as a quoted literal; and as a JSON array of objects.
-/

namespace Relex.Dump

/-- A number in decimal. -/
def decimal (n : Nat) : List Char :=
  Nat.toDigits 10 n

/-- The line of a token that covers `text`. Numbers have six columns, the first flush right and the
    second flush left; the kind has thirty-two. -/
def listingLine (token : Token) (text : List Char) : List Char :=
  (decimal token.start).leftpad 6 ' ' ++ ['.', '.'] ++ (decimal token.stop).rightpad 6 ' ' ++
    ' ' :: token.kind.name.toList.rightpad 32 ' ' ++ ' ' :: Text.quoted text ++ ['\n']

/-- The lines of some tokens of a source. -/
def listing (source : List Char) (tokens : List Token) : Except Text.RangeError (List Char) :=
  (tokens.mapM fun token =>
    (Text.region source token.start token.stop).map (listingLine token)).map List.flatten

/-- A kind in JSON: its name, and for a script kind an object around it. -/
def jsonKind : Kind → String
  | .script kind =>
    "\x7b\n      \x22Script\x22: \x22" ++ kind.name ++ "\x22\n    \x7d"
  | kind => "\x22" ++ kind.name ++ "\x22"

/-- A token in JSON, indented by two. -/
def jsonToken (token : Token) : List Char :=
  "  \x7b\n    \x22kind\x22: ".toList ++ (jsonKind token.kind).toList ++
    ",\n    \x22start\x22: ".toList ++ decimal token.start ++
    ",\n    \x22end\x22: ".toList ++ decimal token.stop ++ "\n  \x7d".toList

/-- Tokens as a JSON array, with a line break behind it. -/
def json : List Token → List Char
  | [] => "[]\n".toList
  | tokens => "[\n".toList ++ [',', '\n'].intercalate (tokens.map jsonToken) ++ "\n]\n".toList

end Relex.Dump
