import Relex.Script.Lexeme
import Relex.Stream.Reader

/-! # Reading script

A text of the script grammar is the sequence of its lexemes. The grammar has no state between two
lexemes, so the snapshot at a token is its offset and nothing else.
-/

namespace Relex.Script

open Text

/-- What is shown at an offset of a script. -/
def placeAt (offset : Nat) : Place Nat Unit where
  offset := offset
  state := 0
  snapshot := .ok offset
  live := ()

/-- The lexemes of a text whose first character stands at `offset`. -/
def readings (offset : Nat) : List Char → List (Reading Nat Unit)
  | [] => []
  | c :: cs =>
    let lexeme := Lexeme.front c cs
    let stop := offset + byteLength (c :: cs.take lexeme.more)
    { kind := .script lexeme.kind, stop := stop, place := placeAt offset } ::
      readings stop (cs.drop lexeme.more)
termination_by cs => cs.length
decreasing_by simp only [List.length_cons, List.length_drop]; omega

/-- The lexemes of the region of a source between two offsets. Where the region is empty nothing is
    read, and its bounds are not looked at. -/
def tape (source : String) (start stop : Nat) : Except RangeError (Tape Nat Unit) :=
  if start < stop then
    (region source.toList start stop).map fun text => ⟨readings start text, placeAt stop⟩
  else
    .ok (.ended (placeAt stop))

/-- The kind of the lexeme at an offset of a source, and the offset behind it. At the end of the
    region there is no lexeme, which is answered as one without characters that does not belong.
    -/
def lexemeAt (source : String) (offset stop : Nat) : Except RangeError (ScriptKind × Nat) :=
  (region source.toList offset stop).map fun
    | [] => (.badCharacter, offset)
    | c :: cs =>
      let lexeme := Lexeme.front c cs
      (lexeme.kind, offset + byteLength (c :: cs.take lexeme.more))

end Relex.Script

namespace Relex

/-- The script grammar by itself. -/
structure ScriptGrammar where

/-- Script is read without regard to the state word. -/
instance : Reader ScriptGrammar Nat Unit where
  idle _ := .ended (Script.placeAt 0)
  start _ source start stop _ := Script.tape source start stop
  resume _ source stop offset := Script.tape source offset stop

end Relex
