import Relex.Document

/-! # Checking restarts

Reading can be taken up at every token that has a snapshot. The check does so at each of them, with
a fresh lexer, and compares what is read with the rest of the full reading.
-/

namespace Relex

/-- The outcome of a check. -/
structure RestartReport where
  tokens : Nat
  /-- The number of tokens with a snapshot. -/
  points : Nat
  /-- The offsets of the snapshots from which other tokens were read. -/
  diverging : List Nat
  deriving Repr, DecidableEq

namespace RestartReport

open Markup Document Text

/-- The offsets among some readings from whose snapshots a lexer reads other tokens than those from
    the reading on. -/
def divergingOffsets (fresh : Lexer DocumentGrammar Snapshot Live) :
    List (Reading Snapshot Live) → Except RangeError (List Nat)
  | [] => .ok []
  | r :: rs => do
    let later ← divergingOffsets fresh rs
    match r.place.snapshot with
    | .error _ => return later
    | .ok snapshot =>
      let restored ← fresh.restore snapshot
      if restored.tape.tokens = (r :: rs).map Reading.token then
        return later
      else
        return snapshot.offset :: later

/-- Checks the restarts in a source. -/
def check (reader : DocumentGrammar) (source : String) : Except RangeError RestartReport := do
  let idle : Lexer DocumentGrammar Snapshot Live := Lexer.idle reader
  -- Lexers are values: the one that has been started serves as a fresh one at every snapshot.
  let fresh ← idle.start source 0 source.utf8ByteSize 0
  let readings := fresh.tape.readings
  let diverging ← divergingOffsets fresh readings
  return {
    tokens := readings.length
    points := (readings.filter fun r => r.place.snapshot.isOk).length
    diverging := diverging }

end RestartReport

end Relex
