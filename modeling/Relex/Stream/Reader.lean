import Relex.Stream.Tape
import Relex.Text.Offset

/-! # Readers and lexers

A `Reader` is a grammar that turns a region of a source into a tape, from the beginning of the
region or from a snapshot. A `Lexer` is a reader at work: it holds the region that it was started
on, the tape from where it stands, and the misuses that it noticed.
-/

namespace Relex

/-- Grammars that can be started on a region of a source and taken up again from a snapshot. -/
class Reader (ρ : Type) (π ι : outParam Type) where
  /-- What is shown before any start. -/
  idle : ρ → Tape π ι
  /-- Reads the region of a source between two offsets, from a bare state word. -/
  start : ρ → (source : String) → (start stop : Nat) → (state : UInt32) →
    Except Text.RangeError (Tape π ι)
  /-- Reads on from a snapshot to the end of the region. -/
  resume : ρ → (source : String) → (stop : Nat) → π → Except Text.RangeError (Tape π ι)
  /-- Where the region ends as the reader sees it. -/
  regionEnd : ρ → (source : String) → (stop : Nat) → Nat := fun _ _ stop => stop
  /-- What is wrong with a state word to start from. -/
  misuse? : ρ → (state : UInt32) → Option Misuse := fun _ _ => none

/-- How many misuses a lexer keeps until they are taken out. -/
def misuseLimit : Nat := 64

/-- A reader at work on a source. -/
structure Lexer (ρ π ι : Type) where
  reader : ρ
  /-- The source of the last start. -/
  source : String
  /-- The end of the region of the last start. -/
  stop : Nat
  /-- The tokens from where the lexer stands. -/
  tape : Tape π ι
  /-- The misuses since they were last taken out, at most `misuseLimit` of them. -/
  misuses : List Misuse

namespace Lexer

variable {ρ π ι : Type} [Reader ρ π ι]

/-- A lexer before its first start: its source is empty. -/
def idle (reader : ρ) : Lexer ρ π ι where
  reader := reader
  source := ""
  stop := 0
  tape := Reader.idle reader
  misuses := []

/-- Starts on a region of a source. A state word that the reader refuses is recorded, unless too
    many are recorded already. -/
def start (lexer : Lexer ρ π ι) (source : String) (start stop : Nat) (state : UInt32) :
    Except Text.RangeError (Lexer ρ π ι) :=
  (Reader.start lexer.reader source start stop state).map fun tape =>
    { reader := lexer.reader
      source := source
      stop := stop
      tape := tape
      misuses := (lexer.misuses ++ (Reader.misuse? lexer.reader state).toList).take misuseLimit }

def advance (lexer : Lexer ρ π ι) : Lexer ρ π ι :=
  { lexer with tape := lexer.tape.advance }

/-- The snapshot of where the lexer stands, or why there is none. -/
def snapshot (lexer : Lexer ρ π ι) : Except Misuse π :=
  lexer.tape.place.snapshot

/-- Takes up reading from a snapshot, on the source and region of the last start. -/
def restore (lexer : Lexer ρ π ι) (snapshot : π) : Except Text.RangeError (Lexer ρ π ι) :=
  (Reader.resume lexer.reader lexer.source lexer.stop snapshot).map fun tape =>
    { lexer with tape := tape }

/-- Takes out the recorded misuses. -/
def takeMisuses (lexer : Lexer ρ π ι) : List Misuse × Lexer ρ π ι :=
  (lexer.misuses, { lexer with misuses := [] })

/-- The end of the region as the reader sees it. -/
def regionEnd (lexer : Lexer ρ π ι) : Nat :=
  Reader.regionEnd lexer.reader lexer.source lexer.stop

end Lexer

end Relex
