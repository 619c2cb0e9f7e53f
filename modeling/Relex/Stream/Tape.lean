import Relex.Misuse
import Relex.Token.Basic

/-! # Token tapes

A lexer that stands somewhere in a text has a fixed future: the tokens still to come, and what it
shows at each of them. A `Tape` is that future as data. It lists the tokens still to come as
`Reading`s; moving on drops the first of them. What a lexer shows besides its token is a `Place`.

Snapshots (`π`) and the live view into the grammar at work (`ι`) differ from grammar to grammar.
-/

namespace Relex

/-- What a token stream shows at one place, apart from the token there. -/
structure Place (π ι : Type) where
  /-- The byte offset of the place. -/
  offset : Nat
  /-- The state word reported at the place. -/
  state : UInt32
  /-- From what the stream can be taken up again at this place, or why that cannot be. -/
  snapshot : Except Misuse π
  /-- The view into the grammar at work, which may have run ahead of the place. -/
  live : ι

/-- A token, shown at the place where it starts. -/
structure Reading (π ι : Type) where
  kind : Kind
  /-- The offset behind the token. -/
  stop : Nat
  place : Place π ι

def Reading.token {π ι : Type} (r : Reading π ι) : Token where
  kind := r.kind
  start := r.place.offset
  stop := r.stop

/-- The tokens still to come, and the place where the stream ends. -/
structure Tape (π ι : Type) where
  readings : List (Reading π ι)
  final : Place π ι

namespace Tape

variable {π ι : Type}

/-- The tape without tokens. -/
def ended (final : Place π ι) : Tape π ι := ⟨[], final⟩

/-- Puts a reading in front. -/
def cons (r : Reading π ι) (tape : Tape π ι) : Tape π ι :=
  { tape with readings := r :: tape.readings }

/-- The place where the stream stands. -/
def place (tape : Tape π ι) : Place π ι :=
  match tape.readings with
  | [] => tape.final
  | r :: _ => r.place

/-- The kind of the current token. -/
def kind? (tape : Tape π ι) : Option Kind :=
  tape.readings.head?.map (·.kind)

/-- The offset behind the current token; at the end of the stream, that of the end. -/
def stop (tape : Tape π ι) : Nat :=
  match tape.readings with
  | [] => tape.final.offset
  | r :: _ => r.stop

/-- Moves on to the next token. At the end there is nowhere to go. -/
def advance (tape : Tape π ι) : Tape π ι :=
  { tape with readings := tape.readings.tail }

/-- The tokens still to come. -/
def tokens (tape : Tape π ι) : List Token :=
  tape.readings.map Reading.token

@[ext] theorem ext_readings {s t : Tape π ι} (hreadings : s.readings = t.readings)
    (hfinal : s.final = t.final) : s = t := by
  cases s
  cases t
  simp_all

@[simp, grind =] theorem readings_ended (final : Place π ι) : (ended final).readings = [] := rfl

@[simp, grind =] theorem final_ended (final : Place π ι) : (ended final).final = final := rfl

@[simp, grind =] theorem readings_cons (r : Reading π ι) (tape : Tape π ι) :
    (tape.cons r).readings = r :: tape.readings := rfl

@[simp, grind =] theorem final_cons (r : Reading π ι) (tape : Tape π ι) :
    (tape.cons r).final = tape.final := rfl

@[simp, grind =] theorem advance_cons (r : Reading π ι) (tape : Tape π ι) :
    (tape.cons r).advance = tape := rfl

@[simp, grind =] theorem tokens_cons (r : Reading π ι) (tape : Tape π ι) :
    (tape.cons r).tokens = r.token :: tape.tokens := rfl

end Tape

end Relex
