import Relex.Markup.Rules
import Relex.Stream.Reader

/-! # Reading markup

A text of the markup grammar is read token by token from a context. A snapshot holds the context
of a place and its offset, which is all that the rest of the reading depends on.
-/

namespace Relex.Markup

open Text

/-- All that is needed to take up reading at a place. -/
structure Snapshot where
  offset : Nat
  context : Context
  deriving DecidableEq

/-- What is shown at an offset that is reached in a context. -/
def placeAt (offset : Nat) (context : Context) : Place Snapshot Nesting where
  offset := offset
  state := context.state.code
  snapshot := .ok ⟨offset, context⟩
  live := context.nesting

/-- The tokens of a text whose first character stands at `offset`, read from a context. -/
def tapeOf (form : Form) (offset : Nat) (context : Context) :
    List Char → Tape Snapshot Nesting
  | [] => .ended (placeAt offset context)
  | c :: cs =>
    let transition := context.transition c cs
    let stop := offset + byteLength (c :: cs.take transition.more)
    (tapeOf form stop (context.after form transition) (cs.drop transition.more)).cons
      { kind := transition.kind, stop := stop, place := placeAt offset context }
termination_by cs => cs.length
decreasing_by simp only [List.length_cons, List.length_drop]; omega

/-- The raw text between two offsets as one token. -/
def rawTextTape (snapshot : Snapshot) (stop : Nat) : Tape Snapshot Nesting :=
  (Tape.ended (placeAt stop snapshot.context)).cons
    { kind := .rawText, stop := stop, place := placeAt snapshot.offset snapshot.context }

/-- The tokens from a snapshot to the end of the region. Where no text is left nothing is read,
    and the bounds are not looked at. Raw text of no element has no end tag to look for, so it is
    taken whole even where it starts inside a character. -/
def tape (form : Form) (source : String) (stop : Nat) (snapshot : Snapshot) :
    Except RangeError (Tape Snapshot Nesting) :=
  if snapshot.offset < stop then
    match region source.toList snapshot.offset stop with
    | .ok text => .ok (tapeOf form snapshot.offset snapshot.context text)
    | .error (.badStart offset) =>
      if snapshot.context.state = .rawText ∧ snapshot.context.nesting.elements.isEmpty then
        .ok (rawTextTape snapshot stop)
      else
        .error (.badStart offset)
    | .error error => .error error
  else
    .ok (.ended (placeAt snapshot.offset snapshot.context))

/-- The context of a bare state word. Nothing is open, the flag does not count, and a fragment
    begins as an expression. -/
def contextOf (form : Form) (code : UInt32) : Context where
  state :=
    match State.ofCode (code &&& ~~~substateFlag), form with
    | .initial, .fragment => .expression
    | state, _ => state
  nesting := ∅

end Relex.Markup

namespace Relex

/-- The markup grammar by itself. -/
structure MarkupGrammar where
  form : Markup.Form

instance : Reader MarkupGrammar Markup.Snapshot Markup.Nesting where
  idle _ := .ended (Markup.placeAt 0 ⟨.initial, ∅⟩)
  start reader source start stop state :=
    Markup.tape reader.form source stop ⟨start, Markup.contextOf reader.form state⟩
  resume reader source stop snapshot := Markup.tape reader.form source stop snapshot

end Relex
