import Relex.Markup.Grammar
import Relex.Script.Grammar
import Relex.Stream.Grouping

/-! # Component documents

A component document is read as grouped markup, in which the frontmatter is one token. That token
is then replaced by the lexemes of its script. Inside them the state word carries a flag and there
are no snapshots, since neither can hold how far the script has been read.
-/

namespace Relex

namespace Document

open Markup Text

/-- The view into a document at work: what is open in its markup, and whether the current token is
    one of the frontmatter script. -/
structure Live where
  nesting : Nesting
  inFrontmatter : Bool

/-- A place of the markup as a place of the document. -/
def markupPlace (place : Place Snapshot Nesting) : Place Snapshot Live :=
  { place with live := ⟨place.live, false⟩ }

/-- A lexeme of script in place of the frontmatter token at `place`. -/
def scriptReading (place : Place Snapshot Nesting) (lexeme : Reading Nat Unit) :
    Reading Snapshot Live where
  kind := lexeme.kind
  stop := lexeme.stop
  place :=
    { offset := lexeme.place.offset
      state := place.state ||| substateFlag
      snapshot := .error (.noSnapshot lexeme.place.offset)
      live := ⟨place.live, true⟩ }

/-- What stands in the document for one token of the markup: the lexemes of its script, if it is
    frontmatter with any, and the token itself otherwise. -/
def expand (source : String) (r : Reading Snapshot Nesting) :
    Except RangeError (List (Reading Snapshot Live)) :=
  let unchanged : Reading Snapshot Live :=
    { kind := r.kind, stop := r.stop, place := markupPlace r.place }
  if r.kind.opensEmbedment then
    (Script.tape source r.place.offset r.stop).map fun script =>
      if script.readings.isEmpty then [unchanged]
      else script.readings.map (scriptReading r.place)
  else
    .ok [unchanged]

/-- The document for a tape of its markup. -/
def ofMarkup (source : String) (markup : Tape Snapshot Nesting) :
    Except RangeError (Tape Snapshot Live) :=
  (markup.readings.mapM (expand source)).map fun parts =>
    ⟨parts.flatten, markupPlace markup.final⟩

end Document

/-- The grammar of component documents, or of fragments of them. -/
structure DocumentGrammar where
  grouping : Grouping
  form : Markup.Form

namespace DocumentGrammar

/-- The grammar of the markup. -/
def markup (reader : DocumentGrammar) : Grouped MarkupGrammar :=
  ⟨reader.grouping, ⟨reader.form⟩⟩

/-- A document starts from its initial state where the state word that is asked for cannot be
    restarted. -/
instance : Reader DocumentGrammar Markup.Snapshot Document.Live where
  idle reader := .ended (Document.markupPlace (Reader.idle reader.markup).place)
  start reader source start stop state :=
    let state := if Markup.isRestartPoint state then state else Markup.State.initial.code
    Reader.start reader.markup source start stop state >>= Document.ofMarkup source
  resume reader source stop snapshot :=
    Reader.resume reader.markup source stop snapshot >>= Document.ofMarkup source
  misuse? _ state :=
    if Markup.isRestartPoint state then none else some (.refusedState state)

end DocumentGrammar

end Relex
