import Relex.Proofs.Flag

/-! # Taking turns

A document can be read in two ways. Its markup can be read to the end and then expanded, or two
lexers can take turns, where the lexer of the markup waits at the frontmatter token until a lexer of
the script has run dry. `Expansion` says what the first way shows, token by token. `Turns` is the
second way, and whatever calls are made, both ways answer the same (`Alike.run`).
-/

namespace Relex

open Text Markup

/-- Both computations fail with the same error, or both return, and then something holds of what they
    return. -/
inductive Both {ε α β : Type} (R : α → β → Prop) : Except ε α → Except ε β → Prop
  | error (error : ε) : Both R (.error error) (.error error)
  | ok {a : α} {b : β} (h : R a b) : Both R (.ok a) (.ok b)

namespace Both

variable {ε α β α' β' : Type} {R : α → β → Prop} {S : α' → β' → Prop} {x : Except ε α}
  {y : Except ε β}

theorem mono {R' : α → β → Prop} (h : Both R x y) (himp : ∀ a b, R a b → R' a b) : Both R' x y := by
  cases h with
  | error error => exact .error error
  | ok h => exact .ok (himp _ _ h)

theorem ok_right_iff {b : β} : Both R x (.ok b) ↔ ∃ a, x = .ok a ∧ R a b := by
  constructor
  · rintro ⟨⟩
    exact ⟨_, rfl, ‹_›⟩
  · rintro ⟨a, rfl, h⟩
    exact .ok h

/-- What is related is what the computations return. -/
theorem attach (h : Both R x y) : Both (fun a b => R a b ∧ x = .ok a ∧ y = .ok b) x y := by
  cases h with
  | error error => exact .error error
  | ok h => exact .ok ⟨h, rfl, rfl⟩

theorem ok_left_iff {a : α} : Both R (.ok a) y ↔ ∃ b, y = .ok b ∧ R a b := by
  constructor
  · rintro ⟨⟩
    exact ⟨_, rfl, ‹_›⟩
  · rintro ⟨b, rfl, h⟩
    exact .ok h

theorem error_iff (h : Both R x y) : (∃ error, x = .error error) ↔ ∃ error, y = .error error := by
  cases h with
  | error error => exact iff_of_true ⟨error, rfl⟩ ⟨error, rfl⟩
  | ok h => exact iff_of_false nofun nofun

theorem map {f : α → α'} {g : β → β'} (h : Both R x y) (himp : ∀ a b, R a b → S (f a) (g b)) :
    Both S (x.map f) (y.map g) := by
  cases h with
  | error error => exact .error error
  | ok h => exact .ok (himp _ _ h)

theorem map_right {f : β → β'} {S : α → β' → Prop} (h : Both R x y)
    (himp : ∀ a b, R a b → S a (f b)) : Both S x (y.map f) := by
  cases h with
  | error error => exact .error error
  | ok h => exact .ok (himp _ _ h)

theorem bind {f : α → Except ε α'} {g : β → Except ε β'} (h : Both R x y)
    (hfg : ∀ a b, R a b → Both S (f a) (g b)) : Both S (x >>= f) (y >>= g) := by
  cases h with
  | error error => exact .error error
  | ok h => exact hfg _ _ h

end Both

namespace Document

/-- The tokens of a document, one after the other, against those of its markup. The script of the
    frontmatter is replaced by what a lexer of its own reads in the range of the token, and every
    other token stays. -/
inductive Expansion (source : String) :
    List (Reading Snapshot Nesting) → List (Reading Snapshot Live) → Prop
  | nil : Expansion source [] []
  | keep {r : Reading Snapshot Nesting} {rs : List (Reading Snapshot Nesting)}
      {s : Reading Snapshot Live} {later : List (Reading Snapshot Live)}
      (hkind : r.kind ≠ .frontmatterScript) (htoken : s.token = r.token)
      (hstate : s.place.state = r.place.state) (hsnapshot : s.place.snapshot = r.place.snapshot)
      (hlater : Expansion source rs later) : Expansion source (r :: rs) (s :: later)
  | script {r : Reading Snapshot Nesting} {rs : List (Reading Snapshot Nesting)}
      {script : Lexer ScriptGrammar Nat Unit} {part later : List (Reading Snapshot Live)}
      (hkind : r.kind = .frontmatterScript)
      (hscript : (Lexer.idle ScriptGrammar.mk).start source r.place.offset r.stop 0 = .ok script)
      (hne : part ≠ []) (htokens : part.map Reading.token = script.tape.tokens)
      (hstate : ∀ s ∈ part, s.place.state = State.frontmatter.code ||| substateFlag)
      (hsnapshot : ∀ s ∈ part, s.place.snapshot = .error (.noSnapshot s.place.offset))
      (hlater : Expansion source rs later) : Expansion source (r :: rs) (part ++ later)

section Expand

variable {source : String} {r : Reading Snapshot Nesting} {rs : List (Reading Snapshot Nesting)}
  {final : Place Snapshot Nesting} {markup : Tape Snapshot Nesting} {document : Tape Snapshot Live}

theorem ofMarkup_ended (source : String) (final : Place Snapshot Nesting) :
    ofMarkup source (.ended final) = .ok (.ended (markupPlace final)) := rfl

/-- A document is what stands for the first token of the markup, in front of the document for the
    rest. -/
theorem ofMarkup_cons (h : ofMarkup source ⟨r :: rs, final⟩ = .ok document) :
    ∃ part later, expand source r = .ok part ∧ ofMarkup source ⟨rs, final⟩ = .ok later ∧
      document = ⟨part ++ later.readings, later.final⟩ := by
  obtain ⟨parts, hparts, rfl⟩ := ofMarkup_eq_ok_iff.mp h
  obtain ⟨part, later, hpart, hlater, rfl⟩ := Except.exists_of_mapM_cons hparts
  have hrest : ofMarkup source ⟨rs, final⟩ = .ok ⟨later.flatten, markupPlace final⟩ :=
    ofMarkup_eq_ok_iff.mpr ⟨later, hlater, rfl⟩
  exact ⟨part, _, hpart, hrest, rfl⟩

theorem script_start_eq (source : String) (start stop : Nat) :
    (Lexer.idle ScriptGrammar.mk).start source start stop 0 =
      (Script.tape source start stop).map fun tape => ⟨⟨⟩, source, stop, tape, []⟩ := rfl

/-- The tokens of the markup must not be empty, so that no script is empty either. -/
theorem expansion_of_ofMarkup (hrestartable : Restartable markup)
    (hlt : ∀ r ∈ markup.readings, r.place.offset < r.stop)
    (h : ofMarkup source markup = .ok document) :
    Expansion source markup.readings document.readings := by
  obtain ⟨readings, final⟩ := markup
  induction readings generalizing document with
  | nil =>
      rw [← Tape.ended, ofMarkup_ended] at h
      cases h
      exact .nil
  | cons r rs ih =>
      obtain ⟨part, later, hpart, hlater, rfl⟩ := ofMarkup_cons h
      have hrest : Expansion source rs later.readings := by
        refine ih ⟨?_, hrestartable.final⟩ ?_ hlater
        · intro s hs
          exact hrestartable.readings s (List.mem_cons_of_mem r hs)
        · intro s hs
          exact hlt s (List.mem_cons_of_mem r hs)
      have hfront := hlt r List.mem_cons_self
      rcases expand_cases_of_lt hfront hpart with ⟨hkind, rfl⟩ | ⟨hkind, script, htape, rfl⟩
      · exact .keep hkind rfl rfl rfl hrest
      · obtain ⟨context, -, hshows, hstate⟩ := hrestartable.readings r List.mem_cons_self
        have hcode : r.place.state = State.frontmatter.code := by
          rw [hshows.state, hstate.mp hkind]
        have hlexer : (Lexer.idle ScriptGrammar.mk).start source r.place.offset r.stop 0 =
            .ok ⟨⟨⟩, source, r.stop, script, []⟩ := by
          rw [script_start_eq, htape]
          rfl
        refine .script hkind hlexer ?_ ?_ ?_ ?_ hrest
        · intro hnil
          exact (Script.tape_of_lt hfront htape).1 (List.map_eq_nil_iff.mp hnil)
        · rw [List.map_map]
          rfl
        · intro s hs
          obtain ⟨lexeme, -, rfl⟩ := List.mem_map.mp hs
          simp only [scriptReading, hcode]
        · intro s hs
          obtain ⟨lexeme, -, rfl⟩ := List.mem_map.mp hs
          rfl

end Expand

end Document

open Document

/-! ## Two lexers -/

/-- A lexer of the markup and, while that stands at the frontmatter token, one of its script. -/
structure Turns where
  markup : Lexer (Grouped MarkupGrammar) Snapshot Nesting
  script? : Option (Lexer ScriptGrammar Nat Unit)

namespace Turns

def idle (reader : DocumentGrammar) : Turns := ⟨Lexer.idle reader.markup, none⟩

/-- In front of the frontmatter token it is the turn of the script, if there is any. -/
def enter (markup : Lexer (Grouped MarkupGrammar) Snapshot Nesting) : Except RangeError Turns :=
  if markup.tape.kind? = some .frontmatterScript then do
    let script ← (Lexer.idle ScriptGrammar.mk).start markup.source markup.tape.place.offset
      markup.tape.stop 0
    return ⟨markup, if script.tape.kind?.isSome then some script else none⟩
  else
    return ⟨markup, none⟩

def start (turns : Turns) (source : String) (start stop : Nat) (state : UInt32) :
    Except RangeError Turns := do
  let state := if isRestartPoint state then state else State.initial.code
  let markup ← turns.markup.start source start stop state
  enter markup

/-- The markup moves on once the script has run dry. -/
def advance (turns : Turns) : Except RangeError Turns :=
  match turns.script? with
  | some script =>
    if script.advance.tape.kind?.isSome then
      return { turns with script? := some script.advance }
    else
      enter turns.markup.advance
  | none => enter turns.markup.advance

def restore (turns : Turns) (snapshot : Snapshot) : Except RangeError Turns := do
  let markup ← turns.markup.restore snapshot
  enter markup

theorem restore_eq (turns : Turns) (snapshot : Snapshot) : turns.restore snapshot =
    (Markup.tape turns.markup.reader.inner.form turns.markup.source turns.markup.stop snapshot).map
      (fun tape => { turns.markup with tape := tape.group turns.markup.reader.grouping }) >>=
        enter := by
  rw [restore, Lexer.restore]
  simp only [Reader.resume]
  cases Markup.tape turns.markup.reader.inner.form turns.markup.source turns.markup.stop snapshot with
  | error error => rfl
  | ok tape => rfl

def kind? (turns : Turns) : Option Kind :=
  match turns.script? with
  | some script => script.tape.kind?
  | none => turns.markup.tape.kind?

def stop (turns : Turns) : Nat :=
  match turns.script? with
  | some script => script.tape.stop
  | none => turns.markup.tape.stop

/-- While it is the turn of the script, the state word has the flag, and snapshots are refused. -/
def place (turns : Turns) : Place Snapshot Live :=
  match turns.script? with
  | some script =>
    { offset := script.tape.place.offset
      state := turns.markup.tape.place.state ||| substateFlag
      snapshot := .error (.noSnapshot script.tape.place.offset)
      live := ⟨turns.markup.tape.place.live, true⟩ }
  | none => markupPlace turns.markup.tape.place

/-- The tokens of the current turn. Each token of the markup has a turn of its own. -/
def turn (turns : Turns) : List (Reading Snapshot Live) :=
  match turns.script? with
  | some script => script.tape.readings.map (scriptReading turns.markup.tape.place)
  | none => turns.markup.tape.readings.head?.toList.map fun r =>
      ⟨r.kind, r.stop, markupPlace r.place⟩

/-- The document is what is left of the current turn, and behind it the expansion of what is left of
    the markup. -/
structure Follows (turns : Turns) (document : Tape Snapshot Live) : Prop where
  script : ∀ script, turns.script? = some script →
    script.tape.readings ≠ [] ∧ turns.markup.tape.readings ≠ []
  later : ∃ later, ofMarkup turns.markup.source turns.markup.tape.advance = .ok later ∧
    document = ⟨turns.turn ++ later.readings, later.final⟩

/-- What the two lexers answer is what the document shows. -/
structure Shows (turns : Turns) (document : Tape Snapshot Live) : Prop where
  kind? : turns.kind? = document.kind?
  stop : turns.stop = document.stop
  place : turns.place = document.place

variable {turns : Turns} {document : Tape Snapshot Live}

theorem Follows.shows (h : Follows turns document) : Shows turns document := by
  obtain ⟨⟨reader, source, region, ⟨readings, final⟩, misuses⟩, script?⟩ := turns
  obtain ⟨later, hlater, rfl⟩ := h.later
  cases script? with
  | some script =>
      obtain ⟨hscript, -⟩ := h.script script rfl
      obtain ⟨_, _, _, ⟨lexemes, _⟩, _⟩ := script
      cases lexemes with
      | nil => exact absurd rfl hscript
      | cons lexeme lexemes => exact ⟨rfl, rfl, rfl⟩
  | none =>
      cases readings with
      | nil =>
          cases hlater
          exact ⟨rfl, rfl, rfl⟩
      | cons r rs => exact ⟨rfl, rfl, rfl⟩

/-- Whoever has the next turn, the document goes on as the markup expands. -/
theorem exists_enter (markup : Lexer (Grouped MarkupGrammar) Snapshot Nesting)
    (h : ofMarkup markup.source markup.tape = .ok document) :
    ∃ turns, enter markup = .ok turns ∧ turns.markup = markup ∧ Follows turns document := by
  have hidle : ∀ script : Lexer ScriptGrammar Nat Unit, none = some script →
      script.tape.readings ≠ [] ∧ markup.tape.readings ≠ [] := by
    intro script hnone
    cases hnone
  obtain ⟨reader, source, region, ⟨readings, final⟩, misuses⟩ := markup
  cases readings with
  | nil =>
      cases h
      exact ⟨_, rfl, rfl, hidle, _, rfl, rfl⟩
  | cons r rs =>
      obtain ⟨part, later, hpart, hlater, rfl⟩ := ofMarkup_cons h
      cases hkind : r.kind.opensEmbedment with
      | false =>
          have hscript : r.kind ≠ .frontmatterScript := by
            intro hscript
            rw [hscript] at hkind
            cases hkind
          simp only [expand, hkind] at hpart
          cases hpart
          refine ⟨⟨_, none⟩, ?_, rfl, hidle, later, hlater, rfl⟩
          simp only [enter, Tape.kind?, List.head?_cons, Option.map_some, Option.some.injEq, hscript,
            if_false]
          rfl
      | true =>
          have hscript := (Kind.opensEmbedment_eq_true_iff r.kind).mp hkind
          simp only [expand, hkind, if_true] at hpart
          obtain ⟨script, htape, rfl⟩ := Except.map_eq_ok_iff.mp hpart
          simp only [enter, Tape.kind?, List.head?_cons, Option.map_some, hscript, if_true,
            Tape.place, Tape.stop, script_start_eq, htape, Except.map, bind, Except.bind]
          obtain ⟨lexemes, _⟩ := script
          cases lexemes with
          | nil => exact ⟨_, rfl, rfl, hidle, later, hlater, by simp [turn, hscript]⟩
          | cons lexeme lexemes =>
              refine ⟨_, rfl, rfl, ?_, later, hlater, rfl⟩
              intro script hsame
              cases hsame
              exact ⟨List.cons_ne_nil _ _, List.cons_ne_nil _ _⟩

theorem Follows.exists_advance (h : Follows turns document) :
    ∃ next, turns.advance = .ok next ∧ next.markup.reader = turns.markup.reader ∧
      next.markup.source = turns.markup.source ∧ next.markup.stop = turns.markup.stop ∧
      Follows next document.advance := by
  obtain ⟨later, hlater, rfl⟩ := h.later
  obtain ⟨next, hnext, hmarkup, hfollows⟩ := exists_enter turns.markup.advance hlater
  have hfields : next.markup.reader = turns.markup.reader ∧
      next.markup.source = turns.markup.source ∧ next.markup.stop = turns.markup.stop := by
    rw [hmarkup]
    exact ⟨rfl, rfl, rfl⟩
  obtain ⟨⟨reader, source, region, ⟨readings, final⟩, misuses⟩, script?⟩ := turns
  cases script? with
  | none =>
      refine ⟨next, hnext, hfields.1, hfields.2.1, hfields.2.2, ?_⟩
      cases readings with
      | nil =>
          cases hlater
          exact hfollows
      | cons r rs => exact hfollows
  | some script =>
      obtain ⟨hscript, hmarkup⟩ := h.script script rfl
      obtain ⟨_, _, _, ⟨lexemes, _⟩, _⟩ := script
      cases lexemes with
      | nil => exact absurd rfl hscript
      | cons lexeme lexemes =>
          cases lexemes with
          | nil => exact ⟨next, hnext, hfields.1, hfields.2.1, hfields.2.2, hfollows⟩
          | cons second lexemes =>
              refine ⟨_, rfl, rfl, rfl, rfl, ?_, later, hlater, rfl⟩
              intro script hsame
              cases hsame
              exact ⟨List.cons_ne_nil _ _, hmarkup⟩

end Turns

/-! ## The same answers after any calls -/

/-- A call that changes a lexer. -/
inductive Call where
  | start (source : String) (start stop : Nat) (state : UInt32)
  | advance
  | restore (snapshot : Snapshot)

def Call.onLexer (lexer : Lexer DocumentGrammar Snapshot Live) :
    Call → Except RangeError (Lexer DocumentGrammar Snapshot Live)
  | .start source offset stop state => lexer.start source offset stop state
  | .advance => .ok lexer.advance
  | .restore snapshot => lexer.restore snapshot

def Call.onTurns (turns : Turns) : Call → Except RangeError Turns
  | .start source offset stop state => turns.start source offset stop state
  | .advance => turns.advance
  | .restore snapshot => turns.restore snapshot

/-- The lexer of documents and the two lexers stand at the same place of the same region. -/
structure Alike (lexer : Lexer DocumentGrammar Snapshot Live) (turns : Turns) : Prop where
  reader : turns.markup.reader = lexer.reader.markup
  source : turns.markup.source = lexer.source
  stop : turns.markup.stop = lexer.stop
  follows : turns.Follows lexer.tape

/-- The document for a text of markup that could be read. It does not fail, since its tokens begin
    and end between characters. -/
theorem Markup.exists_ofMarkup {form : Form} {source : String} {stop : Nat} {snapshot : Snapshot}
    {markup : Tape Snapshot Nesting} (h : Markup.tape form source stop snapshot = .ok markup)
    (grouping : Grouping) : ∃ document, ofMarkup source (markup.group grouping) = .ok document := by
  rcases covers_of_tape h with hcovers | ⟨rfl, -⟩
  · obtain ⟨document, hdocument, -⟩ := covers_ofMarkup_group hcovers grouping
    exact ⟨document, hdocument⟩
  · rw [group_rawTextTape]
    exact ⟨_, rfl⟩

namespace Alike

variable {lexer : Lexer DocumentGrammar Snapshot Live} {turns : Turns}

theorem idle (reader : DocumentGrammar) : Alike (Lexer.idle reader) (Turns.idle reader) where
  reader := rfl
  source := rfl
  stop := rfl
  follows := ⟨nofun, _, rfl, rfl⟩

theorem advance (h : Alike lexer turns) : Both Alike (.ok lexer.advance) turns.advance := by
  obtain ⟨next, hnext, hreader, hsource, hstop, hfollows⟩ := h.follows.exists_advance
  rw [hnext]
  exact .ok ⟨hreader.trans h.reader, hsource.trans h.source, hstop.trans h.stop, hfollows⟩

/-- Only the reader and the region matter where both are put somewhere else. -/
theorem both_restore (hreader : turns.markup.reader = lexer.reader.markup)
    (hsource : turns.markup.source = lexer.source) (hstop : turns.markup.stop = lexer.stop)
    (snapshot : Snapshot) : Both Alike (lexer.restore snapshot) (turns.restore snapshot) := by
  obtain ⟨⟨reader, source, region, tape, misuses⟩, script?⟩ := turns
  subst hreader hsource hstop
  rw [Lexer.restore, DocumentGrammar.resume_eq_bind, Turns.restore_eq]
  simp only [DocumentGrammar.markup]
  cases hmarkup : Markup.tape lexer.reader.form lexer.source lexer.stop snapshot with
  | error error => exact .error error
  | ok markup =>
      obtain ⟨document, hdocument⟩ := Markup.exists_ofMarkup hmarkup lexer.reader.grouping
      let grouped := markup.group lexer.reader.grouping
      obtain ⟨next, hnext, hfields, hfollows⟩ := Turns.exists_enter
        ⟨lexer.reader.markup, lexer.source, lexer.stop, grouped, misuses⟩ hdocument
      simp only [Except.map, bind, Except.bind, hdocument]
      rw [DocumentGrammar.markup] at hnext
      rw [hnext]
      refine .ok ⟨?_, ?_, ?_, hfollows⟩
      · rw [hfields]
      · rw [hfields]
      · rw [hfields]

/-- Starting is restoring on another region. What was noted before does not matter. -/
theorem both_start (hreader : turns.markup.reader = lexer.reader.markup) (source : String)
    (start stop : Nat) (state : UInt32) :
    Both Alike (lexer.start source start stop state) (turns.start source start stop state) := by
  obtain ⟨⟨reader, _, _, tape, before⟩, script?⟩ := turns
  obtain rfl : reader = lexer.reader.markup := hreader
  let misuses := (lexer.misuses ++ (Reader.misuse? lexer.reader state).toList).take misuseLimit
  let noted := (before ++ []).take misuseLimit
  let accepted := if isRestartPoint state then state else State.initial.code
  let elsewhere : Lexer DocumentGrammar Snapshot Live :=
    ⟨lexer.reader, source, stop, lexer.tape, misuses⟩
  let turned : Turns := ⟨⟨lexer.reader.markup, source, stop, tape, noted⟩, script?⟩
  let snapshot : Snapshot := ⟨start, contextOf lexer.reader.form accepted⟩
  have hrestore : Both Alike (elsewhere.restore snapshot) (turned.restore snapshot) :=
    both_restore rfl rfl rfl snapshot
  exact hrestore

theorem both_call (h : Alike lexer turns) (call : Call) :
    Both Alike (call.onLexer lexer) (call.onTurns turns) := by
  cases call with
  | start source start stop state => exact both_start h.reader source start stop state
  | advance => exact h.advance
  | restore snapshot => exact both_restore h.reader h.source h.stop snapshot

/-- Whatever calls are made, both fail at the same one, or both answer the same afterwards. -/
theorem run (h : Alike lexer turns) (calls : List Call) :
    Both Alike (calls.foldlM Call.onLexer lexer) (calls.foldlM Call.onTurns turns) := by
  induction calls generalizing lexer turns with
  | nil => exact .ok h
  | cons call calls ih =>
      rw [List.foldlM_cons, List.foldlM_cons]
      exact (h.both_call call).bind fun _ _ h => ih h

end Alike

namespace DocumentGrammar

/-- A document is its markup with the frontmatter expanded. Reading the markup to the end and then
    expanding it is the same as letting two lexers take turns, whatever calls are made behind the
    start. -/
theorem document_expands_markup (lexer : Lexer DocumentGrammar Snapshot Live) (source : String)
    (start stop : Nat) (state : UInt32) (hstart : Boundary source.toList start)
    (hstop : Boundary source.toList stop) :
    ∃ started markup turns,
      lexer.start source start stop state = .ok started ∧
      (Lexer.idle lexer.reader.markup).start source start stop
        (if isRestartPoint state then state else State.initial.code) = .ok markup ∧
      Expansion source markup.tape.readings started.tape.readings ∧
      started.tape.final = markupPlace markup.tape.final ∧
      (Turns.idle lexer.reader).start source start stop state = .ok turns ∧
      ∀ calls : List Call, Both (fun lexer turns => turns.Shows lexer.tape)
        (calls.foldlM Call.onLexer started) (calls.foldlM Call.onTurns turns) := by
  obtain ⟨started, hstarted, -⟩ := exists_start lexer state hstart hstop
  have hread := Lexer.read_of_start hstarted
  rw [start_eq_resume] at hread
  obtain ⟨raw, hraw, hdocument⟩ := exists_markup_of_resume hread
  let idle : Lexer (Grouped MarkupGrammar) Snapshot Nesting := Lexer.idle lexer.reader.markup
  have hgrouped : Reader.start idle.reader source start stop
      (if isRestartPoint state then state else State.initial.code) =
        .ok (raw.group lexer.reader.grouping) :=
    congrArg (Except.map (Tape.group lexer.reader.grouping)) hraw
  obtain ⟨markup, hmarkup, htape, -⟩ := Lexer.start_of_read hgrouped
  rw [← htape] at hdocument
  have hexpansion : Expansion source markup.tape.readings started.tape.readings := by
    have hordered := ascending_of_tape hraw
    have hrestartable := restartable_of_tape (contextOf_accepted_listed lexer.reader.form state) hraw
    apply expansion_of_ofMarkup _ _ hdocument
    · rw [htape]
      exact hrestartable.group hordered lexer.reader.grouping
    · rw [htape]
      exact fun r hr => hordered.offset_lt_stop hr
  have hboth : Both Alike (lexer.start source start stop state)
      ((Turns.idle lexer.reader).start source start stop state) :=
    Alike.both_start rfl source start stop state
  rw [hstarted] at hboth
  cases hturns : (Turns.idle lexer.reader).start source start stop state with
  | error error =>
      rw [hturns] at hboth
      cases hboth
  | ok turns =>
      rw [hturns] at hboth
      cases hboth with
      | ok halike =>
          refine ⟨started, markup, turns, hstarted, hmarkup, hexpansion,
            final_of_ofMarkup hdocument, rfl, ?_⟩
          intro calls
          exact (halike.run calls).mono fun _ _ h => h.follows.shows

theorem document_expands_markup_of_flagged_state :
    Boundary "é---\nlet a\n---<p>".toList 2 ∧ Boundary "é---\nlet a\n---<p>".toList 18 ∧
    let lexer : Lexer DocumentGrammar Snapshot Live := Lexer.idle ⟨.values, .document⟩
    ∃ started markup turns,
      lexer.start "é---\nlet a\n---<p>" 2 18 0x2000000C = .ok started ∧
      (Lexer.idle lexer.reader.markup).start "é---\nlet a\n---<p>" 2 18
        (if isRestartPoint 0x2000000C then 0x2000000C else State.initial.code) = .ok markup ∧
      Expansion "é---\nlet a\n---<p>" markup.tape.readings started.tape.readings ∧
      started.tape.final = markupPlace markup.tape.final ∧
      (Turns.idle lexer.reader).start "é---\nlet a\n---<p>" 2 18 0x2000000C = .ok turns ∧
      ∀ calls : List Call, Both (fun lexer turns => turns.Shows lexer.tape)
        (calls.foldlM Call.onLexer started) (calls.foldlM Call.onTurns turns) := by
  have hstart : Boundary "é---\nlet a\n---<p>".toList 2 := by decide
  have hstop : Boundary "é---\nlet a\n---<p>".toList 18 := by decide
  exact ⟨hstart, hstop, document_expands_markup _ _ 2 18 _ hstart hstop⟩

end DocumentGrammar

end Relex
