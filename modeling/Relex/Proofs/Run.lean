import Mathlib.Logic.Function.Iterate
import Relex.Document
import Relex.Proofs.Boundary
import Relex.Session

/-! # Runs of the markup grammar

A `Cursor` is the state of a reading: how much text is left, from which offset and in which context.
`Cursor.next` moves past one token. The tape of a text is what a cursor shows while it moves
(`drop_tape`), so what one move preserves holds along the whole run. A cursor that stands in a
region of a source is found again from its snapshot (`tape_eq`).
-/

namespace Except

theorem map_eq_ok_iff {ε α β : Type} {f : α → β} {x : Except ε α} {b : β} :
    x.map f = .ok b ↔ ∃ a, x = .ok a ∧ f a = b := by
  cases x with
  | error error => exact ⟨nofun, nofun⟩
  | ok a => simp [Except.map]

theorem exists_of_bind {ε α β : Type} {x : Except ε α} {f : α → Except ε β} {b : β}
    (h : x >>= f = .ok b) : ∃ a, x = .ok a ∧ f a = .ok b := by
  cases x with
  | error error => cases h
  | ok a => exact ⟨a, rfl, h⟩

theorem exists_of_map_toOption {ε α β : Type} {f : α → β} {x : Except ε α} {b : β}
    (h : x.toOption.map f = some b) : ∃ a, x = .ok a ∧ f a = b := by
  cases x with
  | error error => cases h
  | ok a => exact ⟨a, rfl, Option.some.inj h⟩

theorem exists_of_mapM_cons {ε α β : Type} {f : α → Except ε β} {a : α} {as : List α} {bs : List β}
    (h : (a :: as).mapM f = .ok bs) :
    ∃ b later, f a = .ok b ∧ as.mapM f = .ok later ∧ bs = b :: later := by
  cases hfirst : f a with
  | error error => simp [List.mapM_cons, hfirst, bind, Except.bind] at h
  | ok b =>
      cases hlater : as.mapM f with
      | error error => simp [List.mapM_cons, hfirst, hlater, bind, Except.bind] at h
      | ok later =>
          simp only [List.mapM_cons, hfirst, hlater, bind, Except.bind, pure, Except.pure,
            Except.ok.injEq] at h
          exact ⟨b, later, rfl, rfl, h.symm⟩

end Except

namespace Relex

namespace Tape

variable {π ι : Type}

/-- The tape after some moves. -/
def drop (n : Nat) (tape : Tape π ι) : Tape π ι :=
  { tape with readings := tape.readings.drop n }

@[simp] theorem drop_zero (tape : Tape π ι) : tape.drop 0 = tape := rfl

@[simp] theorem readings_drop (n : Nat) (tape : Tape π ι) :
    (tape.drop n).readings = tape.readings.drop n := rfl

@[simp] theorem final_drop (n : Nat) (tape : Tape π ι) : (tape.drop n).final = tape.final := rfl

theorem drop_succ (n : Nat) (tape : Tape π ι) : tape.drop (n + 1) = tape.advance.drop n := by
  apply ext_readings
  · simp only [readings_drop, advance, List.drop_tail]
  · rfl

theorem drop_drop (m n : Nat) (tape : Tape π ι) :
    (tape.drop m).drop n = tape.drop (m + n) := by
  apply ext_readings
  · simp only [readings_drop, List.drop_drop]
  · rfl

/-- The current token. -/
def token? (tape : Tape π ι) : Option Token :=
  tape.readings.head?.map Reading.token

theorem token?_drop (n : Nat) (tape : Tape π ι) : (tape.drop n).token? = tape.tokens[n]? := by
  simp only [token?, readings_drop, List.head?_drop, tokens, List.getElem?_map]

end Tape

namespace Lexer

variable {ρ π ι : Type}

theorem advanceTimes_eq (n : Nat) (lexer : Lexer ρ π ι) :
    Session.advanceTimes n lexer = { lexer with tape := lexer.tape.drop n } := by
  induction n generalizing lexer with
  | zero => rfl
  | succ n ih => rw [Session.advanceTimes, ih, Tape.drop_succ]; rfl

theorem tape_advanceTimes (n : Nat) (lexer : Lexer ρ π ι) :
    (Session.advanceTimes n lexer).tape = lexer.tape.drop n := by
  rw [advanceTimes_eq]

theorem tape_advanceTimes_add (n m : Nat) (lexer : Lexer ρ π ι) :
    (Session.advanceTimes (n + m) lexer).tape = (Session.advanceTimes n lexer).tape.drop m := by
  rw [tape_advanceTimes, tape_advanceTimes, Tape.drop_drop]

variable [Reader ρ π ι]

theorem start_of_read {lexer : Lexer ρ π ι} {source : String} {start stop : Nat} {state : UInt32}
    {tape : Tape π ι} (h : Reader.start lexer.reader source start stop state = .ok tape) :
    ∃ started, lexer.start source start stop state = .ok started ∧ started.tape = tape ∧
      started.reader = lexer.reader ∧ started.source = source ∧ started.stop = stop := by
  simp only [Lexer.start, h, Except.map]
  exact ⟨_, rfl, rfl, rfl, rfl, rfl⟩

theorem read_of_start {lexer started : Lexer ρ π ι} {source : String} {start stop : Nat}
    {state : UInt32} (h : lexer.start source start stop state = .ok started) :
    Reader.start lexer.reader source start stop state = .ok started.tape := by
  obtain ⟨tape, hread, rfl⟩ := Except.map_eq_ok_iff.mp h
  exact hread

theorem fields_of_start {lexer started : Lexer ρ π ι} {source : String} {start stop : Nat}
    {state : UInt32} (h : lexer.start source start stop state = .ok started) :
    started.reader = lexer.reader ∧ started.source = source ∧ started.stop = stop := by
  obtain ⟨same, hsame, -, hfields⟩ := start_of_read (read_of_start h)
  rw [h] at hsame
  cases hsame
  exact hfields

theorem read_of_restore {lexer restored : Lexer ρ π ι} {snapshot : π}
    (h : lexer.restore snapshot = .ok restored) :
    Reader.resume lexer.reader lexer.source lexer.stop snapshot = .ok restored.tape ∧
      restored = { lexer with tape := restored.tape } := by
  obtain ⟨tape, hread, rfl⟩ := Except.map_eq_ok_iff.mp h
  exact ⟨hread, rfl⟩

theorem restore_of_read {lexer : Lexer ρ π ι} {snapshot : π} {tape : Tape π ι}
    (h : Reader.resume lexer.reader lexer.source lexer.stop snapshot = .ok tape) :
    ∃ restored, lexer.restore snapshot = .ok restored ∧ restored.tape = tape := by
  simp only [Lexer.restore, h, Except.map]
  exact ⟨_, rfl, rfl⟩

end Lexer

namespace Markup

open Text

/-- How far a text has been read: from which offset and in which context the rest is to be read. -/
structure Cursor where
  offset : Nat
  context : Context
  rest : List Char

namespace Cursor

variable (form : Form)

/-- The tokens still to come. -/
def tape (cursor : Cursor) : Tape Snapshot Nesting :=
  tapeOf form cursor.offset cursor.context cursor.rest

/-- Moves past one token. At the end there is nowhere to go. -/
def next (cursor : Cursor) : Cursor :=
  match cursor.rest with
  | [] => cursor
  | c :: cs =>
    let transition := cursor.context.transition c cs
    { offset := cursor.offset + byteLength (c :: cs.take transition.more)
      context := cursor.context.after form transition
      rest := cs.drop transition.more }

/-- The cursor stands in the region of a text that ends at `stop`. -/
def Within (text : List Char) (stop : Nat) (cursor : Cursor) : Prop :=
  Spans text cursor.rest cursor.offset stop

theorem tape_nil (offset : Nat) (context : Context) :
    (Cursor.mk offset context []).tape form = .ended (placeAt offset context) := by
  rw [tape, tapeOf]

theorem tape_cons (offset : Nat) (context : Context) (c : Char) (cs : List Char) :
    (Cursor.mk offset context (c :: cs)).tape form =
      (((Cursor.mk offset context (c :: cs)).next form).tape form).cons
        { kind := (context.transition c cs).kind
          stop := offset + byteLength (c :: cs.take (context.transition c cs).more)
          place := placeAt offset context } := by
  rw [tape, tapeOf]
  rfl

theorem place_tape (cursor : Cursor) :
    (cursor.tape form).place = placeAt cursor.offset cursor.context := by
  obtain ⟨offset, context, rest⟩ := cursor
  cases rest with
  | nil => rw [tape_nil]; rfl
  | cons c cs => rw [tape_cons]; rfl

theorem live_tape (cursor : Cursor) : (cursor.tape form).place.live = cursor.context.nesting := by
  rw [place_tape, placeAt]

theorem ofCode_state_tape (cursor : Cursor) :
    State.ofCode (cursor.tape form).place.state = cursor.context.state := by
  rw [place_tape, placeAt, State.ofCode_code]

theorem advance_tape (cursor : Cursor) :
    (cursor.tape form).advance = (cursor.next form).tape form := by
  obtain ⟨offset, context, rest⟩ := cursor
  cases rest with
  | nil => simp only [next, tape_nil, Tape.advance, Tape.ended, List.tail_nil]
  | cons c cs => rw [tape_cons, Tape.advance_cons]

theorem drop_tape (n : Nat) (cursor : Cursor) :
    (cursor.tape form).drop n = ((next form)^[n] cursor).tape form := by
  induction n generalizing cursor with
  | zero => rfl
  | succ n ih => rw [Tape.drop_succ, advance_tape, ih, Function.iterate_succ_apply]

variable {form} {text : List Char} {stop : Nat}

section Yields

variable {offset : Nat} {context behind : Context} {c : Char} {front rest : List Char}
  {here between there : Cursor} {tokens later : List Token} {transition : Transition}

/-- A token of a given length takes the cursor to the text behind it. -/
theorem next_token (h : context.transition c (front ++ rest) = transition)
    (hmore : transition.more = front.length) (hbehind : context.after form transition = behind) :
    (Cursor.mk offset context (c :: front ++ rest)).next form =
      ⟨offset + byteLength (c :: front), behind, rest⟩ := by
  subst h hbehind
  rw [List.cons_append, next]
  simp only [hmore, List.take_left, List.drop_left]

variable (form) in
/-- Over these tokens the cursor gets from one place to the other. -/
structure Yields (here : Cursor) (tokens : List Token) (there : Cursor) : Prop where
  arrives : (next form)^[tokens.length] here = there
  tokens_eq : (here.tape form).tokens = tokens ++ (there.tape form).tokens

theorem Yields.nil : Yields form here [] here :=
  ⟨rfl, rfl⟩

theorem Yields.trans (h : Yields form here tokens between) (h' : Yields form between later there) :
    Yields form here (tokens ++ later) there where
  arrives := by
    rw [List.length_append, Nat.add_comm, Function.iterate_add_apply, h.arrives, h'.arrives]
  tokens_eq := by rw [h.tokens_eq, h'.tokens_eq, List.append_assoc]

theorem Yields.final_eq (h : Yields form here tokens there) :
    (here.tape form).final = (there.tape form).final := by
  rw [← h.arrives, ← drop_tape, Tape.final_drop]

variable (form offset) in
/-- One token of a given length. -/
theorem yields_token (h : context.transition c (front ++ rest) = transition)
    (hmore : transition.more = front.length) (hbehind : context.after form transition = behind) :
    Yields form ⟨offset, context, c :: front ++ rest⟩
      [⟨transition.kind, offset, offset + byteLength (c :: front)⟩]
      ⟨offset + byteLength (c :: front), behind, rest⟩ where
  arrives := next_token h hmore hbehind
  tokens_eq := by
    rw [← next_token h hmore hbehind, List.cons_append, tape_cons, Tape.tokens_cons, h]
    simp only [Reading.token, placeAt, hmore, List.take_left]
    rfl

end Yields

theorem Within.next {cursor : Cursor} (h : cursor.Within text stop) :
    (cursor.next form).Within text stop := by
  obtain ⟨offset, context, rest⟩ := cursor
  cases rest with
  | nil => exact h
  | cons c cs =>
      have hsplit : c :: cs = (c :: cs.take (context.transition c cs).more) ++
          cs.drop (context.transition c cs).more := by simp
      simp only [Within] at h
      rw [hsplit] at h
      exact h.of_append_right

theorem Within.iterate {cursor : Cursor} (h : cursor.Within text stop) (n : Nat) :
    ((Cursor.next form)^[n] cursor).Within text stop := by
  induction n with
  | zero => exact h
  | succ n ih => rw [Function.iterate_succ_apply']; exact ih.next

/-- The context and offset of a cursor are enough to read on. -/
theorem tape_eq {source : String} {cursor : Cursor} (h : cursor.Within source.toList stop) :
    Markup.tape form source stop ⟨cursor.offset, cursor.context⟩ = .ok (cursor.tape form) := by
  have hstop : stop = cursor.offset + byteLength cursor.rest := h.stop_eq
  obtain ⟨offset, context, rest⟩ := cursor
  cases rest with
  | nil => simp [Markup.tape, hstop, tape_nil]
  | cons c cs =>
      have hlt : offset < stop := by
        have := byteLength_pos c cs
        simp only at hstop
        omega
      simp only [Markup.tape, hlt, if_true, region_eq_ok_iff.mpr h]
      rfl

/-- Reading from any state but that of raw text is reading by a cursor. -/
theorem exists_of_tape {source : String} {start : Nat} {context : Context}
    {tape : Tape Snapshot Nesting} (hstate : context.state ≠ .rawText)
    (h : Markup.tape form source stop ⟨start, context⟩ = .ok tape) :
    ∃ rest, (rest = [] ∨ Spans source.toList rest start stop) ∧
      tape = (Cursor.mk start context rest).tape form := by
  rw [Markup.tape] at h
  split at h
  · split at h
    · rename_i rest hregion
      cases h
      exact ⟨rest, .inr (region_eq_ok_iff.mp hregion), rfl⟩
    · rw [if_neg fun hraw => hstate hraw.1] at h
      cases h
    · cases h
  · cases h
    exact ⟨[], .inl rfl, (tape_nil form start context).symm⟩

end Cursor

end Markup

namespace MarkupGrammar

open Text Markup

/-- Started on a part of a source, a lexer of the markup moves over it as a cursor does. -/
theorem exists_start (lexer : Lexer MarkupGrammar Snapshot Nesting) (state : UInt32)
    {source : String} {text : List Char} {start stop : Nat}
    (hspans : Spans source.toList text start stop) :
    ∃ started, lexer.start source start stop state = .ok started ∧ ∀ n,
      (Session.advanceTimes n started).tape =
        ((Cursor.next lexer.reader.form)^[n]
          ⟨start, contextOf lexer.reader.form state, text⟩).tape lexer.reader.form := by
  let cursor : Cursor := ⟨start, contextOf lexer.reader.form state, text⟩
  have hwithin : cursor.Within source.toList stop := hspans
  have hread : Reader.start lexer.reader source start stop state =
      .ok (cursor.tape lexer.reader.form) := Cursor.tape_eq hwithin
  obtain ⟨started, hstarted, htape, -⟩ := Lexer.start_of_read hread
  refine ⟨started, hstarted, ?_⟩
  intro n
  rw [Lexer.tape_advanceTimes, htape, Cursor.drop_tape]

end MarkupGrammar

namespace DocumentGrammar

open Text Markup

/-- A document is the expansion of its markup. -/
theorem resume_eq_bind (reader : DocumentGrammar) (source : String) (stop : Nat)
    (snapshot : Snapshot) : (Reader.resume reader source stop snapshot :
        Except RangeError (Tape Snapshot Document.Live)) =
      (Markup.tape reader.form source stop snapshot).map (Tape.group reader.grouping) >>=
        Document.ofMarkup source :=
  rfl

theorem resume_eq (reader : DocumentGrammar) {source : String} {stop : Nat} {cursor : Cursor}
    (h : cursor.Within source.toList stop) :
    Reader.resume reader source stop ⟨cursor.offset, cursor.context⟩ =
      Document.ofMarkup source ((cursor.tape reader.form).group reader.grouping) := by
  rw [resume_eq_bind, Cursor.tape_eq h]
  rfl

/-- Behind the region there is nothing to read. -/
theorem resume_of_le (reader : DocumentGrammar) {source : String} {stop : Nat} {snapshot : Snapshot}
    (h : stop ≤ snapshot.offset) : Reader.resume reader source stop snapshot =
      .ok (.ended (Document.markupPlace (placeAt snapshot.offset snapshot.context))) := by
  simp only [resume_eq_bind, Markup.tape, if_neg (Nat.not_lt.mpr h), Except.map, Tape.group,
    Tape.ended, Group.ofReadings]
  rfl

theorem start_eq_resume (reader : DocumentGrammar) (source : String) (start stop : Nat)
    (state : UInt32) : (Reader.start reader source start stop state :
        Except RangeError (Tape Snapshot Document.Live)) =
      Reader.resume reader source stop
        ⟨start, contextOf reader.form (if isRestartPoint state then state else State.initial.code)⟩ :=
  rfl

theorem start_eq (reader : DocumentGrammar) {source : String} {start stop : Nat} {cs : List Char}
    (state : UInt32) (h : Spans source.toList cs start stop) :
    ∃ context, Reader.start reader source start stop state =
      Document.ofMarkup source
        (((Cursor.mk start context cs).tape reader.form).group reader.grouping) := by
  let accepted := if isRestartPoint state then state else State.initial.code
  let cursor : Cursor := ⟨start, contextOf reader.form accepted, cs⟩
  have hwithin : cursor.Within source.toList stop := h
  exact ⟨cursor.context, (reader.start_eq_resume source start stop state).trans
    (reader.resume_eq hwithin)⟩

end DocumentGrammar

end Relex
