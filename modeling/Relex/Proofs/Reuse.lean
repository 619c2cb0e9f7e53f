import Relex.Proofs.Shift

/-! # Reusing tokens after an edit

Two lexers that stand in front of the same text, in whatever sources, and with the same snapshot but
for its offset, read the same tokens from there on. This needs nothing of how either of them got there:
a lexer is where its snapshot says (`DocumentGrammar.Retraceable`), and what is read from a snapshot is
the reading of the text alone, shifted (`DocumentGrammar.resume_shift`). So the tokens behind an edit
can be kept, and only their offsets change.

Where nothing is open, the state word of a snapshot is enough to start from. The initial state word
means an expression in a fragment, but no snapshot in a fragment has it (`Context.Fits`).
-/

namespace Relex

open Text Markup Document

/-! ## The contexts of a form -/

namespace Markup

/-- The contexts that a reading in some form can come through: none of their states is unlisted, nor
    the initial one in a fragment. -/
structure Context.Fits (form : Form) (context : Context) : Prop where
  listed : context.Throughout State.Listed
  begun : form = .fragment → context.Throughout (· ≠ .initial)

theorem State.lasting_ne_initial : State.Lasting (· ≠ .initial) where
  inMarkup h := by
    rintro rfl
    exact h
  frontmatter _ := State.noConfusion
  close _ := State.noConfusion

theorem contextOf_accepted_fits (form : Form) (code : UInt32) :
    (contextOf form (if isRestartPoint code then code else State.initial.code)).Fits form := by
  refine ⟨Context.listed_iff_throughout.mp (contextOf_accepted_listed form code), ?_⟩
  rintro rfl
  refine Context.throughout_empty ?_
  split
  · exact State.noConfusion
  · rename_i hstate
    intro hinitial
    exact hstate hinitial rfl

theorem Context.Fits.after {form : Form} {context : Context} (h : context.Fits form) (c : Char)
    (cs : List Char) : (context.after form (context.transition c cs)).Fits form :=
  ⟨h.listed.after State.lasting_listed c cs,
    fun hform => (h.begun hform).after State.lasting_ne_initial c cs⟩

theorem Cursor.fits_next {form : Form} (cursor : Cursor) (h : cursor.context.Fits form) :
    (cursor.next form).context.Fits form := by
  obtain ⟨offset, context, rest⟩ := cursor
  cases rest with
  | nil => exact h
  | cons c cs => exact h.after c cs

theorem Cursor.fits_iterate {form : Form} {cursor : Cursor} (h : cursor.context.Fits form) (n : Nat) :
    ((Cursor.next form)^[n] cursor).context.Fits form :=
  Function.Iterate.rec (fun cursor : Cursor => cursor.context.Fits form) h fits_next n

/-- Where nothing is open, the state word says it all. -/
theorem contextOf_code {form : Form} {context : Context} (h : context.Fits form)
    (hnesting : context.nesting = ∅) : contextOf form context.state.code = context := by
  obtain ⟨state, nesting⟩ := context
  have hlisted : state.Listed := h.listed.state
  simp only at hnesting
  simp only [contextOf, hlisted.unflagged, State.ofCode_code, hnesting]
  split
  · exact absurd rfl (h.begun rfl).state
  · rfl

end Markup

namespace DocumentGrammar

/-! ## Where a lexer stands -/

/-- The lexers that can be got from any start by advancing and by restoring snapshots of such lexers of
    the same grammar, which may have been taken in other sources. -/
inductive Begun : Lexer DocumentGrammar Snapshot Live → Prop
  | start {lexer started : Lexer DocumentGrammar Snapshot Live} {source : String} {start stop : Nat}
      {state : UInt32} : lexer.start source start stop state = .ok started → Begun started
  | advance {lexer : Lexer DocumentGrammar Snapshot Live} : Begun lexer → Begun lexer.advance
  | restore {lexer other restored : Lexer DocumentGrammar Snapshot Live} {snapshot : Snapshot} :
      Begun other → other.reader = lexer.reader → other.snapshot = .ok snapshot →
      lexer.restore snapshot = .ok restored → Begun restored

/-- Every snapshot on a tape leads back to where it was taken. -/
structure Retraceable (reader : DocumentGrammar) (source : String) (stop : Nat)
    (tape : Tape Snapshot Live) : Prop where
  honest : Honest tape
  back : ∀ n snapshot, (tape.drop n).place.snapshot = .ok snapshot →
    snapshot.context.Fits reader.form ∧
      Reader.resume reader source stop snapshot = .ok (tape.drop n)

variable {reader : DocumentGrammar} {source : String} {stop : Nat} {snapshot : Snapshot}
  {document : Tape Snapshot Live}

theorem Retraceable.drop (h : Retraceable reader source stop document) (m : Nat) :
    Retraceable reader source stop (document.drop m) where
  honest := h.honest.drop m
  back n snapshot hs := by
    rw [Tape.drop_drop] at hs ⊢
    exact h.back _ snapshot hs

theorem Retraceable.back_place (h : Retraceable reader source stop document)
    (hs : document.place.snapshot = .ok snapshot) :
    snapshot.context.Fits reader.form ∧ Reader.resume reader source stop snapshot = .ok document :=
  h.back 0 snapshot hs

theorem retraceable_of_resume (hfits : snapshot.context.Fits reader.form)
    (h : Reader.resume reader source stop snapshot = .ok document) :
    Retraceable reader source stop document := by
  refine ⟨honest_of_resume (Context.listed_iff_throughout.mpr hfits.listed) h, ?_⟩
  intro n snapshot' hs
  by_cases hlt : snapshot.offset < stop
  · obtain ⟨markup, hmarkup, hdocument⟩ := exists_markup_of_resume h
    rw [Markup.tape, if_pos hlt] at hmarkup
    split at hmarkup
    · rename_i text hregion
      cases hmarkup
      let first : Cursor := ⟨snapshot.offset, snapshot.context, text⟩
      have hfirst : ofMarkup source ((first.tape reader.form).group reader.grouping) =
          .ok document := hdocument
      obtain ⟨l, hcursor, -⟩ := reader.exists_cursor hfirst hs
      refine ⟨?_, reader.resume_drop (region_eq_ok_iff.mp hregion) hfirst hs⟩
      have hcontext : first.context.Fits reader.form := hfits
      rw [hcursor]
      exact Cursor.fits_iterate hcontext l
    · split at hmarkup
      · cases hmarkup
        rw [group_rawTextTape] at hdocument
        obtain rfl : document = ⟨[⟨.rawText, stop, markupPlace (placeAt snapshot.offset
            snapshot.context)⟩], markupPlace (placeAt stop snapshot.context)⟩ := by
          cases hdocument
          rfl
        -- Raw text that is taken whole: either nothing of it was read, or all.
        cases n with
        | zero =>
            cases hs
            exact ⟨hfits, h⟩
        | succ n =>
            have hended : ∀ (r : Reading Snapshot Live) (final : Place Snapshot Live),
                (Tape.mk [r] final).drop (n + 1) = .ended final :=
              fun _ _ => Tape.ext_readings List.drop_nil rfl
            rw [hended] at hs ⊢
            cases hs
            exact ⟨hfits, reader.resume_of_le (Nat.le_refl stop)⟩
      · cases hmarkup
    · cases hmarkup
  · rw [reader.resume_of_le (Nat.not_lt.mp hlt)] at h
    cases h
    have hended : (Tape.ended (markupPlace (placeAt snapshot.offset snapshot.context))).drop n =
        .ended (markupPlace (placeAt snapshot.offset snapshot.context)) :=
      Tape.ext_readings List.drop_nil rfl
    rw [hended] at hs ⊢
    cases hs
    exact ⟨hfits, reader.resume_of_le (Nat.not_lt.mp hlt)⟩

theorem Begun.retraceable {lexer : Lexer DocumentGrammar Snapshot Live} (h : Begun lexer) :
    Retraceable lexer.reader lexer.source lexer.stop lexer.tape := by
  induction h with
  | @start lexer started source start stop state hstarted =>
      have hread := Lexer.read_of_start hstarted
      obtain ⟨hreader, hsource, hstop⟩ := Lexer.fields_of_start hstarted
      rw [start_eq_resume] at hread
      rw [hreader, hsource, hstop]
      exact retraceable_of_resume (contextOf_accepted_fits _ _) hread
  | @advance lexer hlexer ih =>
      have htape : lexer.advance.tape = lexer.tape.drop 1 := (Tape.drop_succ 0 lexer.tape).symm
      rw [htape]
      exact ih.drop 1
  | restore hother hreader hsnapshot hrestored ih =>
      obtain ⟨hread, hfields⟩ := Lexer.read_of_restore hrestored
      obtain ⟨hfits, -⟩ := ih.back_place hsnapshot
      rw [hreader] at hfits
      rw [hfields]
      exact retraceable_of_resume hfits hread

/-- A lexer that stands behind some text, in front of the text that its region ends with. -/
structure StandsAt (lexer : Lexer DocumentGrammar Snapshot Live) (before text : List Char)
    (snapshot : Snapshot) : Prop where
  begun : Begun lexer
  source : ∃ behind, lexer.source.toList = before ++ text ++ behind
  stop : lexer.stop = byteLength (before ++ text)
  offset : lexer.tape.place.offset = byteLength before
  snapshot : lexer.snapshot = .ok snapshot

/-- What it reads is the reading of the text alone. -/
theorem StandsAt.exists_alone {lexer : Lexer DocumentGrammar Snapshot Live} {before text : List Char}
    {snapshot : Snapshot} (h : StandsAt lexer before text snapshot) :
    ∃ alone, Reader.resume lexer.reader (String.ofList text) (byteLength text)
        ⟨0, snapshot.context⟩ = .ok alone ∧ lexer.tape = alone.shift (byteLength before) := by
  have hretraceable := h.begun.retraceable
  obtain ⟨-, hoffset⟩ := hretraceable.honest.place.snapshot_eq_ok h.snapshot
  obtain ⟨-, hresume⟩ := hretraceable.back_place h.snapshot
  obtain ⟨behind, hsource⟩ := h.source
  have hspans : Spans lexer.source.toList text (byteLength before) lexer.stop :=
    ⟨before, behind, hsource, rfl, h.stop.symm⟩
  obtain ⟨alone, halone, hshifted⟩ := lexer.reader.resume_shift snapshot.context hspans
  refine ⟨alone, halone, ?_⟩
  obtain ⟨offset, context⟩ := snapshot
  simp only at hoffset
  rw [hoffset, h.offset, hshifted] at hresume
  exact (Except.ok.inj hresume).symm

/-- Behind an edit, tokens are read as before, with the offsets shifted. -/
theorem tokens_reusable :
    (∀ (first second : Lexer DocumentGrammar Snapshot Live) (u v t : List Char) (p q : Snapshot),
      StandsAt first u t p → StandsAt second v t q → first.reader = second.reader →
      p.context = q.context →
      first.tape.shift (byteLength v) = second.tape.shift (byteLength u)) ∧
    (∀ (lexer : Lexer DocumentGrammar Snapshot Live) (source : String) (text : List Char)
      (start stop : Nat) (state : UInt32), Spans source.toList text start stop →
      ∃ started alone, lexer.start source start stop state = .ok started ∧
        lexer.start (String.ofList text) 0 (byteLength text) state = .ok alone ∧
        started.tape = alone.tape.shift start) ∧
    ∀ (lexer : Lexer DocumentGrammar Snapshot Live) (p : Snapshot), Begun lexer →
      lexer.snapshot = .ok p → p.context.nesting = ∅ →
      ∃ started restored, lexer.start lexer.source p.offset lexer.stop p.context.state.code =
          .ok started ∧ lexer.restore p = .ok restored ∧
        started.tape = restored.tape ∧ restored.tape = lexer.tape := by
  refine ⟨?_, ?_, ?_⟩
  · intro first second u v t p q hfirst hsecond hreader hcontext
    obtain ⟨alone, halone, hbefore⟩ := hfirst.exists_alone
    obtain ⟨same, hsame, hafter⟩ := hsecond.exists_alone
    rw [hreader, hcontext, hsame] at halone
    cases halone
    rw [hbefore, hafter, Tape.shift_shift, Tape.shift_shift, Nat.add_comm]
  · intro lexer source text start stop state hspans
    obtain ⟨alone, halone, hshifted⟩ := lexer.reader.resume_shift
      (contextOf lexer.reader.form (if isRestartPoint state then state else State.initial.code))
      hspans
    rw [← start_eq_resume] at halone hshifted
    obtain ⟨started, hstarted, htape, -⟩ := Lexer.start_of_read hshifted
    obtain ⟨begun, hbegun, hslice, -⟩ := Lexer.start_of_read halone
    exact ⟨started, begun, hstarted, hbegun, by rw [htape, hslice]⟩
  · intro lexer p hbegun hsnapshot hnesting
    obtain ⟨hfits, hresume⟩ := hbegun.retraceable.back_place hsnapshot
    have hread : Reader.start lexer.reader lexer.source p.offset lexer.stop p.context.state.code =
        .ok lexer.tape := by
      rw [start_eq_resume, if_pos hfits.listed.state.isRestartPoint, contextOf_code hfits hnesting]
      exact hresume
    obtain ⟨started, hstarted, htape, -⟩ := Lexer.start_of_read hread
    obtain ⟨restored, hrestored, hback⟩ := Lexer.restore_of_read hresume
    exact ⟨started, restored, hstarted, hrestored, by rw [htape, hback], hback⟩

/-- The text of an element, with a line break put in front of the element, and the element without the
    text around it. -/
theorem tokens_reusable_in_element :
    let reader : DocumentGrammar := ⟨.values, .document⟩
    let inside : Context := ⟨.content, ⟨∅, Stack.push ∅ "b"⟩⟩
    ∃ first second started alone bare restored : Lexer DocumentGrammar Snapshot Live,
      StandsAt first "<b>".toList "x</b>".toList ⟨3, inside⟩ ∧
      StandsAt second "\n<b>".toList "x</b>".toList ⟨4, inside⟩ ∧
      first.tape.shift 4 = second.tape.shift 3 ∧
      Spans "\n<b>x</b>".toList "<b>x</b>".toList 1 9 ∧
      (Lexer.idle reader).start "\n<b>x</b>" 1 9 0 = .ok started ∧
      (Lexer.idle reader).start (String.ofList "<b>x</b>".toList) 0 8 0 = .ok alone ∧
      started.tape = alone.tape.shift 1 ∧ started.snapshot = .ok ⟨1, ⟨.initial, ∅⟩⟩ ∧
      started.start "\n<b>x</b>" 1 9 0 = .ok bare ∧ started.restore ⟨1, ⟨.initial, ∅⟩⟩ = .ok restored ∧
      bare.tape = restored.tape := by
  intro reader inside
  let idle : Lexer DocumentGrammar Snapshot Live := Lexer.idle reader
  have hspans : Spans "\n<b>x</b>".toList "<b>x</b>".toList 1 9 := ⟨['\n'], [], by decide, rfl, rfl⟩
  obtain ⟨hreuse, hslice, hbare⟩ := tokens_reusable
  -- The one source goes on behind the region, and the other one begins with a line break.
  have hfirst : ((idle.start "<b>x</b>&" 0 8 0).toOption.map fun lexer =>
      (lexer.advance.advance.advance.snapshot.toOption.map id,
        lexer.advance.advance.advance.tape.place.offset)) = some (some ⟨3, inside⟩, 3) := by
    decide +kernel
  have hsecond : ((idle.start "\n<b>x</b>" 0 9 0).toOption.map fun lexer =>
      (lexer.advance.advance.advance.advance.snapshot.toOption.map id,
        lexer.advance.advance.advance.advance.tape.place.offset)) = some (some ⟨4, inside⟩, 4) := by
    decide +kernel
  have hpart : ((idle.start "\n<b>x</b>" 1 9 0).toOption.map fun lexer =>
      lexer.snapshot.toOption.map id) = some (some ⟨1, ⟨.initial, ∅⟩⟩) := by
    decide +kernel
  obtain ⟨before, hbefore, hanswer⟩ := Except.exists_of_map_toOption hfirst
  obtain ⟨after, hafter, hanswer'⟩ := Except.exists_of_map_toOption hsecond
  obtain ⟨started, hstarted, hanswer''⟩ := Except.exists_of_map_toOption hpart
  obtain ⟨hsnapshot, hoffset⟩ := Prod.mk.inj hanswer
  obtain ⟨hsnapshot', hoffset'⟩ := Prod.mk.inj hanswer'
  obtain ⟨_, hp, rfl⟩ := Except.exists_of_map_toOption hsnapshot
  obtain ⟨_, hq, rfl⟩ := Except.exists_of_map_toOption hsnapshot'
  obtain ⟨_, hr, rfl⟩ := Except.exists_of_map_toOption hanswer''
  obtain ⟨hreader, hsource, hstop⟩ := Lexer.fields_of_start hbefore
  obtain ⟨hreader', hsource', hstop'⟩ := Lexer.fields_of_start hafter
  have hstands : StandsAt before.advance.advance.advance "<b>".toList "x</b>".toList ⟨3, inside⟩ :=
    ⟨(Begun.start hbefore).advance.advance.advance, ⟨['&'], congrArg String.toList hsource⟩, hstop,
      hoffset, hp⟩
  have hstands' : StandsAt after.advance.advance.advance.advance "\n<b>".toList "x</b>".toList
      ⟨4, inside⟩ :=
    ⟨(Begun.start hafter).advance.advance.advance.advance, ⟨[], congrArg String.toList hsource'⟩,
      hstop', hoffset', hq⟩
  obtain ⟨same, alone, hsame, halone, htape⟩ := hslice idle _ _ 1 9 0 hspans
  rw [hstarted] at hsame
  cases hsame
  obtain ⟨bare, restored, hstartedBare, hrestored, hequal, -⟩ :=
    hbare started _ (.start hstarted) hr rfl
  obtain ⟨-, hsource'', hstop''⟩ := Lexer.fields_of_start hstarted
  rw [hsource'', hstop''] at hstartedBare
  exact ⟨_, _, started, alone, bare, restored, hstands, hstands',
    hreuse _ _ _ _ _ _ _ hstands hstands' (hreader.trans hreader'.symm) rfl, hspans, hstarted, halone,
    htape, hr, hstartedBare, hrestored, hequal⟩

end DocumentGrammar

end Relex
