import Relex.Proofs.Regrouping

/-! # Text up to a delimiter

The text of a comment or of a quoted value goes up to the first place where its delimiter stands. The
markup reads it in pieces that depend on line breaks and words, but in the document it is one token
(`DocumentGrammar.Delimits.tokens`). A document is followed from one cursor of its markup to another
across whole groups only, which is what `DocumentGrammar.Yields` says.
-/

namespace Relex

open Text Markup

namespace Text

variable {source pattern : List Char} {stop offset : Nat}

/-- A pattern stands at an offset of the region that ends at `stop`. -/
def OccursAt (source : List Char) (stop : Nat) (pattern : List Char) (offset : Nat) : Prop :=
  ∃ behind, Spans source behind offset stop ∧ pattern <+: behind

theorem occursAt_iff : OccursAt source stop pattern offset ↔
    (region source offset stop).toOption.any (begins pattern) = true := by
  simp only [OccursAt, ← region_eq_ok_iff, ← begins_iff]
  cases region source offset stop with
  | error error => simp [Except.toOption]
  | ok text => simp [Except.toOption]

instance (source : List Char) (stop : Nat) (pattern : List Char) (offset : Nat) :
    Decidable (OccursAt source stop pattern offset) :=
  decidable_of_iff _ occursAt_iff.symm

/-- The first place at which a pattern stands, when the places in front of it have been looked at. -/
theorem isLeast_occursAt {start : Nat} (hhere : start ≤ offset ∧ OccursAt source stop pattern offset)
    (hbefore : ∀ place < offset, start ≤ place → ¬OccursAt source stop pattern place) :
    IsLeast {place | start ≤ place ∧ OccursAt source stop pattern place} offset := by
  refine ⟨hhere, ?_⟩
  rintro place ⟨hle, hoccurs⟩
  exact Nat.le_of_not_lt fun hlt => hbefore place hlt hle hoccurs

end Text

/-- A tape stands at its first token. -/
theorem Tape.bounds_of_tokens {π ι : Type} {tape : Tape π ι} {token : Token} {later : List Token}
    (h : tape.tokens = token :: later) : tape.place.offset = token.start ∧ tape.stop = token.stop := by
  obtain ⟨readings, final⟩ := tape
  obtain ⟨r, rs, rfl, rfl, -⟩ := List.map_eq_cons_iff.mp h
  exact ⟨rfl, rfl⟩

/-- What is shown for the text between two offsets: one token of a kind that the text has, and no token
    for an empty text. -/
inductive OneToken (source : List Char) (HasKind : List Char → Kind → Prop) (start stop : Nat) :
    List Token → Prop
  | empty (h : start = stop) : OneToken source HasKind start stop []
  | token {text : List Char} {kind : Kind} (hlt : start < stop) (htext : Spans source text start stop)
      (hkind : HasKind text kind) : OneToken source HasKind start stop [⟨kind, start, stop⟩]

theorem OneToken.eq_ite {source : List Char} {kind : Kind} {start stop : Nat} {tokens : List Token}
    (h : OneToken source (fun _ other => other = kind) start stop tokens) :
    tokens = if start < stop then [⟨kind, start, stop⟩] else [] := by
  cases h with
  | empty hsame => rw [if_neg (by omega)]
  | token hlt _ hkind => rw [if_pos hlt, hkind]

namespace DocumentGrammar

open Document

/-- The document for what a cursor of its markup reads. -/
def DocumentFrom (reader : DocumentGrammar) (source : String) (cursor : Cursor)
    (document : Tape Snapshot Live) : Prop :=
  ofMarkup source ((cursor.tape reader.form).group reader.grouping) = .ok document

/-- Over these tokens the document gets from one cursor of its markup to the other. -/
def Yields (reader : DocumentGrammar) (source : String) (here : Cursor) (tokens : List Token)
    (there : Cursor) : Prop :=
  ∀ document, reader.DocumentFrom source here document →
    document.tokens = tokens ++ (document.drop tokens.length).tokens ∧
      reader.DocumentFrom source there (document.drop tokens.length)

section Yields

variable {reader : DocumentGrammar} {source : String} {stop : Nat} {here between there : Cursor}
  {tokens later : List Token} {document : Tape Snapshot Live}

theorem Yields.trans (h : reader.Yields source here tokens between)
    (h' : reader.Yields source between later there) :
    reader.Yields source here (tokens ++ later) there := by
  intro document hdocument
  obtain ⟨htokens, hbetween⟩ := h document hdocument
  obtain ⟨hlater, hthere⟩ := h' _ hbetween
  rw [Tape.drop_drop, ← List.length_append] at hlater hthere
  exact ⟨by rw [htokens, hlater, List.append_assoc], hthere⟩

/-- Pieces of the markup that join are one token. -/
theorem yields_run (there : Cursor) {first : Reading Snapshot Nesting}
    {more : List (Reading Snapshot Nesting)}
    (hwithin : here.Within source.toList stop)
    (htape : here.tape reader.form =
      ⟨first :: (more ++ (there.tape reader.form).readings), (there.tape reader.form).final⟩)
    (hjoins : ∀ s ∈ more, reader.grouping.joins first.kind s.kind = true)
    (hbehind : ∀ s ∈ (there.tape reader.form).readings.head?,
      reader.grouping.joins first.kind s.kind = false)
    (hkind : first.kind ≠ .frontmatterScript) :
    reader.Yields source here
      [⟨Group.kindOf first.kind more, here.offset, there.offset⟩] there := by
  intro document hdocument
  have hapart : Group.Apart (here.tape reader.form).readings :=
    apart_tapeOf reader.form here.context hwithin
  have hstart : first.place.offset = here.offset := by
    have hplace := congrArg (fun tape => tape.place.offset) htape
    rw [Cursor.place_tape] at hplace
    exact hplace.symm
  have hend : (Tape.mk (there.tape reader.form).readings (there.tape reader.form).final).place.offset =
      there.offset := congrArg Place.offset (Cursor.place_tape reader.form there)
  rw [htape] at hapart
  rw [DocumentFrom, htape, Tape.group_append hapart hjoins hbehind] at hdocument
  obtain ⟨rest, hrest, rfl⟩ := exists_of_cons (kindOf_ne_script hkind more) hdocument
  refine ⟨?_, hrest⟩
  rw [← hstart, ← hend]
  rfl

/-- A token of the markup that joins no other is a token of the document. -/
theorem yields_token {offset : Nat} {context behind : Context} {c : Char} {front rest : List Char}
    {transition : Transition} (h : context.transition c (front ++ rest) = transition)
    (hmore : transition.more = front.length)
    (hbehind : context.after reader.form transition = behind)
    (hneighbours : transition.kind.joinsNeighbours = false)
    (hpiece : transition.kind.isValuePiece = false) (hkind : transition.kind ≠ .frontmatterScript)
    (hspans : Spans source.toList (c :: front ++ rest) offset stop) :
    reader.Yields source ⟨offset, context, c :: front ++ rest⟩
      [⟨transition.kind, offset, offset + byteLength (c :: front)⟩]
      ⟨offset + byteLength (c :: front), behind, rest⟩ := by
  let first : Reading Snapshot Nesting :=
    ⟨transition.kind, offset + byteLength (c :: front), placeAt offset context⟩
  have hwithin : (Cursor.mk offset context (c :: front ++ rest)).Within source.toList stop := hspans
  have hnone : ∀ s ∈ ([] : List (Reading Snapshot Nesting)),
      reader.grouping.joins first.kind s.kind = true := List.forall_mem_nil _
  refine yields_run ⟨_, behind, rest⟩ hwithin ?_ hnone ?_ hkind
  · rw [← Cursor.next_token h hmore hbehind, List.cons_append, Cursor.tape_cons, h, hmore,
      List.take_left]
    rfl
  · intro s hs
    simp only [first, Grouping.joins, hneighbours, hpiece, Bool.and_false, Bool.false_and,
      Bool.or_false]

/-- The document shows the context of the cursor, unless it goes on with the script of the
    frontmatter. -/
theorem DocumentFrom.shows {cursor : Cursor} (hstate : cursor.context.state ≠ .frontmatter)
    (hwithin : cursor.Within source.toList stop) (h : reader.DocumentFrom source cursor document) :
    document.place.state = cursor.context.state.code ∧
      document.place.snapshot = .ok ⟨cursor.offset, cursor.context⟩ := by
  have hapart : Group.Apart (cursor.tape reader.form).readings :=
    apart_tapeOf reader.form cursor.context hwithin
  obtain ⟨offset, context, rest⟩ := cursor
  rw [DocumentFrom] at h
  cases rest with
  | nil =>
      rw [Cursor.tape_nil, Tape.ended, Tape.group, Group.ofReadings] at h
      cases h
      exact ⟨rfl, rfl⟩
  | cons c cs =>
      rw [Cursor.tape_cons] at h hapart
      have hkind : (context.transition c cs).kind ≠ .frontmatterScript :=
        mt (context.kind_eq_script_iff c cs).mp hstate
      rw [Tape.cons] at h hapart
      rw [Tape.group_cons, Group.front_of_apart _ hapart] at h
      obtain ⟨rest, -, rfl⟩ := exists_of_cons (kindOf_ne_script hkind _) h
      exact ⟨rfl, rfl⟩

end Yields

/-! ## Up to the delimiter -/

/-- In the region of a source that ends at `stop`, the text of a state is shown as one token up to the
    delimiter, and the delimiter as a token that leads to the next state. The nesting stays. -/
structure Delimits (reader : DocumentGrammar) (source : String) (stop : Nat) (nesting : Nesting)
    (inside next : State) (delimiter : List Char) (HasKind : List Char → Kind → Prop)
    (closing : Kind) : Prop where
  text : ∀ {offset : Nat} {front behind : List Char}, front ≠ [] →
    (∀ k < front.length, ¬delimiter <+: (front ++ behind).drop k) →
    (behind = [] ∨ delimiter <+: behind) → Spans source.toList (front ++ behind) offset stop →
    ∃ kind, HasKind front kind ∧
      reader.Yields source ⟨offset, ⟨inside, nesting⟩, front ++ behind⟩
        [⟨kind, offset, offset + byteLength front⟩]
        ⟨offset + byteLength front, ⟨inside, nesting⟩, behind⟩
  delimiter : ∀ {offset : Nat} {rest : List Char}, Spans source.toList (delimiter ++ rest) offset stop →
    reader.Yields source ⟨offset, ⟨inside, nesting⟩, delimiter ++ rest⟩
      [⟨closing, offset, offset + byteLength delimiter⟩]
      ⟨offset + byteLength delimiter, ⟨next, nesting⟩, rest⟩

section Delimits

variable {reader : DocumentGrammar} {source : String} {stop : Nat} {nesting : Nesting}
  {inside next : State} {delimiter : List Char} {HasKind : List Char → Kind → Prop} {closing : Kind}
  {offset : Nat} {front behind text : List Char} {cursor : Cursor} {opening : Token}
  {document : Tape Snapshot Live}

/-- The text in front of the delimiter, or of the end, is one token, unless it is empty. -/
theorem Delimits.exists_front
    (h : reader.Delimits source stop nesting inside next delimiter HasKind closing)
    (hfirst : ∀ k < front.length, ¬delimiter <+: (front ++ behind).drop k)
    (hbehind : behind = [] ∨ delimiter <+: behind)
    (hspans : Spans source.toList (front ++ behind) offset stop) :
    ∃ tokens, OneToken source.toList HasKind offset (offset + byteLength front) tokens ∧
      reader.Yields source ⟨offset, ⟨inside, nesting⟩, front ++ behind⟩ tokens
        ⟨offset + byteLength front, ⟨inside, nesting⟩, behind⟩ := by
  cases front with
  | nil => exact ⟨[], .empty rfl, fun document hdocument => ⟨rfl, hdocument⟩⟩
  | cons c front =>
      obtain ⟨kind, hkind, hyields⟩ := h.text (List.cons_ne_nil c front) hfirst hbehind hspans
      have hpos := byteLength_pos c front
      exact ⟨_, .token (by omega) hspans.of_append_left hkind, hyields⟩

/-- What is shown behind an opening token. -/
theorem Delimits.tokens
    (h : reader.Delimits source stop nesting inside next delimiter HasKind closing)
    (hnext : next ≠ .frontmatter)
    (hspans : Spans source.toList text offset stop)
    (hopening : reader.Yields source cursor [opening] ⟨offset, ⟨inside, nesting⟩, text⟩)
    (hdocument : reader.DocumentFrom source cursor document) :
    (∀ close,
      IsLeast {place | offset ≤ place ∧ OccursAt source.toList stop delimiter place} close →
      ∃ tokens, OneToken source.toList HasKind offset close tokens ∧
        let behind := document.drop (tokens.length + 2)
        document.tokens = opening ::
          (tokens ++ ⟨closing, close, close + byteLength delimiter⟩ :: behind.tokens) ∧
        behind.place.state = next.code ∧
        behind.place.snapshot = .ok ⟨close + byteLength delimiter, ⟨next, nesting⟩⟩) ∧
    ((¬∃ place ≥ offset, OccursAt source.toList stop delimiter place) →
      ∃ tokens, OneToken source.toList HasKind offset stop tokens ∧
        document.tokens = opening :: tokens) := by
  constructor
  · intro close hleast
    obtain ⟨front, behind, rfl, rfl, hhere, hfirst⟩ := hspans.exists_front_of_isLeast hleast
    obtain ⟨tokens, hone, hfront⟩ := h.exists_front hfirst (.inr hhere) hspans
    obtain ⟨rest, rfl⟩ := hhere
    have hclosing := h.delimiter hspans.of_append_right
    have hyields := (hopening.trans hfront).trans hclosing
    obtain ⟨htokens, hrest⟩ := hyields document hdocument
    have hlength : ([opening] ++ tokens ++ [(⟨closing, offset + byteLength front,
        offset + byteLength front + byteLength delimiter⟩ : Token)]).length = tokens.length + 2 := by
      simp only [List.length_append, List.length_singleton]
      omega
    rw [hlength] at htokens hrest
    have hthere : (Cursor.mk _ ⟨next, nesting⟩ rest).Within source.toList stop :=
      hspans.of_append_right.of_append_right
    refine ⟨tokens, hone, ?_, hrest.shows hnext hthere⟩
    rw [htokens]
    simp
  · intro hnone
    have hfirst : ∀ k < text.length, ¬delimiter <+: (text ++ []).drop k := by
      intro k _ hhere
      rw [List.append_nil] at hhere
      exact hnone ⟨_, Nat.le_add_right _ _, _, hspans.drop k, hhere⟩
    rw [← List.append_nil text] at hspans hopening
    obtain ⟨tokens, hone, hfront⟩ := h.exists_front hfirst (.inl rfl) hspans
    obtain ⟨htokens, hrest⟩ := (hopening.trans hfront) document hdocument
    have hstop : stop = offset + byteLength text := by simpa using hspans.stop_eq
    refine ⟨tokens, hstop ▸ hone, ?_⟩
    rw [DocumentFrom, Cursor.tape_nil, Tape.ended, Tape.group, Group.ofReadings] at hrest
    rw [htokens, ← Except.ok.inj hrest]
    simp [Tape.tokens]

end Delimits

/-! ## Lexers -/

section Lexers

variable {lexer started : Lexer DocumentGrammar Snapshot Live} {reader : DocumentGrammar}
  {source : String} {start stop n : Nat} {kind : Kind} {document : Tape Snapshot Live} {cursor : Cursor}

/-- Where a lexer that started with nothing open stands in front of a token outside the frontmatter, a
    cursor of the markup stands that started with nothing open. -/
theorem exists_documentFrom (hstarted : lexer.start source start stop 0 = .ok started)
    (hkind : (Session.advanceTimes n started).tape.kind? = some kind)
    (hscript : ∀ script, kind ≠ .script script) :
    ∃ l text,
      let cursor : Cursor :=
        (Cursor.next lexer.reader.form)^[l] ⟨start, contextOf lexer.reader.form 0, text⟩
      cursor.Within source.toList stop ∧
      (Session.advanceTimes n started).tape.place.snapshot = .ok ⟨cursor.offset, cursor.context⟩ ∧
      lexer.reader.DocumentFrom source cursor (Session.advanceTimes n started).tape := by
  rw [Lexer.tape_advanceTimes] at hkind ⊢
  let form := lexer.reader.form
  have hread : Reader.resume lexer.reader source stop ⟨start, contextOf form 0⟩ = .ok started.tape :=
    (lexer.reader.start_eq_resume source start stop 0).symm.trans (Lexer.read_of_start hstarted)
  have hraw : (contextOf form 0).state ≠ .rawText := by
    cases form <;> decide
  obtain ⟨markup, hmarkup, hdocument⟩ := exists_markup_of_resume hread
  obtain ⟨text, htext, rfl⟩ := Cursor.exists_of_tape hraw hmarkup
  -- In front of such a token a snapshot can be taken, and it is that of a cursor.
  have hlisted : (contextOf form 0).Listed := contextOf_accepted_listed form 0
  have hshown := ((honest_of_resume hlisted hread).drop n).place
  rw [hkind] at hshown
  cases hshown with
  | script => exact absurd rfl (hscript _)
  | markup _ _ hshows _ =>
      obtain ⟨l, hsnapshot, hrest⟩ := lexer.reader.exists_cursor hdocument hshows.snapshot
      refine ⟨l, text, ?_, ?_, hrest⟩
      · rcases htext with rfl | hspans
        · have hend : (Cursor.next form)^[l] ⟨start, contextOf form 0, []⟩ =
              ⟨start, contextOf form 0, []⟩ := Function.iterate_fixed rfl l
          rw [hend, Cursor.tape_nil, Tape.ended, Tape.group, Group.ofReadings] at hrest
          rw [← Except.ok.inj hrest] at hkind
          cases hkind
        · have hwithin : (Cursor.mk start (contextOf form 0) text).Within source.toList stop := hspans
          exact hwithin.iterate l
      · rw [hshows.snapshot, hsnapshot]

/-- The kind of such a token, if it is no piece of a value, is that of the token of the markup. -/
theorem DocumentFrom.exists_transition (h : reader.DocumentFrom source cursor document)
    (hwithin : cursor.Within source.toList stop) (hkind : document.kind? = some kind)
    (hscript : ∀ script, kind ≠ .script script) (hpiece : kind.isValuePiece = false) :
    ∃ c cs, cursor.rest = c :: cs ∧ (cursor.context.transition c cs).kind = kind := by
  have hapart : Group.Apart (cursor.tape reader.form).readings :=
    apart_tapeOf reader.form cursor.context hwithin
  have hordered : (cursor.tape reader.form).Ascending :=
    Tape.ascending_of_covers (Cursor.covers_tape reader.form hwithin)
  obtain ⟨s, hs, hsame⟩ := Option.map_eq_some_iff.mp hkind
  obtain ⟨r, hr, hstands⟩ := standsFor_head (fun r hr => hordered.offset_lt_stop hr) h hs
  obtain ⟨offset, context, rest⟩ := cursor
  cases rest with
  | nil =>
      rw [Cursor.tape_nil, Tape.ended, Tape.group, Group.ofReadings] at hr
      cases hr
  | cons c cs =>
      rw [Cursor.tape_cons, Tape.cons] at hr hapart
      rw [Tape.group_cons, Group.front_of_apart _ hapart] at hr
      cases hr
      cases hstands with
      | lexeme _ hlexeme _ => exact absurd (hsame.symm.trans hlexeme) (hscript _)
      | kept _ hkept _ =>
          refine ⟨c, cs, rfl, ?_⟩
          have hgroup : Group.kindOf (context.transition c cs).kind _ = kind := hkept.symm.trans hsame
          rw [Group.kindOf] at hgroup
          split at hgroup
          · rw [← hgroup] at hpiece
            cases hpiece
          · exact hgroup

end Lexers

end DocumentGrammar

end Relex
