import Relex.Proofs.DelimitedText
import Relex.Proofs.LineEndReading
import Relex.Proofs.TokenText

/-! # Comments

A comment is read line by line, and each line is searched for the sign behind the comment. The lines are
one token again in the document, which reaches up to the first such sign in the text
(`DocumentGrammar.comment_is_one_token`). What was open in front of the comment is open behind it, and text
goes on, since a comment begins only where text is read: in content, or in the initial state, in which
nothing is open yet (`Cursor.nesting_of_initial`).
-/

namespace Relex

open Text

namespace Text

/-- A search from the front goes up to the first place, or to the end. -/
theorem seek_append {here : List Char → Bool} {front behind : List Char}
    (hfirst : ∀ k < front.length, here ((front ++ behind).drop k) = false)
    (hbehind : behind = [] ∨ here behind = true) : seek here (front ++ behind) = front.length := by
  have hend : seek here behind = 0 := by
    cases behind with
    | nil => rfl
    | cons c cs => rw [seek_cons, if_pos (hbehind.resolve_left (List.cons_ne_nil c cs))]
  rw [seek_eq_add (by simp) hfirst, List.drop_left, hend, Nat.add_zero]

end Text

namespace Markup

variable {form : Form} {nesting : Nesting} {ahead : List Char} {state next : State} {kind : Kind}
  {change : Change} {c : Char} {cs : List Char}

/-! ## Where a comment begins -/

theorem Rule.content_of_commentStart (h : (content nesting c cs).kind = .commentStart) :
    begins ['<', '!', '-', '-'] (c :: cs) = true ∧
      content nesting c cs = ⟨.commentStart, 3, .comment, .keep⟩ := by
  revert h
  rw [content]
  split
  · rename_i hsign
    exact fun _ => ⟨hsign, rfl⟩
  repeat' split
  all_goals intro hkind
  all_goals cases hkind

/-- A comment begins in text only. -/
theorem Context.transition_of_commentStart {context : Context}
    (hexpects : Expects context.state (c :: cs))
    (h : (context.transition c cs).kind = .commentStart) :
    (context.state = .initial ∨ context.state = .content) ∧
      begins ['<', '!', '-', '-'] (c :: cs) = true ∧
      context.transition c cs = ⟨.commentStart, 3, .comment, .keep⟩ := by
  have hreads := context.reads_kind c cs
  rw [h] at hreads
  obtain ⟨state, nesting⟩ := context
  cases state with
  | content => exact ⟨.inr rfl, Rule.content_of_commentStart h⟩
  | initial =>
      refine ⟨.inl rfl, ?_⟩
      revert h
      simp only [Context.transition, Rule.initial]
      split
      · intro hkind
        cases hkind
      split
      · intro hkind
        cases hkind
      · exact Rule.content_of_commentStart
  | frontmatterClose =>
      have hfence : begins fence (c :: cs) = true := hexpects.resolve_left (List.cons_ne_nil c cs)
      simp only [Context.transition, Rule.frontmatterClose, if_pos hfence] at h
      cases h
  | unlisted code beyond => exact hexpects.elim
  | _ => cases hreads

/-! ## The initial state -/

/-- No brace leads back to the initial state, and nothing is opened in it. -/
theorem Move.nesting_of_initial (hmove : Move nesting ahead state kind next change)
    (hclosing : Closing form nesting.expressions.entries)
    (hinitial : state = .initial → nesting = ∅) (hnext : next = .initial) :
    nesting.apply change = ∅ := by
  cases hmove with
  | stay hahead => exact hinitial hnext
  | closeBrace htop =>
      obtain ⟨outer, hentries⟩ := List.head?_eq_some_iff.mp htop
      rw [hentries] at hclosing
      have hcases := hclosing.stateBehind_cases
      simp [hnext] at hcases
  | pass hcases => rcases hcases with rfl | rfl | rfl | rfl <;> cases hnext
  | alongTag hstate hcases => rcases hcases with rfl | rfl | rfl | rfl <;> cases hnext
  | openElement hcases => rcases hcases with rfl | rfl <;> cases hnext
  | closeElement hcases => rcases hcases with rfl | rfl <;> cases hnext
  | _ => cases hnext

theorem Cursor.next_nesting_of_initial {cursor : Cursor} (harrived : cursor.Arrived form)
    (hinitial : cursor.context.state = .initial → cursor.context.nesting = ∅) :
    (cursor.next form).context.state = .initial → (cursor.next form).context.nesting = ∅ := by
  obtain ⟨offset, context, rest⟩ := cursor
  cases rest with
  | nil => exact hinitial
  | cons c cs =>
      intro hstate
      exact (Context.moves context c cs harrived.expected).nesting_of_initial harrived.closing hinitial
        (Context.next_of_after (by decide) (by decide) hstate)

/-- From a start with nothing open, nothing is open in the initial state. -/
theorem Cursor.nesting_of_initial (offset : Nat) (text : List Char) (n : Nat) :
    let cursor : Cursor := (Cursor.next form)^[n] ⟨offset, contextOf form 0, text⟩
    cursor.context.state = .initial → cursor.context.nesting = ∅ := by
  induction n with
  | zero => exact fun _ => rfl
  | succ n ih =>
      simp only [Function.iterate_succ_apply']
      exact Cursor.next_nesting_of_initial ((Cursor.Arrived.start form offset text).iterate n) ih

/-- Where a comment can begin, text is read behind whatever leaves the nesting as it is. -/
theorem Cursor.ambientState_of_text (form : Form) (offset : Nat) (text : List Char) (n : Nat) :
    let cursor : Cursor := (Cursor.next form)^[n] ⟨offset, contextOf form 0, text⟩
    cursor.context.state = .initial ∨ cursor.context.state = .content →
    cursor.context.nesting.ambientState form = .content := by
  intro cursor hstate
  have harrived : cursor.Arrived form := (Cursor.Arrived.start form offset text).iterate n
  rcases hstate with hstate | hstate
  · have hform : form = .document := by
      cases form with
      | document => rfl
      | fragment => exact absurd (harrived.fragment rfl) (by rw [hstate]; exact id)
    rw [Cursor.nesting_of_initial offset text n hstate, hform]
    rfl
  · exact harrived.content hstate

end Markup

namespace DocumentGrammar

open Markup Document

section Comment

variable {reader : DocumentGrammar} {source : String} {stop : Nat} {nesting : Nesting}

/-- The lines of a comment are one token up to the sign behind the comment. -/
theorem delimits_comment (hambient : nesting.ambientState reader.form = .content) :
    reader.Delimits source stop nesting .comment .content commentClose
      (fun _ kind => kind = .commentCharacters) .commentEnd where
  text := by
    intro offset front behind hne hfirst hbehind hspans
    obtain ⟨c, cs, rfl⟩ := List.exists_cons_of_ne_nil hne
    have hopen : ∀ k < (c :: cs).length, closesComment ((c :: cs ++ behind).drop k) = false :=
      fun k hk => Bool.eq_false_iff.mpr (mt begins_iff.mp (hfirst k hk))
    have hreach : seek closesComment (c :: (cs ++ behind)) = (c :: cs).length :=
      seek_append hopen (hbehind.imp_right begins_iff.mpr)
    have hbegins : closesComment (c :: (cs ++ behind)) = false := hopen 0 (Nat.zero_lt_succ _)
    obtain ⟨first, more, hkinds, -, htape⟩ := exists_commentRun reader.form offset nesting hbegins
    have hnext : ∀ s ∈ (tapeOf reader.form (offset + byteLength (c :: cs)) ⟨.comment, nesting⟩
        ((c :: (cs ++ behind)).drop (seek closesComment (c :: (cs ++ behind))))).readings.head?,
        s.kind ≠ .commentCharacters := fun s => kind_ne_behind_comment
    rw [hreach] at htape hnext
    simp only [← List.cons_append, List.take_left, List.drop_left] at htape hnext
    obtain ⟨hfirstKind, hmoreKinds⟩ := List.forall_mem_cons.mp hkinds
    have hkind : Group.kindOf first.kind more = .commentCharacters := by
      rw [hfirstKind]
      exact Group.kindOf_of_forall hmoreKinds
    have hwithin : (Cursor.mk offset ⟨.comment, nesting⟩ (c :: cs ++ behind)).Within
        source.toList stop := hspans
    refine ⟨.commentCharacters, rfl, ?_⟩
    rw [← hkind]
    refine yields_run ⟨_, ⟨.comment, nesting⟩, behind⟩ hwithin htape ?_ ?_ ?_
    · intro s hs
      rw [hfirstKind, hmoreKinds s hs]
      rfl
    · intro s hs
      rw [hfirstKind, Bool.eq_false_iff]
      intro hjoins
      rcases Grouping.joins_iff.mp hjoins with ⟨hsame, -⟩ | ⟨-, hpiece, -⟩
      · exact hnext s hs hsame.symm
      · cases hpiece
    · rw [hfirstKind]
      exact Kind.noConfusion
  delimiter := by
    intro offset rest hspans
    have hbehind : Context.after reader.form ⟨.comment, nesting⟩ ⟨.commentEnd, 2, .content, .keep⟩ =
        ⟨.content, nesting⟩ := congrArg (Context.mk · nesting) hambient
    have htransition : Context.transition ⟨.comment, nesting⟩ '-' (['-', '>'] ++ rest) =
        ⟨.commentEnd, 2, .content, .keep⟩ := rfl
    exact yields_token htransition rfl hbehind rfl rfl Kind.noConfusion hspans

end Comment

/-- Behind the sign in front of a comment, everything up to the first sign behind it is one token, and
    this sign leads back to text, with the nesting in front of the comment. Without such a sign the
    comment is all there is. -/
theorem comment_is_one_token (lexer started : Lexer DocumentGrammar Snapshot Live) (source : String)
    (start stop : Nat) (hstarted : lexer.start source start stop 0 = .ok started) (n : Nat) :
    let here := (Session.advanceTimes n started).tape
    here.kind? = some .commentStart →
    ∃ context, here.place.snapshot = .ok ⟨here.place.offset, context⟩ ∧
      here.stop = here.place.offset + 4 ∧
      (∀ close,
        IsLeast {offset | here.stop ≤ offset ∧ OccursAt source.toList stop commentClose offset}
          close →
        let texts : List Token :=
          if here.stop < close then [⟨.commentCharacters, here.stop, close⟩] else []
        let behind := (Session.advanceTimes (n + texts.length + 2) started).tape
        here.tokens = ⟨.commentStart, here.place.offset, here.stop⟩ ::
          (texts ++ ⟨.commentEnd, close, close + 3⟩ :: behind.tokens) ∧
        behind.place.state = State.content.code ∧
        behind.place.snapshot = .ok ⟨close + 3, ⟨.content, context.nesting⟩⟩) ∧
      ((¬∃ offset ≥ here.stop, OccursAt source.toList stop commentClose offset) →
        here.tokens = ⟨.commentStart, here.place.offset, here.stop⟩ ::
          if here.stop < stop then [⟨.commentCharacters, here.stop, stop⟩] else []) := by
  intro here hkind
  obtain ⟨l, text, hwithin, hsnapshot, hdocument⟩ :=
    exists_documentFrom hstarted hkind fun _ => Kind.noConfusion
  have harrived := (Cursor.Arrived.start lexer.reader.form start text).iterate l
  have hambient := Cursor.ambientState_of_text lexer.reader.form start text l
  generalize (Cursor.next lexer.reader.form)^[l] ⟨start, contextOf lexer.reader.form 0, text⟩ = cursor
    at hwithin hsnapshot hdocument harrived hambient
  obtain ⟨c, cs, hrest, hsign⟩ := hdocument.exists_transition hwithin hkind
    (fun _ => Kind.noConfusion) rfl
  obtain ⟨offset, context, _⟩ := cursor
  obtain rfl := hrest
  obtain ⟨hstate, hbegins, htransition⟩ := Context.transition_of_commentStart harrived.expected hsign
  obtain ⟨rest, hopens⟩ := begins_iff.mp hbegins
  cases hopens
  have hspans : Spans source.toList ('<' :: ['!', '-', '-'] ++ rest) offset stop := hwithin
  have hopening : lexer.reader.Yields source ⟨offset, context, '<' :: ['!', '-', '-'] ++ rest⟩
      [⟨.commentStart, offset, offset + 4⟩] ⟨offset + 4, ⟨.comment, context.nesting⟩, rest⟩ :=
    yields_token htransition rfl rfl rfl rfl Kind.noConfusion hspans
  obtain ⟨hplace, hstop⟩ := Tape.bounds_of_tokens (hopening _ hdocument).1
  have hplace : here.place.offset = offset := hplace
  have hstop : here.stop = offset + 4 := hstop
  have htext : Spans source.toList rest (offset + 4) stop := hspans.of_append_right
  obtain ⟨hends, hnone⟩ := (delimits_comment (hambient hstate)).tokens State.noConfusion htext
    hopening hdocument
  rw [hplace, hstop]
  refine ⟨context, hsnapshot, rfl, ?_, ?_⟩
  · intro close hleast
    obtain ⟨texts, hone, hshown⟩ := hends close hleast
    obtain rfl := hone.eq_ite
    simp only [Nat.add_assoc, Lexer.tape_advanceTimes_add]
    exact hshown
  · intro hnowhere
    obtain ⟨texts, hone, htokens⟩ := hnone hnowhere
    obtain rfl := hone.eq_ite
    exact htokens

/-- In an element between braces, with parts of the sign at the ends of lines. -/
theorem comment_is_one_token_in_braces :
    let source := "\x7b<p><!--a--\n->é\n-->b"
    IsLeast {offset | 8 ≤ offset ∧ OccursAt source.toList 21 commentClose offset} 17 ∧
    ∃ started context,
      (Lexer.idle ⟨.runs, .document⟩ : Lexer DocumentGrammar Snapshot Live).start source 0 21 0 =
        .ok started ∧
      (Session.advanceTimes 4 started).tape.kind? = some .commentStart ∧
      (Session.advanceTimes 4 started).tape.place.snapshot = .ok ⟨4, context⟩ ∧
      context.nesting.elements.entries = ["p"] ∧
      (Session.advanceTimes 4 started).tape.tokens =
        ⟨.commentStart, 4, 8⟩ :: ⟨.commentCharacters, 8, 17⟩ :: ⟨.commentEnd, 17, 20⟩ ::
          (Session.advanceTimes 7 started).tape.tokens ∧
      (Session.advanceTimes 7 started).tape.place.snapshot = .ok ⟨20, ⟨.content, context.nesting⟩⟩ := by
  intro source
  let lexer : Lexer DocumentGrammar Snapshot Live := Lexer.idle ⟨.runs, .document⟩
  have hleast : IsLeast {offset | 8 ≤ offset ∧ OccursAt source.toList 21 commentClose offset} 17 := by
    have hbefore : ∀ offset < 17, 8 ≤ offset → ¬OccursAt source.toList 21 commentClose offset := by
      decide +kernel
    exact isLeast_occursAt ⟨by decide, by decide +kernel⟩ hbefore
  have hplace : (lexer.start source 0 21 0).toOption.map (fun started =>
      ((Session.advanceTimes 4 started).tape.kind?, (Session.advanceTimes 4 started).tape.stop,
        (Session.advanceTimes 4 started).tape.place.offset,
        (Session.advanceTimes 4 started).tape.place.snapshot.toOption.map fun snapshot =>
          snapshot.context.nesting.elements.entries)) =
      some (some .commentStart, 8, 4, some ["p"]) := by
    decide +kernel
  obtain ⟨started, hstarted, hvalues⟩ := Except.exists_of_map_toOption hplace
  simp only [Prod.mk.injEq] at hvalues
  obtain ⟨hkind, hstop, hoffset, helements⟩ := hvalues
  obtain ⟨context, hsnapshot, -, hends, -⟩ :=
    comment_is_one_token lexer started source 0 21 hstarted 4 hkind
  rw [hoffset] at hsnapshot
  rw [hstop, hoffset] at hends
  obtain ⟨htokens, -, hbehind⟩ := hends 17 hleast
  rw [hsnapshot] at helements
  exact ⟨hleast, started, context, hstarted, hkind, hsnapshot, Option.some.inj helements, htokens,
    hbehind⟩

end DocumentGrammar

end Relex
