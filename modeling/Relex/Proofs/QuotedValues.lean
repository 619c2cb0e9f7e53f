import Relex.Proofs.DelimitedText
import Relex.Proofs.TokenText

/-! # Quoted values

The text between quotes is read in pieces: words, the white space on a line, and references to
characters. With whole values joined the pieces are one token again, up to the closing quote, or to the
end where there is none (`DocumentGrammar.quoted_value_is_one_token`). It is a reference if the pieces are
references and nothing else, and that depends on the text alone, since a reference is found as a whole
whatever stands behind it (`Markup.references_cons_iff`).
-/

namespace Relex

open Text Unicode

namespace Markup

/-! ## Texts of references -/

section References

variable {c : Char} {cs part later behind : List Char} {more : Nat}

theorem Reference.eq_ampersand (h : Reference (c :: cs)) : c = '&' := by
  generalize htext : c :: cs = text at h
  cases h with
  | hex => exact (List.cons.inj htext).1
  | decimal => exact (List.cons.inj htext).1
  | named => exact (List.cons.inj htext).1

theorem Reference.ne_nil {text : List Char} (h : Reference text) : text ≠ [] := by
  cases h with
  | hex => exact List.cons_ne_nil _ _
  | decimal => exact List.cons_ne_nil _ _
  | named => exact List.cons_ne_nil _ _

theorem references_iff_exists : References (c :: cs) ↔ c = '&' ∧ ∃ part later, cs = part ++ later ∧
    Reference ('&' :: part) ∧ (later = [] ∨ References later) := by
  constructor
  · rintro ⟨parts, hne, hparts, htext⟩
    obtain ⟨first, parts, rfl⟩ := List.exists_cons_of_ne_nil hne
    obtain ⟨hfirst, hlater⟩ := List.forall_mem_cons.mp hparts
    obtain ⟨d, part, rfl⟩ := List.exists_cons_of_ne_nil hfirst.ne_nil
    obtain rfl := hfirst.eq_ampersand
    rw [List.flatten_cons, List.cons_append] at htext
    obtain ⟨rfl, rfl⟩ := List.cons.inj htext
    refine ⟨rfl, part, parts.flatten, rfl, hfirst, ?_⟩
    cases parts with
    | nil => exact .inl rfl
    | cons second parts => exact .inr ⟨_, List.cons_ne_nil _ _, hlater, rfl⟩
  · rintro ⟨rfl, part, later, rfl, hpart, rfl | ⟨parts, -, hparts, rfl⟩⟩
    · exact .of_reference (by rwa [List.append_nil])
    · exact ⟨('&' :: part) :: parts, List.cons_ne_nil _ _, List.forall_mem_cons.mpr ⟨hpart, hparts⟩, rfl⟩

/-- What is found at the front of references is the first of them. -/
theorem references_cons_iff
    (hfound : characterReference? (part ++ later ++ behind) = some part.length) :
    References ('&' :: (part ++ later)) ↔ later = [] ∨ References later := by
  constructor
  · intro h
    obtain ⟨-, first, rest, hsplit, hfirst, hrest⟩ := references_iff_exists.mp h
    have hwhole := characterReference_of_reference hfirst (rest ++ behind)
    rw [← List.append_assoc, ← hsplit, hfound] at hwhole
    obtain ⟨-, rfl⟩ := List.append_inj hsplit (Option.some.inj hwhole)
    exact hrest
  · intro hlater
    have hpart := reference_of_characterReference hfound
    rw [List.append_assoc, List.take_left] at hpart
    exact references_iff_exists.mpr ⟨rfl, part, later, rfl, hpart, hlater⟩

/-- Where no reference is found, the text is not one of references. -/
theorem not_references (hnone : c ≠ '&' ∨ characterReference? (cs ++ behind) = none) :
    ¬References (c :: cs) := by
  intro h
  obtain ⟨rfl, first, rest, rfl, hfirst, -⟩ := references_iff_exists.mp h
  have hwhole := characterReference_of_reference hfirst (rest ++ behind)
  rw [← List.append_assoc, hnone.resolve_left (· rfl)] at hwhole
  cases hwhole

end References

/-- The kind of a value with a text. -/
inductive ValueKind (text : List Char) : Kind → Prop
  | reference (h : References text) : ValueKind text .charEntityRef
  | value (h : ¬References text) : ValueKind text .attributeValue

/-! ## The pieces of a value -/

/-- The text between these quotes is read in this state. -/
inductive Quotes : Char → State → Prop
  | double : Quotes '\x22' .doubleQuotedValue
  | single : Quotes '\x27' .singleQuotedValue

namespace Quotes

variable {quote c : Char} {state : State} (h : Quotes quote state)
include h

theorem eq_or : quote = '\x22' ∨ quote = '\x27' := by
  cases h with
  | double => exact .inl rfl
  | single => exact .inr rfl

theorem transition_eq (nesting : Nesting) (c : Char) (cs : List Char) :
    Context.transition ⟨state, nesting⟩ c cs = Rule.quotedValue c cs quote state := by
  cases h with
  | double => rfl
  | single => rfl

theorem after_keep (form : Form) (nesting : Nesting) {transition : Transition}
    (hnext : transition.next = state) (hchange : transition.change = .keep) :
    Context.after form ⟨state, nesting⟩ transition = ⟨state, nesting⟩ := by
  rw [Context.after, hnext, hchange]
  cases h with
  | double => rfl
  | single => rfl

end Quotes

/-- A piece is a reference where one is found, and text elsewhere. -/
theorem Rule.quotedValue_piece {quote c : Char} (hc : c ≠ quote) (cs : List Char) (state : State) :
    (∃ more, c = '&' ∧ characterReference? cs = some more ∧
      quotedValue c cs quote state = ⟨.charEntityRef, more, state, .keep⟩) ∨
    (c ≠ '&' ∨ characterReference? cs = none) ∧
      (quotedValue c cs quote state).kind = .attributeValue := by
  rw [quotedValue, if_neg hc]
  split
  · rename_i hampersand
    cases hfound : characterReference? cs with
    | some more => exact .inl ⟨more, hampersand, rfl, rfl⟩
    | none => exact .inr ⟨.inr rfl, rfl⟩
  · rename_i hother
    refine .inr ⟨.inl hother, ?_⟩
    split
    · rfl
    · rfl

/-- The text of a value is read in pieces, and all of them are references exactly if the text is one of
    references. -/
theorem exists_valuePieces (form : Form) (nesting : Nesting) {quote : Char} {state : State}
    (hquotes : Quotes quote state) {front behind : List Char} (hfront : quote ∉ front)
    (hbehind : ∀ c ∈ behind.head?, c = quote) (offset : Nat) :
    let later := (Cursor.mk (offset + byteLength front) ⟨state, nesting⟩ behind).tape form
    ∃ pieces : List (Reading Snapshot Nesting), (∀ s ∈ pieces, s.kind.isValuePiece = true) ∧
      (pieces = [] ↔ front = []) ∧
      ((∀ s ∈ pieces, s.kind = .charEntityRef) ↔ front = [] ∨ References front) ∧
      (Cursor.mk offset ⟨state, nesting⟩ (front ++ behind)).tape form =
        ⟨pieces ++ later.readings, later.final⟩ := by
  induction hlength : front.length using Nat.strongRecOn generalizing front offset with
  | ind n ih =>
      cases front with
      | nil => exact ⟨[], List.forall_mem_nil _, by simp, by simp, rfl⟩
      | cons c cs =>
          obtain ⟨hc, hcs⟩ := not_or.mp (mt List.mem_cons.mpr hfront)
          have hpass := Rule.quotedValue_passes hquotes.eq_or (Ne.symm hc) (cs ++ behind) state
          obtain ⟨piece, later, rfl, htake, hdrop⟩ := hpass.clear.exists_append
            fun d hd => List.mem_singleton.mpr (hbehind d hd)
          have hkind := Rule.quotedValue_piece (Ne.symm hc) (piece ++ later ++ behind) state
          have htransition := hquotes.transition_eq nesting c (piece ++ later ++ behind)
          generalize Rule.quotedValue c (piece ++ later ++ behind) quote state = transition
            at hpass htake hdrop hkind htransition
          have hafter := hquotes.after_keep form nesting hpass.next hpass.change
          let first : Reading Snapshot Nesting :=
            ⟨transition.kind, offset + byteLength (c :: piece), placeAt offset ⟨state, nesting⟩⟩
          obtain ⟨pieces, hpieces, hnil, hreferences, htape⟩ := ih later.length
            (by simp only [← hlength, List.length_cons, List.length_append]; omega)
            (fun hmem => hcs (List.mem_append_right piece hmem)) (offset + byteLength (c :: piece)) rfl
          have hoffset : offset + byteLength (c :: piece) + byteLength later =
              offset + byteLength (c :: (piece ++ later)) := by
            rw [Nat.add_assoc, ← byteLength_append, List.cons_append]
          rw [hoffset] at htape
          refine ⟨first :: pieces, ?_, by simp, ?_, ?_⟩
          · refine List.forall_mem_cons.mpr ⟨?_, hpieces⟩
            rcases hkind with ⟨more, -, -, rfl⟩ | ⟨-, hvalue⟩
            · rfl
            · exact congrArg Kind.isValuePiece hvalue
          · rw [List.forall_mem_cons, hreferences, or_iff_right (List.cons_ne_nil _ _)]
            rcases hkind with ⟨more, rfl, hfound, rfl⟩ | ⟨hnone, hvalue⟩
            · have hpart : Reference ('&' :: piece) := htake ▸ reference_of_characterReference hfound
              have hwhole := characterReference_of_reference hpart (later ++ behind)
              rw [← List.append_assoc] at hwhole
              rw [references_cons_iff hwhole]
              exact and_iff_right rfl
            · refine iff_of_false ?_ (not_references hnone)
              rintro ⟨hreference, -⟩
              cases hvalue.symm.trans hreference
          · rw [List.cons_append, Cursor.tape_cons, Cursor.next]
            simp only [htransition, htake, hdrop, hafter, htape]
            rfl

/-- Joined pieces have the kind that their text has. -/
theorem valueKind_of_pieces {front : List Char} {first : Reading Snapshot Nesting}
    {more : List (Reading Snapshot Nesting)}
    (hpieces : ∀ s ∈ first :: more, s.kind.isValuePiece = true)
    (hreferences : (∀ s ∈ first :: more, s.kind = .charEntityRef) ↔ References front) :
    ValueKind front (Group.kindOf first.kind more) := by
  by_cases hall : ∀ s ∈ first :: more, s.kind = .charEntityRef
  · obtain ⟨hfirst, hmore⟩ := List.forall_mem_cons.mp hall
    rw [hfirst, Group.kindOf_of_forall hmore]
    exact .reference (hreferences.mp hall)
  · obtain ⟨s, hs, hother⟩ : ∃ s ∈ first :: more, s.kind ≠ .charEntityRef := by
      simpa only [not_forall, exists_prop] using hall
    have hvalue : s.kind = .attributeValue := by
      have hpiece := hpieces s hs
      cases hkind : s.kind <;> simp_all [Kind.isValuePiece]
    have hany : (first :: more).any (fun s => s.kind == .attributeValue) = true :=
      List.any_eq_true.mpr ⟨s, hs, beq_iff_eq.mpr hvalue⟩
    rw [← Group.kindOf_cons_self, Group.kindOf, if_pos hany]
    exact .value (mt hreferences.mpr hall)

/-! ## Where a value begins -/

/-- The opening quote leads to the text between such quotes. -/
theorem Rule.valueStart_of_startDelimiter {nesting : Nesting} {c : Char} {cs : List Char}
    (h : (valueStart nesting c cs).kind = .attributeValueStartDelimiter) :
    ∃ state, Quotes c state ∧
      valueStart nesting c cs = ⟨.attributeValueStartDelimiter, 0, state, .keep⟩ := by
  have hattributes := attributes_kind nesting c cs
  revert h
  rw [valueStart]
  split
  · intro hkind
    cases hkind
  split
  · rename_i hquote
    exact fun _ => ⟨_, hquote ▸ .double, rfl⟩
  split
  · rename_i hquote
    exact fun _ => ⟨_, hquote ▸ .single, rfl⟩
  split
  · intro hkind
    cases hkind
  split
  · intro hkind
    rw [hkind] at hattributes
    cases hattributes
  · intro hkind
    cases hkind

theorem Context.transition_of_startDelimiter {context : Context} {c : Char} {cs : List Char}
    (h : (context.transition c cs).kind = .attributeValueStartDelimiter) :
    context.state = .valueStart ∧ ∃ state, Quotes c state ∧
      context.transition c cs = ⟨.attributeValueStartDelimiter, 0, state, .keep⟩ := by
  have hreads := context.reads_kind c cs
  rw [h] at hreads
  obtain ⟨state, nesting⟩ := context
  cases state with
  | valueStart => exact ⟨rfl, Rule.valueStart_of_startDelimiter h⟩
  | _ => cases hreads

end Markup

namespace DocumentGrammar

open Markup Document

section Value

variable {reader : DocumentGrammar} {source : String} {stop : Nat} {nesting : Nesting} {quote : Char}
  {state : State}

/-- With whole values joined, the text between quotes is one token up to the closing quote. -/
theorem delimits_value (hgrouping : reader.grouping = .values) (hquotes : Quotes quote state) :
    reader.Delimits source stop nesting state .attributes [quote] ValueKind
      .attributeValueEndDelimiter where
  text := by
    intro offset front behind hne hfirst hbehind hspans
    have hfront : quote ∉ front := by
      intro hmem
      obtain ⟨before, after, rfl⟩ := List.append_of_mem hmem
      refine hfirst before.length (by simp) ?_
      rw [List.append_assoc, List.drop_left]
      exact ⟨after ++ behind, rfl⟩
    have hhead : ∀ c ∈ behind.head?, c = quote := by
      rintro c hc
      rcases hbehind with rfl | ⟨rest, rfl⟩
      · cases hc
      · cases hc
        rfl
    obtain ⟨pieces, hpieces, hnil, hreferences, htape⟩ :=
      exists_valuePieces reader.form nesting hquotes hfront hhead offset
    obtain ⟨first, more, rfl⟩ := List.exists_cons_of_ne_nil (mt hnil.mp hne)
    obtain ⟨hfirstPiece, hmorePieces⟩ := List.forall_mem_cons.mp hpieces
    have hwithin : (Cursor.mk offset ⟨state, nesting⟩ (front ++ behind)).Within source.toList stop :=
      hspans
    refine ⟨Group.kindOf first.kind more, ?_, yields_run ⟨_, ⟨state, nesting⟩, behind⟩ hwithin htape
      ?_ ?_ ?_⟩
    · exact valueKind_of_pieces hpieces (hreferences.trans (or_iff_right hne))
    · intro s hs
      exact Grouping.joins_iff.mpr (.inr ⟨hgrouping, hfirstPiece, hmorePieces s hs⟩)
    · intro s hs
      obtain ⟨c, cs, rfl, hkind, -⟩ := head_tapeOf hs
      obtain rfl := hhead c rfl
      rw [hquotes.transition_eq, Rule.quotedValue, if_pos rfl] at hkind
      rw [hkind, Bool.eq_false_iff]
      intro hjoins
      rcases Grouping.joins_iff.mp hjoins with ⟨hsame, -⟩ | ⟨-, -, hpiece⟩
      · rw [hsame] at hfirstPiece
        cases hfirstPiece
      · cases hpiece
    · intro hkind
      rw [hkind] at hfirstPiece
      cases hfirstPiece
  delimiter := by
    intro offset rest hspans
    have htransition : Context.transition ⟨state, nesting⟩ quote ([] ++ rest) =
        ⟨.attributeValueEndDelimiter, 0, .attributes, .keep⟩ := by
      rw [hquotes.transition_eq, Rule.quotedValue, if_pos rfl]
    exact yields_token htransition rfl rfl rfl rfl Kind.noConfusion hspans

end Value

/-- With whole values joined, everything behind an opening quote up to the first such quote is one token,
    of a kind that its text has, and the closing quote leads back to the attributes, with the nesting in
    front of the value. Without a closing quote the value is all there is. -/
theorem quoted_value_is_one_token (lexer started : Lexer DocumentGrammar Snapshot Live) (source : String)
    (start stop : Nat) (hgrouping : lexer.reader.grouping = .values)
    (hstarted : lexer.start source start stop 0 = .ok started) (n : Nat) :
    let here := (Session.advanceTimes n started).tape
    here.kind? = some .attributeValueStartDelimiter →
    ∃ quote nesting, (quote = '\x22' ∨ quote = '\x27') ∧
      Spans source.toList [quote] here.place.offset here.stop ∧
      here.place.snapshot = .ok ⟨here.place.offset, ⟨.valueStart, nesting⟩⟩ ∧
      (∀ close,
        IsLeast {offset | here.stop ≤ offset ∧ OccursAt source.toList stop [quote] offset} close →
        ∃ value, OneToken source.toList ValueKind here.stop close value ∧
          let behind := (Session.advanceTimes (n + value.length + 2) started).tape
          here.tokens = ⟨.attributeValueStartDelimiter, here.place.offset, here.stop⟩ ::
            (value ++ ⟨.attributeValueEndDelimiter, close, close + 1⟩ :: behind.tokens) ∧
          behind.place.state = State.attributes.code ∧
          behind.place.snapshot = .ok ⟨close + 1, ⟨.attributes, nesting⟩⟩) ∧
      ((¬∃ offset ≥ here.stop, OccursAt source.toList stop [quote] offset) →
        ∃ value, OneToken source.toList ValueKind here.stop stop value ∧
          here.tokens = ⟨.attributeValueStartDelimiter, here.place.offset, here.stop⟩ :: value) := by
  intro here hkind
  obtain ⟨l, text, hwithin, hsnapshot, hdocument⟩ :=
    exists_documentFrom hstarted hkind fun _ => Kind.noConfusion
  generalize (Cursor.next lexer.reader.form)^[l] ⟨start, contextOf lexer.reader.form 0, text⟩ = cursor
    at hwithin hsnapshot hdocument
  obtain ⟨quote, rest, hrest, hsign⟩ := hdocument.exists_transition hwithin hkind
    (fun _ => Kind.noConfusion) rfl
  obtain ⟨offset, ⟨state, nesting⟩, _⟩ := cursor
  obtain rfl := hrest
  obtain ⟨hstate, inside, hquotes, htransition⟩ := Context.transition_of_startDelimiter hsign
  obtain rfl : state = .valueStart := hstate
  have hspans : Spans source.toList ([quote] ++ rest) offset stop := hwithin
  have hsize : byteLength [quote] = 1 := by
    rcases hquotes.eq_or with rfl | rfl
    · rfl
    · rfl
  have hbehind : Context.after lexer.reader.form ⟨.valueStart, nesting⟩
      ⟨.attributeValueStartDelimiter, 0, inside, .keep⟩ = ⟨inside, nesting⟩ := by
    cases hquotes with
    | double => rfl
    | single => rfl
  have hopening : lexer.reader.Yields source ⟨offset, ⟨.valueStart, nesting⟩, [quote] ++ rest⟩
      [⟨.attributeValueStartDelimiter, offset, offset + byteLength [quote]⟩]
      ⟨offset + byteLength [quote], ⟨inside, nesting⟩, rest⟩ :=
    yields_token htransition rfl hbehind rfl rfl Kind.noConfusion hspans
  have hquote : Spans source.toList [quote] offset (offset + byteLength [quote]) :=
    hspans.of_append_left
  have htext : Spans source.toList rest (offset + byteLength [quote]) stop := hspans.of_append_right
  obtain ⟨hends, hnone⟩ := (delimits_value hgrouping hquotes).tokens State.noConfusion htext
    hopening hdocument
  obtain ⟨hplace, hstop⟩ := Tape.bounds_of_tokens (hopening _ hdocument).1
  have hplace : here.place.offset = offset := hplace
  have hstop : here.stop = offset + byteLength [quote] := hstop
  rw [hsize] at hends hnone hstop hquote
  rw [hplace, hstop]
  refine ⟨quote, nesting, hquotes.eq_or, hquote, hsnapshot, ?_, hnone⟩
  intro close hleast
  simp only [Nat.add_assoc, Lexer.tape_advanceTimes_add]
  exact hends close hleast

/-- Two references between single quotes, in a tag between braces. -/
theorem quoted_value_is_one_token_of_references :
    let source := "\x7b<p a='&lt;&#x3E;' b>"
    IsLeast {offset | 7 ≤ offset ∧ OccursAt source.toList 21 ['\x27'] offset} 17 ∧
    ∃ started nesting,
      (Lexer.idle ⟨.values, .document⟩ : Lexer DocumentGrammar Snapshot Live).start source 0 21 0 =
        .ok started ∧
      (Session.advanceTimes 6 started).tape.kind? = some .attributeValueStartDelimiter ∧
      (Session.advanceTimes 6 started).tape.place.snapshot = .ok ⟨6, ⟨.valueStart, nesting⟩⟩ ∧
      nesting.elements.entries = ["p"] ∧
      (Session.advanceTimes 6 started).tape.tokens =
        ⟨.attributeValueStartDelimiter, 6, 7⟩ :: ⟨.charEntityRef, 7, 17⟩ ::
          ⟨.attributeValueEndDelimiter, 17, 18⟩ :: (Session.advanceTimes 9 started).tape.tokens ∧
      (Session.advanceTimes 9 started).tape.place.snapshot = .ok ⟨18, ⟨.attributes, nesting⟩⟩ := by
  intro source
  let lexer : Lexer DocumentGrammar Snapshot Live := Lexer.idle ⟨.values, .document⟩
  have hleast : IsLeast {offset | 7 ≤ offset ∧ OccursAt source.toList 21 ['\x27'] offset} 17 := by
    have hbefore : ∀ offset < 17, 7 ≤ offset → ¬OccursAt source.toList 21 ['\x27'] offset := by
      decide +kernel
    exact isLeast_occursAt ⟨by decide, by decide +kernel⟩ hbefore
  have hspans : Spans source.toList "&lt;&#x3E;".toList 7 17 :=
    ⟨"\x7b<p a='".toList, "' b>".toList, by decide, by decide, by decide⟩
  have hlt : Reference "&lt;".toList :=
    .named (by decide : 'l'.isAlpha = true) (List.forall_mem_singleton.mpr (by decide) : ∀ d ∈ ['t'], _)
  have hhex : Reference "&#x3E;".toList :=
    .hex (.inl rfl) (List.cons_ne_nil '3' ['E'])
      (List.all_eq_true.mp (by decide : ['3', 'E'].all isHexDigit = true))
  have hreferences : References "&lt;&#x3E;".toList :=
    ⟨["&lt;".toList, "&#x3E;".toList], List.cons_ne_nil _ _,
      List.forall_mem_cons.mpr ⟨hlt, List.forall_mem_singleton.mpr hhex⟩, by decide⟩
  have hplace : (lexer.start source 0 21 0).toOption.map (fun started =>
      ((Session.advanceTimes 6 started).tape.kind?, (Session.advanceTimes 6 started).tape.stop,
        (Session.advanceTimes 6 started).tape.place.offset,
        (Session.advanceTimes 6 started).tape.place.snapshot.toOption.map fun snapshot =>
          snapshot.context.nesting.elements.entries)) =
      some (some .attributeValueStartDelimiter, 7, 6, some ["p"]) := by
    decide +kernel
  obtain ⟨started, hstarted, hvalues⟩ := Except.exists_of_map_toOption hplace
  simp only [Prod.mk.injEq] at hvalues
  obtain ⟨hkind, hstop, hoffset, helements⟩ := hvalues
  obtain ⟨quote, nesting, -, hquote, hsnapshot, hends, -⟩ :=
    quoted_value_is_one_token lexer started source 0 21 rfl hstarted 6 hkind
  rw [hstop, hoffset] at hquote
  rw [hoffset] at hsnapshot
  have hsingle : Spans source.toList ['\x27'] 6 7 :=
    ⟨"\x7b<p a=".toList, "&lt;&#x3E;' b>".toList, by decide, by decide, by decide⟩
  obtain rfl : quote = '\x27' := (List.cons.inj (hquote.unique hsingle)).1
  rw [hstop, hoffset] at hends
  obtain ⟨value, hone, htokens, -, hbehind⟩ := hends 17 hleast
  have hvalue : value = [⟨.charEntityRef, 7, 17⟩] := by
    cases hone with
    | empty hsame => omega
    | token _ htext hkind =>
        obtain rfl := htext.unique hspans
        cases hkind with
        | reference => rfl
        | value hother => exact absurd hreferences hother
  subst hvalue
  rw [hsnapshot] at helements
  exact ⟨hleast, started, nesting, hstarted, hkind, hsnapshot, Option.some.inj helements, htokens,
    hbehind⟩

end DocumentGrammar

end Relex
