import Relex.Proofs.Reading
import Relex.Proofs.TokenText

/-! # Names of elements

Three rules look at the letter with which the name of an element begins. A tag opens in front of a letter
of ASCII only, a name goes on over the letters of any script, and it is that of a component if it begins
with a capital letter of any script. So the rules agree on a name exactly if it begins with a letter of
ASCII (`MarkupGrammar.bare_element_read_by_first_letter`): any other name opens no tag, whatever its case,
and what would be the element is read as text.
-/

namespace Relex

open Text Unicode

namespace Markup

/-! ## Text without signs -/

/-- What can stand in an element without attributes and content, behind its first sign. -/
def inBareElement (c : Char) : Bool :=
  inTagName c || c == '/' || c == '>'

section BareElement

variable {form : Form} {nesting : Nesting} {c : Char} {cs text : List Char}

theorem isText_of_inBareElement (h : inBareElement c = true) :
    isWhiteSpace c = false ∧ isControl c = false ∧ c ∉ ['<', '{', '&'] := by
  simp only [inBareElement, inTagName, Bool.or_eq_true, beq_iff_eq] at h
  rcases h with ((((((hletter | rfl) | rfl) | rfl) | rfl) | rfl) | rfl)
  · obtain ⟨hspace, hcontrol, -⟩ := isText_of_isAlphanumeric hletter
    have hsigns : ['<', '{', '&'].any isAlphanumeric = false := by decide +kernel
    exact ⟨hspace, hcontrol, fun hmem => List.any_eq_false.mp hsigns c hmem hletter⟩
  all_goals decide

/-- Where no sign stands, data characters are read. -/
theorem Rule.content_of_inBareElement (h : inBareElement c = true) :
    (content nesting c cs).kind = .dataCharacters ∧ (content nesting c cs).next = .content ∧
      (content nesting c cs).change = .keep := by
  obtain ⟨hspace, hcontrol, hsigns⟩ := isText_of_inBareElement h
  simp only [List.mem_cons, List.not_mem_nil, or_false, not_or] at hsigns
  obtain ⟨hangle, hbrace, hampersand⟩ := hsigns
  have hbegins : ∀ pattern, begins ('<' :: pattern) (c :: cs) = false := begins_cons_of_ne hangle
  simp only [content, hbegins, opensEndTag, opensStartTag, Bool.false_and, Bool.false_eq_true, if_false,
    if_neg hbrace, if_neg hampersand, hspace, hcontrol]
  split
  · exact ⟨rfl, rfl, rfl⟩
  · exact ⟨rfl, rfl, rfl⟩

/-- Text without signs is data characters to its end, and opens nothing. -/
theorem tapeOf_of_inBareElement (hambient : nesting.ambientState form = .content)
    (htext : ∀ c ∈ text, inBareElement c = true) (offset : Nat) :
    let tape := tapeOf form offset ⟨.content, nesting⟩ text
    (∀ r ∈ tape.readings, r.kind = .dataCharacters) ∧ tape.final.live = nesting := by
  -- A step takes a whole word, so the induction is on the length.
  induction hlength : text.length using Nat.strongRecOn generalizing text offset with
  | ind n ih =>
      cases text with
      | nil =>
          rw [tapeOf]
          exact ⟨List.forall_mem_nil _, rfl⟩
      | cons c cs =>
          obtain ⟨hc, hcs⟩ := List.forall_mem_cons.mp htext
          obtain ⟨hkind, hnext, hchange⟩ : (Rule.content nesting c cs).kind = .dataCharacters ∧ _ :=
            Rule.content_of_inBareElement hc
          have hafter : Context.after form ⟨.content, nesting⟩ (Rule.content nesting c cs) =
              ⟨.content, nesting⟩ := by
            rw [Context.after, hnext, hchange]
            exact congrArg (Context.mk · nesting) hambient
          have htransition : Context.transition ⟨.content, nesting⟩ c cs = Rule.content nesting c cs := rfl
          rw [tapeOf, htransition, hafter]
          obtain ⟨hlater, hfinal⟩ := ih (cs.drop (Rule.content nesting c cs).more).length
            (by simp only [← hlength, List.length_cons, List.length_drop]; omega)
            (fun d hd => hcs d (List.mem_of_mem_drop hd)) _ rfl
          exact ⟨List.forall_mem_cons.mpr ⟨hkind, hlater⟩, hfinal⟩

/-- In front of anything but a letter of ASCII or the end of a tag the sign of a tag is text. -/
theorem transition_content_angle (hopens : opensName (c :: cs) = false) (hbang : c ≠ '!') (hslash : c ≠ '/') :
    Context.transition ⟨.content, nesting⟩ '<' (c :: cs) = ⟨.dataCharacters, 0, .content, .keep⟩ := by
  have hdeclaration := begins_declaration_of_ne hbang cs
  have hend := opensEndTag_of_ne hslash cs
  have hstart : opensStartTag ('<' :: c :: cs) = false := by
    simp [opensStartTag, hopens]
  have hword : isAlphanumeric '<' = false := by decide +kernel
  have hspace : isWhiteSpace '<' = false := by decide +kernel
  have hcontrol : isControl '<' = false := by decide +kernel
  simp [Context.transition, Rule.content, hdeclaration, hend, hstart, hword, hspace, hcontrol]

/-- An element with a name that begins with a letter, but not of ASCII, is data characters all along. -/
theorem tapeOf_bareElement_of_other (hambient : nesting.ambientState form = .content)
    (hletter : isAlphabetic c = true) (hother : c.isAlpha = false) (hcs : cs.all inTagName = true)
    (offset : Nat) :
    let tape := tapeOf form offset ⟨.content, nesting⟩ ('<' :: c :: (cs ++ ['/', '>']))
    (∀ r ∈ tape.readings, r.kind = .dataCharacters) ∧ tape.final.live = nesting := by
  have hapart : ∀ d, isAlphabetic d = false → c ≠ d := fun d hd => ne_of_class hletter hd
  have hopens : opensName (c :: (cs ++ ['/', '>'])) = false := by
    simp [opensName, headIs, hother, hapart '>' (by decide +kernel)]
  have htext : ∀ d ∈ c :: (cs ++ ['/', '>']), inBareElement d = true := by
    have hname : ∀ d ∈ c :: cs, inTagName d = true := by
      refine List.forall_mem_cons.mpr ⟨?_, List.all_eq_true.mp hcs⟩
      simp [inTagName, isAlphanumeric, hletter]
    intro d hd
    rw [← List.cons_append, List.mem_append] at hd
    rcases hd with hd | hd
    · simp [inBareElement, hname d hd]
    · have hclosing : ['/', '>'].all inBareElement = true := by decide +kernel
      exact List.all_eq_true.mp hclosing d hd
  have hafter : Context.after form ⟨.content, nesting⟩ ⟨.dataCharacters, 0, .content, .keep⟩ =
      ⟨.content, nesting⟩ :=
    congrArg (Context.mk · nesting) hambient
  rw [tapeOf, transition_content_angle hopens (hapart '!' (by decide +kernel))
    (hapart '/' (by decide +kernel)), hafter]
  obtain ⟨hlater, hfinal⟩ := tapeOf_of_inBareElement hambient htext (offset + byteLength ['<'])
  exact ⟨List.forall_mem_cons.mpr ⟨rfl, hlater⟩, hfinal⟩

end BareElement

/-! ## Elements without content -/

/-- The tokens of an element without attributes and content that begins at an offset. -/
def bareElementTokens (offset : Nat) (name : String) : List Token :=
  let nameStop := offset + 1 + name.utf8ByteSize
  [⟨.tagStart, offset, offset + 1⟩,
    ⟨if isComponentName name then .componentName else .tagName, offset + 1, nameStop⟩,
    ⟨.emptyElementEnd, nameStop, nameStop + 2⟩]

/-- An element with a name that begins with a letter of ASCII is read sign, name and end, and then what
    is around it goes on. -/
theorem yields_bareElement {form : Form} (ground : Ground) {nesting : Nesting}
    (hinside : nesting.outerDepth ≤ nesting.elements.size) (name : TagName) (offset : Nat)
    (rest : List Char) :
    Cursor.Yields form ⟨offset, ⟨ground.state, nesting⟩, '<' :: (name.chars ++ '/' :: '>' :: rest)⟩
      (bareElementTokens offset name.text)
      ⟨offset + 1 + name.text.utf8ByteSize + 2, ⟨nesting.ambientState form, nesting⟩, rest⟩ := by
  have hsize : name.text.utf8ByteSize = byteLength name.chars := by
    rw [← byteLength_toList, TagName.text, String.toList_ofList]
  rw [bareElementTokens, hsize]
  have hsign : Context.transition ⟨ground.state, nesting⟩ '<' ([] ++ (name.chars ++ '/' :: '>' :: rest)) =
      ⟨.tagStart, 0, .startTagName, .keep⟩ :=
    transition_startTagSign ground nesting name.opensName
  have hrest : ∀ c ∈ ('/' :: '>' :: rest).head?, inTagName c = false := forall_head_cons (by decide)
  have hname : Context.transition ⟨.startTagName, nesting⟩ name.first (name.more ++ '/' :: '>' :: rest) =
      ⟨Rule.tagNameKind name.text, name.more.length, .attributes, .openElement name.text⟩ :=
    transition_startTagName name hrest
  have hend : Context.transition ⟨.attributes, nesting.inElement name.text⟩ '/' (['>'] ++ rest) =
      ⟨.emptyElementEnd, 1, .content, .leaveElement⟩ := rfl
  have hbehind : Context.after form ⟨.attributes, nesting.inElement name.text⟩
      ⟨.emptyElementEnd, 1, .content, .leaveElement⟩ = ⟨nesting.ambientState form, nesting⟩ := by
    rw [Context.after, Nesting.leaveElement_inElement hinside]
    rfl
  exact (Cursor.yields_token form offset hsign rfl rfl).trans
    ((Cursor.yields_token form (offset + 1) hname rfl rfl).trans
      (Cursor.yields_token form (offset + 1 + byteLength name.chars) hend rfl hbehind))

/-- With nothing behind it the element is all there is. -/
theorem tapeOf_bareElement {form : Form} (ground : Ground) {nesting : Nesting}
    (hinside : nesting.outerDepth ≤ nesting.elements.size) (name : TagName) (offset : Nat) :
    let tape := tapeOf form offset ⟨ground.state, nesting⟩ ('<' :: (name.chars ++ ['/', '>']))
    tape.tokens = bareElementTokens offset name.text ∧ tape.final.live = nesting := by
  have hread : Cursor.Yields form _ _ _ := yields_bareElement ground hinside name offset []
  constructor
  · refine hread.tokens_eq.trans ?_
    rw [Cursor.tape_nil]
    exact List.append_nil _
  · refine (congrArg Place.live hread.final_eq).trans ?_
    rw [Cursor.tape_nil]
    rfl

end Markup

namespace MarkupGrammar

open Markup

/-- An element without attributes and content is read as one, with its name as that of a component if
    it begins with a capital letter, exactly if the name begins with a letter of ASCII. With a first letter
    of any other script it is text. Either way nothing stays open. -/
theorem bare_element_read_by_first_letter (lexer : Lexer MarkupGrammar Snapshot Nesting)
    (hform : lexer.reader.form = .document) (name : String)
    (hname : name.toList.all inTagName = true) (hfirst : headIs isAlphabetic name.toList = true) :
    let source := "<" ++ name ++ "/>"
    ∃ started, lexer.start source 0 source.utf8ByteSize State.content.code = .ok started ∧
      started.tape.final.live = ∅ ∧
      if headIs Char.isAlpha name.toList then
        started.tape.tokens = bareElementTokens 0 name
      else
        ∀ token ∈ started.tape.tokens, token.kind = .dataCharacters := by
  intro source
  obtain ⟨started, hstarted, htape⟩ := exists_start lexer State.content.code (spans_whole source)
  refine ⟨started, hstarted, ?_⟩
  have hsource : source.toList = '<' :: (name.toList ++ ['/', '>']) := by
    simp [source]
  rw [hform, hsource] at htape
  have htape : started.tape = tapeOf .document 0 ⟨.content, ∅⟩ ('<' :: (name.toList ++ ['/', '>'])) :=
    htape 0
  cases hchars : name.toList with
  | nil => simp [hchars, headIs] at hfirst
  | cons first more =>
      rw [hchars] at hname hfirst htape
      obtain ⟨-, hmore⟩ := Bool.and_eq_true_iff.mp hname
      cases halpha : first.isAlpha with
      | true =>
          let tagName : TagName := ⟨first, more, halpha, hmore⟩
          have htext : tagName.text = name := by
            rw [← String.ofList_toList (s := name), hchars]
            rfl
          have hinside : (∅ : Nesting).outerDepth ≤ (∅ : Nesting).elements.size := Nat.zero_le _
          obtain ⟨htokens, hfinal⟩ := tapeOf_bareElement .content hinside tagName 0
          rw [htape]
          refine ⟨hfinal, ?_⟩
          rw [if_pos (by simpa [headIs] using halpha), ← htext]
          exact htokens
      | false =>
          have hambient : (∅ : Nesting).ambientState .document = .content := rfl
          obtain ⟨hkinds, hfinal⟩ := tapeOf_bareElement_of_other hambient hfirst halpha hmore 0
          rw [htape]
          refine ⟨hfinal, ?_⟩
          rw [if_neg (by simp [headIs, halpha])]
          exact List.forall_mem_map.mpr hkinds

/-- The element `Café` is a component, also with a letter beyond ASCII behind its first. -/
theorem bare_element_read_by_first_letter_of_ascii :
    let lexer : Lexer MarkupGrammar Snapshot Nesting := Lexer.idle ⟨.document⟩
    ∃ started, lexer.start "<Café/>" 0 8 State.content.code = .ok started ∧
      started.tape.final.live = ∅ ∧
      started.tape.tokens = [⟨.tagStart, 0, 1⟩, ⟨.componentName, 1, 6⟩, ⟨.emptyElementEnd, 6, 8⟩] :=
  bare_element_read_by_first_letter (Lexer.idle ⟨.document⟩) rfl "Café" (by decide +kernel)
    (by decide +kernel)

/-- The name `Émoji` begins with a letter and is that of a component, and yet the element is text. -/
theorem component_beyond_ascii_opens_no_tag :
    "Émoji".toList.all inTagName = true ∧ headIs isAlphabetic "Émoji".toList = true ∧
      isComponentName "Émoji" = true ∧
      ((Lexer.idle ⟨.document⟩ : Lexer MarkupGrammar Snapshot Nesting).start
        "<Émoji/>" 0 9 State.content.code).toOption.map (fun started => started.tape.tokens) =
        some [⟨.dataCharacters, 0, 1⟩, ⟨.dataCharacters, 1, 7⟩, ⟨.dataCharacters, 7, 8⟩,
          ⟨.dataCharacters, 8, 9⟩] := by
  decide +kernel

end MarkupGrammar

end Relex
