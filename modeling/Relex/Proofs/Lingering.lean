import Relex.Proofs.RawText

/-! # Elements that hold no markup

Void elements have no content, and the content of raw text elements is not markup. So where text or
script is read none of them may be open, except around an expression in an attribute of its own
start tag. `Closed` is the invariant behind this: it admits one of them besides as the innermost
element, as long as the place is inside its own tag or its raw text (`AtOwnTag`). What a token in
such a place does is more than a move tells, so the rules of start tags (`TagMove`) and of raw text
are looked at again.
-/

namespace Relex

/-- A member of the list of a stack, with what lies below it. -/
theorem Stack.exists_suffix_of_getElem? {α : Type} {stack : Stack α} {index : Nat} {a : α}
    (h : stack.toList[index]? = some a) :
    ∃ below, a :: below <:+ stack.entries ∧ below.length = index := by
  obtain ⟨hindex, hmember⟩ := List.getElem?_eq_some_iff.mp h
  refine ⟨(stack.toList.take index).reverse, ⟨(stack.toList.drop (index + 1)).reverse, ?_⟩, ?_⟩
  · calc
      (stack.toList.drop (index + 1)).reverse ++ a :: (stack.toList.take index).reverse
          = (stack.toList.take index ++ a :: stack.toList.drop (index + 1)).reverse := by simp
      _ = stack.toList.reverse := by
          rw [← hmember, ← List.drop_eq_getElem_cons hindex, List.take_append_drop]
      _ = stack.entries := List.reverse_reverse _
  · rw [List.length_reverse, List.length_take]
    omega

namespace Markup

open Text

/-- The element has no content, or content that is not markup. -/
def HoldsNoMarkup (name : String) : Prop :=
  name ∈ voidElements ∨ name ∈ rawTextElements

/-- An expression in an attribute of the start tag is open, whose element is the last of `depth`
    elements. -/
def InAttributeOf (braces : List Opening) (depth : Nat) : Prop :=
  ∃ brace ∈ braces, brace.stateBehind = .attributes ∧ brace.depth = depth

/-- A place in a tag of the innermost element, or in its raw text. -/
inductive AtOwnTag (nesting : Nesting) : State → List Char → Prop
  | inTag {state : State} {ahead : List Char} (hstate : state.InTag) :
      AtOwnTag nesting state ahead
  | inRawText {ahead : List Char} : AtOwnTag nesting .rawText ahead
  | inEndTag {ahead : List Char} {name : String} (hraw : name ∈ rawTextElements)
      (hname : nesting.innermost? = some name) (htag : HasEndTag name ('<' :: '/' :: ahead)) :
      AtOwnTag nesting .endTagName ahead

/-- The open elements from the inside out, each with those around it, that hold no markup are in one
    of their attributes, or at their own tag. -/
def Closed (state : State) (nesting : Nesting) (ahead : List Char) : Prop :=
  ∀ name outer, name :: outer <:+ nesting.elements.entries → HoldsNoMarkup name →
    InAttributeOf nesting.expressions.entries (outer.length + 1) ∨
      (name :: outer = nesting.elements.entries ∧ AtOwnTag nesting state ahead)

theorem not_holdsNoMarkup_empty : ¬HoldsNoMarkup "" := by
  unfold HoldsNoMarkup
  decide

theorem InAttributeOf.mono {braces more : List Opening} {depth : Nat}
    (h : InAttributeOf braces depth) (hsub : braces ⊆ more) : InAttributeOf more depth := by
  obtain ⟨brace, hbrace, hwhere⟩ := h
  exact ⟨brace, hsub hbrace, hwhere⟩

/-! ## Inside a start tag -/

/-- What moving past a token inside a start tag can do. -/
inductive TagMove (nesting : Nesting) : State → Change → Prop
  | along {next : State} (hnext : next.InTag) : TagMove nesting next .keep
  | enterRawText : TagMove nesting .rawText .keep
  | enterContent (hcontent : ∀ name ∈ nesting.innermost?, ¬HoldsNoMarkup name) :
      TagMove nesting .content .keep
  | leaveElement : TagMove nesting .content .leaveElement
  | openBrace : TagMove nesting .expression (.openExpression (nesting.opening .attributes))

section TagMove

variable (nesting : Nesting) (c : Char) (cs : List Char)

theorem tagMove_startTagEnd :
    TagMove nesting (Rule.startTagEnd nesting).next (Rule.startTagEnd nesting).change := by
  rw [Rule.startTagEnd]
  split
  · rename_i name hname
    split
    · exact .leaveElement
    split
    · exact .enterRawText
    · rename_i hvoid hraw
      refine .enterContent ?_
      rw [hname]
      rintro _ ⟨⟩
      rw [HoldsNoMarkup, ← List.contains_iff_mem, ← List.contains_iff_mem]
      exact not_or.mpr ⟨hvoid, hraw⟩
  · rename_i hnone
    refine .enterContent ?_
    rw [hnone]
    rintro _ ⟨⟩

theorem tagMove_attributes :
    TagMove nesting (Rule.attributes nesting c cs).next (Rule.attributes nesting c cs).change := by
  rw [Rule.attributes]
  split
  · exact .along (.inl rfl)
  split
  · exact tagMove_startTagEnd nesting
  split
  · exact .leaveElement
  split
  · exact .openBrace
  split
  · exact .along (.inr (.inl rfl))
  split
  · exact .along (.inl rfl)
  · exact .along (.inl rfl)

theorem tagMove_valueStart :
    TagMove nesting (Rule.valueStart nesting c cs).next (Rule.valueStart nesting c cs).change := by
  rw [Rule.valueStart]
  split
  · exact .along (.inr (.inl rfl))
  split
  · exact .along (.inr (.inr (.inl rfl)))
  split
  · exact .along (.inr (.inr (.inr rfl)))
  split
  · exact .openBrace
  split
  · exact tagMove_attributes nesting c cs
  · exact .along (.inl rfl)

theorem tagMove_quotedValue (quote : Char) {state : State} (hstate : state.InTag) :
    TagMove nesting (Rule.quotedValue c cs quote state).next
      (Rule.quotedValue c cs quote state).change := by
  rw [Rule.quotedValue]
  split
  · exact .along (.inl rfl)
  split
  · split
    · exact .along hstate
    · exact .along hstate
  split
  · exact .along hstate
  · exact .along hstate

theorem tagMove_of_inTag {state : State} (hstate : state.InTag) :
    TagMove nesting (Context.transition ⟨state, nesting⟩ c cs).next
      (Context.transition ⟨state, nesting⟩ c cs).change := by
  have htag := hstate
  rcases hstate with rfl | rfl | rfl | rfl
  · exact tagMove_attributes nesting c cs
  · exact tagMove_valueStart nesting c cs
  · exact tagMove_quotedValue nesting c cs _ htag
  · exact tagMove_quotedValue nesting c cs _ htag

end TagMove

/-- A start tag opens an element, and unless its attributes come next the element has no name. -/
theorem Rule.startTagName_opens (nesting : Nesting) {c : Char} {cs : List Char}
    (hname : opensName (c :: cs) = true) :
    ∃ name, (startTagName nesting c cs).change = .openElement name ∧
      ((startTagName nesting c cs).next = .attributes ∨
        (startTagName nesting c cs).next = .content ∧ name = "") := by
  rw [startTagName]
  split
  · exact ⟨"", rfl, .inr ⟨rfl, rfl⟩⟩
  split
  · exact ⟨_, rfl, .inl rfl⟩
  · rename_i hend hletter
    simp only [opensName, headIs, List.head?_cons, Option.any_some, Bool.or_eq_true,
      beq_iff_eq] at hname
    exact (hname.elim (fun halpha => hletter (inTagName_of_isAlpha halpha)) hend).elim

/-- Raw text goes on, or the end tag of its element comes next. -/
theorem Rule.rawText_cases {nesting : Nesting} {name : String} (c : Char) (cs : List Char)
    (htop : nesting.elements.top? = some name) :
    (rawText nesting c cs).change = .keep ∧
      ((rawText nesting c cs).next = .rawText ∨
        (rawText nesting c cs).next = .endTagName ∧
          HasEndTag name ('<' :: '/' :: cs.drop (rawText nesting c cs).more)) := by
  rw [rawText, htop, Option.bind_some]
  split
  · rename_i hseek
    obtain ⟨letters, rest, htext, hend⟩ := endsRawText_iff.mp (seek?_spec hseek)
    obtain ⟨rfl, rfl⟩ := List.cons.inj htext
    exact ⟨rfl, .inr ⟨rfl, letters, rest, rfl, hend⟩⟩
  · exact ⟨rfl, .inl rfl⟩
  · exact ⟨rfl, .inl rfl⟩

/-! ## What a token preserves -/

section Closed

variable {form : Form} {nesting : Nesting} {ahead behind : List Char} {state next : State}
  {kind : Kind} {change : Change}

/-- Away from their own tags, all elements without markup are in one of their attributes. -/
theorem Closed.inAttributeOf (h : Closed state nesting ahead)
    (hstate : ¬AtOwnTag nesting state ahead)
    {name : String} {outer : List String} (hsuffix : name :: outer <:+ nesting.elements.entries)
    (hname : HoldsNoMarkup name) :
    InAttributeOf nesting.expressions.entries (outer.length + 1) :=
  (h name outer hsuffix hname).resolve_right fun hown => hstate hown.2

/-- Inside its own tag or raw text the innermost element stays what it is. -/
theorem Closed.of_own (h : Closed state nesting ahead) (hnext : AtOwnTag nesting next behind) :
    Closed next nesting behind :=
  fun name outer hsuffix hname => (h name outer hsuffix hname).imp_right fun hown => ⟨hown.1, hnext⟩

/-- The innermost element is left, and what is around it stays as it is. -/
theorem Closed.leaving (h : Closed state nesting ahead) (hne : nesting.elements.entries ≠ []) :
    Closed next nesting.leaving behind := by
  intro name outer hsuffix hname
  left
  have hshorter : name :: outer <:+ nesting.elements.entries :=
    List.IsSuffix.trans hsuffix (List.drop_suffix 1 _)
  refine (h name outer hshorter hname).resolve_right ?_
  rintro ⟨heq, -⟩
  have hlength := hsuffix.length_le
  rw [heq, Nesting.leaving, Stack.entries_drop, List.length_drop] at hlength
  have hpos := List.length_pos_of_ne_nil hne
  omega

theorem Closed.of_tagMove (h : Closed state nesting ahead) (hsound : Sound form state nesting)
    (hroom : nesting.elements.size < Opening.depthLimit) (hstate : state.InTag)
    (hmove : TagMove nesting next change) :
    Closed (if next = .content then (nesting.apply change).ambientState form else next)
      (nesting.apply change) behind := by
  have hreach : nesting.outerDepth < nesting.elements.size :=
    (standing_inTag hstate).mp hsound.standing
  have hsize := nesting.elements.size_eq
  cases hmove with
  | along hnext =>
      have hcontent : next ≠ .content := by
        rintro rfl
        rcases hnext with hnext | hnext | hnext | hnext <;> cases hnext
      rw [if_neg hcontent]
      exact h.of_own (.inTag hnext)
  | enterRawText => exact h.of_own .inRawText
  | enterContent hcontent =>
      intro name outer hsuffix hname
      left
      refine (h name outer hsuffix hname).resolve_right ?_
      rintro ⟨heq, -⟩
      refine hcontent name (Nesting.innermost?_of_top hreach ?_) hname
      rw [Stack.top?, ← heq, List.head?_cons]
  | leaveElement =>
      rw [Nesting.apply, if_pos hreach]
      apply h.leaving
      apply List.ne_nil_of_length_pos
      omega
  | openBrace =>
      intro name outer hsuffix hname
      left
      rcases h name outer hsuffix hname with hin | ⟨heq, -⟩
      · exact hin.mono (List.subset_cons_self _ _)
      · refine ⟨nesting.opening .attributes, List.mem_cons_self, ?_, ?_⟩
        · exact Opening.stateBehind_atDepth (by decide)
        · rw [← List.length_cons, heq, ← hsize]
          exact Opening.depth_atDepth (by decide) hroom

/-- Away from the own tags of the elements, and from where a start tag names one. -/
theorem Closed.of_move (h : Closed state nesting ahead) (hown : ¬AtOwnTag nesting state ahead)
    (hstate : state ≠ .startTagName) (hsound : Sound form state nesting)
    (hmove : Move nesting behind state kind next change) :
    Closed (if next = .content then (nesting.apply change).ambientState form else next)
      (nesting.apply change) behind := by
  intro name outer hsuffix hname
  have hold : (∀ name, change ≠ .openElement name) →
      InAttributeOf nesting.expressions.entries (outer.length + 1) := fun hchange =>
    h.inAttributeOf hown (hsuffix.trans (nesting.elements_apply_suffix change hchange)) hname
  cases hmove with
  | openElement hnext => exact absurd rfl hstate
  | openBrace hbrace => exact .inl ((hold nofun).mono (List.subset_cons_self _ _))
  | closeBrace htop =>
      obtain ⟨below, hentries, -, -⟩ := hsound.restsOn_top htop
      obtain ⟨brace, hbrace, hbehind, hdepth⟩ := hold nofun
      rw [hentries, List.mem_cons] at hbrace
      rcases hbrace with rfl | hbrace
      · -- The attribute ends here, so the place is in the start tag again.
        right
        have hsize : nesting.elements.size = brace.depth := by
          have hexpression := (ambientState_eq_expression_iff.mp hsound.standing).1
          rw [hentries] at hexpression
          exact hexpression
        rw [hbehind, if_neg (by decide)]
        refine ⟨hsuffix.eq_of_length ?_, .inTag (.inl rfl)⟩
        change outer.length + 1 = nesting.elements.entries.length
        rw [← nesting.elements.size_eq, hsize, hdepth]
      · left
        rw [Nesting.entries_closeExpression hentries]
        exact ⟨brace, hbrace, hbehind, hdepth⟩
  | closeElement hnext =>
      left
      rw [Nesting.expressions_apply]
      exact hold nofun
  | leaveElement hstate =>
      left
      rw [Nesting.expressions_apply]
      exact hold nofun
  | _ => exact .inl (hold nofun)

/-- The name of a start tag opens an element, whose tag is read next unless it has no name. -/
theorem Closed.of_openElement (form : Form) (behind : List Char)
    (h : Closed .startTagName nesting ahead) {name : String}
    (hnext : next = .attributes ∨ next = .content ∧ name = "") :
    Closed (if next = .content then (nesting.apply (.openElement name)).ambientState form else next)
      (nesting.apply (.openElement name)) behind := by
  have hown : ¬AtOwnTag nesting .startTagName ahead := by
    rintro ⟨hstate⟩
    rcases hstate with hstate | hstate | hstate | hstate <;> cases hstate
  intro opened outer hsuffix hopened
  rcases List.suffix_cons_iff.mp hsuffix with heq | hsuffix
  · right
    refine ⟨heq, ?_⟩
    rcases hnext with rfl | ⟨rfl, rfl⟩
    · exact .inTag (.inl rfl)
    · obtain ⟨rfl, -⟩ := List.cons.inj heq
      exact absurd hopened not_holdsNoMarkup_empty
  · exact .inl (h.inAttributeOf hown hsuffix hopened)

end Closed

namespace Cursor

variable {form : Form} {cursor : Cursor}

/-- The elements that hold no markup are closed where the cursor stands. -/
def Closed (cursor : Cursor) : Prop :=
  Markup.Closed cursor.context.state cursor.context.nesting cursor.rest

/-- Raw text keeps its element as the innermost one, and only the end tag of that element ends it. -/
theorem Closed.next_of_rawText {offset : Nat} {nesting : Nesting} {name : String} {c : Char}
    {cs : List Char} (h : (Cursor.mk offset ⟨.rawText, nesting⟩ (c :: cs)).Closed)
    (hraw : name ∈ rawTextElements) (hname : nesting.innermost? = some name) :
    (Cursor.next form ⟨offset, ⟨.rawText, nesting⟩, c :: cs⟩).Closed := by
  obtain ⟨hchange, hnext⟩ := Rule.rawText_cases c cs (Nesting.innermost?_eq_some hname).2
  have hbehind : AtOwnTag nesting (Rule.rawText nesting c cs).next
      (cs.drop (Rule.rawText nesting c cs).more) := by
    rcases hnext with hnext | ⟨hnext, htag⟩
    · rw [hnext]
      exact .inRawText
    · rw [hnext]
      exact .inEndTag hraw hname htag
  have hcontent : (Rule.rawText nesting c cs).next ≠ .content := by
    rcases hnext with hnext | ⟨hnext, -⟩ <;> rw [hnext] <;> decide
  simp only [Closed, Cursor.next, Context.after, Context.transition, hchange, Nesting.apply,
    if_neg hcontent]
  exact Markup.Closed.of_own h hbehind

/-- The name of that end tag leaves the element. -/
theorem Closed.next_of_rawEndTag {offset : Nat} {nesting : Nesting} {name : String}
    {text : List Char} (h : (Cursor.mk offset ⟨.endTagName, nesting⟩ text).Closed)
    (hraw : name ∈ rawTextElements) (hname : nesting.innermost? = some name)
    (htag : HasEndTag name ('<' :: '/' :: text)) :
    (Cursor.next form ⟨offset, ⟨.endTagName, nesting⟩, text⟩).Closed := by
  obtain ⟨letters, behind, htext, hletters, hend⟩ := htag
  obtain ⟨-, htext⟩ := List.cons.inj (List.cons.inj htext).2
  obtain ⟨kind, -, hyields⟩ := yields_rawEndTagName form offset hraw hname hletters hend
  have hnext : Cursor.next form ⟨offset, ⟨.endTagName, nesting⟩, text⟩ = _ :=
    htext ▸ hyields.arrives
  rw [hnext]
  apply Markup.Closed.leaving h
  apply List.ne_nil_of_length_pos
  have hreach := (Nesting.innermost?_eq_some hname).1
  rw [← nesting.elements.size_eq]
  omega

theorem Closed.next (h : cursor.Closed) (hsound : cursor.Sound form) :
    (cursor.next form).Closed := by
  obtain ⟨offset, ⟨state, nesting⟩, rest⟩ := cursor
  cases rest with
  | nil => exact h
  | cons c cs =>
      have hroom := hsound.few_elements
      have hcoheres : Markup.Sound form state nesting := hsound.coheres
      by_cases hown : AtOwnTag nesting state (c :: cs)
      · cases hown with
        | inTag hstate =>
            exact Markup.Closed.of_tagMove h hcoheres hroom hstate
              (tagMove_of_inTag nesting c cs hstate)
        | inRawText =>
            obtain ⟨name, hraw, hname⟩ := hcoheres.standing
            exact h.next_of_rawText hraw hname
        | inEndTag hraw hname htag => exact h.next_of_rawEndTag hraw hname htag
      · by_cases hstate : state = .startTagName
        · subst hstate
          obtain ⟨name, hchange, hnext⟩ := Rule.startTagName_opens nesting hsound.expected
          have hopened := Markup.Closed.of_openElement form
            (cs.drop (Rule.startTagName nesting c cs).more) h hnext
          rw [← hchange] at hopened
          exact hopened
        · exact Markup.Closed.of_move h hown hstate hcoheres
            (Context.moves ⟨state, nesting⟩ c cs hsound.expected)

theorem Closed.iterate (h : cursor.Closed) (hsound : cursor.Sound form) (n : Nat) :
    ((Cursor.next form)^[n] cursor).Closed := by
  induction n with
  | zero => exact h
  | succ n ih => rw [Function.iterate_succ_apply']; exact ih.next (hsound.iterate n)

/-- Nothing lingers where nothing is open. -/
theorem Closed.start (form : Form) (offset : Nat) (text : List Char) :
    (Cursor.mk offset (contextOf form 0) text).Closed :=
  fun _ _ hsuffix _ => absurd (List.suffix_nil.mp hsuffix) (List.cons_ne_nil _ _)

end Cursor

end Markup

namespace MarkupGrammar

open Markup

/-- Where content or script is read, an element is open that has no content, or raw text as its
    content, only if an attribute of its own start tag is being read. In particular none is open
    outside the expressions of attributes. -/
theorem elements_without_markup_do_not_linger (lexer started : Lexer MarkupGrammar Snapshot Nesting)
    (source : String) (start stop : Nat) (hsize : source.utf8ByteSize < Opening.depthLimit)
    (hstarted : lexer.start source start stop 0 = .ok started) (n : Nat) :
    let place := (Session.advanceTimes n started).tape.place
    place.state = State.content.code ∨ place.state = State.expression.code →
    (∀ index name, place.live.elements.toList[index]? = some name → HoldsNoMarkup name →
      ∃ brace ∈ place.live.expressions.entries,
        brace.stateBehind = .attributes ∧ brace.depth = index + 1) ∧
    ((∀ brace ∈ place.live.expressions.entries, brace.stateBehind ≠ .attributes) →
      ∀ name ∈ place.live.elements.entries, ¬HoldsNoMarkup name) := by
  obtain ⟨text, -, hlength, htape⟩ := exists_text_of_start hstarted
  have hsound := Cursor.Sound.start lexer.reader.form start (Nat.lt_of_le_of_lt hlength hsize)
  have hclosed := (Cursor.Closed.start lexer.reader.form start text).iterate hsound n
  rw [htape n]
  generalize (Cursor.next lexer.reader.form)^[n] _ = cursor at hclosed
  simp only [Cursor.place_tape, placeAt]
  intro hcode
  have hown : ¬AtOwnTag cursor.context.nesting cursor.context.state cursor.rest := by
    generalize cursor.context.state = state at hcode
    rintro (hstate | _ | _)
    · rcases hstate with rfl | rfl | rfl | rfl <;> revert hcode <;> decide
    · revert hcode; decide
    · revert hcode; decide
  refine ⟨?_, ?_⟩
  · intro index name hindex hname
    obtain ⟨outer, hsuffix, rfl⟩ := Stack.exists_suffix_of_getElem? hindex
    exact hclosed.inAttributeOf hown hsuffix hname
  · intro hbraces name hmem hname
    obtain ⟨inner, outer, hentries⟩ := List.append_of_mem hmem
    obtain ⟨brace, hbrace, hbehind, -⟩ := hclosed.inAttributeOf hown ⟨inner, hentries.symm⟩ hname
    exact hbraces brace hbrace hbehind

/-- The element is open because an attribute of it holds the content. -/
theorem elements_without_markup_do_not_linger_around_attribute :
    "<br a=\x7b<p>x</p>\x7d>".utf8ByteSize < Opening.depthLimit ∧ HoldsNoMarkup "br" ∧
    ∃ started, (Lexer.idle ⟨.document⟩ : Lexer MarkupGrammar Snapshot Nesting).start
        "<br a=\x7b<p>x</p>\x7d>" 0 17 0 = .ok started ∧
      let place := (Session.advanceTimes 9 started).tape.place
      place.state = State.content.code ∧ place.live.elements.toList[0]? = some "br" ∧
      ∃ brace ∈ place.live.expressions.entries,
        brace.stateBehind = .attributes ∧ brace.depth = 1 := by
  let lexer : Lexer MarkupGrammar Snapshot Nesting := Lexer.idle ⟨.document⟩
  let source := "<br a=\x7b<p>x</p>\x7d>"
  have hsize : source.utf8ByteSize < Opening.depthLimit := by decide
  have hvoid : HoldsNoMarkup "br" := .inl (by decide)
  have hplace : (lexer.start source 0 17 0).toOption.map (fun started =>
      ((Session.advanceTimes 9 started).tape.place.state,
        (Session.advanceTimes 9 started).tape.place.live.elements.toList[0]?)) =
      some (State.content.code, some "br") := by
    decide +kernel
  cases hstarted : lexer.start source 0 17 0 with
  | error error =>
      rw [hstarted] at hplace
      cases hplace
  | ok started =>
      rw [hstarted] at hplace
      obtain ⟨hstate, hopen⟩ := Prod.mk.inj (Option.some.inj hplace)
      obtain ⟨hbraces, -⟩ := elements_without_markup_do_not_linger lexer started source 0 17 hsize
        hstarted 9 (.inl hstate)
      exact ⟨hsize, hvoid, started, rfl, hstate, hopen, hbraces 0 "br" hopen hvoid⟩

end MarkupGrammar

end Relex
