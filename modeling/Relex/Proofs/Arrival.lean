import Relex.Proofs.RestartPoint

/-! # Where the states of the markup are entered

From a start with nothing open, a cursor meets each state in front of certain text and inside certain
braces only: the states that read a name stand in front of one, raw text stands in an element of raw
text, and script stands between braces or in a fragment. `Cursor.Arrived` collects what always holds.
One move keeps it (`Arrived.next`), however long the text is, since none of it depends on the depths
that the braces count.
-/

namespace Relex.Markup

open Text Unicode

/-- There is script around braces only where script is read at all. -/
def InScript (form : Form) (braces : List Opening) : Prop :=
  form = .fragment ∨ braces ≠ []

/-- What is read behind the closing braces: markup, or script if the braces stand in script. -/
inductive Closing (form : Form) : List Opening → Prop
  | nil : Closing form []
  | markup {brace : Opening} {outer : List Opening}
      (hbehind : brace.stateBehind = .content ∨ brace.stateBehind = .attributes)
      (houter : Closing form outer) : Closing form (brace :: outer)
  | script {brace : Opening} {outer : List Opening} (hbehind : brace.stateBehind = .expression)
      (hscript : InScript form outer) (houter : Closing form outer) : Closing form (brace :: outer)

namespace Closing

variable {form : Form} {brace : Opening} {outer : List Opening}

theorem tail (h : Closing form (brace :: outer)) : Closing form outer := by
  cases h with
  | markup _ houter => exact houter
  | script _ _ houter => exact houter

theorem stateBehind_cases (h : Closing form (brace :: outer)) :
    brace.stateBehind = .content ∨ brace.stateBehind = .attributes ∨
      brace.stateBehind = .expression := by
  cases h with
  | markup hbehind _ => exact hbehind.imp_right .inl
  | script hbehind _ _ => exact .inr (.inr hbehind)

theorem inScript (h : Closing form (brace :: outer)) (hbehind : brace.stateBehind = .expression) :
    InScript form outer := by
  cases h with
  | markup hmarkup _ => simp [hbehind] at hmarkup
  | script _ hscript _ => exact hscript

theorem inMarkup {braces : List Opening} (h : Closing form braces) :
    ∀ brace ∈ braces, brace.stateBehind.InMarkup := by
  induction h with
  | nil => nofun
  | markup hbehind _ ih =>
      refine List.forall_mem_cons.mpr ⟨?_, ih⟩
      rcases hbehind with hbehind | hbehind <;> rw [hbehind] <;> trivial
  | script hbehind _ _ ih =>
      refine List.forall_mem_cons.mpr ⟨?_, ih⟩
      rw [hbehind]
      trivial

end Closing

/-- What always holds of a cursor that started with nothing open. -/
structure Cursor.Arrived (form : Form) (cursor : Cursor) : Prop where
  expected : Expects cursor.context.state cursor.rest
  endTagName : cursor.context.state = .endTagName → opensName cursor.rest = true
  rawText : cursor.context.state = .rawText →
    ∃ name ∈ rawTextElements, cursor.context.nesting.innermost? = some name
  script : cursor.context.state = .expression →
    InScript form cursor.context.nesting.expressions.entries
  closing : Closing form cursor.context.nesting.expressions.entries
  content : cursor.context.state = .content →
    cursor.context.nesting.ambientState form = .content
  fragment : form = .fragment → cursor.context.state.InMarkup

/-! ## In front of the name of an end tag -/

/-- What is a letter of ASCII in small is one as it stands. -/
theorem isAlpha_of_toLower {c : Char} (h : c.toLower.isAlpha = true) : c.isAlpha = true := by
  by_cases hupper : c.val ≥ 'A'.val ∧ c.val ≤ 'Z'.val
  · exact Bool.or_eq_true_iff.mpr (.inl (decide_eq_true hupper))
  · have hsame : c.toLower = c := dif_neg hupper
    rwa [hsame] at h

/-- The end tag of a raw text element begins with a letter behind its sign. -/
theorem opensName_of_endsRawText {name : String} {text : List Char} (hraw : name ∈ rawTextElements)
    (h : endsRawText name text = true) : opensName (text.drop 2) = true := by
  obtain ⟨rest, hname⟩ : ∃ rest, name.toList = 's' :: rest := by
    simp only [rawTextElements, List.mem_cons, List.not_mem_nil, or_false] at hraw
    rcases hraw with rfl | rfl
    · exact ⟨_, rfl⟩
    · exact ⟨_, rfl⟩
  simp only [endsRawText, hname, equalIgnoringCase, Bool.and_eq_true, beq_iff_eq,
    List.length_cons] at h
  obtain ⟨⟨-, hsame⟩, -⟩ := h
  cases hbehind : text.drop 2 with
  | nil => simp [hbehind] at hsame
  | cons c cs =>
      simp only [hbehind, List.take_succ_cons, List.map_cons, List.cons.injEq] at hsame
      have hletter : c.isAlpha = true := isAlpha_of_toLower (hsame.1 ▸ by decide)
      simp [opensName, headIs, hletter]

namespace Rule

variable {nesting : Nesting} {c : Char} {cs : List Char}

theorem opensName_of_content (h : (content nesting c cs).next = .endTagName) :
    opensName (cs.drop (content nesting c cs).more) = true := by
  revert h
  rw [content]
  split
  · intro hnext
    cases hnext
  split
  · intro hnext
    cases hnext
  split
  · rename_i hopens
    intro _
    exact (Bool.and_eq_true_iff.mp hopens).2
  repeat' split
  all_goals intro hnext
  all_goals cases hnext

theorem opensName_of_rawText {name : String} (hraw : name ∈ rawTextElements)
    (hname : nesting.innermost? = some name) (h : (rawText nesting c cs).next = .endTagName) :
    opensName (cs.drop (rawText nesting c cs).more) = true := by
  have htop := (Nesting.innermost?_eq_some hname).2
  revert h
  rw [rawText, htop]
  split
  · rename_i hseek
    intro _
    exact opensName_of_endsRawText hraw (seek?_spec hseek)
  · intro hnext
    cases hnext
  · intro hnext
    cases hnext

theorem opensName_of_expression
    (hclosing : ∀ brace ∈ nesting.expressions.top?, brace.stateBehind ≠ .endTagName)
    (h : (expression nesting c cs).next = .endTagName) :
    opensName (cs.drop (expression nesting c cs).more) = true := by
  revert h
  rw [expression]
  split
  · intro hnext
    cases hnext
  split
  · split
    · intro hnext
      cases hnext
    · rename_i brace htop
      split
      · intro hnext
        cases hnext
      · exact fun hbehind => absurd hbehind (hclosing brace htop)
  split
  · rename_i hopens
    intro _
    exact (Bool.and_eq_true_iff.mp hopens).2
  split
  all_goals intro hnext
  all_goals cases hnext

/-- Inside a start tag no end tag begins. -/
theorem attributes_next_ne (nesting : Nesting) (c : Char) (cs : List Char) :
    (attributes nesting c cs).next ≠ .endTagName := by
  rw [attributes, startTagEnd]
  repeat' split
  all_goals intro hnext
  all_goals cases hnext

theorem startTagName_next_ne (nesting : Nesting) (c : Char) (cs : List Char) :
    (startTagName nesting c cs).next ≠ .endTagName := by
  rw [startTagName]
  repeat' split
  all_goals intro hnext
  all_goals first | exact attributes_next_ne nesting c cs hnext | cases hnext

theorem valueStart_next_ne (nesting : Nesting) (c : Char) (cs : List Char) :
    (valueStart nesting c cs).next ≠ .endTagName := by
  rw [valueStart]
  repeat' split
  all_goals intro hnext
  all_goals first | exact attributes_next_ne nesting c cs hnext | cases hnext

theorem quotedValue_next_ne {c : Char} {cs : List Char} (quote : Char) {state : State}
    (hstate : state ≠ .endTagName) : (quotedValue c cs quote state).next ≠ .endTagName := by
  rw [quotedValue]
  repeat' split
  all_goals intro hnext
  all_goals first | exact hstate hnext | cases hnext

theorem endTagBody_next_ne (c : Char) (cs : List Char) :
    (endTagBody c cs).next ≠ .endTagName := by
  rw [endTagBody]
  repeat' split
  all_goals intro hnext
  all_goals cases hnext

theorem endTagName_next_ne (c : Char) (cs : List Char) :
    (endTagName c cs).next ≠ .endTagName := by
  rw [endTagName]
  repeat' split
  all_goals intro hnext
  all_goals first | exact endTagBody_next_ne c cs hnext | cases hnext

theorem comment_next_ne (c : Char) (cs : List Char) : (comment c cs).next ≠ .endTagName := by
  rw [comment]
  repeat' split
  all_goals intro hnext
  all_goals cases hnext

end Rule

namespace Cursor.Arrived

variable {form : Form} {offset : Nat} {context : Context} {c : Char} {cs : List Char}

theorem stateBehind_cases {cursor : Cursor} (h : cursor.Arrived form) {brace : Opening}
    (htop : cursor.context.nesting.expressions.top? = some brace) :
    brace.stateBehind = .content ∨ brace.stateBehind = .attributes ∨
      brace.stateBehind = .expression := by
  obtain ⟨outer, hentries⟩ := List.head?_eq_some_iff.mp htop
  exact (hentries ▸ h.closing : Closing form (brace :: outer)).stateBehind_cases

/-- The sign of an end tag is read in front of its name. -/
theorem opensName_behind (h : (Cursor.mk offset context (c :: cs)).Arrived form)
    (hnext : (context.transition c cs).next = .endTagName) :
    opensName (cs.drop (context.transition c cs).more) = true := by
  obtain ⟨state, nesting⟩ := context
  cases state with
  | rawText =>
      obtain ⟨name, hraw, hname⟩ := h.rawText rfl
      exact Rule.opensName_of_rawText hraw hname hnext
  | expression =>
      refine Rule.opensName_of_expression ?_ hnext
      intro brace htop hbehind
      rcases h.stateBehind_cases htop with hcase | hcase | hcase
      · cases hcase.symm.trans hbehind
      · cases hcase.symm.trans hbehind
      · cases hcase.symm.trans hbehind
  | content => exact Rule.opensName_of_content hnext
  | unlisted code beyond => exact Rule.opensName_of_content hnext
  | initial =>
      revert hnext
      simp only [Context.transition, Rule.initial]
      split
      · intro hnext
        cases hnext
      split
      · intro hnext
        cases hnext
      · exact Rule.opensName_of_content
  | frontmatterClose =>
      revert hnext
      simp only [Context.transition, Rule.frontmatterClose]
      split
      · intro hnext
        cases hnext
      · exact Rule.opensName_of_content
  | frontmatter => cases hnext
  | startTagName => exact absurd hnext (Rule.startTagName_next_ne nesting c cs)
  | valueStart => exact absurd hnext (Rule.valueStart_next_ne nesting c cs)
  | attributes => exact absurd hnext (Rule.attributes_next_ne nesting c cs)
  | doubleQuotedValue => exact absurd hnext (Rule.quotedValue_next_ne _ (by decide))
  | singleQuotedValue => exact absurd hnext (Rule.quotedValue_next_ne _ (by decide))
  | endTagName => exact absurd hnext (Rule.endTagName_next_ne c cs)
  | endTagBody => exact absurd hnext (Rule.endTagBody_next_ne c cs)
  | comment => exact absurd hnext (Rule.comment_next_ne c cs)

end Cursor.Arrived

section Move

variable {form : Form} {nesting : Nesting} {ahead : List Char} {state next : State} {kind : Kind}
  {change : Change}

theorem Move.closing (hmove : Move nesting ahead state kind next change)
    (hclosing : Closing form nesting.expressions.entries)
    (hscript : state = .expression → InScript form nesting.expressions.entries) :
    Closing form (nesting.apply change).expressions.entries := by
  cases hmove with
  | openBrace hstate =>
      have hbehind : (nesting.opening state.behindBrace).stateBehind = state.behindBrace :=
        Opening.stateBehind_atDepth hstate.code_behindBrace_lt
      rcases hstate with rfl | rfl | rfl | rfl | rfl
      · exact .markup (.inl hbehind) hclosing
      · exact .markup (.inl hbehind) hclosing
      · exact .markup (.inr hbehind) hclosing
      · exact .markup (.inr hbehind) hclosing
      · exact .script hbehind (hscript rfl) hclosing
  | closeBrace htop =>
      obtain ⟨outer, hentries⟩ := List.head?_eq_some_iff.mp htop
      rw [hentries] at hclosing
      rw [Nesting.entries_closeExpression hentries]
      exact hclosing.tail
  | _ => rw [Nesting.expressions_apply]; exact hclosing

theorem Move.inScript (hmove : Move nesting ahead state kind next change)
    (hclosing : Closing form nesting.expressions.entries)
    (hscript : state = .expression → InScript form nesting.expressions.entries)
    (hnext : next = .expression) : InScript form (nesting.apply change).expressions.entries := by
  cases hmove with
  | stay hahead => exact hscript hnext
  | openBrace hstate => exact .inr (List.cons_ne_nil _ _)
  | closeBrace htop =>
      obtain ⟨outer, hentries⟩ := List.head?_eq_some_iff.mp htop
      rw [hentries] at hclosing
      rw [Nesting.entries_closeExpression hentries]
      exact hclosing.inScript hnext
  | pass hcases => rcases hcases with rfl | rfl | rfl | rfl <;> cases hnext
  | alongTag hstate hcases => rcases hcases with rfl | rfl | rfl | rfl <;> cases hnext
  | openElement hcases => rcases hcases with rfl | rfl <;> cases hnext
  | closeElement hcases => rcases hcases with rfl | rfl <;> cases hnext
  | _ => cases hnext

theorem Move.inRawText (hmove : Move nesting ahead state kind next change)
    (hclosing : Closing form nesting.expressions.entries)
    (hraw : state = .rawText → ∃ name ∈ rawTextElements, nesting.innermost? = some name)
    (hnext : next = .rawText) :
    ∃ name ∈ rawTextElements, (nesting.apply change).innermost? = some name := by
  cases hmove with
  | stay hahead => exact hraw hnext
  | enterRawText hstate hname hraw => exact ⟨_, hraw, hname⟩
  | closeBrace htop =>
      obtain ⟨outer, hentries⟩ := List.head?_eq_some_iff.mp htop
      rw [hentries] at hclosing
      have hcases := hclosing.stateBehind_cases
      simp [hnext] at hcases
  | pass hcases => rcases hcases with rfl | rfl | rfl | rfl <;> cases hnext
  | alongTag hstate hcases => rcases hcases with rfl | rfl | rfl | rfl <;> cases hnext
  | openElement hcases => rcases hcases with rfl | rfl <;> cases hnext
  | closeElement hcases => rcases hcases with rfl | rfl <;> cases hnext
  | _ => cases hnext

end Move

/-- A state behind a token, other than content or script, is the one that the rule gives. -/
theorem Context.next_of_after {form : Form} {context : Context} {transition : Transition} {state : State}
    (hcontent : state ≠ .content) (hexpression : state ≠ .expression)
    (hstate : (context.after form transition).state = state) : transition.next = state := by
  simp only [Context.after] at hstate
  split at hstate
  · rcases (context.nesting.apply transition.change).ambientState_cases form with hambient | hambient
    · exact absurd (hstate.symm.trans hambient) hcontent
    · exact absurd (hstate.symm.trans hambient) hexpression
  · exact hstate

namespace Cursor.Arrived

variable {form : Form} {cursor : Cursor}

theorem next (h : cursor.Arrived form) : (cursor.next form).Arrived form := by
  obtain ⟨offset, context, rest⟩ := cursor
  cases rest with
  | nil => exact h
  | cons c cs =>
      have hmove := Context.moves context c cs h.expected
      constructor
      · exact expects_ambient (hmove.expected_of_behind fun brace => h.stateBehind_cases)
      · intro hstate
        exact h.opensName_behind (Context.next_of_after (by decide) (by decide) hstate)
      · intro hstate
        exact hmove.inRawText h.closing h.rawText
          (Context.next_of_after (by decide) (by decide) hstate)
      · intro hstate
        simp only [Cursor.next, Context.after] at hstate ⊢
        split at hstate
        · obtain ⟨-, hform⟩ := ambientState_eq_expression_iff.mp hstate
          by_cases hbraces : (context.nesting.apply
              (context.transition c cs).change).expressions.entries = []
          · exact .inl (hform hbraces)
          · exact .inr hbraces
        · exact hmove.inScript h.closing h.script hstate
      · exact hmove.closing h.closing h.script
      · intro hstate
        simp only [Cursor.next, Context.after] at hstate ⊢
        split at hstate
        · exact hstate
        · rename_i hnext
          exact absurd hstate hnext
      · intro hform
        simp only [Cursor.next, Context.after]
        split
        · exact Nesting.ambientState_inMarkup form _
        · exact hmove.next_lasting State.lasting_inMarkup (h.fragment hform) h.closing.inMarkup

theorem iterate (h : cursor.Arrived form) (n : Nat) :
    ((Cursor.next form)^[n] cursor).Arrived form := by
  induction n with
  | zero => exact h
  | succ n ih => rw [Function.iterate_succ_apply']; exact ih.next

/-- A cursor that starts with nothing open has arrived. -/
theorem start (form : Form) (offset : Nat) (text : List Char) :
    (Cursor.mk offset (contextOf form 0) text).Arrived form := by
  cases form with
  | document => exact ⟨trivial, nofun, nofun, nofun, .nil, nofun, nofun⟩
  | fragment => exact ⟨trivial, nofun, nofun, fun _ => .inl rfl, .nil, nofun, fun _ => trivial⟩

end Cursor.Arrived

end Relex.Markup
