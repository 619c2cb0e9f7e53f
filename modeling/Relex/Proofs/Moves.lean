import Relex.Markup.Rules
import Relex.Proofs.CharClasses

/-! # The moves of the markup grammar

`Move` says once what moving past a token can do: how the state goes on, and with which change to
the nesting. Some states are entered only in front of certain text, and their rules for any other
text are never used; `Expects` says in front of which. Every transition out of such a place is a
move (`Context.moves`), so that what all moves preserve holds along every run.
-/

namespace Relex

namespace Text

theorem seek?_spec {here : List Char → Bool} {cs : List Char} {n : Nat}
    (h : seek? here cs = some n) : here (cs.drop n) = true := by
  induction cs generalizing n with
  | nil => cases h
  | cons c cs ih =>
      rw [seek?] at h
      split at h
      · rename_i hhere
        cases h
        exact hhere
      · obtain ⟨m, hm, rfl⟩ := Option.map_eq_some_iff.mp h
        exact ih hm

end Text

namespace Markup

open Text Unicode

/-- The state behind the closing brace of a brace that is read in a state. -/
def State.behindBrace : State → State
  | .initial => .content
  | .valueStart => .attributes
  | state => state

/-- Reading a brace in this state opens an expression. -/
def State.OpensBrace (state : State) : Prop :=
  state = .initial ∨ state = .content ∨ state = .attributes ∨ state = .valueStart ∨
    state = .expression

/-- Between the name of a start tag and its end. -/
def State.InTag (state : State) : Prop :=
  state = .attributes ∨ state = .valueStart ∨ state = .doubleQuotedValue ∨
    state = .singleQuotedValue

def openingKind (behind : State) : Kind :=
  if behind = .expression then .script .lBrace else .expressionStart

def closingKind (behind : State) : Kind :=
  if behind = .expression then .script .rBrace else .expressionEnd

/-- The text in front of which a state is entered. -/
def Expects : State → List Char → Prop
  | .startTagName, text => opensName text = true
  | .frontmatterClose, text => text = [] ∨ begins fence text = true
  | .unlisted _ _, _ => False
  | _, _ => True

/-- What moving past a token can do when `ahead` is the text behind it. -/
inductive Move (nesting : Nesting) (ahead : List Char) : State → Kind → State → Change → Prop
  | stay {state : State} {kind : Kind} (hahead : Expects state ahead) :
      Move nesting ahead state kind state .keep
  | pass {state next : State} {kind : Kind}
      (hnext : next = .content ∨ next = .comment ∨ next = .endTagName ∨ next = .endTagBody) :
      Move nesting ahead state kind next .keep
  | startTag {state : State} {kind : Kind} (hahead : Expects .startTagName ahead) :
      Move nesting ahead state kind .startTagName .keep
  | enterFrontmatter {kind : Kind} : Move nesting ahead .initial kind .frontmatter .keep
  | leaveFrontmatter {kind : Kind} (hahead : Expects .frontmatterClose ahead) :
      Move nesting ahead .frontmatter kind .frontmatterClose .keep
  | alongTag {state next : State} {kind : Kind} (hstate : state.InTag) (hnext : next.InTag) :
      Move nesting ahead state kind next .keep
  | enterRawText {state : State} {kind : Kind} {name : String} (hstate : state.InTag)
      (hname : nesting.innermost? = some name) (hraw : name ∈ rawTextElements) :
      Move nesting ahead state kind .rawText .keep
  | openBrace {state : State} (hstate : state.OpensBrace) :
      Move nesting ahead state (openingKind state.behindBrace) .expression
        (.openExpression (nesting.opening state.behindBrace))
  | closeBrace {brace : Opening} (htop : nesting.expressions.top? = some brace) :
      Move nesting ahead .expression (closingKind brace.stateBehind) brace.stateBehind
        .closeExpression
  | openElement {next : State} {kind : Kind} {name : String}
      (hnext : next = .content ∨ next = .attributes) :
      Move nesting ahead .startTagName kind next (.openElement name)
  | closeElement {next : State} {kind : Kind} {name : String}
      (hnext : next = .content ∨ next = .endTagBody) :
      Move nesting ahead .endTagName kind next (.closeElement name)
  | leaveElement {state : State} {kind : Kind} (hstate : state.InTag) :
      Move nesting ahead state kind .content .leaveElement

/-- The transition is a move, when `cs` follows the first character. -/
def Transition.Moves (nesting : Nesting) (state : State) (cs : List Char)
    (transition : Transition) : Prop :=
  Move nesting (cs.drop transition.more) state transition.kind transition.next transition.change

/-- The letters with which a name can begin are letters with which it goes on. -/
theorem inTagName_of_isAlpha {c : Char} (h : c.isAlpha = true) : inTagName c = true := by
  have hcovered : alphabeticRanges.covers c.toNat = true := by
    rw [CodeRanges.covers_iff]
    rcases toNat_of_isAlpha h with hcapital | hsmall
    · exact ⟨(65, 90), .head _, hcapital⟩
    · exact ⟨(97, 122), .tail _ (.head _), hsmall⟩
  simp only [inTagName, isAlphanumeric, isAlphabetic, hcovered, Bool.true_or]

namespace Rule

variable (nesting : Nesting) (c : Char) (cs : List Char)

theorem opensName_of_opensStartTag {c : Char} {cs : List Char}
    (h : opensStartTag (c :: cs) = true) : Expects .startTagName (cs.drop 0) := by
  simp only [opensStartTag, Bool.and_eq_true] at h
  exact h.2

theorem content_moves {state : State} (hstate : state = .initial ∨ state = .content) :
    (content nesting c cs).Moves nesting state cs := by
  have htext : ∀ kind more, Transition.Moves nesting state cs ⟨kind, more, .content, .keep⟩ :=
    fun _ _ => .pass (.inl rfl)
  rw [content]
  split
  · exact .pass (.inr (.inl rfl))
  split
  · exact htext _ _
  split
  · exact .pass (.inr (.inr (.inl rfl)))
  split
  · rename_i hopens
    exact .startTag (opensName_of_opensStartTag hopens)
  split
  · rcases hstate with rfl | rfl
    · exact .openBrace (.inl rfl)
    · exact .openBrace (.inr (.inl rfl))
  split
  · split
    · exact htext _ _
    · exact htext _ _
  split
  · exact htext _ _
  split
  · exact htext _ _
  split
  · exact htext _ _
  · exact htext _ _

theorem initial_moves : (initial nesting c cs).Moves nesting .initial cs := by
  rw [initial]
  split
  · exact .stay trivial
  split
  · exact .enterFrontmatter
  · exact content_moves nesting c cs (.inl rfl)

theorem frontmatter_moves : (frontmatter c cs).Moves nesting .frontmatter cs := by
  refine .leaveFrontmatter ?_
  simp only [frontmatter, frontmatterRest]
  cases hseek : seek? (begins ('\n' :: fence)) (c :: cs) with
  | none =>
      left
      simp only [Option.getD_none, List.drop_length]
  | some before =>
      have hfound := seek?_spec hseek
      cases hrest : (c :: cs).drop before with
      | nil =>
          rw [hrest] at hfound
          cases hfound
      | cons d ds =>
          have hbehind : cs.drop before = ds := by
            rw [← List.drop_succ_cons, ← List.tail_drop, hrest, List.tail_cons]
          rw [hrest, begins, List.isPrefixOf_cons_cons, Bool.and_eq_true] at hfound
          right
          rw [Option.getD_some, hbehind]
          exact hfound.2

theorem frontmatterClose_moves (hfence : begins fence (c :: cs) = true) :
    (frontmatterClose nesting c cs).Moves nesting .frontmatterClose cs := by
  rw [frontmatterClose, if_pos hfence]
  exact .pass (.inl rfl)

theorem startTagEnd_moves {state : State} (hstate : state.InTag) :
    (startTagEnd nesting).Moves nesting state cs := by
  rw [startTagEnd]
  split
  · rename_i name hname
    split
    · exact .leaveElement hstate
    split
    · rename_i hraw
      exact .enterRawText hstate hname (List.contains_iff_mem.mp hraw)
    · exact .pass (.inl rfl)
  · exact .pass (.inl rfl)

theorem attributes_moves {state : State} (hstate : state = .attributes ∨ state = .valueStart) :
    (attributes nesting c cs).Moves nesting state cs := by
  have htag : state.InTag := hstate.elim .inl fun h => .inr (.inl h)
  rw [attributes]
  split
  · exact .alongTag htag (.inl rfl)
  split
  · exact startTagEnd_moves nesting cs htag
  split
  · exact .leaveElement htag
  split
  · rcases hstate with rfl | rfl
    · exact .openBrace (.inr (.inr (.inl rfl)))
    · exact .openBrace (.inr (.inr (.inr (.inl rfl))))
  split
  · exact .alongTag htag (.inr (.inl rfl))
  split
  · exact .alongTag htag (.inl rfl)
  · exact .alongTag htag (.inl rfl)

theorem valueStart_moves : (valueStart nesting c cs).Moves nesting .valueStart cs := by
  have htag : State.valueStart.InTag := .inr (.inl rfl)
  rw [valueStart]
  split
  · exact .alongTag htag htag
  split
  · exact .alongTag htag (.inr (.inr (.inl rfl)))
  split
  · exact .alongTag htag (.inr (.inr (.inr rfl)))
  split
  · exact .openBrace (.inr (.inr (.inr (.inl rfl))))
  split
  · exact attributes_moves nesting c cs (.inr rfl)
  · exact .alongTag htag (.inl rfl)

theorem quotedValue_moves (quote : Char) {state : State} (hstate : state.InTag) :
    (quotedValue c cs quote state).Moves nesting state cs := by
  rw [quotedValue]
  split
  · exact .alongTag hstate (.inl rfl)
  split
  · split
    · exact .alongTag hstate hstate
    · exact .alongTag hstate hstate
  split
  · exact .alongTag hstate hstate
  · exact .alongTag hstate hstate

theorem endTagBody_moves (state : State) : (endTagBody c cs).Moves nesting state cs := by
  have hnext : ∀ kind more, Transition.Moves nesting state cs ⟨kind, more, .endTagBody, .keep⟩ :=
    fun _ _ => .pass (.inr (.inr (.inr rfl)))
  rw [endTagBody]
  split
  · exact hnext _ _
  split
  · exact .pass (.inl rfl)
  · exact hnext _ _

/-- In front of a name the last rule, which reads attributes, is never used. -/
theorem startTagName_moves (hname : opensName (c :: cs) = true) :
    (startTagName nesting c cs).Moves nesting .startTagName cs := by
  rw [startTagName]
  split
  · exact .openElement (.inl rfl)
  split
  · exact .openElement (.inr rfl)
  · rename_i hend hletter
    simp only [opensName, headIs, List.head?_cons, Option.any_some, Bool.or_eq_true,
      beq_iff_eq] at hname
    rcases hname with halpha | hangle
    · exact absurd (inTagName_of_isAlpha halpha) hletter
    · exact absurd hangle hend

theorem endTagName_moves : (endTagName c cs).Moves nesting .endTagName cs := by
  rw [endTagName]
  split
  · exact .closeElement (.inl rfl)
  split
  · exact .closeElement (.inr rfl)
  · exact endTagBody_moves nesting c cs .endTagName

theorem comment_moves : (comment c cs).Moves nesting .comment cs := by
  rw [comment]
  split
  · exact .pass (.inl rfl)
  split
  · exact .stay trivial
  · exact .stay trivial

theorem rawText_moves : (rawText nesting c cs).Moves nesting .rawText cs := by
  rw [rawText]
  split
  · exact .pass (.inr (.inr (.inl rfl)))
  · exact .stay trivial
  · exact .stay trivial

theorem expression_moves : (expression nesting c cs).Moves nesting .expression cs := by
  rw [expression]
  split
  · exact .openBrace (.inr (.inr (.inr (.inr rfl))))
  split
  · split
    · exact .stay trivial
    · rename_i brace htop
      have hclose : Move nesting cs .expression (closingKind brace.stateBehind) brace.stateBehind
          .closeExpression := .closeBrace htop
      split
      · rename_i hscript
        rw [hscript] at hclose
        exact hclose
      · rename_i hscript
        rw [closingKind, if_neg hscript] at hclose
        exact hclose
  split
  · exact .pass (.inr (.inr (.inl rfl)))
  split
  · rename_i hopens
    exact .startTag (opensName_of_opensStartTag hopens)
  · exact .stay trivial

end Rule

theorem Context.moves (context : Context) (c : Char) (cs : List Char)
    (h : Expects context.state (c :: cs)) :
    (context.transition c cs).Moves context.nesting context.state cs := by
  obtain ⟨state, nesting⟩ := context
  cases state with
  | initial => exact Rule.initial_moves nesting c cs
  | content => exact Rule.content_moves nesting c cs (.inr rfl)
  | startTagName => exact Rule.startTagName_moves nesting c cs h
  | endTagName => exact Rule.endTagName_moves nesting c cs
  | attributes => exact Rule.attributes_moves nesting c cs (.inl rfl)
  | valueStart => exact Rule.valueStart_moves nesting c cs
  | doubleQuotedValue =>
      exact Rule.quotedValue_moves nesting c cs '\x22' (.inr (.inr (.inl rfl)))
  | singleQuotedValue =>
      exact Rule.quotedValue_moves nesting c cs '\x27' (.inr (.inr (.inr rfl)))
  | endTagBody => exact Rule.endTagBody_moves nesting c cs .endTagBody
  | comment => exact Rule.comment_moves nesting c cs
  | rawText => exact Rule.rawText_moves nesting c cs
  | expression => exact Rule.expression_moves nesting c cs
  | frontmatter => exact Rule.frontmatter_moves nesting c cs
  | frontmatterClose =>
      exact Rule.frontmatterClose_moves nesting c cs (h.resolve_left (List.cons_ne_nil c cs))
  | unlisted code beyond => exact h.elim

end Markup

end Relex
