import Relex.Markup.Rules

/-! # The tokens of each state

Every state reads tokens of a few kinds only. `State.reads` lists them, and no rule reads any other
(`Context.reads_kind`), whatever the text and the nesting. So the kind of a token says much about the
state in front of it: a name is read only behind the sign that opens a tag, and the script of the
frontmatter only where the frontmatter begins (`Context.kind_eq_script_iff`).
-/

namespace Relex.Markup

/-- The kinds of tokens outside tags. -/
def inContent : Kind → Bool
  | .commentStart | .doctype | .endTagStart | .tagStart | .expressionStart | .charEntityRef
  | .dataCharacters | .whiteSpace | .badCharacter => true
  | _ => false

/-- The kinds of tokens behind the name of a start tag. -/
def inStartTag : Kind → Bool
  | .whiteSpace | .tagEnd | .emptyElementEnd | .expressionStart | .equals | .attributeName
  | .tagCharacters => true
  | _ => false

/-- The kinds of tokens behind the name of an end tag. -/
def inEndTag : Kind → Bool
  | .whiteSpace | .tagEnd | .tagCharacters => true
  | _ => false

def isName : Kind → Bool
  | .tagName | .componentName => true
  | _ => false

/-- The kinds of tokens between braces. -/
def inExpression : Kind → Bool
  | .script _ | .expressionEnd | .tagStart | .endTagStart | .badCharacter => true
  | _ => false

/-- The kinds of tokens that a state reads. -/
def State.reads : State → Kind → Bool
  | .initial, kind | .frontmatterClose, kind => kind == .frontmatterSeparator || inContent kind
  | .content, kind | .unlisted _ _, kind => inContent kind
  | .startTagName, kind => isName kind || inStartTag kind
  | .attributes, kind => inStartTag kind
  | .valueStart, kind =>
    kind == .attributeValueStartDelimiter || kind == .attributeValue || inStartTag kind
  | .doubleQuotedValue, kind | .singleQuotedValue, kind =>
    kind == .attributeValueEndDelimiter || kind.isValuePiece
  | .endTagName, kind => isName kind || inEndTag kind
  | .endTagBody, kind => inEndTag kind
  | .comment, kind => kind == .commentCharacters || kind == .commentEnd
  | .rawText, kind => kind == .rawText || kind == .endTagStart
  | .expression, kind => inExpression kind
  | .frontmatter, kind => kind == .frontmatterScript

namespace Rule

variable (nesting : Nesting) (c : Char) (cs : List Char)

theorem content_kind : inContent (content nesting c cs).kind = true := by
  rw [content]
  repeat' split
  all_goals rfl

theorem startTagEnd_kind : inStartTag (startTagEnd nesting).kind = true := by
  rw [startTagEnd]
  repeat' split
  all_goals rfl

theorem attributes_kind : inStartTag (attributes nesting c cs).kind = true := by
  rw [attributes]
  split
  · rfl
  split
  · exact startTagEnd_kind nesting
  repeat' split
  all_goals rfl

theorem quotedValue_kind (quote : Char) (state : State) :
    ((quotedValue c cs quote state).kind == .attributeValueEndDelimiter ||
      (quotedValue c cs quote state).kind.isValuePiece) = true := by
  rw [quotedValue]
  repeat' split
  all_goals rfl

theorem endTagBody_kind : inEndTag (endTagBody c cs).kind = true := by
  rw [endTagBody]
  repeat' split
  all_goals rfl

theorem tagNameKind_isName (name : String) : isName (tagNameKind name) = true := by
  rw [tagNameKind]
  split
  all_goals rfl

theorem expression_kind : inExpression (expression nesting c cs).kind = true := by
  rw [expression]
  repeat' split
  all_goals rfl

end Rule

theorem Context.reads_kind (context : Context) (c : Char) (cs : List Char) :
    context.state.reads (context.transition c cs).kind = true := by
  obtain ⟨state, nesting⟩ := context
  have hcontent := Rule.content_kind nesting c cs
  have hattributes := Rule.attributes_kind nesting c cs
  cases state with
  | initial =>
      simp only [State.reads, transition, Rule.initial]
      split
      · rfl
      split
      · rfl
      · simp only [hcontent, Bool.or_true]
  | frontmatterClose =>
      simp only [State.reads, transition, Rule.frontmatterClose]
      split
      · rfl
      · simp only [hcontent, Bool.or_true]
  | content => exact hcontent
  | unlisted code beyond => exact hcontent
  | startTagName =>
      simp only [State.reads, transition, Rule.startTagName]
      split
      · rfl
      split
      · simp only [Rule.tagNameKind_isName, Bool.true_or]
      · simp only [hattributes, Bool.or_true]
  | attributes => exact hattributes
  | valueStart =>
      simp only [State.reads, transition, Rule.valueStart]
      repeat' split
      all_goals first | rfl | simp only [hattributes, Bool.or_true]
  | doubleQuotedValue => exact Rule.quotedValue_kind c cs _ _
  | singleQuotedValue => exact Rule.quotedValue_kind c cs _ _
  | endTagName =>
      simp only [State.reads, transition, Rule.endTagName]
      split
      · rfl
      split
      · simp only [Rule.tagNameKind_isName, Bool.true_or]
      · simp only [Rule.endTagBody_kind, Bool.or_true]
  | endTagBody => exact Rule.endTagBody_kind c cs
  | comment =>
      simp only [State.reads, transition, Rule.comment]
      repeat' split
      all_goals rfl
  | rawText =>
      simp only [State.reads, transition, Rule.rawText]
      split
      all_goals rfl
  | expression => exact Rule.expression_kind nesting c cs
  | frontmatter => rfl

/-- The script of the frontmatter is read as one token, in its own state and in no other. -/
theorem Context.kind_eq_script_iff (context : Context) (c : Char) (cs : List Char) :
    (context.transition c cs).kind = .frontmatterScript ↔ context.state = .frontmatter := by
  constructor
  · intro hkind
    have hreads := context.reads_kind c cs
    rw [hkind] at hreads
    cases hstate : context.state with
    | frontmatter => rfl
    | _ =>
        rw [hstate] at hreads
        cases hreads
  · intro hstate
    rw [transition, hstate]
    rfl

end Relex.Markup
