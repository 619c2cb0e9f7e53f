import Relex.Proofs.SlicedLookahead

/-! # Markup read by offsets

The token at an offset of a text of markup can be found with slices alone. Each rule cuts out the rest
of the text at the offset and again wherever it looks further on. Where the text can be cut at the
offset, no cut of any rule fails, and the token is the one of the transition that the characters make
(`Sliced.scan_eq`). Raw text of no element is the one thing that is read without a cut.
-/

namespace Relex.Markup

open Text Unicode

namespace Sliced

/-- A token by the offset behind it, and what moving past it does. -/
structure Step where
  kind : Kind
  stop : Nat
  next : State
  change : Change := .keep

/-! ## The rules -/

section Rules

variable (nesting : Nesting) (text : List Char) (offset : Nat)

def content : Except RangeError Step := do
  let rest ← sliceFrom text offset
  match rest with
  | [] => return { kind := .badCharacter, stop := offset, next := .content }
  | c :: _ =>
    if begins ['<', '!', '-', '-'] rest then
      return { kind := .commentStart, stop := offset + 4, next := .comment }
    else if begins ['<', '!'] rest then
      let found := findWhere (begins ['>']) 0 rest
      let stop := (found.map (offset + · + 1)).getD (byteLength text)
      return { kind := .doctype, stop := stop, next := .content }
    else if ← opensEndTag rest then
      return { kind := .endTagStart, stop := offset + 2, next := .endTagName }
    else if ← opensStartTag rest then
      return { kind := .tagStart, stop := offset + 1, next := .startTagName }
    else if c = '\x7b' then
      return { kind := .expressionStart, stop := offset + 1, next := .expression
               change := .openExpression (nesting.opening .content) }
    else if c = '&' then
      match ← referenceStop? text offset with
      | some stop => return { kind := .charEntityRef, stop := stop, next := .content }
      | none => return { kind := .dataCharacters, stop := offset + 1, next := .content }
    else if isWhiteSpace c then
      return { kind := .whiteSpace, stop := ← lineSpaceStop text offset, next := .content }
    else if isControl c then
      return { kind := .badCharacter, stop := offset + c.utf8Size, next := .content }
    else if isAlphanumeric c then
      return { kind := .dataCharacters, stop := ← passWhile text offset isAlphanumeric
               next := .content }
    else
      return { kind := .dataCharacters, stop := offset + c.utf8Size, next := .content }

def initial : Except RangeError Step := do
  let rest ← sliceFrom text offset
  if headIs isWhiteSpace rest then
    return { kind := .whiteSpace, stop := ← lineSpaceStop text offset, next := .initial }
  else if begins fence rest then
    return { kind := .frontmatterSeparator, stop := offset + 3, next := .frontmatter }
  else
    content nesting text offset

def frontmatter : Except RangeError Step := do
  let rest ← sliceFrom text offset
  let found := findWhere (begins ('\n' :: fence)) 0 rest
  let stop := (found.map (offset + · + 1)).getD (byteLength text)
  return { kind := .frontmatterScript, stop := stop, next := .frontmatterClose }

def frontmatterClose : Except RangeError Step := do
  let rest ← sliceFrom text offset
  if begins fence rest then
    return { kind := .frontmatterSeparator, stop := offset + 3, next := .content }
  else
    content nesting text offset

/-- The end of a start tag, one byte long. -/
def startTagEnd : Step :=
  let rule := Rule.startTagEnd nesting
  { kind := rule.kind, stop := offset + 1, next := rule.next, change := rule.change }

def attributes : Except RangeError Step := do
  let rest ← sliceFrom text offset
  match rest with
  | [] => return { kind := .tagCharacters, stop := offset, next := .attributes }
  | c :: _ =>
    if isWhiteSpace c then
      return { kind := .whiteSpace, stop := ← lineSpaceStop text offset, next := .attributes }
    else if c = '>' then
      return startTagEnd nesting offset
    else if begins ['/', '>'] rest then
      return { kind := .emptyElementEnd, stop := offset + 2, next := .content
               change := .leaveElement }
    else if c = '\x7b' then
      return { kind := .expressionStart, stop := offset + 1, next := .expression
               change := .openExpression (nesting.opening .attributes) }
    else if c = '=' then
      return { kind := .equals, stop := offset + 1, next := .valueStart }
    else if inAttributeName c then
      return { kind := .attributeName, stop := ← passWhile text offset inAttributeName
               next := .attributes }
    else
      return { kind := .tagCharacters, stop := offset + c.utf8Size, next := .attributes }

/-- Whether an attribute value without quotes ends in front of the character at an offset. -/
def bareValueEnds (rest : List Char) (i : Nat) (d : Char) : Except RangeError Bool := do
  if isWhiteSpace d || d == '>' then return true
  else
    let here ← sliceFrom rest i
    return begins ['/', '>'] here

def valueStart : Except RangeError Step := do
  let rest ← sliceFrom text offset
  match rest with
  | [] => return { kind := .tagCharacters, stop := offset, next := .attributes }
  | c :: _ =>
    if isWhiteSpace c then
      return { kind := .whiteSpace, stop := ← lineSpaceStop text offset, next := .valueStart }
    else if c = '\x22' then
      return { kind := .attributeValueStartDelimiter, stop := offset + 1, next := .doubleQuotedValue }
    else if c = '\x27' then
      return { kind := .attributeValueStartDelimiter, stop := offset + 1, next := .singleQuotedValue }
    else if c = '\x7b' then
      return { kind := .expressionStart, stop := offset + 1, next := .expression
               change := .openExpression (nesting.opening .attributes) }
    else if c = '>' then
      attributes nesting text offset
    else if begins ['/', '>'] rest then
      attributes nesting text offset
    else
      let found ← findSlice (bareValueEnds rest) 0 rest
      let stop := (found.map (offset + ·)).getD (byteLength text)
      return { kind := .attributeValue, stop := stop, next := .attributes }

def quotedValue (quote : Char) (state : State) : Except RangeError Step := do
  let rest ← sliceFrom text offset
  match rest with
  | [] => return { kind := .attributeValue, stop := offset, next := state }
  | c :: _ =>
    if c = quote then
      return { kind := .attributeValueEndDelimiter, stop := offset + 1, next := .attributes }
    else if c = '&' then
      match ← referenceStop? text offset with
      | some stop => return { kind := .charEntityRef, stop := stop, next := state }
      | none => return { kind := .attributeValue, stop := offset + 1, next := state }
    else if isWhiteSpace c then
      return { kind := .attributeValue, stop := ← lineSpaceStop text offset, next := state }
    else
      let stop ← passWhile text offset fun d => d != quote && d != '&' && !isWhiteSpace d
      return { kind := .attributeValue, stop := stop, next := state }

def endTagBody : Except RangeError Step := do
  let rest ← sliceFrom text offset
  match rest with
  | [] => return { kind := .tagCharacters, stop := offset, next := .endTagBody }
  | c :: _ =>
    if isWhiteSpace c then
      return { kind := .whiteSpace, stop := ← lineSpaceStop text offset, next := .endTagBody }
    else if c = '>' then
      return { kind := .tagEnd, stop := offset + 1, next := .content }
    else
      return { kind := .tagCharacters, stop := offset + c.utf8Size, next := .endTagBody }

/-- The name of a tag, and what is read where there is none. The tag opens or closes an element of
    this name. -/
def tagName (change : String → Change) (next : State) (unnamed : Except RangeError Step) :
    Except RangeError Step := do
  let rest ← sliceFrom text offset
  if begins ['>'] rest then
    return { kind := .tagEnd, stop := offset + 1, next := .content, change := change "" }
  else
    let stop ← passWhile text offset inTagName
    if stop = offset then unnamed
    else
      let name ← region text offset stop
      return { kind := Rule.tagNameKind (String.ofList name), stop := stop, next := next
               change := change (String.ofList name) }

/-- Whether a line of a comment ends in front of the character at an offset. -/
def commentLineEnds (rest : List Char) (i : Nat) (d : Char) : Except RangeError Bool := do
  if d = '\n' then return true
  else
    let here ← sliceFrom rest i
    return begins ['-', '-', '>'] here

def comment : Except RangeError Step := do
  let rest ← sliceFrom text offset
  if begins ['-', '-', '>'] rest then
    return { kind := .commentEnd, stop := offset + 3, next := .content }
  else if begins ['\n'] rest then
    return { kind := .commentCharacters, stop := offset + 1, next := .comment }
  else
    let found ← findSlice (commentLineEnds rest) 0 rest
    let stop := (found.map (offset + ·)).getD (byteLength text)
    return { kind := .commentCharacters, stop := stop, next := .comment }

/-- Raw text of no element runs to the end, and nothing is cut. -/
def rawText : Except RangeError Step := do
  let close? ←
    match nesting.elements.top? with
    | some name => closeTagStart? text offset name
    | none => .ok none
  match close? with
  | some i =>
    if i = offset then return { kind := .endTagStart, stop := offset + 2, next := .endTagName }
    else return { kind := .rawText, stop := i, next := .rawText }
  | none => return { kind := .rawText, stop := byteLength text, next := .rawText }

def expression : Except RangeError Step := do
  let rest ← sliceFrom text offset
  if begins ['\x7b'] rest then
    return { kind := .script .lBrace, stop := offset + 1, next := .expression
             change := .openExpression (nesting.opening .expression) }
  else if begins ['\x7d'] rest then
    match nesting.expressions.top? with
    | none => return { kind := .badCharacter, stop := offset + 1, next := .expression }
    | some opening =>
      if opening.stateBehind = .expression then
        return { kind := .script .rBrace, stop := offset + 1, next := .expression
                 change := .closeExpression }
      else
        return { kind := .expressionEnd, stop := offset + 1, next := opening.stateBehind
                 change := .closeExpression }
  else if ← opensEndTag rest then
    return { kind := .endTagStart, stop := offset + 2, next := .endTagName }
  else if ← opensStartTag rest then
    return { kind := .tagStart, stop := offset + 1, next := .startTagName }
  else
    let (kind, stop) ← Script.Sliced.lexemeAt text offset (byteLength text)
    return { kind := .script kind, stop := stop, next := .expression }

/-- The token at an offset. -/
def scan (state : State) : Except RangeError Step :=
  match state with
  | .initial => initial nesting text offset
  | .content => content nesting text offset
  | .startTagName => tagName text offset .openElement .attributes (attributes nesting text offset)
  | .endTagName => tagName text offset .closeElement .endTagBody (endTagBody text offset)
  | .attributes => attributes nesting text offset
  | .valueStart => valueStart nesting text offset
  | .doubleQuotedValue => quotedValue text offset '\x22' .doubleQuotedValue
  | .singleQuotedValue => quotedValue text offset '\x27' .singleQuotedValue
  | .endTagBody => endTagBody text offset
  | .comment => comment text offset
  | .rawText => rawText nesting text offset
  | .expression => expression nesting text offset
  | .frontmatter => frontmatter text offset
  | .frontmatterClose => frontmatterClose nesting text offset
  | .unlisted _ _ => content nesting text offset

end Rules

/-! ## The rules make the transitions of the characters -/

/-- A transition as a token by offsets. -/
def Step.of (transition : Transition) (offset : Nat) (c : Char) (cs : List Char) : Step where
  kind := transition.kind
  stop := offset + byteLength (c :: cs.take transition.more)
  next := transition.next
  change := transition.change

section Rules

variable {text cs : List Char} {c : Char} {offset : Nat} (nesting : Nesting)

/-- A token that is a pattern takes the bytes of the pattern. -/
theorem byteLength_front {pattern : List Char} (h : begins pattern (c :: cs) = true) (more : Nat)
    (hlength : pattern.length = more + 1) : byteLength (c :: cs.take more) = byteLength pattern := by
  have hprefix := byteLength_take_add (n := 0) (begins_iff.mp h)
  rw [hlength, Nat.zero_add, List.take_succ_cons] at hprefix
  simpa using hprefix

theorem begins_singleton_cons (d c : Char) (cs : List Char) :
    begins [d] (c :: cs) = true ↔ c = d := by
  simpa [begins, List.isPrefixOf] using eq_comm

/-- A search that does not end at once ends where counting from the second character does. -/
theorem seekStop_eq (h : Ahead text offset (c :: cs)) {here : List Char → Bool}
    (hc : here (c :: cs) = false) :
    ((seek? here (c :: cs)).map fun n => offset + (0 + byteLength ((c :: cs).take n))).getD
      (byteLength text) = offset + byteLength (c :: cs.take (seek here cs)) := by
  rw [seek?, hc, if_neg Bool.false_ne_true, seek]
  cases seek? here cs with
  | none => simp [h.byteLength_eq]
  | some n => simp

theorem declarationStop_eq (h : Ahead text offset (c :: cs)) (hc : c ≠ '>') :
    ((findWhere (begins ['>']) 0 (c :: cs)).map (offset + · + 1)).getD (byteLength text) =
      offset + byteLength (c :: cs.take (declarationRest cs)) := by
  have hfirst : begins ['>'] (c :: cs) = false :=
    Bool.eq_false_iff.mpr fun hbegins => hc ((begins_singleton_cons _ _ _).mp hbegins)
  rw [findWhere_eq, seek?, hfirst, if_neg Bool.false_ne_true, declarationRest]
  cases hseek : seek? (begins ['>']) cs with
  | none => simp [h.byteLength_eq]
  | some n =>
      have hone : byteLength ['>'] = 1 := by decide
      have hsign := byteLength_take_add (begins_iff.mp (seek?_spec hseek))
      rw [List.length_singleton, hone] at hsign
      simp [hsign, Nat.add_assoc]

/-- The script of the frontmatter holds the line break in front of the fence. -/
theorem frontmatterStop_eq (h : Ahead text offset (c :: cs)) :
    ((findWhere (begins ('\n' :: fence)) 0 (c :: cs)).map (offset + · + 1)).getD (byteLength text) =
      offset + byteLength (c :: cs.take (frontmatterRest c cs)) := by
  rw [findWhere_eq, frontmatterRest]
  cases hseek : seek? (begins ('\n' :: fence)) (c :: cs) with
  | none => simp [h.byteLength_eq]
  | some n =>
      have hone : byteLength ['\n'] = 1 := by decide
      have hfence := begins_iff.mp (seek?_spec hseek)
      have hbreak := byteLength_take_add (List.IsPrefix.trans ⟨fence, rfl⟩ hfence : ['\n'] <+: _)
      rw [List.length_singleton, hone, List.take_succ_cons] at hbreak
      simp [hbreak, Nat.add_assoc]

theorem content_eq (h : Ahead text offset (c :: cs)) : content nesting text offset =
    .ok (.of (Rule.content nesting c cs) offset c cs) := by
  rw [content, h.slice]
  simp only [bind, Except.bind, opensEndTag_eq, opensStartTag_eq]
  unfold Rule.content
  by_cases hcomment : begins ['<', '!', '-', '-'] (c :: cs) = true
  · simp only [if_pos hcomment, Step.of, byteLength_front hcomment 3 rfl]
    rfl
  by_cases hdeclaration : begins ['<', '!'] (c :: cs) = true
  · have hc : c ≠ '>' := by
      rintro rfl
      cases hdeclaration
    simp only [if_neg hcomment, if_pos hdeclaration, Step.of, declarationStop_eq h hc]
    rfl
  by_cases hend : Markup.opensEndTag (c :: cs) = true
  · have hbegins : begins ['<', '/'] (c :: cs) = true := (Bool.and_eq_true_iff.mp hend).1
    simp only [if_neg hcomment, if_neg hdeclaration, if_pos hend, Step.of,
      byteLength_front hbegins 1 rfl]
    rfl
  by_cases hstart : Markup.opensStartTag (c :: cs) = true
  · have hbegins : begins ['<'] (c :: cs) = true := (Bool.and_eq_true_iff.mp hstart).1
    simp only [if_neg hcomment, if_neg hdeclaration, if_neg hend, if_pos hstart, Step.of,
      byteLength_front hbegins 0 rfl]
    rfl
  simp only [if_neg hcomment, if_neg hdeclaration, if_neg hend, if_neg hstart]
  by_cases hbrace : c = '\x7b'
  · subst hbrace
    rfl
  by_cases hampersand : c = '&'
  · subst hampersand
    simp only [if_neg hbrace, if_true, referenceStop?_eq h]
    cases characterReference? cs <;> rfl
  simp only [if_neg hbrace, if_neg hampersand]
  by_cases hspace : isWhiteSpace c = true
  · simp only [if_pos hspace, lineSpaceStop_eq h hspace]
    rfl
  by_cases hcontrol : isControl c = true
  · simp only [if_neg hspace, if_pos hcontrol]
    rfl
  by_cases hword : isAlphanumeric c = true
  · simp only [if_neg hspace, if_neg hcontrol, if_pos hword, Script.Sliced.passWhile_cons h hword]
    rfl
  · simp only [if_neg hspace, if_neg hcontrol, if_neg hword]
    rfl

theorem initial_eq (h : Ahead text offset (c :: cs)) : initial nesting text offset =
    .ok (.of (Rule.initial nesting c cs) offset c cs) := by
  rw [initial, h.slice]
  simp only [bind, Except.bind]
  unfold Rule.initial
  by_cases hspace : isWhiteSpace c = true
  · have hhead : headIs isWhiteSpace (c :: cs) = true := hspace
    simp only [if_pos hspace, if_pos hhead, lineSpaceStop_eq h hspace]
    rfl
  have hhead : ¬ headIs isWhiteSpace (c :: cs) = true := hspace
  by_cases hfence : begins fence (c :: cs) = true
  · simp only [if_neg hspace, if_neg hhead, if_pos hfence, Step.of, byteLength_front hfence 2 rfl]
    rfl
  · simp only [if_neg hspace, if_neg hhead, if_neg hfence]
    exact content_eq nesting h

theorem frontmatter_eq (h : Ahead text offset (c :: cs)) : frontmatter text offset =
    .ok (.of (Rule.frontmatter c cs) offset c cs) := by
  rw [frontmatter, h.slice]
  simp only [bind, Except.bind, frontmatterStop_eq h]
  rfl

theorem frontmatterClose_eq (h : Ahead text offset (c :: cs)) : frontmatterClose nesting text offset =
    .ok (.of (Rule.frontmatterClose nesting c cs) offset c cs) := by
  rw [frontmatterClose, h.slice]
  simp only [bind, Except.bind]
  unfold Rule.frontmatterClose
  by_cases hfence : begins fence (c :: cs) = true
  · simp only [if_pos hfence, Step.of, byteLength_front hfence 2 rfl]
    rfl
  · simp only [if_neg hfence]
    exact content_eq nesting h

theorem startTagEnd_eq (offset : Nat) (cs : List Char) :
    startTagEnd nesting offset = .of (Rule.startTagEnd nesting) offset '>' cs := by
  have hmore : (Rule.startTagEnd nesting).more = 0 := by
    unfold Rule.startTagEnd
    split
    · split
      · rfl
      · split <;> rfl
    · rfl
  rw [startTagEnd, Step.of, hmore]
  rfl

theorem begins_emptyElementEnd (c : Char) (cs : List Char) :
    begins ['/', '>'] (c :: cs) = (c = '/' && begins ['>'] cs) := by
  simp [begins, List.isPrefixOf, Bool.beq_eq_decide_eq, eq_comm]

theorem attributes_eq (h : Ahead text offset (c :: cs)) : attributes nesting text offset =
    .ok (.of (Rule.attributes nesting c cs) offset c cs) := by
  rw [attributes, h.slice]
  simp only [bind, Except.bind]
  unfold Rule.attributes
  by_cases hspace : isWhiteSpace c = true
  · simp only [if_pos hspace, lineSpaceStop_eq h hspace]
    rfl
  by_cases hclose : c = '>'
  · subst hclose
    simp only [if_neg hspace, if_true, startTagEnd_eq nesting offset cs]
    rfl
  by_cases hempty : begins ['/', '>'] (c :: cs) = true
  · have hrule := begins_emptyElementEnd c cs ▸ hempty
    simp only [if_neg hspace, if_neg hclose, if_pos hempty, if_pos hrule, Step.of,
      byteLength_front hempty 1 rfl]
    rfl
  have hrule := begins_emptyElementEnd c cs ▸ hempty
  simp only [if_neg hspace, if_neg hclose, if_neg hempty, if_neg hrule]
  by_cases hbrace : c = '\x7b'
  · subst hbrace
    rfl
  by_cases hequals : c = '='
  · subst hequals
    rfl
  by_cases hname : inAttributeName c = true
  · simp only [if_neg hbrace, if_neg hequals, if_pos hname, Script.Sliced.passWhile_cons h hname]
    rfl
  · simp only [if_neg hbrace, if_neg hequals, if_neg hname]
    rfl

theorem bareValueEnds_eq {rest : List Char} (h : Ahead rest offset (c :: cs)) :
    bareValueEnds rest offset c = .ok (endsBareValue (c :: cs)) := by
  rw [bareValueEnds, h.slice, endsBareValue]
  by_cases hends : (isWhiteSpace c || c == '>') = true
  · simp [headIs, hends]
    rfl
  · simp [headIs, hends, bind, Except.bind, pure, Except.pure]

theorem commentLineEnds_eq {rest : List Char} (h : Ahead rest offset (c :: cs)) :
    commentLineEnds rest offset c = .ok (endsCommentLine (c :: cs)) := by
  rw [commentLineEnds, h.slice, endsCommentLine]
  by_cases hbreak : c = '\n'
  · subst hbreak
    rfl
  · have hbegins : begins ['\n'] (c :: cs) = false :=
      Bool.eq_false_iff.mpr fun hbegins => hbreak ((begins_singleton_cons _ _ _).mp hbegins)
    simp only [hbreak, hbegins, if_false, Bool.false_or]
    rfl

theorem valueStart_eq (h : Ahead text offset (c :: cs)) : valueStart nesting text offset =
    .ok (.of (Rule.valueStart nesting c cs) offset c cs) := by
  rw [valueStart, h.slice]
  simp only [bind, Except.bind]
  unfold Rule.valueStart
  by_cases hspace : isWhiteSpace c = true
  · simp only [if_pos hspace, lineSpaceStop_eq h hspace]
    rfl
  by_cases hdouble : c = '\x22'
  · subst hdouble
    rfl
  by_cases hsingle : c = '\x27'
  · subst hsingle
    rfl
  by_cases hbrace : c = '\x7b'
  · subst hbrace
    rfl
  simp only [if_neg hspace, if_neg hdouble, if_neg hsingle, if_neg hbrace]
  by_cases hclose : c = '>'
  · have hends : endsBareValue (c :: cs) = true := by simp [endsBareValue, headIs, hclose]
    simp only [if_pos hclose, if_pos hends, attributes_eq nesting h]
  by_cases hempty : begins ['/', '>'] (c :: cs) = true
  · have hends : endsBareValue (c :: cs) = true := by simp [endsBareValue, hempty]
    simp only [if_neg hclose, if_pos hempty, if_pos hends, attributes_eq nesting h]
  have hends : endsBareValue (c :: cs) = false := by
    simp [endsBareValue, headIs, hspace, hclose, hempty]
  have hfound := findSlice_eq (Ahead.zero (c :: cs)) fun _ _ _ => bareValueEnds_eq
  simp only [if_neg hclose, if_neg hempty, hends, if_neg Bool.false_ne_true, hfound,
    Option.map_map, Function.comp_def, seekStop_eq h hends]
  rfl

theorem quotedValue_eq (h : Ahead text offset (c :: cs)) {quote : Char} (hquote : quote.utf8Size = 1)
    (state : State) : quotedValue text offset quote state =
      .ok (.of (Rule.quotedValue c cs quote state) offset c cs) := by
  rw [quotedValue, h.slice]
  simp only [bind, Except.bind]
  unfold Rule.quotedValue
  by_cases hclose : c = quote
  · simp only [Step.of, byteLength_cons, hclose, hquote]
    rfl
  by_cases hampersand : c = '&'
  · subst hampersand
    simp only [if_neg hclose, if_true, referenceStop?_eq h]
    cases characterReference? cs <;> rfl
  by_cases hspace : isWhiteSpace c = true
  · simp only [if_neg hclose, if_neg hampersand, if_pos hspace, lineSpaceStop_eq h hspace]
    rfl
  have hplain : (c != quote && c != '&' && !isWhiteSpace c) = true := by
    simp [hclose, hampersand, hspace]
  simp only [if_neg hclose, if_neg hampersand, if_neg hspace]
  rw [Script.Sliced.passWhile_cons (p := fun d => d != quote && d != '&' && !isWhiteSpace d) h hplain]
  rfl

theorem endTagBody_eq (h : Ahead text offset (c :: cs)) : endTagBody text offset =
    .ok (.of (Rule.endTagBody c cs) offset c cs) := by
  rw [endTagBody, h.slice]
  simp only [bind, Except.bind]
  unfold Rule.endTagBody
  by_cases hspace : isWhiteSpace c = true
  · simp only [if_pos hspace, lineSpaceStop_eq h hspace]
    rfl
  by_cases hclose : c = '>'
  · subst hclose
    rfl
  · simp only [if_neg hspace, if_neg hclose]
    rfl

/-- A name is read as the characters say, and where there is none the step for that. -/
theorem tagName_eq (h : Ahead text offset (c :: cs)) (change : String → Change) (next : State)
    (unnamed : Except RangeError Step) : tagName text offset change next unnamed =
      if c = '>' then
        .ok (.of { kind := .tagEnd, more := 0, next := .content, change := change "" } offset c cs)
      else if inTagName c then
        let more := runLength inTagName cs
        let name := String.ofList (c :: cs.take more)
        .ok (.of { kind := Rule.tagNameKind name, more := more, next := next, change := change name }
          offset c cs)
      else unnamed := by
  rw [tagName, h.slice]
  simp only [bind, Except.bind, begins_singleton_cons]
  by_cases hclose : c = '>'
  · subst hclose
    rfl
  simp only [if_neg hclose]
  by_cases hname : inTagName c = true
  · have hsplit : c :: cs = (c :: cs.take (runLength inTagName cs)) ++
        cs.drop (runLength inTagName cs) := by simp
    have hregion := (hsplit ▸ h).region
    have hne : offset + byteLength (c :: cs.take (runLength inTagName cs)) ≠ offset := by
      have := byteLength_pos c (cs.take (runLength inTagName cs))
      omega
    simp only [if_pos hname, Script.Sliced.passWhile_cons h hname, if_neg hne, hregion]
    rfl
  · have hzero : runLength inTagName (c :: cs) = 0 := by simp [runLength, hname]
    simp [if_neg hname, passWhile_eq h, hzero]

theorem startTagName_eq (h : Ahead text offset (c :: cs)) :
    tagName text offset .openElement .attributes (attributes nesting text offset) =
      .ok (.of (Rule.startTagName nesting c cs) offset c cs) := by
  rw [tagName_eq h, attributes_eq nesting h]
  unfold Rule.startTagName
  split
  · rfl
  · split <;> rfl

theorem endTagName_eq (h : Ahead text offset (c :: cs)) :
    tagName text offset .closeElement .endTagBody (endTagBody text offset) =
      .ok (.of (Rule.endTagName c cs) offset c cs) := by
  rw [tagName_eq h, endTagBody_eq h]
  unfold Rule.endTagName
  split
  · rfl
  · split <;> rfl

theorem comment_eq (h : Ahead text offset (c :: cs)) : comment text offset =
    .ok (.of (Rule.comment c cs) offset c cs) := by
  rw [comment, h.slice]
  simp only [bind, Except.bind, begins_singleton_cons]
  unfold Rule.comment
  by_cases hclose : begins ['-', '-', '>'] (c :: cs) = true
  · simp only [if_pos hclose, Step.of, byteLength_front hclose 2 rfl]
    rfl
  by_cases hbreak : c = '\n'
  · subst hbreak
    rfl
  have hends : endsCommentLine (c :: cs) = false := by
    have hbegins : ¬ begins ['\n'] (c :: cs) = true := fun hbegins =>
      hbreak ((begins_singleton_cons _ _ _).mp hbegins)
    simp [endsCommentLine, hbegins, hclose]
  have hfound := findSlice_eq (Ahead.zero (c :: cs)) fun _ _ _ => commentLineEnds_eq
  simp only [if_neg hclose, if_neg hbreak, hfound, Option.map_map, Function.comp_def,
    seekStop_eq h hends]
  rfl

theorem rawText_eq (h : Ahead text offset (c :: cs)) : rawText nesting text offset =
    .ok (.of (Rule.rawText nesting c cs) offset c cs) := by
  unfold rawText Rule.rawText
  cases nesting.elements.top? with
  | none => simp [bind, Except.bind, Step.of, h.byteLength_eq, pure, Except.pure]
  | some name =>
      simp only [closeTagStart?_eq h, bind, Except.bind, Option.bind_some]
      cases hseek : seek? (endsRawText name) (c :: cs) with
      | none => simp [Step.of, h.byteLength_eq, pure, Except.pure]
      | some n =>
          cases n with
          | zero =>
              have hbegins := begins_of_endsRawText (seek?_spec hseek)
              simp only [Option.map_some, List.take_zero, byteLength_nil, Nat.add_zero, if_true,
                Step.of, byteLength_front hbegins 1 rfl]
              rfl
          | succ n =>
              have hpos := byteLength_pos c (cs.take n)
              have hne : offset + byteLength (c :: cs.take n) ≠ offset := by omega
              simp only [Option.map_some, List.take_succ_cons, if_neg hne]
              rfl

theorem expression_eq (h : Ahead text offset (c :: cs)) : expression nesting text offset =
    .ok (.of (Rule.expression nesting c cs) offset c cs) := by
  rw [expression, h.slice]
  simp only [bind, Except.bind, opensEndTag_eq, opensStartTag_eq, begins_singleton_cons]
  unfold Rule.expression
  by_cases hopen : c = '\x7b'
  · subst hopen
    rfl
  by_cases hclose : c = '\x7d'
  · subst hclose
    simp only [if_neg hopen, if_true]
    cases nesting.expressions.top? with
    | none => rfl
    | some opening =>
        by_cases hbehind : opening.stateBehind = .expression
        · simp only [if_pos hbehind]
          rfl
        · simp only [if_neg hbehind]
          rfl
  simp only [if_neg hopen, if_neg hclose]
  by_cases hend : Markup.opensEndTag (c :: cs) = true
  · have hbegins : begins ['<', '/'] (c :: cs) = true := (Bool.and_eq_true_iff.mp hend).1
    simp only [if_pos hend, Step.of, byteLength_front hbegins 1 rfl]
    rfl
  by_cases hstart : Markup.opensStartTag (c :: cs) = true
  · have hbegins : begins ['<'] (c :: cs) = true := (Bool.and_eq_true_iff.mp hstart).1
    simp only [if_neg hend, if_pos hstart, Step.of, byteLength_front hbegins 0 rfl]
    rfl
  · have hwhole : sliceTo text (byteLength text) = .ok text :=
      sliceTo_eq_ok_iff.mpr ⟨[], [], by simp, rfl, by simp⟩
    simp only [if_neg hend, if_neg hstart, Script.Sliced.lexemeAt, hwhole, bind, Except.bind,
      h.slice, Script.Sliced.lexeme_eq h]
    rfl

/-- The token at an offset is that of the transition which the characters there make. -/
theorem scan_eq (h : Ahead text offset (c :: cs)) (state : State) :
    scan nesting text offset state =
      .ok (.of (Context.transition ⟨state, nesting⟩ c cs) offset c cs) := by
  cases state with
  | initial => exact initial_eq nesting h
  | content => exact content_eq nesting h
  | startTagName => exact startTagName_eq nesting h
  | endTagName => exact endTagName_eq h
  | attributes => exact attributes_eq nesting h
  | valueStart => exact valueStart_eq nesting h
  | doubleQuotedValue => exact quotedValue_eq h (by decide) _
  | singleQuotedValue => exact quotedValue_eq h (by decide) _
  | endTagBody => exact endTagBody_eq h
  | comment => exact comment_eq h
  | rawText => exact rawText_eq nesting h
  | expression => exact expression_eq nesting h
  | frontmatter => exact frontmatter_eq h
  | frontmatterClose => exact frontmatterClose_eq nesting h
  | unlisted code beyond => exact content_eq nesting h

/-- Where the text cannot be cut, no token is found. -/
theorem scan_of_error {error : RangeError} (h : sliceFrom text offset = .error error) {state : State}
    (hopen : state = .rawText → nesting.elements.top? ≠ none) :
    scan nesting text offset state = .error error := by
  cases state with
  | rawText =>
      obtain ⟨name, hname⟩ := Option.ne_none_iff_exists'.mp (hopen rfl)
      have hclose : closeTagStart? text offset name = .error error := by
        unfold closeTagStart?
        split
        · rename_i other hother
          exact congrArg Except.error (Except.error.inj (hother.symm.trans h))
        · rename_i rest hrest
          cases hrest.symm.trans h
      simp only [scan, rawText, hname, hclose]
      rfl
  | _ =>
      simp only [scan, initial, content, frontmatter, frontmatterClose, attributes, valueStart,
        quotedValue, endTagBody, tagName, comment, expression, h]
      rfl

/-- Raw text of no element is taken from anywhere. -/
theorem scan_rawText (htop : nesting.elements.top? = none) (text : List Char) (offset : Nat) :
    scan nesting text offset .rawText =
      .ok { kind := .rawText, stop := byteLength text, next := .rawText } := by
  simp only [scan, rawText, htop]
  rfl

/-- No token is empty. -/
theorem lt_stop_of_scan {state : State} {step : Step} (hlt : offset < byteLength text)
    (h : scan nesting text offset state = .ok step) : offset < step.stop := by
  cases hslice : sliceFrom text offset with
  | ok rest =>
      have hahead := sliceFrom_eq_ok_iff.mp hslice
      cases rest with
      | nil =>
          have := hahead.byteLength_eq
          simp only [byteLength_nil] at this
          omega
      | cons c cs =>
          rw [scan_eq nesting hahead] at h
          cases h
          have := byteLength_pos c (cs.take (Context.transition ⟨state, nesting⟩ c cs).more)
          simp only [Step.of]
          omega
  | error error =>
      by_cases hraw : state = .rawText ∧ nesting.elements.top? = none
      · obtain ⟨rfl, htop⟩ := hraw
        rw [scan_rawText nesting htop] at h
        cases h
        exact hlt
      · rw [scan_of_error nesting hslice fun hstate htop => hraw ⟨hstate, htop⟩] at h
        cases h

end Rules

end Sliced

end Relex.Markup
