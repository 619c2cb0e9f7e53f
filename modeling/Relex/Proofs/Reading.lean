import Relex.Proofs.Coherence
import Relex.Proofs.Tree

/-! # Reading the parts of tags

`Reads` says that a text leads from one context to another wherever it stands, when some rest follows
it. Texts that are read one after the other are read as one (`Reads.append`). Each part of a tag is a
token of its own, so there is one lemma for each of them. What an element or a brace opens is closed
again by what ends it, and then the nesting is the one before (`Nesting.closeElement_inElement`,
`Nesting.closeExpression_inBraces`), because whatever is opened stands above what was open
(`Ready.inside`).
-/

namespace Relex

namespace Markup

open Text Unicode

/-! ## Opening and closing -/

namespace Nesting

variable {nesting : Nesting} {name : String} {form : Form}

/-- Inside an element that is opened here. -/
def inElement (nesting : Nesting) (name : String) : Nesting :=
  nesting.apply (.openElement name)

/-- Inside braces that are opened here. -/
def inBraces (nesting : Nesting) (behind : State) : Nesting :=
  nesting.apply (.openExpression (nesting.opening behind))

theorem withinReach_inElement (hinside : nesting.outerDepth ≤ nesting.elements.size) :
    (nesting.inElement name).withinReach = name :: nesting.withinReach := by
  have hcount : nesting.elements.size + 1 - nesting.outerDepth =
      (nesting.elements.size - nesting.outerDepth) + 1 := by omega
  change (name :: nesting.elements.entries).take
    (nesting.elements.size + 1 - nesting.outerDepth) = _
  rw [hcount, List.take_succ_cons]
  rfl

theorem innermost?_inElement (hinside : nesting.outerDepth ≤ nesting.elements.size) :
    (nesting.inElement name).innermost? = some name := by
  rw [innermost?, withinReach_inElement hinside, List.head?_cons]

theorem drop_inElement : (nesting.elements.push name).drop 1 = nesting.elements :=
  Stack.ext_entries rfl

theorem closeElement_inElement (hinside : nesting.outerDepth ≤ nesting.elements.size) :
    (nesting.inElement name).apply (.closeElement name) = nesting := by
  have hmatches : endTagMatches name name = true := by simp [endTagMatches]
  rw [apply_closeElement_innermost (innermost?_inElement hinside) hmatches, leaving, inElement,
    apply, drop_inElement]

theorem leaveElement_inElement (hinside : nesting.outerDepth ≤ nesting.elements.size) :
    (nesting.inElement name).apply .leaveElement = nesting := by
  have hreach : (nesting.inElement name).outerDepth < (nesting.inElement name).elements.size :=
    Nat.lt_succ_of_le hinside
  rw [apply, if_pos hreach, inElement, apply, drop_inElement]

theorem closeExpression_inBraces (behind : State) :
    (nesting.inBraces behind).apply .closeExpression = nesting := by
  have hbraces : (nesting.expressions.push (nesting.opening behind)).drop 1 =
      nesting.expressions := Stack.ext_entries rfl
  rw [inBraces, apply, apply, hbraces]

end Nesting

/-- What a tree needs where it stands: what is read there, and room for the elements inside it. -/
structure Ready (form : Form) (ground : Ground) (nesting : Nesting) (depth : Nat) : Prop where
  inside : nesting.outerDepth ≤ nesting.elements.size
  ambient : nesting.ambientState form = ground.state
  room : nesting.elements.size + depth < Opening.depthLimit

namespace Ready

variable {form : Form} {ground : Ground} {nesting : Nesting} {depth : Nat}

theorem mono {less : Nat} (h : Ready form ground nesting depth) (hle : less ≤ depth) :
    Ready form ground nesting less :=
  ⟨h.inside, h.ambient, by have := h.room; omega⟩

theorem inElement (h : Ready form ground nesting (depth + 1)) (name : String) :
    Ready form .content (nesting.inElement name) depth := by
  have hinside : (nesting.inElement name).outerDepth < (nesting.inElement name).elements.size :=
    Nat.lt_succ_of_le h.inside
  refine ⟨Nat.le_of_lt hinside, ?_, ?_⟩
  · refine (ambientState_eq_content_iff (Nat.le_of_lt hinside)).mpr ⟨?_, ?_⟩
    · exact (around_of_outerDepth_lt hinside).1
    · intro _ _
      exact Nat.succ_pos _
  · have hroom := h.room
    change nesting.elements.size + 1 + depth < Opening.depthLimit
    omega

theorem inBraces (h : Ready form ground nesting depth) {behind : State}
    (hbehind : behind.code.toNat < 256) :
    Ready form .script (nesting.inBraces behind) depth := by
  have hdepth : (nesting.inBraces behind).outerDepth = nesting.elements.size := by
    have hroom : nesting.elements.size < Opening.depthLimit :=
      Nat.lt_of_le_of_lt (Nat.le_add_right _ _) h.room
    exact Opening.depth_atDepth hbehind hroom
  refine ⟨Nat.le_of_eq hdepth, ?_, h.room⟩
  refine ambientState_eq_expression_iff.mpr ⟨hdepth.symm, ?_⟩
  intro hnone
  cases hnone

end Ready

/-! ## Reading a text -/

/-- The cursor gets from one place to the other. -/
def Cursor.Reaches (form : Form) (here there : Cursor) : Prop :=
  ∃ n, (Cursor.next form)^[n] here = there

theorem Cursor.Reaches.trans {form : Form} {here between there : Cursor}
    (h : Cursor.Reaches form here between) (h' : Cursor.Reaches form between there) :
    Cursor.Reaches form here there := by
  obtain ⟨m, rfl⟩ := h
  obtain ⟨n, rfl⟩ := h'
  exact ⟨n + m, Function.iterate_add_apply _ _ _ _⟩

/-- Reading a text in front of some rest leads from one context to another, wherever it stands. -/
def Reads (form : Form) (before : Context) (cs rest : List Char) (behind : Context) : Prop :=
  ∀ offset, Cursor.Reaches form ⟨offset, before, cs ++ rest⟩ ⟨offset + byteLength cs, behind, rest⟩

section Reads

variable {form : Form} {context before between behind : Context} {c : Char}
  {cs ds rest : List Char}

theorem Reads.nil : Reads form context [] rest context :=
  fun _ => ⟨0, rfl⟩

theorem Reads.append (h : Reads form before cs (ds ++ rest) between)
    (h' : Reads form between ds rest behind) : Reads form before (cs ++ ds) rest behind := by
  intro offset
  rw [List.append_assoc, byteLength_append, ← Nat.add_assoc]
  exact (h offset).trans (h' _)

/-- One token, when it takes the front of a text. -/
theorem reads_front {front : List Char}
    (hfront : (front ++ rest).take (context.transition c (front ++ rest)).more = front)
    (hrest : (front ++ rest).drop (context.transition c (front ++ rest)).more = rest)
    (hbehind : context.after form (context.transition c (front ++ rest)) = behind) :
    Reads form context (c :: front) rest behind := by
  intro offset
  refine ⟨1, ?_⟩
  rw [Function.iterate_one, List.cons_append, Cursor.next]
  simp only [hfront, hrest, hbehind]

/-- One token of a given length. -/
theorem reads_token {transition : Transition} (h : context.transition c (cs ++ rest) = transition)
    (hmore : transition.more = cs.length) (hbehind : context.after form transition = behind) :
    Reads form context (c :: cs) rest behind :=
  fun _ => ⟨1, Cursor.next_token h hmore hbehind⟩

/-- Text of a class that passes is read to its end, and nothing changes. -/
theorem reads_text (isText : Char → Bool) (signs : List Char)
    (hpasses : ∀ c, isText c = true → ∀ cs,
      (context.transition c cs).Passes context.state signs cs)
    (hstays : context.state = .content → context.nesting.ambientState form = .content)
    (hcs : cs.all isText = true) (hrest : ∀ c ∈ rest.head?, c ∈ signs) :
    Reads form context cs rest context := by
  induction hlength : cs.length using Nat.strongRecOn generalizing cs with
  | ind n ih =>
      cases cs with
      | nil => exact .nil
      | cons c cs =>
          rw [List.all_cons, Bool.and_eq_true_iff] at hcs
          have hpass := hpasses c hcs.1 (cs ++ rest)
          obtain ⟨front, later, rfl, htake, hdrop⟩ := hpass.clear.exists_append hrest
          rw [List.append_assoc] at hpass htake hdrop
          have hbehind : context.after form (context.transition c (front ++ (later ++ rest))) =
              context := by
            obtain ⟨state, nesting⟩ := context
            rw [Context.after, hpass.next, hpass.change]
            simp only [Nesting.apply]
            split
            · rename_i hcontent
              rw [hstays hcontent]
              exact congrArg (Context.mk · nesting) hcontent.symm
            · rfl
          have hlater : Reads form context later rest context := by
            refine ih later.length ?_ ?_ rfl
            · simp only [List.length_cons, List.length_append] at hlength
              omega
            · rw [List.all_append, Bool.and_eq_true_iff] at hcs
              exact hcs.2.2
          exact (reads_front htake hdrop hbehind).append hlater

end Reads

/-! ## Tags -/

section Tags

variable {form : Form} {ground : Ground} {nesting : Nesting} {rest : List Char}

theorem exists_of_opensName (h : opensName rest = true) :
    ∃ c cs, rest = c :: cs ∧ c ≠ '!' ∧ c ≠ '/' := by
  cases rest with
  | nil => cases h
  | cons c cs =>
      simp only [opensName, headIs, List.head?_cons, Option.any_some] at h
      refine ⟨c, cs, rfl, ?_, ?_⟩
      · rintro rfl
        revert h
        decide
      · rintro rfl
        revert h
        decide

theorem begins_declaration_of_ne {c : Char} (h : c ≠ '!') (cs pattern : List Char) :
    begins ('<' :: '!' :: pattern) ('<' :: c :: cs) = false := by
  simp [begins, List.isPrefixOf, Ne.symm h]

theorem opensEndTag_of_ne {c : Char} (h : c ≠ '/') (cs : List Char) :
    opensEndTag ('<' :: c :: cs) = false := by
  simp [opensEndTag, begins, List.isPrefixOf, Ne.symm h]

theorem transition_startTagSign (ground : Ground) (nesting : Nesting) (h : opensName rest = true) :
    Context.transition ⟨ground.state, nesting⟩ '<' rest = ⟨.tagStart, 0, .startTagName, .keep⟩ := by
  have hopens : opensStartTag ('<' :: rest) = true := h
  obtain ⟨c, cs, rfl, hbang, hslash⟩ := exists_of_opensName h
  have hdeclaration := begins_declaration_of_ne hbang cs
  have hend := opensEndTag_of_ne hslash cs
  cases ground with
  | content => simp [Context.transition, Ground.state, Rule.content, hdeclaration, hend, hopens]
  | script => simp [Context.transition, Ground.state, Rule.expression, hend, hopens]

theorem reads_startTagSign (h : opensName rest = true) :
    Reads form ⟨ground.state, nesting⟩ ['<'] rest ⟨.startTagName, nesting⟩ :=
  reads_token (transition_startTagSign ground nesting h) rfl rfl

theorem reads_endTagSign (h : opensName rest = true) :
    Reads form ⟨.content, nesting⟩ ['<', '/'] rest ⟨.endTagName, nesting⟩ := by
  have htransition : Context.transition ⟨.content, nesting⟩ '<' (['/'] ++ rest) =
      ⟨.endTagStart, 1, .endTagName, .keep⟩ := by
    have hopens : opensEndTag ('<' :: '/' :: rest) = true := h
    have hdeclaration := begins_declaration_of_ne (by decide : '/' ≠ '!') rest
    simp [Context.transition, Rule.content, hdeclaration, hopens]
  exact reads_token htransition rfl rfl

/-- Where a tag ends that leaves the nesting as it was before the element. -/
theorem after_ambient {context : Context} {transition : Transition}
    (hambient : nesting.ambientState form = ground.state) (hnext : transition.next = .content)
    (hnesting : context.nesting.apply transition.change = nesting) :
    context.after form transition = ⟨ground.state, nesting⟩ := by
  rw [Context.after, hnesting, if_pos hnext, hambient]

section Name

variable (name : TagName)

theorem TagName.first_ne : name.first ≠ '>' := by
  intro hfirst
  have halpha := name.first_isAlpha
  rw [hfirst] at halpha
  revert halpha
  decide

theorem TagName.opensName : opensName (name.chars ++ rest) = true := by
  simp [Markup.opensName, chars, headIs, name.first_isAlpha]

theorem transition_startTagName (hrest : ∀ c ∈ rest.head?, inTagName c = false) :
    Context.transition ⟨.startTagName, nesting⟩ name.first (name.more ++ rest) =
      ⟨Rule.tagNameKind name.text, name.more.length, .attributes, .openElement name.text⟩ := by
  have hfirst := inTagName_of_isAlpha name.first_isAlpha
  have hrun := runLength_append name.more_inTagName hrest
  simp only [Context.transition, Rule.startTagName, if_neg name.first_ne, hfirst, if_true, hrun,
    List.take_left]
  rfl

theorem reads_startTagName (hrest : ∀ c ∈ rest.head?, inTagName c = false) :
    Reads form ⟨.startTagName, nesting⟩ name.chars rest
      ⟨.attributes, nesting.inElement name.text⟩ :=
  reads_token (transition_startTagName name hrest) rfl rfl

/-- The name of an end tag, when it is known how far it reaches. -/
theorem transition_endTagName {first : Char} {more : List Char} (hfirst : first.isAlpha = true)
    (hmore : more.all inTagName = true) (hrest : ∀ c ∈ rest.head?, inTagName c = false) :
    Context.transition ⟨.endTagName, nesting⟩ first (more ++ rest) =
      ⟨Rule.tagNameKind (String.ofList (first :: more)), more.length, .endTagBody,
        .closeElement (String.ofList (first :: more))⟩ := by
  have hne : first ≠ '>' := ne_of_class hfirst (by decide)
  simp only [Context.transition, Rule.endTagName, if_neg hne, inTagName_of_isAlpha hfirst, if_true,
    runLength_append hmore hrest, List.take_left]

/-- The rest of an end tag, behind its sign. -/
theorem reads_endTagName (h : Ready form ground nesting 0) :
    Reads form ⟨.endTagName, nesting.inElement name.text⟩ (name.chars ++ ['>']) rest
      ⟨ground.state, nesting⟩ := by
  have hclosed : Reads form ⟨.endTagName, nesting.inElement name.text⟩ name.chars ('>' :: rest)
      ⟨.endTagBody, nesting⟩ := by
    refine reads_token (transition_endTagName name.first_isAlpha name.more_inTagName
      (forall_head_cons (by decide))) rfl ?_
    simp only [Context.after]
    rw [← TagName.chars, ← TagName.text, Nesting.closeElement_inElement h.inside]
    rfl
  have hend : Reads form ⟨.endTagBody, nesting⟩ ['>'] rest ⟨ground.state, nesting⟩ :=
    reads_token rfl rfl (after_ambient h.ambient rfl rfl)
  exact hclosed.append hend

theorem reads_endTag (h : Ready form ground nesting 0) :
    Reads form ⟨.content, nesting.inElement name.text⟩ name.endTag rest ⟨ground.state, nesting⟩ := by
  have hsign : Reads form ⟨.content, nesting.inElement name.text⟩ ['<', '/']
      (name.chars ++ ['>'] ++ rest) ⟨.endTagName, nesting.inElement name.text⟩ := by
    apply reads_endTagSign
    rw [List.append_assoc]
    exact name.opensName
  exact hsign.append (reads_endTagName name h)

end Name

theorem reads_fragmentStart (h : Ready form ground nesting 1) :
    Reads form ⟨.startTagName, nesting⟩ ['>'] rest ⟨.content, nesting.inElement ""⟩ :=
  reads_token rfl rfl (after_ambient (h.inElement "").ambient rfl rfl)

theorem reads_fragmentEnd (h : Ready form ground nesting 0) :
    Reads form ⟨.endTagName, nesting.inElement ""⟩ ['>'] rest ⟨ground.state, nesting⟩ :=
  reads_token rfl rfl (after_ambient h.ambient rfl (Nesting.closeElement_inElement h.inside))

section Element

variable {name : String}

/-- The end of a start tag, whatever element it is of. -/
theorem reads_tagEnd {behind : Context} {transition : Transition}
    (h : Rule.startTagEnd nesting = transition) (hmore : transition.more = 0)
    (hbehind : Context.after form ⟨.attributes, nesting⟩ transition = behind) :
    Reads form ⟨.attributes, nesting⟩ ['>'] rest behind := by
  refine reads_token ?_ hmore hbehind
  rw [← h]
  rfl

theorem reads_elementStart (h : Ready form ground nesting 1) (hvoid : name ∉ voidElements)
    (hraw : name ∉ rawTextElements) :
    Reads form ⟨.attributes, nesting.inElement name⟩ ['>'] rest
      ⟨.content, nesting.inElement name⟩ := by
  have hend : Rule.startTagEnd (nesting.inElement name) = ⟨.tagEnd, 0, .content, .keep⟩ := by
    simp [Rule.startTagEnd, Nesting.innermost?_inElement h.inside, hvoid, hraw]
  exact reads_tagEnd hend rfl (after_ambient (h.inElement name).ambient rfl rfl)

theorem reads_voidEnd (h : Ready form ground nesting 1) (hvoid : name ∈ voidElements) :
    Reads form ⟨.attributes, nesting.inElement name⟩ ['>'] rest ⟨ground.state, nesting⟩ := by
  have hend : Rule.startTagEnd (nesting.inElement name) =
      ⟨.tagEnd, 0, .content, .leaveElement⟩ := by
    simp [Rule.startTagEnd, Nesting.innermost?_inElement h.inside, hvoid]
  exact reads_tagEnd hend rfl
    (after_ambient h.ambient rfl (Nesting.leaveElement_inElement h.inside))

theorem reads_rawStart (h : Ready form ground nesting 1) (hraw : name ∈ rawTextElements) :
    Reads form ⟨.attributes, nesting.inElement name⟩ ['>'] rest
      ⟨.rawText, nesting.inElement name⟩ := by
  have hvoid : name ∉ voidElements := by
    have hdisjoint : ∀ raw ∈ rawTextElements, raw ∉ voidElements := by decide
    exact hdisjoint name hraw
  have hend : Rule.startTagEnd (nesting.inElement name) = ⟨.tagEnd, 0, .rawText, .keep⟩ := by
    simp [Rule.startTagEnd, Nesting.innermost?_inElement h.inside, hvoid, hraw]
  exact reads_tagEnd hend rfl rfl

/-- The end of an element without content leads back to what is read around it, however deep. -/
theorem reads_emptyElementEnd (hinside : nesting.outerDepth ≤ nesting.elements.size) :
    Reads form ⟨.attributes, nesting.inElement name⟩ ['/', '>'] rest
      ⟨nesting.ambientState form, nesting⟩ := by
  have htransition : Context.transition ⟨.attributes, nesting.inElement name⟩ '/' (['>'] ++ rest) =
      ⟨.emptyElementEnd, 1, .content, .leaveElement⟩ := rfl
  refine reads_token htransition rfl ?_
  rw [Context.after, Nesting.leaveElement_inElement hinside]
  rfl

end Element

/-! ### Raw text -/

/-- Raw text in an element, when it is known how far the end tag is. -/
theorem transition_rawText {name : String} {c : Char} {cs : List Char} {before : Nat}
    (htop : nesting.elements.top? = some name)
    (h : seek? (endsRawText name) (c :: cs) = some before) :
    Context.transition ⟨.rawText, nesting⟩ c cs =
      match before with
      | 0 => ⟨.endTagStart, 1, .endTagName, .keep⟩
      | more + 1 => ⟨.rawText, more, .rawText, .keep⟩ := by
  simp only [Context.transition, Rule.rawText, htop, Option.bind_some, h]
  cases before with
  | zero => rfl
  | succ more => rfl

theorem reads_rawText (name : TagName) {content : List Char}
    (hend : seek? (endsRawText name.text) (content ++ name.endTag) = some content.length) :
    Reads form ⟨.rawText, nesting.inElement name.text⟩ (content ++ ['<', '/'])
      (name.chars ++ ['>'] ++ rest) ⟨.endTagName, nesting.inElement name.text⟩ := by
  have hlength : name.text.toList.length + 3 ≤ name.endTag.length := by
    rw [TagName.text, String.toList_ofList, TagName.endTag]
    simp
  have hrest : name.endTag ++ rest = '<' :: '/' :: (name.chars ++ ['>'] ++ rest) := rfl
  have hsign : Reads form ⟨.rawText, nesting.inElement name.text⟩ ['<', '/']
      (name.chars ++ ['>'] ++ rest) ⟨.endTagName, nesting.inElement name.text⟩ := by
    have hhere : endsRawText name.text name.endTag = true := by
      have hspec := seek?_spec hend
      rw [List.drop_left] at hspec
      exact hspec
    have hclose : seek? (endsRawText name.text) ('<' :: '/' :: (name.chars ++ ['>'] ++ rest)) =
        some 0 := by
      rw [← endsRawText_append hlength rest, hrest] at hhere
      rw [seek?, if_pos hhere]
    exact reads_token (transition_rawText rfl hclose) rfl rfl
  cases content with
  | nil => exact hsign
  | cons c cs =>
      have hseek := seek?_endsRawText_append hend hlength rest
      rw [hrest] at hseek
      have htext : Reads form ⟨.rawText, nesting.inElement name.text⟩ (c :: cs)
          (['<', '/'] ++ (name.chars ++ ['>'] ++ rest)) ⟨.rawText, nesting.inElement name.text⟩ :=
        reads_token (transition_rawText rfl hseek) rfl rfl
      exact htext.append hsign

theorem reads_rawElement (name : TagName) {content : List Char} (h : Ready form ground nesting 0)
    (hend : seek? (endsRawText name.text) (content ++ name.endTag) = some content.length) :
    Reads form ⟨.rawText, nesting.inElement name.text⟩ (content ++ name.endTag) rest
      ⟨ground.state, nesting⟩ := by
  have hsplit : content ++ name.endTag = content ++ ['<', '/'] ++ (name.chars ++ ['>']) := by
    simp [TagName.endTag]
  rw [hsplit]
  exact (reads_rawText name hend).append (reads_endTagName name h)

/-! ### Attributes -/

section Attribute

variable (name : AttributeName)

theorem AttributeName.first_isWhiteSpace : isWhiteSpace name.first = false := by
  have hfirst := name.first_inAttributeName
  simp only [Markup.inAttributeName, Bool.and_eq_true, Bool.not_eq_true'] at hfirst
  exact hfirst.1

theorem reads_attributeSpace :
    Reads form ⟨.attributes, nesting⟩ [' '] (name.chars ++ rest) ⟨.attributes, nesting⟩ := by
  have htransition : Context.transition ⟨.attributes, nesting⟩ ' ' ([] ++ (name.chars ++ rest)) =
      ⟨.whiteSpace, 0, .attributes, .keep⟩ := by
    have hspace : isWhiteSpace ' ' = true := by decide
    have hrest : lineSpaceRest ' ' (name.chars ++ rest) = 0 := by
      simp [lineSpaceRest, AttributeName.chars, lineSpaceLength, name.first_isWhiteSpace]
    simp only [Context.transition, Rule.attributes, hspace, if_true, List.nil_append, hrest]
  exact reads_token htransition rfl rfl

theorem reads_attributeName :
    Reads form ⟨.attributes, nesting⟩ name.chars ('=' :: rest) ⟨.attributes, nesting⟩ := by
  have htransition : Context.transition ⟨.attributes, nesting⟩ name.first
      (name.more ++ ('=' :: rest)) = ⟨.attributeName, name.more.length, .attributes, .keep⟩ := by
    have hfirst := name.first_inAttributeName
    have hne : ∀ d, inAttributeName d = false → name.first ≠ d := by
      intro d hd hsame
      rw [hsame, hd] at hfirst
      cases hfirst
    have hequals : ∀ c ∈ ('=' :: rest).head?, inAttributeName c = false :=
      forall_head_cons (by decide)
    have hrun := runLength_append name.more_inAttributeName hequals
    simp [Context.transition, Rule.attributes, name.first_isWhiteSpace, hfirst, hrun,
      hne '>' (by decide), hne '/' (by decide), hne '{' (by decide), hne '=' (by decide)]
  exact reads_token htransition rfl rfl

theorem reads_attributeEquals :
    Reads form ⟨.attributes, nesting⟩ name.equals rest ⟨.valueStart, nesting⟩ := by
  have hequals : Reads form ⟨.attributes, nesting⟩ ['='] rest ⟨.valueStart, nesting⟩ :=
    reads_token rfl rfl rfl
  have hname := (reads_attributeName name).append hequals
  have hspace : Reads form ⟨.attributes, nesting⟩ [' '] (name.chars ++ ['='] ++ rest)
      ⟨.attributes, nesting⟩ := by
    rw [List.append_assoc]
    exact reads_attributeSpace name
  exact hspace.append hname

theorem reads_quotedValue {value : List Char} (hvalue : '\x22' ∉ value) :
    Reads form ⟨.valueStart, nesting⟩ ('\x22' :: (value ++ ['\x22'])) rest
      ⟨.attributes, nesting⟩ := by
  have hopen : Reads form ⟨.valueStart, nesting⟩ ['\x22'] (value ++ ['\x22'] ++ rest)
      ⟨.doubleQuotedValue, nesting⟩ := reads_token rfl rfl rfl
  have htext : Reads form ⟨.doubleQuotedValue, nesting⟩ value (['\x22'] ++ rest)
      ⟨.doubleQuotedValue, nesting⟩ := by
    apply reads_text (fun c => c != '\x22') ['\x22']
    · intro c hc cs
      exact Rule.quotedValue_passes (.inl rfl) (bne_iff_ne.mp hc) cs _
    · nofun
    · apply List.all_eq_true.mpr
      intro c hc
      exact bne_iff_ne.mpr fun hsame => hvalue (hsame ▸ hc)
    · exact forall_head_cons List.mem_cons_self
  have hclose : Reads form ⟨.doubleQuotedValue, nesting⟩ ['\x22'] rest ⟨.attributes, nesting⟩ :=
    reads_token rfl rfl rfl
  exact hopen.append (htext.append hclose)

end Attribute

/-! ### Braces -/

theorem reads_openingBrace :
    Reads form ⟨ground.state, nesting⟩ ['{'] rest ⟨.expression, nesting.inBraces ground.state⟩ := by
  cases ground with
  | content => exact reads_token rfl rfl rfl
  | script => exact reads_token rfl rfl rfl

theorem reads_openingValueBrace :
    Reads form ⟨.valueStart, nesting⟩ ['{'] rest ⟨.expression, nesting.inBraces .attributes⟩ :=
  reads_token rfl rfl rfl

theorem reads_closingBrace {behind : State} (hbehind : behind.code.toNat < 256)
    (hambient : behind = .content → nesting.ambientState form = .content) :
    Reads form ⟨.expression, nesting.inBraces behind⟩ ['}'] rest ⟨behind, nesting⟩ := by
  have htop : (nesting.inBraces behind).expressions.top? = some (nesting.opening behind) := rfl
  have hstate : (nesting.opening behind).stateBehind = behind :=
    Opening.stateBehind_atDepth hbehind
  have htransition : Context.transition ⟨.expression, nesting.inBraces behind⟩ '}' ([] ++ rest) =
      ⟨closingKind behind, 0, behind, .closeExpression⟩ := by
    by_cases hscript : behind = .expression
    · subst hscript
      simp [Context.transition, Rule.expression, htop, hstate, closingKind]
    · simp [Context.transition, Rule.expression, htop, hstate, hscript, closingKind]
  refine reads_token htransition rfl ?_
  rw [Context.after, Nesting.closeExpression_inBraces]
  simp only
  split
  · rename_i hcontent
    rw [hambient hcontent, hcontent]
  · rfl


/-! ### Text -/

theorem Ground.passes {c : Char} (hc : ground.isText c = true) (cs : List Char) :
    (Context.transition ⟨ground.state, nesting⟩ c cs).Passes ground.state ground.signs cs := by
  cases ground with
  | content =>
      have hsign : c ∉ contentSigns := by simpa [Ground.isText] using hc
      exact Rule.content_passes nesting hsign cs
  | script => exact Rule.expression_passes nesting hc cs

theorem reads_groundText (hambient : nesting.ambientState form = ground.state) {cs : List Char}
    (hcs : cs.all ground.isText = true) (hrest : ∀ c ∈ rest.head?, c ∈ ground.signs) :
    Reads form ⟨ground.state, nesting⟩ cs rest ⟨ground.state, nesting⟩ := by
  refine reads_text ground.isText ground.signs (fun c => Ground.passes) ?_ hcs hrest
  intro hcontent
  rw [hambient]
  exact hcontent

theorem reads_startTag (name : TagName) {attributes : List Char}
    (hattributes : Reads form ⟨.attributes, nesting.inElement name.text⟩ attributes rest
      ⟨.attributes, nesting.inElement name.text⟩)
    (hhead : ∀ c ∈ (attributes ++ rest).head?, inTagName c = false) :
    Reads form ⟨ground.state, nesting⟩ (name.startTag attributes) rest
      ⟨.attributes, nesting.inElement name.text⟩ := by
  have hsign : Reads form ⟨ground.state, nesting⟩ ['<'] (name.chars ++ attributes ++ rest)
      ⟨.startTagName, nesting⟩ := by
    apply reads_startTagSign
    rw [List.append_assoc]
    exact name.opensName
  exact hsign.append ((reads_startTagName name hhead).append hattributes)

end Tags

end Markup

end Relex
