import Relex.Proofs.Arrival
import Relex.Proofs.CharClasses
import Relex.Proofs.Fences
import Relex.Proofs.LexemeText

/-! # The text of a token

The text that a token covers is one of its kind, `Kind.Admits`. The rules of the markup are followed
one by one (`Context.spells`): a rule looks ahead for where its token ends, and what it has seen there
is what the text is. Joined tokens are one token again (`Spells.add`), since for the kinds that join
nothing is said but of every character alone. Comments are the exception: their lines may not put
together a closing sign, so what is kept of a line is that no sign begins in it in the text as it
stands, and not only in the line (`Spells`).
-/

namespace Relex

open Text Unicode

namespace Markup

/-- The sign behind a comment. -/
def commentClose : List Char :=
  ['-', '-', '>']

/-- A reference to a character: by a hexadecimal number, by a decimal number, or by name. -/
inductive Reference : List Char → Prop
  | hex {x : Char} {digits : List Char} (hx : x = 'x' ∨ x = 'X') (hne : digits ≠ [])
      (hdigits : ∀ d ∈ digits, isHexDigit d = true) :
      Reference ('&' :: '#' :: x :: (digits ++ [';']))
  | decimal {digits : List Char} (hne : digits ≠ []) (hdigits : ∀ d ∈ digits, d.isDigit = true) :
      Reference ('&' :: '#' :: (digits ++ [';']))
  | named {c : Char} {cs : List Char} (hc : c.isAlpha = true) (hcs : ∀ d ∈ cs, d.isAlphanum = true) :
      Reference ('&' :: c :: (cs ++ [';']))

/-- References one after the other. -/
def References (text : List Char) : Prop :=
  ∃ parts, parts ≠ [] ∧ (∀ part ∈ parts, Reference part) ∧ text = parts.flatten

/-- The name of a tag, by the case of the letter that it begins with. -/
def NamesTag (upper : Bool) (text : List Char) : Prop :=
  ∃ c cs, text = c :: cs ∧ c.isAlpha = true ∧ c.isUpper = upper ∧ ∀ d ∈ cs, inTagName d = true

end Markup

open Markup

/-- The texts of the tokens of a kind. The script of the frontmatter is not a token of a document. -/
def Kind.Admits (grouping : Grouping) (form : Form) : Kind → List Char → Prop
  | .frontmatterSeparator, text => text = fence
  | .frontmatterScript, _ => False
  | .tagStart, text => text = ['<']
  | .endTagStart, text => text = ['<', '/']
  | .tagEnd, text => text = ['>']
  | .emptyElementEnd, text => text = ['/', '>']
  | .tagName, text => NamesTag false text
  | .componentName, text => NamesTag true text
  | .tagCharacters, text => ∀ c ∈ text, isWhiteSpace c = false ∧ c ≠ '>'
  | .attributeName, text => ∀ c ∈ text, inAttributeName c = true
  | .equals, text => text = ['=']
  | .attributeValueStartDelimiter, text => text = ['\x22'] ∨ text = ['\x27']
  | .attributeValueEndDelimiter, text => text = ['\x22'] ∨ text = ['\x27']
  | .attributeValue, text => text ≠ []
  | .dataCharacters, text => ∀ c ∈ text, isWhiteSpace c = false ∧ isControl c = false ∧ c ≠ '{'
  | .whiteSpace, text => ∀ c ∈ text, isWhiteSpace c = true
  | .charEntityRef, text =>
    match grouping with
    | .runs => Reference text
    | .values => References text
  | .rawText, text => text ≠ []
  | .doctype, text =>
    ['<', '!'] <+: text ∧ ¬['<', '!', '-', '-'] <+: text ∧ '>' ∉ text.dropLast
  | .commentStart, text => text = ['<', '!', '-', '-']
  | .commentCharacters, text => ¬commentClose <:+: text
  | .commentEnd, text => text = commentClose
  | .expressionStart, text => text = ['{']
  | .expressionEnd, text => text = ['}']
  | .script kind, text => kind.Admits text
  | .badCharacter, text =>
    (∀ c ∈ text, isControl c = true) ∨ form = .fragment ∧ ∀ c ∈ text, c = '}'

namespace Markup

/-- The first characters of a text, as many as `n`, are a token of a kind that is read in a state. -/
def Spells (grouping : Grouping) (form : Form) (state : State) (text : List Char) (n : Nat) :
    Kind → Prop
  | .commentCharacters => ∀ k < n, begins commentClose (text.drop k) = false
  | .badCharacter =>
    if state = .expression then form = .fragment ∧ ∀ c ∈ text.take n, c = '}'
    else ∀ c ∈ text.take n, isControl c = true
  | .frontmatterScript => True
  | kind => kind.Admits grouping form (text.take n)

theorem Spells.admits {grouping : Grouping} {form : Form} {state : State} {text : List Char} {n : Nat}
    {kind : Kind} (hkind : kind ≠ .frontmatterScript) (h : Spells grouping form state text n kind) :
    kind.Admits grouping form (text.take n) := by
  cases kind with
  | commentCharacters =>
      rintro ⟨before, behind, htext⟩
      have hfound : begins commentClose (text.drop before.length) = true :=
        begins_of_append_isPrefix ((List.prefix_append _ behind).trans (htext ▸ List.take_prefix _ _))
      have hlength := congrArg List.length htext
      simp only [commentClose, List.length_append, List.length_cons, List.length_nil,
        List.length_take] at hlength
      have hnone := h before.length (by omega)
      rw [hfound] at hnone
      cases hnone
  | badCharacter =>
      rw [Spells] at h
      split at h
      · exact .inr h
      · exact .inl h
  | frontmatterScript => exact absurd rfl hkind
  | _ => exact h

/-! ## What the rules read -/

theorem exists_of_terminatedRun {p : Char → Bool} {cs : List Char} {more : Nat}
    (h : terminatedRun? p cs = some more) :
    ∃ run rest, cs = run ++ ';' :: rest ∧ run ≠ [] ∧ (∀ c ∈ run, p c = true) ∧
      cs.take more = run ++ [';'] := by
  obtain ⟨rest, hcs⟩ := List.takeWhile_prefix (l := cs) p
  generalize hrun : cs.takeWhile p = run at hcs
  subst hcs
  have hmem : ∀ c ∈ run, p c = true := by
    intro c hc
    rw [← hrun] at hc
    exact List.mem_takeWhile_imp hc
  simp only [terminatedRun?, runLength, hrun, List.drop_left] at h
  split at h
  · rename_i hend
    cases h
    simp only [Bool.and_eq_true, bne_iff_ne, List.length_eq_zero_iff, ne_eq] at hend
    obtain ⟨rest, rfl⟩ := exists_of_begins_singleton hend.2
    refine ⟨run, rest, rfl, hend.1, hmem, ?_⟩
    rw [List.take_length_add_append]
    rfl
  · cases h

theorem reference_of_characterReference {cs : List Char} {more : Nat}
    (h : characterReference? cs = some more) : Reference ('&' :: cs.take more) := by
  rw [characterReference?] at h
  split at h
  · rename_i hsign
    obtain ⟨x, ds, rfl, hx⟩ : ∃ x ds, cs = '#' :: x :: ds ∧ (x = 'x' ∨ x = 'X') := by
      rcases Bool.or_eq_true_iff.mp hsign with hsign | hsign
      · obtain ⟨ds, rfl⟩ := begins_iff.mp hsign
        exact ⟨'x', ds, rfl, .inl rfl⟩
      · obtain ⟨ds, rfl⟩ := begins_iff.mp hsign
        exact ⟨'X', ds, rfl, .inr rfl⟩
    obtain ⟨more, hmore, rfl⟩ := Option.map_eq_some_iff.mp h
    obtain ⟨run, -, -, hne, hrun, htake⟩ := exists_of_terminatedRun hmore
    have htext : ('#' :: x :: ds).take (more + 2) = '#' :: x :: (run ++ [';']) :=
      congrArg (fun text => '#' :: x :: text) htake
    rw [htext]
    exact .hex hx hne hrun
  split at h
  · rename_i hsign
    obtain ⟨ds, rfl⟩ := exists_of_begins_singleton hsign
    obtain ⟨more, hmore, rfl⟩ := Option.map_eq_some_iff.mp h
    obtain ⟨run, -, -, hne, hrun, htake⟩ := exists_of_terminatedRun hmore
    have htext : ('#' :: ds).take (more + 1) = '#' :: (run ++ [';']) :=
      congrArg (fun text => '#' :: text) htake
    rw [htext]
    exact .decimal hne hrun
  split at h
  · rename_i hletter
    obtain ⟨run, rest, hcs, hne, hrun, htake⟩ := exists_of_terminatedRun h
    obtain ⟨c, name, rfl⟩ := List.exists_cons_of_ne_nil hne
    rw [hcs] at hletter
    rw [htake]
    exact .named hletter fun d hd => hrun d (List.mem_cons_of_mem c hd)
  · cases h

theorem terminatedRun_append {p : Char → Bool} {run : List Char} (hne : run ≠ [])
    (hrun : ∀ c ∈ run, p c = true) (hend : p ';' = false) (rest : List Char) :
    terminatedRun? p (run ++ ';' :: rest) = some (run.length + 1) := by
  have hlength : runLength p (run ++ ';' :: rest) = run.length :=
    runLength_append (List.all_eq_true.mpr hrun) (forall_head_cons hend)
  have hpos : (run.length != 0) = true :=
    bne_iff_ne.mpr fun hzero => hne (List.eq_nil_of_length_eq_zero hzero)
  simp [terminatedRun?, hlength, hpos, begins]

/-- A reference is found as a whole, whatever stands behind it. -/
theorem characterReference_of_reference {cs : List Char} (h : Reference ('&' :: cs)) (rest : List Char) :
    characterReference? (cs ++ rest) = some cs.length := by
  generalize htext : '&' :: cs = text at h
  cases h with
  | @hex x digits hx hne hdigits =>
      cases htext
      have hsign : ∀ behind, (begins ['#', 'x'] ('#' :: x :: behind) ||
          begins ['#', 'X'] ('#' :: x :: behind)) = true := by
        intro behind
        rcases hx with rfl | rfl
        · rfl
        · rfl
      have hrun := terminatedRun_append hne hdigits (by decide) rest
      simp [characterReference?, hsign, hrun]
  | @decimal digits hne hdigits =>
      cases htext
      obtain ⟨d, ds, rfl⟩ := List.exists_cons_of_ne_nil hne
      have hd : d.isDigit = true := hdigits d List.mem_cons_self
      have hsign : ∀ mark behind, mark.isDigit = false →
          begins ['#', mark] ('#' :: d :: behind) = false := by
        intro mark behind hmark
        have hbehind : begins [mark] (d :: behind) = false :=
          begins_cons_of_ne (ne_of_class hd hmark) []
        simpa [begins] using hbehind
      have hrun := terminatedRun_append hne hdigits (by decide) rest
      rw [List.cons_append] at hrun
      have hdecimal : begins ['#'] ('#' :: d :: (ds ++ ';' :: rest)) = true := rfl
      simp only [List.cons_append, List.append_assoc, List.nil_append, characterReference?,
        hsign 'x' _ (by decide), hsign 'X' _ (by decide), hdecimal, Bool.or_self, Bool.false_eq_true,
        if_false, if_true, List.drop_succ_cons, List.drop_zero, hrun]
      simp
  | @named c name hc hname =>
      cases htext
      have hletters : ∀ d ∈ c :: name, d.isAlphanum = true :=
        List.forall_mem_cons.mpr ⟨by simp [Char.isAlphanum, hc], hname⟩
      have hne : c ≠ '#' := ne_of_class hc (by decide)
      have hrun := terminatedRun_append (List.cons_ne_nil c name) hletters (by decide) rest
      rw [List.cons_append] at hrun
      simp [characterReference?, begins_cons_of_ne hne, headIs, hc, hrun]

theorem declarationRest_pos {cs : List Char} (hne : cs ≠ []) : 0 < declarationRest cs := by
  rw [declarationRest]
  cases seek? (begins ['>']) cs with
  | none => exact List.length_pos_iff.mpr hne
  | some n => exact Nat.succ_pos n

/-- A declaration ends with the first angle bracket that closes it. -/
theorem not_mem_dropLast_declaration (cs : List Char) :
    '>' ∉ (cs.take (declarationRest cs)).dropLast := by
  have hfirst : ∀ n, (∀ k < n, begins ['>'] (cs.drop k) = false) → '>' ∉ cs.take n := by
    intro n hnone hmem
    obtain ⟨before, behind, htake⟩ := List.append_of_mem hmem
    have hprefix : before ++ ['>'] <+: cs := by
      refine List.IsPrefix.trans ⟨behind, ?_⟩ (List.take_prefix n cs)
      rw [htake, List.append_assoc]
      rfl
    have hlength := congrArg List.length htake
    simp only [List.length_take, List.length_append, List.length_cons] at hlength
    have hbegins := hnone before.length (by omega)
    rw [begins_of_append_isPrefix hprefix] at hbegins
    cases hbegins
  rw [declarationRest]
  cases hseek : seek? (begins ['>']) cs with
  | none =>
      have hcs := hfirst cs.length (seek?_none hseek)
      rw [List.take_length] at hcs
      simpa using fun hmem => hcs (List.dropLast_subset cs hmem)
  | some n =>
      have hlt : n < cs.length := seek?_lt hseek
      simp only [Option.map_some, Option.getD_some, List.take_succ_eq_append_getElem hlt,
        List.dropLast_concat]
      exact hfirst n (seek?_first hseek)

theorem doctype_admits (grouping : Grouping) (form : Form) {cs : List Char}
    (hsign : begins ['<', '!'] ('<' :: cs) = true)
    (hcomment : ¬begins ['<', '!', '-', '-'] ('<' :: cs) = true) :
    Kind.doctype.Admits grouping form ('<' :: cs.take (declarationRest cs)) := by
  obtain ⟨ds, hds⟩ := begins_iff.mp hsign
  obtain rfl : '!' :: ds = cs := (List.cons.inj hds).2
  obtain ⟨n, hn⟩ := Nat.exists_eq_succ_of_ne_zero
    (declarationRest_pos (List.cons_ne_nil '!' ds)).ne'
  refine ⟨?_, ?_, ?_⟩
  · rw [hn]
    exact ⟨_, rfl⟩
  · intro hopens
    have htaken : '<' :: ('!' :: ds).take (declarationRest ('!' :: ds)) <+: '<' :: '!' :: ds :=
      List.cons_prefix_cons.mpr ⟨rfl, List.take_prefix _ _⟩
    exact hcomment (begins_iff.mpr (hopens.trans htaken))
  · have hlast := not_mem_dropLast_declaration ('!' :: ds)
    rw [hn] at hlast ⊢
    simpa [List.dropLast_cons_of_ne_nil] using hlast

theorem isText_of_isAlphanumeric {c : Char} (h : isAlphanumeric c = true) :
    isWhiteSpace c = false ∧ isControl c = false ∧ c ≠ '{' := by
  refine ⟨?_, ?_, ?_⟩
  · rw [Bool.eq_false_iff]
    exact fun hspace => by simp [isAlphanumeric_of_isWhiteSpace hspace] at h
  · rw [Bool.eq_false_iff]
    exact fun hcontrol => by simp [isAlphanumeric_of_isControl hcontrol] at h
  · rintro rfl
    exact absurd h (by decide +kernel)

theorem References.of_reference {text : List Char} (h : Reference text) : References text :=
  ⟨[text], by simp, by simpa using h, by simp⟩

theorem charEntityRef_admits (grouping : Grouping) (form : Form) {text : List Char}
    (h : Reference text) : Kind.charEntityRef.Admits grouping form text := by
  cases grouping with
  | runs => exact h
  | values => exact .of_reference h

namespace Rule

variable (grouping : Grouping) (form : Form) (nesting : Nesting) (c : Char) (cs : List Char)

theorem content_spells {state : State} (hstate : state ≠ .expression) :
    Spells grouping form state (c :: cs) ((content nesting c cs).more + 1)
      (content nesting c cs).kind := by
  rw [content]
  split
  · rename_i hsign
    exact take_of_begins hsign
  split
  · rename_i hcomment hsign
    obtain ⟨rest, hrest⟩ := begins_iff.mp hsign
    obtain rfl : '<' = c := (List.cons.inj hrest).1
    exact doctype_admits grouping form hsign hcomment
  split
  · rename_i hopens
    exact take_of_begins (Bool.and_eq_true_iff.mp hopens).1
  split
  · rename_i hopens
    have hsign : begins ['<'] (c :: cs) = true := (Bool.and_eq_true_iff.mp hopens).1
    exact take_of_begins hsign
  split
  · rename_i hbrace
    subst hbrace
    rfl
  split
  · rename_i hampersand
    subst hampersand
    split
    · rename_i more hreference
      exact charEntityRef_admits grouping form (reference_of_characterReference hreference)
    · exact List.forall_mem_singleton.mpr (by decide)
  split
  · rename_i hspace
    exact List.forall_mem_cons.mpr ⟨hspace, isWhiteSpace_lineSpaceRest c⟩
  split
  · rename_i hcontrol
    rw [Spells, if_neg hstate]
    exact List.forall_mem_singleton.mpr hcontrol
  split
  · rename_i hletter
    refine List.forall_mem_cons.mpr ⟨isText_of_isAlphanumeric hletter, ?_⟩
    exact fun d hd => isText_of_isAlphanumeric (mem_take_runLength hd)
  · rename_i hbrace _ hspace hcontrol _
    simp only [Bool.not_eq_true] at hspace hcontrol
    exact List.forall_mem_singleton.mpr ⟨hspace, hcontrol, hbrace⟩

theorem startTagEnd_spells {state : State} :
    Spells grouping form state ('>' :: cs) ((startTagEnd nesting).more + 1)
      (startTagEnd nesting).kind := by
  rw [startTagEnd]
  repeat' split
  all_goals rfl

theorem attributes_spells {state : State} :
    Spells grouping form state (c :: cs) ((attributes nesting c cs).more + 1)
      (attributes nesting c cs).kind := by
  rw [attributes]
  split
  · rename_i hspace
    exact List.forall_mem_cons.mpr ⟨hspace, isWhiteSpace_lineSpaceRest c⟩
  split
  · rename_i hangle
    subst hangle
    exact startTagEnd_spells grouping form nesting cs
  split
  · rename_i hempty
    simp only [Bool.and_eq_true, decide_eq_true_eq] at hempty
    obtain ⟨rfl, hangle⟩ := hempty
    exact congrArg ('/' :: ·) (take_of_begins hangle)
  split
  · rename_i hbrace
    subst hbrace
    rfl
  split
  · rename_i hequals
    subst hequals
    rfl
  split
  · rename_i hname
    exact List.forall_mem_cons.mpr ⟨hname, fun _ => mem_take_runLength⟩
  · rename_i hspace hangle _ _ _ _
    simp only [Bool.not_eq_true] at hspace
    exact List.forall_mem_singleton.mpr ⟨hspace, hangle⟩

theorem valueStart_spells :
    Spells grouping form .valueStart (c :: cs) ((valueStart nesting c cs).more + 1)
      (valueStart nesting c cs).kind := by
  rw [valueStart]
  split
  · rename_i hspace
    exact List.forall_mem_cons.mpr ⟨hspace, isWhiteSpace_lineSpaceRest c⟩
  split
  · rename_i hquote
    subst hquote
    exact .inl rfl
  split
  · rename_i hquote
    subst hquote
    exact .inr rfl
  split
  · rename_i hbrace
    subst hbrace
    rfl
  split
  · exact attributes_spells grouping form nesting c cs
  · exact List.cons_ne_nil c _

theorem quotedValue_spells {quote : Char} {state : State} (hquote : quote = '\x22' ∨ quote = '\x27') :
    Spells grouping form state (c :: cs) ((quotedValue c cs quote state).more + 1)
      (quotedValue c cs quote state).kind := by
  rw [quotedValue]
  split
  · rename_i hend
    subst hend
    exact hquote.imp (congrArg (List.singleton ·)) (congrArg (List.singleton ·))
  split
  · rename_i hampersand
    subst hampersand
    split
    · rename_i more hreference
      exact charEntityRef_admits grouping form (reference_of_characterReference hreference)
    · exact List.cons_ne_nil _ _
  split
  · exact List.cons_ne_nil _ _
  · exact List.cons_ne_nil _ _

theorem endTagBody_spells {state : State} :
    Spells grouping form state (c :: cs) ((endTagBody c cs).more + 1) (endTagBody c cs).kind := by
  rw [endTagBody]
  split
  · rename_i hspace
    exact List.forall_mem_cons.mpr ⟨hspace, isWhiteSpace_lineSpaceRest c⟩
  split
  · rename_i hangle
    subst hangle
    rfl
  · rename_i hspace hangle
    simp only [Bool.not_eq_true] at hspace
    exact List.forall_mem_singleton.mpr ⟨hspace, hangle⟩

/-- A name that begins with a letter of ASCII is of the kind that its case says. -/
theorem tagNameKind_spells {state : State} (hletter : c.isAlpha = true) :
    Spells grouping form state (c :: cs) (runLength inTagName cs + 1)
      (tagNameKind (String.ofList (c :: cs.take (runLength inTagName cs)))) := by
  have hname : ∀ upper, c.isUpper = upper →
      NamesTag upper (c :: cs.take (runLength inTagName cs)) := fun upper hupper =>
    ⟨c, _, rfl, hletter, hupper, fun _ => mem_take_runLength⟩
  have hcapital : isComponentName (String.ofList (c :: cs.take (runLength inTagName cs))) =
      c.isUpper := by
    rw [isComponentName, String.toList_ofList]
    exact isUppercase_of_isAlpha hletter
  rw [tagNameKind, hcapital]
  cases hupper : c.isUpper with
  | true => exact hname true hupper
  | false => exact hname false hupper

theorem startTagName_spells (hopens : opensName (c :: cs) = true) :
    Spells grouping form .startTagName (c :: cs) ((startTagName nesting c cs).more + 1)
      (startTagName nesting c cs).kind := by
  rw [startTagName]
  split
  · rename_i hangle
    subst hangle
    rfl
  split
  · rename_i hangle _
    have hletter : c.isAlpha = true := by simpa [opensName, headIs, hangle] using hopens
    exact tagNameKind_spells grouping form c cs hletter
  · exact attributes_spells grouping form nesting c cs

theorem endTagName_spells (hopens : opensName (c :: cs) = true) :
    Spells grouping form .endTagName (c :: cs) ((endTagName c cs).more + 1)
      (endTagName c cs).kind := by
  rw [endTagName]
  split
  · rename_i hangle
    subst hangle
    rfl
  split
  · rename_i hangle _
    have hletter : c.isAlpha = true := by simpa [opensName, headIs, hangle] using hopens
    exact tagNameKind_spells grouping form c cs hletter
  · exact endTagBody_spells grouping form c cs

/-- No line of a comment goes past the sign behind the comment. -/
theorem comment_spells :
    Spells grouping form .comment (c :: cs) ((comment c cs).more + 1) (comment c cs).kind := by
  rw [comment]
  split
  · rename_i hclose
    exact take_of_begins hclose
  split
  · rename_i hclose _
    intro k hk
    obtain rfl : k = 0 := by simpa using hk
    exact Bool.eq_false_iff.mpr hclose
  · rename_i hclose _
    intro k hk
    cases k with
    | zero => exact Bool.eq_false_iff.mpr hclose
    | succ k =>
        have hline : endsCommentLine (cs.drop k) = false :=
          seek_first k (Nat.lt_of_succ_lt_succ hk)
        exact (Bool.or_eq_false_iff.mp hline).2

theorem rawText_spells :
    Spells grouping form .rawText (c :: cs) ((rawText nesting c cs).more + 1)
      (rawText nesting c cs).kind := by
  rw [rawText]
  split
  · rename_i hseek
    obtain ⟨name, -, hname⟩ := Option.bind_eq_some_iff.mp hseek
    have hends : endsRawText name (c :: cs) = true := seek?_spec hname
    simp only [endsRawText, Bool.and_eq_true] at hends
    exact take_of_begins hends.1.1
  · exact List.cons_ne_nil _ _
  · exact List.cons_ne_nil _ _

theorem expression_spells (hscript : InScript form nesting.expressions.entries) :
    Spells grouping form .expression (c :: cs) ((expression nesting c cs).more + 1)
      (expression nesting c cs).kind := by
  rw [expression]
  split
  · rename_i hbrace
    subst hbrace
    rfl
  split
  · rename_i hbrace
    subst hbrace
    split
    · rename_i htop
      rw [Spells, if_pos rfl]
      refine ⟨hscript.resolve_right ?_, List.forall_mem_singleton.mpr rfl⟩
      exact not_not.mpr (List.head?_eq_none_iff.mp htop)
    · split
      · rfl
      · rfl
  split
  · rename_i hopens
    exact take_of_begins (Bool.and_eq_true_iff.mp hopens).1
  split
  · rename_i hopens
    have hsign : begins ['<'] (c :: cs) = true := (Bool.and_eq_true_iff.mp hopens).1
    exact take_of_begins hsign
  · exact Script.Lexeme.front_admits c cs

end Rule

/-- The token in front of a cursor has a text of its kind. -/
theorem Cursor.Arrived.spells {form : Form} {offset : Nat} {context : Context} {c : Char}
    {cs : List Char} (h : (Cursor.mk offset context (c :: cs)).Arrived form) (grouping : Grouping) :
    Spells grouping form context.state (c :: cs) ((context.transition c cs).more + 1)
      (context.transition c cs).kind := by
  obtain ⟨state, nesting⟩ := context
  cases state with
  | initial =>
      simp only [Context.transition, Rule.initial]
      split
      · rename_i hspace
        exact List.forall_mem_cons.mpr ⟨hspace, isWhiteSpace_lineSpaceRest c⟩
      split
      · rename_i hfence
        exact take_of_begins hfence
      · exact Rule.content_spells grouping form nesting c cs (by decide)
  | content =>
      refine Rule.content_spells grouping form nesting c cs fun hstate => ?_
      cases hstate
  | startTagName => exact Rule.startTagName_spells grouping form nesting c cs h.expected
  | endTagName => exact Rule.endTagName_spells grouping form c cs (h.endTagName rfl)
  | attributes => exact Rule.attributes_spells grouping form nesting c cs
  | valueStart => exact Rule.valueStart_spells grouping form nesting c cs
  | doubleQuotedValue => exact Rule.quotedValue_spells grouping form c cs (.inl rfl)
  | singleQuotedValue => exact Rule.quotedValue_spells grouping form c cs (.inr rfl)
  | endTagBody => exact Rule.endTagBody_spells grouping form c cs
  | comment => exact Rule.comment_spells grouping form c cs
  | rawText => exact Rule.rawText_spells grouping form nesting c cs
  | expression => exact Rule.expression_spells grouping form nesting c cs (h.script rfl)
  | frontmatter => trivial
  | frontmatterClose =>
      simp only [Context.transition, Rule.frontmatterClose]
      split
      · rename_i hfence
        exact take_of_begins hfence
      · exact Rule.content_spells grouping form nesting c cs (by decide)
  | unlisted code beyond =>
      refine Rule.content_spells grouping form nesting c cs fun hstate => ?_
      cases hstate

end Markup

end Relex
