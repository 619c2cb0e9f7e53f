import Relex.Proofs.Arrival
import Relex.Proofs.LineEnds

/-! # The rules and line ends

The rules of the markup grammar read from a text with carriage returns in front of its line feeds what they
read without: a token of the same kind that ends at the corresponding place, and leads to the same state
with the same change (`Context.mirrors`). Two rules are left out. A string with a line feed in it ends
earlier, and the lines of a comment are cut elsewhere.
-/

namespace Relex

open Text Unicode Script

namespace Markup

section Lookahead

variable {c : Char} {cs : List Char} {p : Char → Bool}

theorem opensName_crlf (cs : List Char) : opensName (crlf cs) = opensName cs :=
  headIs_crlf rfl cs

theorem opensStartTag_crlf (cs : List Char) : opensStartTag (crlf cs) = opensStartTag cs := by
  have hsign : ['<'].any isLineBreak = false := by decide
  rw [opensStartTag, opensStartTag, begins_crlf hsign]
  cases hbegins : begins ['<'] cs with
  | false => rfl
  | true =>
      have hdrop := drop_crlf_of_begins hsign hbegins
      rw [List.length_singleton] at hdrop
      rw [hdrop, opensName_crlf]

theorem opensEndTag_crlf (cs : List Char) : opensEndTag (crlf cs) = opensEndTag cs := by
  have hsign : ['<', '/'].any isLineBreak = false := by decide
  rw [opensEndTag, opensEndTag, begins_crlf hsign]
  cases hbegins : begins ['<', '/'] cs with
  | false => rfl
  | true =>
      have hdrop : (crlf cs).drop 2 = crlf (cs.drop 2) := drop_crlf_of_begins hsign hbegins
      rw [hdrop, opensName_crlf]

theorem endsBareValue_crlf (cs : List Char) : endsBareValue (crlf cs) = endsBareValue cs := by
  rw [endsBareValue, endsBareValue, headIs_crlf (by decide), begins_crlf (by decide)]

theorem lineSpaceLength_crlf (cs : List Char) :
    lineSpaceLength (crlf cs) = crlfReach cs (lineSpaceLength cs) := by
  induction cs with
  | nil => rfl
  | cons c cs ih =>
      by_cases hc : c = '\n'
      · subst hc
        rfl
      · rw [crlf_cons hc, lineSpaceLength, lineSpaceLength]
        split
        · rfl
        · rw [ih, crlfReach_cons hc]

theorem lineSpaceRest_crlf (hc : c ≠ '\n') (cs : List Char) :
    lineSpaceRest c (crlf cs) = crlfReach cs (lineSpaceRest c cs) := by
  rw [lineSpaceRest, lineSpaceRest, if_neg hc, if_neg hc, lineSpaceLength_crlf]

theorem declarationRest_crlf (cs : List Char) :
    declarationRest (crlf cs) = crlfReach cs (declarationRest cs) := by
  have hsign : ['>'].any isLineBreak = false := by decide
  rw [declarationRest, declarationRest, seek?_crlf (begins_crlf hsign) fun l => rfl]
  cases hseek : seek? (begins ['>']) cs with
  | none => exact (crlfReach_length cs).symm
  | some n =>
      have hend := crlfReach_of_begins hsign (seek?_spec hseek)
      simp only [Option.map_some, Option.getD_some]
      rw [crlfReach_add]
      exact congrArg (crlfReach cs n + ·) hend.symm

/-- The line break in front of a fence is at its line feed. -/
theorem seek?_fence_crlf (cs : List Char) : seek? (begins ('\n' :: fence)) (crlf cs) =
    (seek? (begins ('\n' :: fence)) cs).map (crlfReach cs · + 1) := by
  induction cs with
  | nil => rfl
  | cons c cs ih =>
      by_cases hc : c = '\n'
      · subst hc
        have hplain : fence.any isLineBreak = false := by decide
        have hfence : begins ('\n' :: fence) ('\n' :: crlf cs) = begins ('\n' :: fence) ('\n' :: cs) :=
          begins_crlf hplain cs
        have hreturn : begins ('\n' :: fence) ('\r' :: '\n' :: crlf cs) = false :=
          begins_cons_of_ne (by decide) _
        rw [crlf_newline, seek?, seek?, seek?, hreturn, hfence, ih]
        cases begins ('\n' :: fence) ('\n' :: cs) with
        | true => rfl
        | false => cases seek? (begins ('\n' :: fence)) cs <;> rfl
      · rw [crlf_cons hc, seek?, seek?, begins_cons_of_ne hc, begins_cons_of_ne hc, ih]
        simp only [Bool.false_eq_true, if_false, Option.map_map]
        refine Option.map_congr fun n _ => ?_
        exact congrArg (· + 1) (crlfReach_cons hc cs n).symm

theorem terminatedRun?_crlf (hcr : p '\r' = false) (hlf : p '\n' = false) (cs : List Char) :
    terminatedRun? p (crlf cs) = terminatedRun? p cs := by
  have hrun : runLength p (crlf cs) = runLength p cs := by
    rw [runLength_crlf (hcr.trans hlf.symm), crlfReach_runLength hlf]
  rw [terminatedRun?, terminatedRun?, hrun, drop_crlf (crlfReach_runLength hlf cs),
    begins_crlf (by decide)]

theorem characterReference?_crlf (cs : List Char) :
    characterReference? (crlf cs) = characterReference? cs := by
  rw [characterReference?, characterReference?, begins_crlf (by decide), begins_crlf (by decide),
    begins_crlf (by decide), headIs_crlf (by decide)]
  split
  · rename_i hx
    have hdrop : (crlf cs).drop 2 = crlf (cs.drop 2) := by
      rcases Bool.or_eq_true_iff.mp hx with hx | hx
      · exact drop_crlf_of_begins (by decide) hx
      · exact drop_crlf_of_begins (by decide) hx
    rw [hdrop, terminatedRun?_crlf (by decide) (by decide)]
  split
  · rename_i hnumber
    have hdrop : (crlf cs).drop 1 = crlf (cs.drop 1) := drop_crlf_of_begins (by decide) hnumber
    rw [hdrop, terminatedRun?_crlf (by decide) (by decide)]
  split
  · exact terminatedRun?_crlf (by decide) (by decide) cs
  · rfl

theorem crlfReach_of_terminatedRun {more : Nat} (hp : p '\n' = false)
    (h : terminatedRun? p cs = some more) : crlfReach cs more = more := by
  simp only [terminatedRun?] at h
  split at h
  · rename_i hrun
    have hend := crlfReach_of_begins (by decide) (Bool.and_eq_true_iff.mp hrun).2
    rw [List.length_singleton] at hend
    cases h
    rw [crlfReach_add, crlfReach_runLength hp, hend]
  · cases h

/-- There is no line feed in a reference. -/
theorem crlfReach_of_characterReference {more : Nat} (h : characterReference? cs = some more) :
    crlfReach cs more = more := by
  have hbehind {mark : List Char} {run : Nat} (hmark : mark.any isLineBreak = false)
      (hbegins : begins mark cs = true)
      (hrun : crlfReach (cs.drop mark.length) run = run) :
      crlfReach cs (run + mark.length) = run + mark.length := by
    rw [Nat.add_comm, crlfReach_add, crlfReach_of_begins hmark hbegins, hrun]
  rw [characterReference?] at h
  split at h
  · rename_i hx
    obtain ⟨run, hrun, rfl⟩ := Option.map_eq_some_iff.mp h
    rcases Bool.or_eq_true_iff.mp hx with hx | hx
    · exact hbehind (by decide) hx (crlfReach_of_terminatedRun (by decide) hrun)
    · exact hbehind (by decide) hx (crlfReach_of_terminatedRun (by decide) hrun)
  split at h
  · rename_i hnumber
    obtain ⟨run, hrun, rfl⟩ := Option.map_eq_some_iff.mp h
    exact hbehind (by decide) hnumber (crlfReach_of_terminatedRun (by decide) hrun)
  split at h
  · exact crlfReach_of_terminatedRun (by decide) h
  · cases h

/-- A name is found with either line ends, and it reaches as far. -/
theorem equalIgnoringCase_crlf {name : List Char} (hname : (name.map Char.toLower).any isLineBreak = false)
    (cs : List Char) :
    equalIgnoringCase name ((crlf cs).take name.length) =
        equalIgnoringCase name (cs.take name.length) ∧
      (equalIgnoringCase name (cs.take name.length) = true →
        crlfReach cs name.length = name.length) := by
  induction name generalizing cs with
  | nil => exact ⟨rfl, fun _ => rfl⟩
  | cons a name ih =>
      obtain ⟨ha, hname⟩ := Bool.or_eq_false_iff.mp (List.any_cons ▸ hname)
      cases cs with
      | nil => exact ⟨rfl, fun h => by cases h⟩
      | cons c cs =>
          by_cases hc : c = '\n'
          · subst hc
            have hreturn : (a.toLower == Char.toLower '\r') = false := by
              rw [beq_eq_false_iff_ne]
              intro hsame
              rw [hsame] at ha
              cases ha
            have hfeed : (a.toLower == Char.toLower '\n') = false := by
              rw [beq_eq_false_iff_ne]
              intro hsame
              rw [hsame] at ha
              cases ha
            simp only [equalIgnoringCase, crlf_newline, List.length_cons, List.take_succ_cons,
              List.map_cons, List.cons_beq_cons, hreturn, hfeed, Bool.false_and, true_and]
            exact fun h => by cases h
          · obtain ⟨hsame, hreach⟩ := ih hname cs
            rw [equalIgnoringCase, equalIgnoringCase] at hsame
            rw [equalIgnoringCase] at hreach
            simp only [equalIgnoringCase, crlf_cons hc, List.length_cons, List.take_succ_cons,
              List.map_cons, List.cons_beq_cons, hsame, true_and]
            intro h
            rw [crlfReach_cons hc, hreach (Bool.and_eq_true_iff.mp h).2]

theorem endsRawText_crlf {name : String}
    (hname : (name.toList.map Char.toLower).any isLineBreak = false) (cs : List Char) :
    endsRawText name (crlf cs) = endsRawText name cs := by
  have hsign : ['<', '/'].any isLineBreak = false := by decide
  rw [endsRawText, endsRawText, begins_crlf hsign]
  cases hbegins : begins ['<', '/'] cs with
  | false => rfl
  | true =>
      have htwo : crlfReach cs 2 = 2 := crlfReach_of_begins hsign hbegins
      obtain ⟨hsame, hreach⟩ := equalIgnoringCase_crlf hname (cs.drop 2)
      rw [drop_crlf htwo, hsame]
      cases hequal : equalIgnoringCase name.toList ((cs.drop 2).take name.toList.length) with
      | false => rfl
      | true =>
          have hdrop : (crlf cs).drop (2 + name.toList.length) =
              crlf (cs.drop (2 + name.toList.length)) := by
            refine drop_crlf ?_
            rw [crlfReach_add, htwo, hreach hequal]
          simp only [hdrop]
          rw [headIs_crlf (by decide), isEmpty_crlf]

end Lookahead

/-! ## The rules -/

/-- The transition over the text with the other line ends, where `cs` is what follows. -/
def Transition.withCrlf (cs : List Char) (transition : Transition) : Transition :=
  { transition with more := crlfReach cs transition.more }

namespace Transition

variable {cs : List Char} {transition : Transition}

theorem withCrlf_of_reach (h : crlfReach cs transition.more = transition.more) :
    transition.withCrlf cs = transition := by
  rw [withCrlf, h]

/-- A choice reads the other text as well if both of its branches do. -/
theorem ite_withCrlf {p : Prop} [Decidable p] {yes yes' no no' : Transition}
    (hyes : p → yes' = yes.withCrlf cs) (hno : ¬p → no' = no.withCrlf cs) :
    (if p then yes' else no') = (if p then yes else no).withCrlf cs := by
  by_cases hp : p
  · rw [if_pos hp, if_pos hp, hyes hp]
  · rw [if_neg hp, if_neg hp, hno hp]

end Transition

namespace Rule

open Transition

variable {nesting : Nesting} {c : Char} {cs : List Char}

theorem begins_cons_crlf {pattern : List Char} (hc : c ≠ '\n') (hpattern : pattern.any isLineBreak = false)
    (cs : List Char) : begins pattern (c :: crlf cs) = begins pattern (c :: cs) := by
  rw [← crlf_cons hc, begins_crlf hpattern]

/-- A sign reaches as far as it did. -/
theorem crlfReach_of_begins_cons {sign : Char} {pattern : List Char} (hc : c ≠ '\n')
    (hpattern : (sign :: pattern).any isLineBreak = false)
    (h : begins (sign :: pattern) (c :: cs) = true) :
    crlfReach cs pattern.length = pattern.length := by
  have hreach := crlfReach_of_begins hpattern h
  rw [List.length_cons, crlfReach_cons hc] at hreach
  exact Nat.succ.inj hreach

theorem content_crlf (hc : c ≠ '\n') (cs : List Char) :
    content nesting c (crlf cs) = (content nesting c cs).withCrlf cs := by
  rw [content, content, begins_cons_crlf hc (by decide), begins_cons_crlf hc (by decide), ← crlf_cons hc,
    opensEndTag_crlf, opensStartTag_crlf, characterReference?_crlf, lineSpaceRest_crlf hc,
    runLength_crlf (by decide), declarationRest_crlf]
  refine ite_withCrlf (fun hsign => ?_) fun _ => ite_withCrlf (fun _ => rfl) fun _ => ?_
  · exact (withCrlf_of_reach (crlfReach_of_begins_cons hc (by decide) hsign)).symm
  refine ite_withCrlf (fun hopens => ?_) fun _ => ite_withCrlf (fun _ => rfl) fun _ => ?_
  · obtain ⟨hsign, -⟩ := Bool.and_eq_true_iff.mp hopens
    exact (withCrlf_of_reach (crlfReach_of_begins_cons hc (by decide) hsign)).symm
  refine ite_withCrlf (fun _ => rfl) fun _ => ite_withCrlf (fun _ => ?_) fun _ => ?_
  · cases hreference : characterReference? cs with
    | some more => exact (withCrlf_of_reach (crlfReach_of_characterReference hreference)).symm
    | none => rfl
  exact ite_withCrlf (fun _ => rfl) fun _ => ite_withCrlf (fun _ => rfl) fun _ =>
    ite_withCrlf (fun _ => rfl) fun _ => rfl

theorem initial_crlf (hc : c ≠ '\n') (cs : List Char) :
    initial nesting c (crlf cs) = (initial nesting c cs).withCrlf cs := by
  rw [initial, initial, begins_cons_crlf hc (by decide), content_crlf hc, lineSpaceRest_crlf hc]
  refine ite_withCrlf (fun _ => rfl) fun _ => ite_withCrlf (fun hfence => ?_) fun _ => rfl
  exact (withCrlf_of_reach (crlfReach_of_begins_cons hc (by decide) hfence)).symm

theorem frontmatterClose_crlf (hc : c ≠ '\n') (cs : List Char) :
    frontmatterClose nesting c (crlf cs) = (frontmatterClose nesting c cs).withCrlf cs := by
  rw [frontmatterClose, frontmatterClose, begins_cons_crlf hc (by decide), content_crlf hc]
  refine ite_withCrlf (fun hfence => ?_) fun _ => rfl
  exact (withCrlf_of_reach (crlfReach_of_begins_cons hc (by decide) hfence)).symm

theorem startTagEnd_crlf (nesting : Nesting) (cs : List Char) :
    (startTagEnd nesting).withCrlf cs = startTagEnd nesting := by
  rw [startTagEnd]
  repeat' split
  all_goals rfl

theorem attributes_crlf (hc : c ≠ '\n') (cs : List Char) :
    attributes nesting c (crlf cs) = (attributes nesting c cs).withCrlf cs := by
  rw [attributes, attributes, lineSpaceRest_crlf hc, begins_crlf (by decide),
    runLength_crlf (by decide)]
  refine ite_withCrlf (fun _ => rfl) fun _ => ite_withCrlf (fun _ => ?_) fun _ => ?_
  · exact (startTagEnd_crlf nesting cs).symm
  refine ite_withCrlf (fun hclose => ?_) fun _ => ?_
  · obtain ⟨-, hsign⟩ := Bool.and_eq_true_iff.mp hclose
    exact (withCrlf_of_reach (crlfReach_of_begins (by decide) hsign)).symm
  exact ite_withCrlf (fun _ => rfl) fun _ => ite_withCrlf (fun _ => rfl) fun _ =>
    ite_withCrlf (fun _ => rfl) fun _ => rfl

theorem valueStart_crlf (hc : c ≠ '\n') (cs : List Char) :
    valueStart nesting c (crlf cs) = (valueStart nesting c cs).withCrlf cs := by
  have hseek : seek endsBareValue (crlf cs) = crlfReach cs (seek endsBareValue cs) :=
    seek_crlf endsBareValue_crlf (fun l => rfl) cs
  rw [valueStart, valueStart, ← crlf_cons hc, endsBareValue_crlf, lineSpaceRest_crlf hc,
    attributes_crlf hc, hseek]
  exact ite_withCrlf (fun _ => rfl) fun _ => ite_withCrlf (fun _ => rfl) fun _ =>
    ite_withCrlf (fun _ => rfl) fun _ => ite_withCrlf (fun _ => rfl) fun _ =>
    ite_withCrlf (fun _ => rfl) fun _ => rfl

theorem quotedValue_crlf {quote : Char} {state : State} (hc : c ≠ '\n')
    (hquote : quote = '\x22' ∨ quote = '\x27') (cs : List Char) :
    quotedValue c (crlf cs) quote state = (quotedValue c cs quote state).withCrlf cs := by
  have hclass : (fun d => d != quote && d != '&' && !isWhiteSpace d) '\r' =
      (fun d => d != quote && d != '&' && !isWhiteSpace d) '\n' := by
    rcases hquote with rfl | rfl <;> decide
  rw [quotedValue, quotedValue, characterReference?_crlf, lineSpaceRest_crlf hc, runLength_crlf hclass]
  refine ite_withCrlf (fun _ => rfl) fun _ => ite_withCrlf (fun _ => ?_) fun _ =>
    ite_withCrlf (fun _ => rfl) fun _ => rfl
  cases hreference : characterReference? cs with
  | some more => exact (withCrlf_of_reach (crlfReach_of_characterReference hreference)).symm
  | none => rfl

theorem endTagBody_crlf (hc : c ≠ '\n') (cs : List Char) :
    endTagBody c (crlf cs) = (endTagBody c cs).withCrlf cs := by
  rw [endTagBody, endTagBody, lineSpaceRest_crlf hc]
  exact ite_withCrlf (fun _ => rfl) fun _ => ite_withCrlf (fun _ => rfl) fun _ => rfl

theorem not_inTagName_of_isLineBreak (hc : isLineBreak c = true) : ¬inTagName c = true := by
  rcases Bool.or_eq_true_iff.mp hc with hc | hc
  · obtain rfl := beq_iff_eq.mp hc
    decide
  · obtain rfl := beq_iff_eq.mp hc
    decide

theorem startTagName_crlf (hc : c ≠ '\n') (cs : List Char) :
    startTagName nesting c (crlf cs) = (startTagName nesting c cs).withCrlf cs := by
  rw [startTagName, startTagName, attributes_crlf hc]
  refine ite_withCrlf (fun _ => rfl) fun _ => ite_withCrlf (fun _ => ?_) fun _ => rfl
  simp only [runLength_crlf (p := inTagName) (by decide),
    take_crlf_runLength (p := inTagName) (by decide), withCrlf]

theorem endTagName_crlf (hc : c ≠ '\n') (cs : List Char) :
    endTagName c (crlf cs) = (endTagName c cs).withCrlf cs := by
  rw [endTagName, endTagName, endTagBody_crlf hc]
  refine ite_withCrlf (fun _ => rfl) fun _ => ite_withCrlf (fun _ => ?_) fun _ => rfl
  simp only [runLength_crlf (p := inTagName) (by decide),
    take_crlf_runLength (p := inTagName) (by decide), withCrlf]

/-- No name begins with a line break. -/
theorem startTagName_of_isLineBreak (hc : isLineBreak c = true) (cs : List Char) :
    startTagName nesting c cs = attributes nesting c cs := by
  have hsign : c ≠ '>' := ne_of_class hc rfl
  have hname : ¬inTagName c = true := not_inTagName_of_isLineBreak hc
  rw [startTagName, if_neg hsign, if_neg hname]

theorem endTagName_of_isLineBreak (hc : isLineBreak c = true) (cs : List Char) :
    endTagName c cs = endTagBody c cs := by
  have hsign : c ≠ '>' := ne_of_class hc rfl
  have hname : ¬inTagName c = true := not_inTagName_of_isLineBreak hc
  rw [endTagName, if_neg hsign, if_neg hname]

theorem expression_crlf (hc : c ≠ '\n')
    (hstring : (expression nesting c cs).kind = .script .string →
      '\n' ∉ cs.take (expression nesting c cs).more) :
    expression nesting c (crlf cs) = (expression nesting c cs).withCrlf cs := by
  generalize htransition : expression nesting c cs = transition at hstring ⊢
  rw [expression] at htransition ⊢
  rw [← crlf_cons hc, opensEndTag_crlf, opensStartTag_crlf]
  by_cases hopen : c = '\x7b'
  · rw [if_pos hopen] at htransition ⊢
    subst htransition
    rfl
  rw [if_neg hopen] at htransition ⊢
  by_cases hclose : c = '\x7d'
  · rw [if_pos hclose] at htransition ⊢
    subst htransition
    cases nesting.expressions.top? with
    | none => rfl
    | some opening =>
        simp only
        split
        · rfl
        · rfl
  rw [if_neg hclose] at htransition ⊢
  by_cases hend : opensEndTag (c :: cs) = true
  · rw [if_pos hend] at htransition ⊢
    obtain ⟨hsign, -⟩ := Bool.and_eq_true_iff.mp hend
    subst htransition
    exact (withCrlf_of_reach (crlfReach_of_begins_cons hc (by decide) hsign)).symm
  rw [if_neg hend] at htransition ⊢
  by_cases hstart : opensStartTag (c :: cs) = true
  · rw [if_pos hstart] at htransition ⊢
    subst htransition
    rfl
  rw [if_neg hstart] at htransition ⊢
  subst htransition
  rw [Script.Lexeme.front_rewrites c cs fun hkind => hstring (congrArg Kind.script hkind)]
  rfl

end Rule

/-- From the text with the other line ends, the second transition reads what the first one reads. -/
structure Transition.Mirrors (text : List Char) (transition other : Transition) : Prop where
  kind : other.kind = transition.kind
  next : other.next = transition.next
  change : other.change = transition.change
  more : other.more + 1 = crlfReach text (transition.more + 1)

namespace Transition

variable {c : Char}

theorem mirrors_crlf (hc : c ≠ '\n') (cs : List Char) (transition : Transition) :
    Mirrors (c :: cs) transition (transition.withCrlf cs) :=
  ⟨rfl, rfl, rfl, (crlfReach_cons hc cs _).symm⟩

end Transition

namespace Rule

variable {nesting : Nesting} {c d : Char} {cs ds : List Char}

theorem frontmatter_mirrors (hcrlf : crlf (c :: cs) = d :: ds) :
    Transition.Mirrors (c :: cs) (frontmatter c cs) (frontmatter d ds) := by
  refine ⟨rfl, rfl, rfl, ?_⟩
  simp only [frontmatter, frontmatterRest]
  rw [← hcrlf, seek?_fence_crlf]
  cases hseek : seek? (begins ('\n' :: fence)) (c :: cs) with
  | none =>
      have hlength := congrArg List.length hcrlf
      rw [List.length_cons] at hlength
      exact hlength.symm.trans (crlfReach_length (c :: cs)).symm
  | some n =>
      obtain ⟨rest, hrest⟩ := begins_iff.mp (seek?_spec hseek)
      simp only [Option.map_some, Option.getD_some]
      rw [crlfReach_add, ← hrest]
      rfl

theorem rawText_mirrors
    (hname : ∀ name ∈ nesting.elements.top?, (name.toList.map Char.toLower).any isLineBreak = false)
    (hcrlf : crlf (c :: cs) = d :: ds) :
    Transition.Mirrors (c :: cs) (rawText nesting c cs) (rawText nesting d ds) := by
  have hnone : Transition.Mirrors (c :: cs) ⟨.rawText, cs.length, .rawText, .keep⟩
      ⟨.rawText, ds.length, .rawText, .keep⟩ := by
    refine ⟨rfl, rfl, rfl, ?_⟩
    have hlength := congrArg List.length hcrlf
    rw [List.length_cons] at hlength
    exact hlength.symm.trans (crlfReach_length (c :: cs)).symm
  rw [rawText, rawText]
  cases htop : nesting.elements.top? with
  | none => exact hnone
  | some name =>
      have hseek := seek?_crlf (endsRawText_crlf (hname name htop)) (fun l => rfl) (c :: cs)
      rw [Option.bind_some, Option.bind_some, ← hcrlf, hseek]
      cases hfound : seek? (endsRawText name) (c :: cs) with
      | none => exact hnone
      | some n =>
          cases n with
          | zero =>
              have hsign := (Bool.and_eq_true_iff.mp (Bool.and_eq_true_iff.mp (seek?_spec hfound)).1).1
              exact ⟨rfl, rfl, rfl, (crlfReach_of_begins (by decide) hsign).symm⟩
          | succ before =>
              obtain ⟨before', hbefore⟩ :
                  ∃ before', crlfReach (c :: cs) (before + 1) = before' + 1 := by
                by_cases hc : c = '\n'
                · subst hc
                  exact ⟨_, crlfReach_newline cs before⟩
                · exact ⟨_, crlfReach_cons hc cs before⟩
              rw [Option.map_some, hbefore]
              exact ⟨rfl, rfl, rfl, hbefore.symm⟩

end Rule

/-- Where no comment goes on, a token is read as the same token with the other line ends, if it is not
    a string with a line feed in it. -/
theorem Context.mirrors {context : Context} {c d : Char} {cs ds : List Char}
    (hcomment : context.state = .comment → begins ['-', '-', '>'] (c :: cs) = true)
    (hraw : context.state = .rawText → ∀ name ∈ context.nesting.elements.top?,
      (name.toList.map Char.toLower).any isLineBreak = false)
    (hstring : (context.transition c cs).kind = .script .string →
      '\n' ∉ cs.take (context.transition c cs).more)
    (hcrlf : crlf (c :: cs) = d :: ds) :
    Transition.Mirrors (c :: cs) (context.transition c cs) (context.transition d ds) := by
  obtain ⟨state, nesting⟩ := context
  by_cases hc : c = '\n'
  · subst hc
    rw [crlf_newline] at hcrlf
    cases hcrlf
    have hfeed : isLineBreak '\n' = true := rfl
    have hreturn : isLineBreak '\r' = true := rfl
    cases state with
    | frontmatter => exact Rule.frontmatter_mirrors rfl
    | rawText => exact Rule.rawText_mirrors (hraw rfl) rfl
    | comment => cases hcomment rfl
    | expression =>
        exact ⟨rfl, rfl, rfl, (Lexeme.mirrors (crlf_newline cs) fun h => by cases h).2⟩
    | startTagName =>
        simp only [transition, Rule.startTagName_of_isLineBreak hfeed,
          Rule.startTagName_of_isLineBreak hreturn]
        exact ⟨rfl, rfl, rfl, rfl⟩
    | endTagName =>
        simp only [transition, Rule.endTagName_of_isLineBreak hfeed,
          Rule.endTagName_of_isLineBreak hreturn]
        exact ⟨rfl, rfl, rfl, rfl⟩
    | _ => exact ⟨rfl, rfl, rfl, rfl⟩
  · rw [crlf_cons hc] at hcrlf
    cases hcrlf
    have hmirrors {transition other : Transition} (hsame : other = transition.withCrlf cs) :
        Transition.Mirrors (c :: cs) transition other :=
      hsame ▸ Transition.mirrors_crlf hc cs transition
    cases state with
    | frontmatter => exact Rule.frontmatter_mirrors (crlf_cons hc cs)
    | rawText => exact Rule.rawText_mirrors (hraw rfl) (crlf_cons hc cs)
    | comment =>
        have hclose := hcomment rfl
        have hreach : crlfReach cs 2 = 2 := Rule.crlfReach_of_begins_cons hc (by decide) hclose
        have hclose' : begins ['-', '-', '>'] (c :: crlf cs) = true := by
          rw [Rule.begins_cons_crlf hc (by decide), hclose]
        refine hmirrors ?_
        simp only [transition, Rule.comment, if_pos hclose, if_pos hclose', Transition.withCrlf, hreach]
    | initial => exact hmirrors (Rule.initial_crlf hc cs)
    | content => exact hmirrors (Rule.content_crlf hc cs)
    | startTagName => exact hmirrors (Rule.startTagName_crlf hc cs)
    | endTagName => exact hmirrors (Rule.endTagName_crlf hc cs)
    | attributes => exact hmirrors (Rule.attributes_crlf hc cs)
    | valueStart => exact hmirrors (Rule.valueStart_crlf hc cs)
    | doubleQuotedValue => exact hmirrors (Rule.quotedValue_crlf hc (.inl rfl) cs)
    | singleQuotedValue => exact hmirrors (Rule.quotedValue_crlf hc (.inr rfl) cs)
    | endTagBody => exact hmirrors (Rule.endTagBody_crlf hc cs)
    | expression => exact hmirrors (Rule.expression_crlf hc hstring)
    | frontmatterClose => exact hmirrors (Rule.frontmatterClose_crlf hc cs)
    | unlisted code beyond => exact hmirrors (Rule.content_crlf hc cs)

end Markup

end Relex
