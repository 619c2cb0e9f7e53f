import Mathlib.Data.List.TakeWhile
import Relex.Proofs.Moves

/-! # How far tokens of text reach

A token of text ends in front of the signs of the grammar, wherever it is read. In content the signs
are those that open tags and braces, between quotes it is the quote, and in script the closing brace
is one more. The rules for text look ahead over runs, references, numerals and words, and each of
these is `Clear` of the signs. So a text is left where it ends, when a sign follows it
(`Clear.exists_append`).
-/

namespace Relex

namespace Text

/-! ## What the searches find -/

section Search

variable {here : List Char → Bool} {p : Char → Bool} {cs : List Char} {n : Nat} {c : Char}

theorem ne_of_class {d : Char} (hc : p c = true) (hd : p d = false) : c ≠ d := by
  rintro rfl
  rw [hc] at hd
  cases hd

theorem eq_false_of_any {signs : List Char} (hnone : signs.any p = false) (hc : c ∈ signs) :
    p c = false :=
  Bool.eq_false_iff.mpr (List.any_eq_false.mp hnone c hc)

theorem take_runLength (p : Char → Bool) (cs : List Char) :
    cs.take (runLength p cs) = cs.takeWhile p :=
  (List.prefix_iff_eq_take.mp (List.takeWhile_prefix p)).symm

theorem mem_take_runLength (hc : c ∈ cs.take (runLength p cs)) : p c = true := by
  rw [take_runLength] at hc
  exact List.mem_takeWhile_imp hc

theorem seek?_first (h : seek? here cs = some n) : ∀ k < n, here (cs.drop k) = false := by
  induction cs generalizing n with
  | nil => cases h
  | cons c cs ih =>
      rw [seek?] at h
      split at h
      · cases h
        exact fun k hk => absurd hk (Nat.not_lt_zero k)
      · rename_i hhere
        obtain ⟨m, hm, rfl⟩ := Option.map_eq_some_iff.mp h
        intro k hk
        cases k with
        | zero => exact Bool.eq_false_iff.mpr hhere
        | succ k => exact ih hm k (Nat.lt_of_succ_lt_succ hk)

theorem seek?_none (h : seek? here cs = none) : ∀ k < cs.length, here (cs.drop k) = false := by
  induction cs with
  | nil => exact fun k hk => absurd hk (Nat.not_lt_zero k)
  | cons c cs ih =>
      rw [seek?] at h
      split at h
      · cases h
      · rename_i hhere
        intro k hk
        cases k with
        | zero => exact Bool.eq_false_iff.mpr hhere
        | succ k => exact ih (Option.map_eq_none_iff.mp h) k (Nat.lt_of_succ_lt_succ hk)

theorem seek_first : ∀ k < seek here cs, here (cs.drop k) = false := by
  rw [seek]
  cases hseek : seek? here cs with
  | none => exact seek?_none hseek
  | some n => exact seek?_first hseek

theorem seek_cons (c : Char) (cs : List Char) :
    seek here (c :: cs) = if here (c :: cs) then 0 else seek here cs + 1 := by
  rw [seek, seek?, seek]
  split
  · rfl
  · cases seek? here cs <;> rfl

theorem seek_spec {cs : List Char} (hne : cs.drop (seek here cs) ≠ []) :
    here (cs.drop (seek here cs)) = true := by
  rw [seek] at hne ⊢
  cases hseek : seek? here cs with
  | none =>
      rw [hseek, Option.getD_none, List.drop_length] at hne
      exact absurd rfl hne
  | some n => exact seek?_spec hseek

/-- A search passes over where nothing is found. -/
theorem seek_eq_add {n : Nat} {cs : List Char} (hle : n ≤ cs.length)
    (hnone : ∀ k < n, here (cs.drop k) = false) : seek here cs = n + seek here (cs.drop n) := by
  induction n generalizing cs with
  | zero => rw [Nat.zero_add, List.drop_zero]
  | succ n ih =>
      cases cs with
      | nil => cases hle
      | cons c cs =>
          have hfirst : here (c :: cs) = false := hnone 0 (Nat.zero_lt_succ n)
          rw [seek_cons, hfirst, if_neg Bool.false_ne_true,
            ih (Nat.le_of_succ_le_succ hle) fun k hk => hnone (k + 1) (Nat.succ_lt_succ hk),
            List.drop_succ_cons, Nat.add_right_comm]

theorem seek?_of_first (hne : cs ≠ []) (hhere : here cs = true) {front : List Char}
    (hfront : ∀ k < front.length, here ((front ++ cs).drop k) = false) :
    seek? here (front ++ cs) = some front.length := by
  induction front with
  | nil =>
      obtain ⟨c, behind, rfl⟩ := List.exists_cons_of_ne_nil hne
      rw [List.nil_append, seek?, if_pos hhere]
      rfl
  | cons c front ih =>
      have hfirst := hfront 0 (Nat.zero_lt_succ _)
      rw [List.drop_zero, List.cons_append] at hfirst
      rw [List.cons_append, seek?, hfirst, if_neg Bool.false_ne_true,
        ih fun k hk => hfront (k + 1) (Nat.succ_lt_succ hk)]
      rfl

theorem headIs_append {front : List Char} (hfront : ∀ c ∈ front, p c = false)
    (hcs : ∀ c ∈ cs.head?, p c = false) : headIs p (front ++ cs) = false := by
  cases front with
  | cons c front => exact hfront c List.mem_cons_self
  | nil =>
      cases cs with
      | nil => rfl
      | cons c cs => exact hcs c rfl

theorem begins_iff {pattern : List Char} : begins pattern cs = true ↔ pattern <+: cs :=
  List.isPrefixOf_iff_prefix

theorem not_prefix_of_seek? {pattern : List Char} (hne : pattern ≠ [])
    (h : seek? (begins pattern) cs = none) (k : Nat) : ¬ pattern <+: cs.drop k := by
  intro hprefix
  by_cases hk : k < cs.length
  · exact Bool.eq_false_iff.mp (seek?_none h k hk) (begins_iff.mpr hprefix)
  · rw [List.drop_of_length_le (Nat.not_lt.mp hk)] at hprefix
    exact hne (List.prefix_nil.mp hprefix)

end Search

/-! ## Text without signs -/

/-- None of the first `n` characters is one of some signs. -/
def Clear (signs : List Char) (n : Nat) (cs : List Char) : Prop :=
  ∀ c ∈ cs.take n, c ∉ signs

section Clear

variable {signs cs rest : List Char} {m n : Nat} {p : Char → Bool}

theorem clear_zero : Clear signs 0 cs :=
  List.forall_mem_nil _

theorem Clear.add (hm : Clear signs m cs) (hn : Clear signs n (cs.drop m)) :
    Clear signs (m + n) cs := by
  intro c hc
  rw [List.take_add, List.mem_append] at hc
  rcases hc with hc | hc
  · exact hm c hc
  · exact hn c hc

/-- What is clear of signs ends in front of a sign. -/
theorem Clear.exists_append (h : Clear signs n (cs ++ rest)) (hrest : ∀ c ∈ rest.head?, c ∈ signs) :
    ∃ front behind, cs = front ++ behind ∧ (cs ++ rest).take n = front ∧
      (cs ++ rest).drop n = behind ++ rest := by
  by_cases hn : n ≤ cs.length
  · refine ⟨cs.take n, cs.drop n, (List.take_append_drop n cs).symm, ?_, ?_⟩
    · exact List.take_append_of_le_length hn
    · exact List.drop_append_of_le_length hn
  · cases rest with
    | nil =>
        refine ⟨cs, [], (List.append_nil cs).symm, ?_, ?_⟩
        · rw [List.append_nil, List.take_of_length_le (by omega)]
        · rw [List.append_nil, List.drop_of_length_le (by omega)]
          rfl
    | cons sign rest =>
        have hmem : sign ∈ (cs ++ sign :: rest).take n := by
          rw [List.take_append, List.mem_append]
          right
          obtain ⟨k, hk⟩ : ∃ k, n - cs.length = k + 1 := ⟨n - cs.length - 1, by omega⟩
          rw [hk, List.take_succ_cons]
          exact List.mem_cons_self
        exact absurd (hrest sign rfl) (h sign hmem)

/-- A class without the signs. -/
theorem clear_of_forall (hp : signs.any p = false) (h : ∀ c ∈ cs.take n, p c = true) :
    Clear signs n cs :=
  fun c hc hsign => List.any_eq_false.mp hp c hsign (h c hc)

theorem clear_runLength (hp : signs.any p = false) : Clear signs (runLength p cs) cs :=
  clear_of_forall hp fun _ => mem_take_runLength

theorem clear_head (hp : signs.any p = false) (h : headIs p cs = true) :
    Clear signs 1 cs := by
  apply clear_of_forall hp
  cases cs with
  | nil => cases h
  | cons c cs =>
      intro d hd
      rw [List.mem_singleton.mp hd]
      exact h

theorem clear_begins {pattern : List Char} (hpattern : ∀ c ∈ pattern, c ∉ signs)
    (h : begins pattern cs = true) : Clear signs pattern.length cs := by
  obtain ⟨rest, rfl⟩ := List.isPrefixOf_iff_prefix.mp h
  intro c hc
  rw [List.take_left] at hc
  exact hpattern c hc

theorem begins_cons_of_ne {c d : Char} (h : c ≠ d) (pattern : List Char) :
    begins (d :: pattern) (c :: cs) = false := by
  simp [begins, List.isPrefixOf, Ne.symm h]

theorem begins_singleton {d : Char} (h : cs.head? ≠ some d) : begins [d] cs = false := by
  cases cs with
  | nil => rfl
  | cons c cs => exact begins_cons_of_ne (fun hsame => h (congrArg some hsame)) []

/-- A property of the next character, where that is known. -/
theorem forall_head_cons {P : Char → Prop} {c : Char} {cs : List Char} (h : P c) :
    ∀ d ∈ (c :: cs).head?, P d := by
  intro d hd
  cases hd
  exact h

/-- A run ends where its class ends. -/
theorem runLength_append (hcs : cs.all p = true) (hrest : ∀ c ∈ rest.head?, p c = false) :
    runLength p (cs ++ rest) = cs.length := by
  rw [runLength, List.takeWhile_append_of_pos (List.all_eq_true.mp hcs), List.length_append]
  cases rest with
  | nil => rfl
  | cons c rest => rw [List.takeWhile_cons, hrest c rfl]; rfl

end Clear

end Text

open Text Unicode

namespace Markup

variable {signs cs : List Char} {more : Nat}

theorem isWhiteSpace_lineSpaceLength :
    ∀ c ∈ cs.take (lineSpaceLength cs), isWhiteSpace c = true := by
  induction cs with
  | nil => exact List.forall_mem_nil _
  | cons c cs ih =>
      rw [lineSpaceLength]
      cases hspace : isWhiteSpace c with
      | false => exact List.forall_mem_nil _
      | true =>
          by_cases hline : c = '\n'
          · simp [hline]
            decide
          · simp only [Bool.not_true, Bool.false_eq_true, if_false, hline, List.take_succ_cons]
            exact List.forall_mem_cons.mpr ⟨hspace, ih⟩

/-- White space goes on with white space. -/
theorem isWhiteSpace_lineSpaceRest (c : Char) :
    ∀ d ∈ cs.take (lineSpaceRest c cs), isWhiteSpace d = true := by
  rw [lineSpaceRest]
  split
  · exact List.forall_mem_nil _
  · exact isWhiteSpace_lineSpaceLength

theorem clear_lineSpaceRest (hsigns : signs.any isWhiteSpace = false) (c : Char) :
    Clear signs (lineSpaceRest c cs) cs :=
  clear_of_forall hsigns (isWhiteSpace_lineSpaceRest c)

theorem clear_terminatedRun {p : Char → Bool} (hp : signs.any p = false)
    (hend : ';' ∉ signs) (h : terminatedRun? p cs = some more) : Clear signs more cs := by
  simp only [terminatedRun?] at h
  split at h
  · rename_i hrun
    cases h
    apply (clear_runLength hp).add
    have hsemicolon : ∀ c ∈ [';'], c ∉ signs := List.forall_mem_singleton.mpr hend
    exact clear_begins hsemicolon (Bool.and_eq_true_iff.mp hrun).2
  · cases h

/-- A reference holds letters and digits of ASCII between its signs. -/
theorem clear_characterReference (hhex : signs.any isHexDigit = false)
    (hdigit : signs.any Char.isDigit = false) (hname : signs.any Char.isAlphanum = false)
    (hmarks : signs.any ['#', 'x', 'X', ';'].contains = false)
    (h : characterReference? cs = some more) : Clear signs more cs := by
  have hapart : ∀ c ∈ ['#', 'x', 'X', ';'], c ∉ signs := fun c hc hsign =>
    List.any_eq_false.mp hmarks c hsign (List.contains_iff_mem.mpr hc)
  have hend : ';' ∉ signs := hapart ';' (by decide)
  have hmark : ∀ mark ⊆ ['#', 'x', 'X', ';'], begins mark cs = true →
      Clear signs mark.length cs := by
    intro mark hmark
    exact clear_begins fun c hc => hapart c (hmark hc)
  rw [characterReference?] at h
  split at h
  · rename_i hx
    obtain ⟨run, hrun, rfl⟩ := Option.map_eq_some_iff.mp h
    rw [Nat.add_comm]
    refine Clear.add ?_ (clear_terminatedRun hhex hend hrun)
    rcases Bool.or_eq_true_iff.mp hx with hx | hx
    · exact hmark _ (by simp) hx
    · exact hmark _ (by simp) hx
  split at h
  · rename_i hnumber
    obtain ⟨run, hrun, rfl⟩ := Option.map_eq_some_iff.mp h
    rw [Nat.add_comm]
    exact (hmark _ (by simp) hnumber).add (clear_terminatedRun hdigit hend hrun)
  split at h
  · exact clear_terminatedRun hname hend h
  · cases h

/-! ## Text of the rules -/

/-- The token leaves everything as it is, and it is clear of the signs. -/
structure Transition.Passes (transition : Transition) (state : State) (signs cs : List Char) :
    Prop where
  next : transition.next = state
  change : transition.change = .keep
  clear : Clear signs transition.more cs

/-- What opens tags and braces. -/
def contentSigns : List Char := ['<', '{']

theorem Rule.content_passes (nesting : Nesting) {c : Char} (hc : c ∉ contentSigns) (cs : List Char) :
    (Rule.content nesting c cs).Passes .content contentSigns cs := by
  have hangle : c ≠ '<' := fun h => hc (h ▸ by decide)
  have hbrace : c ≠ '{' := fun h => hc (h ▸ by decide)
  have hbegins : ∀ pattern, begins ('<' :: pattern) (c :: cs) = false := begins_cons_of_ne hangle
  simp only [Rule.content, hbegins, opensEndTag, opensStartTag, Bool.false_and, Bool.false_eq_true,
    if_false, if_neg hbrace]
  split
  · split
    · rename_i more hmore
      exact ⟨rfl, rfl, clear_characterReference (by decide) (by decide) (by decide) (by decide) hmore⟩
    · exact ⟨rfl, rfl, clear_zero⟩
  split
  · exact ⟨rfl, rfl, clear_lineSpaceRest (by decide) c⟩
  split
  · exact ⟨rfl, rfl, clear_zero⟩
  split
  · exact ⟨rfl, rfl, clear_runLength (by decide)⟩
  · exact ⟨rfl, rfl, clear_zero⟩

theorem Rule.quotedValue_passes {quote c : Char} (hquote : quote = '\x22' ∨ quote = '\x27')
    (hc : c ≠ quote) (cs : List Char) (state : State) :
    (Rule.quotedValue c cs quote state).Passes state [quote] cs := by
  -- Neither quote belongs to a class of characters that a piece runs over.
  have hclass : ∀ p : Char → Bool, p '\x22' = false → p '\x27' = false → [quote].any p = false := by
    intro p hdouble hsingle
    rcases hquote with rfl | rfl
    · simpa using hdouble
    · simpa using hsingle
  rw [Rule.quotedValue, if_neg hc]
  split
  · split
    · rename_i more hmore
      exact ⟨rfl, rfl, clear_characterReference (hclass _ (by decide) (by decide))
        (hclass _ (by decide) (by decide)) (hclass _ (by decide) (by decide))
        (hclass _ (by decide) (by decide)) hmore⟩
    · exact ⟨rfl, rfl, clear_zero⟩
  split
  · exact ⟨rfl, rfl, clear_lineSpaceRest (hclass _ (by decide) (by decide)) c⟩
  · exact ⟨rfl, rfl, clear_runLength (by simp)⟩

end Markup

namespace Script

/-- What opens and closes tags and braces in script. -/
def scriptSigns : List Char := ['<', '{', '}']

variable {cs : List Char}

/-- What a numeral goes on with. -/
def inNumeral (c : Char) : Bool :=
  isHexDigit c || ['x', 'X', '_', '.', '+', '-'].contains c

section Numeral

variable {signs : List Char} (hsigns : signs.any inNumeral = false)
include hsigns

theorem any_eq_false_of_inNumeral {p : Char → Bool} (hp : ∀ c, p c = true → inNumeral c = true) :
    signs.any p = false :=
  List.any_eq_false.mpr fun c hc h => List.any_eq_false.mp hsigns c hc (hp c h)

theorem clear_exponentLength : Clear signs (exponentLength cs) cs := by
  have hdigits : signs.any Char.isDigit = false :=
    any_eq_false_of_inNumeral hsigns (by grind [inNumeral, isHexDigit])
  have hmark : signs.any (fun c => c == 'e' || c == 'E') = false := by
    apply any_eq_false_of_inNumeral hsigns
    simp only [Bool.or_eq_true, beq_iff_eq]
    rintro c (rfl | rfl) <;> decide
  have hplus : signs.any (fun c => c == '+' || c == '-') = false :=
    any_eq_false_of_inNumeral hsigns (by grind [inNumeral])
  rw [exponentLength]
  split
  · rename_i hletter
    extract_lets sign digits
    have hhead : Clear signs 1 cs := clear_head hmark hletter
    have hsign : Clear signs sign (cs.drop 1) := by
      simp only [sign]
      split
      · rename_i hsign
        exact clear_head hplus hsign
      · exact clear_zero
    split
    · exact clear_zero
    · exact (hhead.add hsign).add (clear_runLength hdigits)
  · exact clear_zero

theorem clear_numberRest (first : Char) : Clear signs (numberRest first cs) cs := by
  have hx : signs.any (fun c => c == 'x' || c == 'X') = false :=
    any_eq_false_of_inNumeral hsigns (by grind [inNumeral])
  have hhex : signs.any (fun c => isHexDigit c || c == '_') = false :=
    any_eq_false_of_inNumeral hsigns (by grind [inNumeral])
  have hbody : signs.any (fun c => c.isDigit || c == '_' || c == '.') = false :=
    any_eq_false_of_inNumeral hsigns (by grind [inNumeral, isHexDigit])
  rw [numberRest]
  split
  · rename_i hmark
    exact (clear_head hx (Bool.and_eq_true_iff.mp hmark).2).add (clear_runLength hhex)
  · exact (clear_runLength hbody).add (clear_exponentLength hsigns)

end Numeral

/-- The plain characters of a script, which belong to words, numerals and blanks. -/
def isWordOrBlank (c : Char) : Bool :=
  isAlphanumeric c || c == '_' || c == '$' || isWhiteSpace c

theorem clear_front {c : Char} (hc : isWordOrBlank c = true) (cs : List Char) :
    Clear scriptSigns (Lexeme.front c cs).more cs := by
  have hne : ∀ d, isWordOrBlank d = false → c ≠ d := fun _ => ne_of_class hc
  have hoperator : isOperatorSign c = false := by
    apply Bool.eq_false_iff.mpr
    intro hsign
    have hnone : operatorSigns.any isWordOrBlank = false := by decide
    exact List.any_eq_false.mp hnone c (List.contains_iff_mem.mp hsign) hc
  have hslash : c ≠ '/' := hne _ (by decide)
  have hdouble : c ≠ '\x22' := hne _ (by decide)
  have hsingle : c ≠ '\x27' := hne _ (by decide)
  have htick : c ≠ '\x60' := hne _ (by decide)
  have hdot : c ≠ '.' := hne _ (by decide)
  have hequals : c ≠ '=' := hne _ (by decide)
  simp only [Lexeme.front, hslash, hdouble, hsingle, htick, hdot, hequals, hoperator, decide_false,
    Bool.false_and, Bool.or_false, Bool.false_eq_true, if_false]
  split
  · exact clear_runLength (by decide)
  split
  · exact clear_numberRest (by decide) c
  split
  · exact clear_runLength (by decide)
  · exact clear_zero

end Script

namespace Markup

theorem Rule.expression_passes (nesting : Nesting) {c : Char} (hc : Script.isWordOrBlank c = true)
    (cs : List Char) :
    (Rule.expression nesting c cs).Passes .expression Script.scriptSigns cs := by
  have hne : ∀ d, Script.isWordOrBlank d = false → c ≠ d := fun _ => ne_of_class hc
  have hangle : c ≠ '<' := hne _ (by decide)
  have hbegins : ∀ pattern, begins ('<' :: pattern) (c :: cs) = false := begins_cons_of_ne hangle
  simp only [Rule.expression, if_neg (hne '{' (by decide)), if_neg (hne '}' (by decide)), hbegins,
    opensEndTag, opensStartTag, Bool.false_and, Bool.false_eq_true, if_false]
  exact ⟨rfl, rfl, Script.clear_front hc cs⟩

/-! ## Raw text -/

/-- An end tag is told from what stands up to its last sign. -/
theorem endsRawText_append {name : String} {cs : List Char}
    (hlength : name.toList.length + 3 ≤ cs.length) (rest : List Char) :
    endsRawText name (cs ++ rest) = endsRawText name cs := by
  have hbehind : (cs ++ rest).drop (2 + name.toList.length) =
      cs.drop (2 + name.toList.length) ++ rest :=
    List.drop_append_of_le_length (by omega)
  have hname : ((cs ++ rest).drop 2).take name.toList.length =
      (cs.drop 2).take name.toList.length := by
    rw [List.drop_append_of_le_length (by omega), List.take_append_of_le_length]
    rw [List.length_drop]
    omega
  have hbegins : begins ['<', '/'] (cs ++ rest) = begins ['<', '/'] cs := by
    match cs, hlength with
    | a :: b :: cs, _ => simp [begins, List.isPrefixOf]
  have hne : cs.drop (2 + name.toList.length) ≠ [] := by
    intro hnil
    have hshort := List.drop_eq_nil_iff.mp hnil
    omega
  obtain ⟨sign, signs, hsigns⟩ := List.exists_cons_of_ne_nil hne
  simp only [endsRawText, hbehind, hname, hbegins, hsigns]
  rfl

theorem seek?_endsRawText_append {name : String} {content endTag : List Char}
    (h : seek? (endsRawText name) (content ++ endTag) = some content.length)
    (hlength : name.toList.length + 3 ≤ endTag.length) (rest : List Char) :
    seek? (endsRawText name) (content ++ (endTag ++ rest)) = some content.length := by
  induction content with
  | nil =>
      cases endTag with
      | nil => cases h
      | cons c cs =>
          have hhere : endsRawText name (c :: cs) = true := seek?_spec h
          have hthere := endsRawText_append hlength rest
          rw [hhere] at hthere
          simp only [List.nil_append, List.cons_append] at hthere ⊢
          rw [seek?, if_pos hthere]
          rfl
  | cons c content ih =>
      have hlong : name.toList.length + 3 ≤ (c :: (content ++ endTag)).length := by
        simp only [List.length_cons, List.length_append]
        omega
      have hsame := endsRawText_append hlong rest
      rw [List.cons_append, List.append_assoc] at hsame
      rw [List.cons_append, seek?] at h ⊢
      rw [hsame]
      split at h
      · cases h
      · rename_i hhere
        obtain ⟨before, hbefore, hlater⟩ := Option.map_eq_some_iff.mp h
        have hshorter := ih (hbefore.trans (congrArg some (Nat.succ.inj hlater)))
        rw [if_neg hhere, hshorter]
        rfl

end Markup

end Relex
