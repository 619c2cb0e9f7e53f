import Relex.Proofs.LexemeText
import Relex.Proofs.Printing

/-! # Line ends

A text can end its lines with a line feed, or with a carriage return in front of every line feed. What
lexers look for in a text is found in the other one too, at the place that corresponds: `crlfReach` says
how far a number of characters reach there. A search for a pattern without line breaks, a run of a class
with both line breaks or with neither, a template and a comment all end where they did. A string does so
if there is no line feed in it (`Script.stringRest_crlf`), so every other lexeme is the same lexeme
(`Script.Lexeme.mirrors`).
-/

namespace Relex

open Text Unicode Script

namespace Text

/-- The text with a carriage return in front of every line feed. -/
def crlf (cs : List Char) : List Char :=
  cs.flatMap fun c => if c = '\n' then ['\r', '\n'] else [c]

/-- How far the first `n` characters of a text reach when its line ends are changed. -/
def crlfReach (cs : List Char) (n : Nat) : Nat :=
  (crlf (cs.take n)).length

section Crlf

variable {c : Char} {cs pattern : List Char} {n : Nat} {p : Char → Bool} {here : List Char → Bool}

@[simp] theorem crlf_nil : crlf [] = [] := rfl

@[simp] theorem crlf_append (as bs : List Char) : crlf (as ++ bs) = crlf as ++ crlf bs :=
  List.flatMap_append

@[simp] theorem crlf_newline (cs : List Char) : crlf ('\n' :: cs) = '\r' :: '\n' :: crlf cs := rfl

theorem crlf_cons (h : c ≠ '\n') (cs : List Char) : crlf (c :: cs) = c :: crlf cs := by
  rw [crlf, List.flatMap_cons, if_neg h]
  rfl

theorem crlf_of_not_mem (h : '\n' ∉ cs) : crlf cs = cs := by
  induction cs with
  | nil => rfl
  | cons c cs ih =>
      obtain ⟨hc, hcs⟩ := not_or.mp (mt List.mem_cons.mpr h)
      rw [crlf_cons (Ne.symm hc), ih hcs]

theorem crlf_take_append_drop (cs : List Char) (n : Nat) :
    crlf (cs.take n) ++ crlf (cs.drop n) = crlf cs := by
  rw [← crlf_append, List.take_append_drop]

theorem take_crlfReach (cs : List Char) (n : Nat) :
    (crlf cs).take (crlfReach cs n) = crlf (cs.take n) := by
  rw [← crlf_take_append_drop cs n]
  exact List.take_left

theorem drop_crlfReach (cs : List Char) (n : Nat) :
    (crlf cs).drop (crlfReach cs n) = crlf (cs.drop n) := by
  conv_lhs => rw [← crlf_take_append_drop cs n]
  exact List.drop_left

theorem drop_crlf (h : crlfReach cs n = n) : (crlf cs).drop n = crlf (cs.drop n) := by
  rw [← drop_crlfReach, h]

@[simp] theorem crlfReach_zero (cs : List Char) : crlfReach cs 0 = 0 := rfl

theorem crlfReach_add (cs : List Char) (m n : Nat) :
    crlfReach cs (m + n) = crlfReach cs m + crlfReach (cs.drop m) n := by
  rw [crlfReach, List.take_add, crlf_append, List.length_append]
  rfl

@[simp] theorem crlfReach_length (cs : List Char) : crlfReach cs cs.length = (crlf cs).length := by
  rw [crlfReach, List.take_length]

@[simp] theorem crlfReach_newline (cs : List Char) (n : Nat) :
    crlfReach ('\n' :: cs) (n + 1) = crlfReach cs n + 2 := rfl

theorem crlfReach_cons (h : c ≠ '\n') (cs : List Char) (n : Nat) :
    crlfReach (c :: cs) (n + 1) = crlfReach cs n + 1 := by
  rw [crlfReach, List.take_succ_cons, crlf_cons h]
  rfl

theorem crlf_eq_cons (c : Char) (cs : List Char) : ∃ d ds, crlf (c :: cs) = d :: ds := by
  by_cases hc : c = '\n'
  · subst hc
    exact ⟨_, _, crlf_newline cs⟩
  · exact ⟨_, _, crlf_cons hc cs⟩

/-- What begins a text and reaches as far begins the other one, and leaves the rest of it. -/
theorem cut_crlf_cons {d : Char} {ds : List Char} {more more' : Nat} (hcrlf : crlf (c :: cs) = d :: ds)
    (hmore : more' + 1 = crlfReach (c :: cs) (more + 1)) :
    d :: ds.take more' = crlf (c :: cs.take more) ∧ ds.drop more' = crlf (cs.drop more) := by
  rw [← List.take_succ_cons, ← List.drop_succ_cons (a := d), ← hcrlf, hmore, take_crlfReach,
    drop_crlfReach]
  exact ⟨rfl, rfl⟩

/-- A pattern without line breaks is where it was. -/
theorem begins_crlf (hpattern : pattern.any isLineBreak = false) (cs : List Char) :
    begins pattern (crlf cs) = begins pattern cs := by
  induction pattern generalizing cs with
  | nil => rfl
  | cons a pattern ih =>
      obtain ⟨ha, hpattern⟩ := Bool.or_eq_false_iff.mp (List.any_cons ▸ hpattern)
      cases cs with
      | nil => rfl
      | cons c cs =>
          by_cases hc : c = '\n'
          · subst hc
            have hcr : '\r' ≠ a := by rintro rfl; cases ha
            have hlf : '\n' ≠ a := by rintro rfl; cases ha
            rw [crlf_newline, begins_cons_of_ne hcr, begins_cons_of_ne hlf]
          · rw [crlf_cons hc]
            exact congrArg ((a == c) && ·) (ih hpattern cs)

theorem isEmpty_crlf (cs : List Char) : (crlf cs).isEmpty = cs.isEmpty := by
  cases cs with
  | nil => rfl
  | cons c cs =>
      by_cases hc : c = '\n'
      · subst hc
        rfl
      · rw [crlf_cons hc]
        rfl

theorem headIs_crlf (h : p '\r' = p '\n') (cs : List Char) : headIs p (crlf cs) = headIs p cs := by
  cases cs with
  | nil => rfl
  | cons c cs =>
      by_cases hc : c = '\n'
      · subst hc
        exact h
      · rw [crlf_cons hc]
        rfl

/-- What is read behind a pattern without line breaks is what was read behind it. -/
theorem crlfReach_of_begins (hpattern : pattern.any isLineBreak = false)
    (h : begins pattern cs = true) : crlfReach cs pattern.length = pattern.length := by
  rw [crlfReach, take_of_begins h, crlf_of_not_mem]
  intro hmem
  exact absurd (List.any_eq_false.mp hpattern _ hmem) (by decide)

theorem drop_crlf_of_begins (hpattern : pattern.any isLineBreak = false)
    (h : begins pattern cs = true) :
    (crlf cs).drop pattern.length = crlf (cs.drop pattern.length) := by
  exact drop_crlf (crlfReach_of_begins hpattern h)

theorem crlfReach_of_headIs (hp : p '\n' = false) (h : headIs p cs = true) : crlfReach cs 1 = 1 := by
  obtain ⟨d, ds, rfl, hd⟩ := exists_of_headIs h
  have hline : d ≠ '\n' := by
    rintro rfl
    rw [hp] at hd
    cases hd
  rw [crlfReach_cons hline, crlfReach_zero]

/-- A run of a class with both line breaks or with neither reaches as far as it did. -/
theorem runLength_crlf (h : p '\r' = p '\n') (cs : List Char) :
    runLength p (crlf cs) = crlfReach cs (runLength p cs) := by
  induction cs with
  | nil => rfl
  | cons c cs ih =>
      by_cases hc : c = '\n'
      · subst hc
        rw [crlf_newline]
        cases hbreak : p '\n' with
        | true => rw [runLength_cons (h.trans hbreak), runLength_cons hbreak, runLength_cons hbreak, ih,
            crlfReach_newline]
        | false => simp [runLength, h, hbreak]
      · rw [crlf_cons hc]
        cases hp : p c with
        | true => rw [runLength_cons hp, runLength_cons hp, ih, crlfReach_cons hc]
        | false => simp [runLength, hp]

theorem crlfReach_runLength (h : p '\n' = false) (cs : List Char) :
    crlfReach cs (runLength p cs) = runLength p cs := by
  have hnone : '\n' ∉ cs.take (runLength p cs) := by
    intro hmem
    have := mem_take_runLength hmem
    simp [h] at this
  rw [crlfReach, crlf_of_not_mem hnone, List.length_take]
  exact Nat.min_eq_left (runLength_le p cs)

/-- A place that is found by what follows it is found again, if line breaks look alike. -/
theorem seek?_crlf (hhere : ∀ l, here (crlf l) = here l)
    (hbreak : ∀ l, here ('\n' :: crlf l) = here ('\n' :: l)) (cs : List Char) :
    seek? here (crlf cs) = (seek? here cs).map (crlfReach cs) := by
  induction cs with
  | nil => rfl
  | cons c cs ih =>
      have hfront := hhere (c :: cs)
      by_cases hc : c = '\n'
      · subst hc
        rw [crlf_newline] at hfront ⊢
        rw [seek?, seek?, seek?, hfront, hbreak cs, ih]
        cases here ('\n' :: cs) with
        | true => rfl
        | false => cases seek? here cs <;> rfl
      · rw [crlf_cons hc] at hfront ⊢
        rw [seek?, seek?, hfront, ih]
        cases here (c :: cs) with
        | true => rfl
        | false =>
            simp only [Bool.false_eq_true, if_false, Option.map_map]
            refine Option.map_congr fun n _ => ?_
            exact (crlfReach_cons hc cs n).symm

theorem seek_crlf (hhere : ∀ l, here (crlf l) = here l)
    (hbreak : ∀ l, here ('\n' :: crlf l) = here ('\n' :: l)) (cs : List Char) :
    seek here (crlf cs) = crlfReach cs (seek here cs) := by
  rw [seek, seek, seek?_crlf hhere hbreak]
  cases seek? here cs with
  | none => exact (crlfReach_length cs).symm
  | some n => rfl

end Crlf

end Text

namespace Script

section Crlf

variable {quote c : Char} {cs : List Char}

/-- A string without line feeds ends where it did. -/
theorem stringRest_crlf (h : '\n' ∉ cs.take (stringRest quote cs)) :
    stringRest quote (crlf cs) = crlfReach cs (stringRest quote cs) := by
  fun_induction stringRest quote cs with
  | case1 => rfl
  | case2 => rfl
  | case3 d cs ih =>
      simp only [List.take_succ_cons, List.mem_cons, not_or] at h
      obtain ⟨-, hd, hcs⟩ := h
      rw [crlf_cons (by decide), crlf_cons (Ne.symm hd), crlfReach_cons (by decide),
        crlfReach_cons (Ne.symm hd), ← ih hcs]
      simp only [stringRest]
  | case4 c cs hend hescape hbreak =>
      by_cases hc : c = '\n'
      · subst hc
        rfl
      · rw [crlf_cons hc, stringRest_cons (ne_backslash hend hescape), if_pos hbreak]
        rfl
  | case5 cs hend hescape hbreak =>
      have hplain := ne_backslash hend hescape
      have hline : quote ≠ '\n' := by rintro rfl; exact hbreak rfl
      rw [crlf_cons hline, stringRest_cons hplain, if_neg hbreak, if_pos rfl, crlfReach_cons hline,
        crlfReach_zero]
  | case6 c cs hend hescape hbreak hquote ih =>
      have hplain := ne_backslash hend hescape
      have hline : c ≠ '\n' := by rintro rfl; exact hbreak rfl
      rw [List.take_succ_cons, List.mem_cons, not_or] at h
      rw [crlf_cons hline, stringRest_cons hplain, if_neg hbreak, if_neg hquote, crlfReach_cons hline,
        ih h.2]

/-- A template ends where it did, since a line break is nothing special in it. -/
theorem templateRest_crlf (depth : Nat) (cs : List Char) :
    templateRest depth (crlf cs) = crlfReach cs (templateRest depth cs) := by
  fun_induction templateRest depth cs with
  | case1 => rfl
  | case2 depth => cases depth <;> rfl
  | case3 depth d cs ih =>
      rw [crlf_cons (by decide), crlfReach_cons (by decide)]
      by_cases hd : d = '\n'
      · subst hd
        have hfeed : templateRest depth ('\n' :: crlf cs) = templateRest depth (crlf cs) + 1 := by
          cases depth with
          | zero => exact templateRest_plain (by decide) (by decide) fun h => by cases h
          | succ depth => exact templateRest_inside (by decide) rfl (crlf cs)
        rw [crlf_newline, templateRest_escape, hfeed, ih, crlfReach_newline]
      · rw [crlf_cons hd, templateRest_escape, ih, crlfReach_cons hd]
  | case4 cs ih =>
      rw [crlf_cons (by decide), crlf_cons (by decide), crlfReach_cons (by decide),
        crlfReach_cons (by decide), ← ih]
      simp only [templateRest]
  | case5 cs => rfl
  | case6 c cs hend hescape hdollar hquote ih =>
      have hplain := ne_backslash hend hescape
      by_cases hc : c = '\n'
      · subst hc
        have hbreak {d : Char} (hd : isLineBreak d = true) (ds : List Char) :
            templateRest 0 (d :: ds) = templateRest 0 ds + 1 :=
          templateRest_plain (by rintro rfl; cases hd) (by rintro rfl; cases hd)
            (by rintro rfl; cases hd)
        rw [crlf_newline, hbreak rfl, hbreak rfl, ih, crlfReach_newline]
      · rw [crlf_cons hc, templateRest_plain hquote hplain ?_, ih, crlfReach_cons hc]
        intro hsame hbrace
        have hbegins : begins ['\x7b'] cs = true := by
          rw [← begins_crlf (by decide)]
          obtain ⟨ds, hds⟩ := List.head?_eq_some_iff.mp hbrace
          exact begins_iff.mpr ⟨ds, hds.symm⟩
        obtain ⟨ds, hds⟩ := exists_of_begins_singleton hbegins
        exact hdollar ds hsame hds
  | case7 depth cs hend hescape ih =>
      rw [crlf_cons (by decide), crlfReach_cons (by decide), ← ih]
      exact templateRest_inside (by decide) rfl (crlf cs)
  | case8 depth cs hend hescape hopens ih =>
      rw [crlf_cons (by decide), crlfReach_cons (by decide), ← ih]
      cases depth <;> rfl
  | case9 depth c cs hend hescape hopens hcloses ih =>
      have hplain := ne_backslash hend hescape
      have hcount {d : Char} (hopens : d ≠ '\x7b') (hcloses : d ≠ '\x7d') :
          depth + [d].count '\x7d' = depth + [d].count '\x7b' := by
        simp [hopens, hcloses]
      by_cases hc : c = '\n'
      · subst hc
        rw [crlf_newline, templateRest_inside (by decide) (hcount (by decide) (by decide)),
          templateRest_inside (by decide) (hcount (by decide) (by decide)), ih, crlfReach_newline]
      · rw [crlf_cons hc, templateRest_inside hplain (hcount hopens hcloses), ih, crlfReach_cons hc]

theorem exponentLength_crlf (cs : List Char) :
    exponentLength (crlf cs) = crlfReach cs (exponentLength cs) := by
  rw [exponentLength, exponentLength, headIs_crlf rfl]
  split
  · rename_i hletter
    have hfirst := crlfReach_of_headIs rfl hletter
    have hsign : headIs (fun c => c == '+' || c == '-') ((crlf cs).drop 1) =
        headIs (fun c => c == '+' || c == '-') (cs.drop 1) := by
      rw [drop_crlf hfirst, headIs_crlf rfl]
    simp only [hsign]
    generalize hlength : (if headIs (fun c => c == '+' || c == '-') (cs.drop 1) then 1 else 0) = sign
    have hreach : crlfReach cs (1 + sign) = 1 + sign := by
      rw [crlfReach_add, hfirst, ← hlength]
      split
      · rename_i hsigned
        rw [crlfReach_of_headIs rfl hsigned]
      · rfl
    have hdigits : runLength Char.isDigit ((crlf cs).drop (1 + sign)) =
        runLength Char.isDigit (cs.drop (1 + sign)) := by
      rw [drop_crlf hreach, runLength_crlf rfl, crlfReach_runLength rfl]
    rw [hdigits]
    split
    · rfl
    · rw [crlfReach_add, hreach, crlfReach_runLength rfl]
  · rfl

theorem numberRest_crlf (first : Char) (cs : List Char) :
    numberRest first (crlf cs) = crlfReach cs (numberRest first cs) := by
  rw [numberRest, numberRest, headIs_crlf rfl]
  split
  · rename_i hhex
    have hx := crlfReach_of_headIs rfl (Bool.and_eq_true_iff.mp hhex).2
    rw [crlfReach_add, hx, ← runLength_crlf rfl, ← drop_crlf hx]
  · simp only
    rw [crlfReach_add, runLength_crlf rfl, drop_crlfReach, exponentLength_crlf]

theorem blockCommentRest_crlf (cs : List Char) :
    blockCommentRest (crlf cs) = crlfReach cs (blockCommentRest cs) := by
  have hclose : ['*', '/'].any isLineBreak = false := by decide
  rw [blockCommentRest, blockCommentRest, seek?_crlf (begins_crlf hclose) fun l => rfl]
  cases hseek : seek? (begins ['*', '/']) cs with
  | none => exact (crlfReach_length cs).symm
  | some n =>
      have hend := crlfReach_of_begins hclose (seek?_spec hseek)
      simp only [Option.map_some]
      rw [crlfReach_add]
      exact congrArg (crlfReach cs n + ·) hend.symm

/-- A word is the same word. -/
theorem take_crlf_runLength {p : Char → Bool} (hp : p '\n' = false) (cs : List Char) :
    (crlf cs).take (crlfReach cs (runLength p cs)) = cs.take (runLength p cs) := by
  rw [take_crlfReach]
  refine crlf_of_not_mem fun hmem => ?_
  have hfeed := mem_take_runLength hmem
  rw [hp] at hfeed
  cases hfeed

/-- The second lexeme is the first one with the other line ends, if that is not a string with a line feed
    in it. -/
def Lexeme.Rewrites (cs : List Char) (lexeme other : Lexeme) : Prop :=
  (lexeme.kind = .string → '\n' ∉ cs.take lexeme.more) →
    other = ⟨lexeme.kind, crlfReach cs lexeme.more⟩

theorem Lexeme.Rewrites.ite {p : Prop} [Decidable p] {yes yes' no no' : Lexeme}
    (hyes : p → Rewrites cs yes yes') (hno : ¬p → Rewrites cs no no') :
    Rewrites cs (if p then yes else no) (if p then yes' else no') := by
  by_cases hp : p
  · rw [if_pos hp, if_pos hp]
    exact hyes hp
  · rw [if_neg hp, if_neg hp]
    exact hno hp

theorem Lexeme.front_rewrites (c : Char) (cs : List Char) :
    Rewrites cs (Lexeme.front c cs) (Lexeme.front c (crlf cs)) := by
  have hslash : ['/'].any isLineBreak = false := by decide
  have hstar : ['*'].any isLineBreak = false := by decide
  have hdots : ['.', '.'].any isLineBreak = false := by decide
  have hdigit : Char.isDigit '\r' = Char.isDigit '\n' := rfl
  have hoperator : ('\r' == '=' || '\r' == '>') = ('\n' == '=' || '\n' == '>') := rfl
  rw [Lexeme.front, Lexeme.front, begins_crlf hslash, begins_crlf hstar, begins_crlf hdots,
    headIs_crlf hdigit, @headIs_crlf (fun d => d == '=' || d == '>') hoperator]
  refine .ite (fun _ _ => ?_) fun _ => .ite (fun _ _ => ?_) fun _ => ?_
  · rw [runLength_crlf (by decide)]
  · rw [runLength_crlf (by decide)]
  refine .ite (fun hblock _ => ?_) fun _ => .ite (fun _ hstring => ?_) fun _ => ?_
  · have hreach := crlfReach_of_begins hstar (Bool.and_eq_true_iff.mp hblock).2
    rw [List.length_singleton] at hreach
    rw [drop_crlf hreach, blockCommentRest_crlf, crlfReach_add, hreach]
  · rw [stringRest_crlf (hstring rfl)]
  refine .ite (fun _ _ => ?_) fun _ => .ite (fun _ _ => ?_) fun _ => .ite (fun _ _ => ?_) fun _ => ?_
  · rw [templateRest_crlf]
  · rw [numberRest_crlf]
  · simp only [runLength_crlf (p := continuesName) (by decide),
      take_crlf_runLength (p := continuesName) (by decide)]
  refine .ite (fun _ => .ite (fun hspread _ => ?_) fun _ _ => rfl) fun _ =>
    .ite (fun _ _ => rfl) fun _ => .ite (fun _ _ => ?_) fun _ _ => rfl
  · exact congrArg _ (crlfReach_of_begins hdots hspread).symm
  · rw [runLength_crlf (by decide)]

/-- Every lexeme is read as the same lexeme with the other line ends, if it is not a string with a line
    feed in it. -/
theorem Lexeme.mirrors {d : Char} {ds : List Char} (hcrlf : crlf (c :: cs) = d :: ds)
    (h : (Lexeme.front c cs).kind = .string → '\n' ∉ cs.take (Lexeme.front c cs).more) :
    (Lexeme.front d ds).kind = (Lexeme.front c cs).kind ∧
      (Lexeme.front d ds).more + 1 = crlfReach (c :: cs) ((Lexeme.front c cs).more + 1) := by
  by_cases hc : c = '\n'
  · subst hc
    rw [crlf_newline] at hcrlf
    cases hcrlf
    -- Both characters of the line end are white space, and so is what the run goes on with.
    have hfeed : isWhiteSpace '\n' = true := by decide
    have hreturn : isWhiteSpace '\r' = true := by decide
    rw [Lexeme.front, if_pos hreturn, Lexeme.front, if_pos hfeed]
    refine ⟨rfl, ?_⟩
    simp only
    rw [runLength_cons hfeed, runLength_crlf (hreturn.trans hfeed.symm), crlfReach_newline]
  · rw [crlf_cons hc] at hcrlf
    cases hcrlf
    rw [front_rewrites c cs h, crlfReach_cons hc]
    exact ⟨rfl, rfl⟩

/-- A string ends in front of a line end, unless its first character is escaped. -/
theorem not_infix_stringRest (quote : Char) (cs : List Char) :
    ¬['\r', '\n'] <:+: cs.take (stringRest quote cs) := by
  fun_induction stringRest quote cs with
  | case1 => exact fun hinfix => absurd hinfix.length_le (by decide)
  | case2 => exact fun hinfix => absurd hinfix.length_le (by decide)
  | case3 d cs ih =>
      rw [List.take_succ_cons, List.take_succ_cons, List.infix_cons_iff, List.infix_cons_iff]
      rintro (hbegin | hbegin | hinfix)
      · exact absurd (List.cons_prefix_cons.mp hbegin).1 (by decide)
      · -- The line feed behind an escaped carriage return ends the string.
        obtain ⟨rest, hrest⟩ := (List.cons_prefix_cons.mp hbegin).2
        cases cs with
        | nil => cases hrest
        | cons e cs =>
            generalize hlength : stringRest quote (e :: cs) = n at hrest
            cases n with
            | zero => cases hrest
            | succ n =>
                obtain rfl : '\n' = e := (List.cons.inj hrest).1
                cases hlength
      · exact ih hinfix
  | case4 c cs hend hescape hbreak => exact fun hinfix => absurd hinfix.length_le (by simp)
  | case5 cs hend hescape hbreak => exact fun hinfix => absurd hinfix.length_le (by simp)
  | case6 c cs hend hescape hbreak hquote ih =>
      rw [List.take_succ_cons, List.infix_cons_iff]
      rintro (hbegin | hinfix)
      · rw [← (List.cons_prefix_cons.mp hbegin).1] at hbreak
        exact hbreak rfl
      · exact ih hinfix

theorem Lexeme.not_infix_of_string (h : (Lexeme.front c cs).kind = .string) :
    ¬['\r', '\n'] <:+: c :: cs.take (Lexeme.front c cs).more := by
  obtain ⟨quote, ds, htext, hquote⟩ : ScriptKind.string.Admits (c :: cs.take (Lexeme.front c cs).more) :=
    h ▸ Lexeme.front_admits c cs
  obtain rfl : c = quote := (List.cons.inj htext).1
  have hfront : Lexeme.front c cs = ⟨.string, stringRest c cs⟩ := by
    rcases hquote with rfl | rfl <;> rfl
  rw [hfront, List.infix_cons_iff]
  rintro (hbegin | hinfix)
  · obtain rfl := (List.cons_prefix_cons.mp hbegin).1
    rcases hquote with hquote | hquote <;> cases hquote
  · exact not_infix_stringRest c cs hinfix

end Crlf

end Script

end Relex
