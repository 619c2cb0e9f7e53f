import Relex.Proofs.Lookahead
import Relex.Script.Lexeme

/-! # The text of a lexeme

Each kind of script lexeme has texts of its own, `ScriptKind.Admits`: a name is made of the characters
of names and is reserved or not, a comment ends where it is first closed, an operator is made of
signs. The text of the lexeme at the front of a text is one of its kind (`Lexeme.front_admits`). What
may follow in the text is looked at, but it is not part of the lexeme.
-/

namespace Relex

open Text Unicode Script

namespace ScriptKind

/-- The texts of the lexemes of a kind. -/
def Admits : ScriptKind → List Char → Prop
  | .whiteSpace, text => ∀ c ∈ text, isWhiteSpace c = true
  | .lineComment, text => ['/', '/'] <+: text ∧ ∀ c ∈ text, isLineBreak c = false
  | .blockComment, text => ['/', '*'] <+: text ∧
    ∀ before behind, text.drop 2 = before ++ ['*', '/'] ++ behind → behind = []
  | .identifier, text => (∃ c cs, text = c :: cs ∧ startsName c = true ∧
    ∀ d ∈ cs, continuesName d = true) ∧ String.ofList text ∉ keywords
  | .keyword, text => String.ofList text ∈ keywords
  | .number, text => ∃ c cs, text = c :: cs ∧
    (c.isDigit = true ∨ c = '.' ∧ headIs Char.isDigit cs = true)
  | .string, text => ∃ quote cs, text = quote :: cs ∧ (quote = '\x22' ∨ quote = '\x27')
  | .templateString, text => ∃ cs, text = '\x60' :: cs
  | .lParen, text => text = ['(']
  | .rParen, text => text = [')']
  | .lBracket, text => text = ['[']
  | .rBracket, text => text = [']']
  | .lBrace, text => text = ['{']
  | .rBrace, text => text = ['}']
  | .semicolon, text => text = [';']
  | .comma, text => text = [',']
  | .dot, text => text = ['.']
  | .eq, text => text = ['=']
  | .operator, text => text = ['.', '.', '.'] ∨ ∀ c ∈ text, isOperatorSign c = true
  | .badCharacter, text => ∃ c, text = [c] ∧ isWhiteSpace c = false ∧ startsName c = false ∧
    c.isDigit = false ∧ isOperatorSign c = false ∧ delimiter? c = none

end ScriptKind

namespace Text

variable {p : Char → Bool} {c : Char} {cs pattern : List Char} {n : Nat}

theorem take_of_begins (h : begins pattern cs = true) : cs.take pattern.length = pattern :=
  (List.prefix_iff_eq_take.mp (begins_iff.mp h)).symm

/-- What stands somewhere in a text begins there. -/
theorem begins_of_append_isPrefix {before : List Char} (h : before ++ pattern <+: cs) :
    begins pattern (cs.drop before.length) = true := by
  obtain ⟨rest, rfl⟩ := h
  apply begins_iff.mpr
  simp

theorem exists_of_headIs (h : headIs p cs = true) : ∃ d ds, cs = d :: ds ∧ p d = true := by
  cases cs with
  | nil => cases h
  | cons d ds => exact ⟨d, ds, rfl, h⟩

theorem exists_of_begins_singleton {d : Char} (h : begins [d] cs = true) : ∃ ds, cs = d :: ds := by
  obtain ⟨ds, rfl⟩ := begins_iff.mp h
  exact ⟨ds, rfl⟩

theorem runLength_cons (h : p c = true) : runLength p (c :: cs) = runLength p cs + 1 := by
  simp [runLength, h]

end Text

namespace Script

variable {c : Char} {cs : List Char}

/-- A block comment ends where it is closed first. -/
theorem eq_nil_of_blockComment {before behind : List Char}
    (h : cs.take (blockCommentRest cs) = before ++ ['*', '/'] ++ behind) : behind = [] := by
  have hfound : begins ['*', '/'] (cs.drop before.length) = true :=
    begins_of_append_isPrefix ((List.prefix_append _ behind).trans (h ▸ List.take_prefix _ _))
  rw [blockCommentRest] at h
  cases hseek : seek? (begins ['*', '/']) cs with
  | none => exact absurd (begins_iff.mp hfound) (not_prefix_of_seek? (by simp) hseek _)
  | some n =>
      have hle : n ≤ before.length := by
        by_contra hlt
        have hnot := seek?_first hseek before.length (by omega)
        rw [hfound] at hnot
        cases hnot
      have hlength := congrArg List.length h
      simp only [hseek, List.length_take, List.length_append, List.length_cons,
        List.length_nil] at hlength
      exact List.eq_nil_of_length_eq_zero (by omega)

theorem delimiter_admits {kind : ScriptKind} (h : delimiter? c = some kind) : kind.Admits [c] := by
  unfold delimiter? at h
  split at h
  all_goals cases h
  all_goals rfl

/-- A numeral goes on with the digit that makes it one. -/
theorem headIs_take_numberRest (h : headIs Char.isDigit cs = true) :
    headIs Char.isDigit (cs.take (numberRest '.' cs)) = true := by
  obtain ⟨d, ds, rfl, hd⟩ := exists_of_headIs h
  have hfirst : ('.' : Char) ≠ '0' := by decide
  have hbody : runLength (fun c => c.isDigit || c == '_' || c == '.') (d :: ds) =
      runLength (fun c => c.isDigit || c == '_' || c == '.') ds + 1 := runLength_cons (by simp [hd])
  simp only [numberRest, hfirst, decide_false, Bool.false_and, Bool.false_eq_true, if_false, hbody,
    Nat.add_right_comm _ 1, List.take_succ_cons]
  exact hd

theorem lineComment_admits (cs : List Char) :
    ScriptKind.lineComment.Admits ('/' :: '/' :: cs.take (runLength (fun d => !isLineBreak d) cs)) := by
  constructor
  · exact ⟨_, rfl⟩
  · have hslash : isLineBreak '/' = false := by decide
    refine List.forall_mem_cons.mpr ⟨hslash, List.forall_mem_cons.mpr ⟨hslash, ?_⟩⟩
    intro c hc
    simpa using mem_take_runLength hc

theorem name_admits {name : List Char} (h : ∃ c cs, name = c :: cs ∧ startsName c = true ∧
    ∀ d ∈ cs, continuesName d = true) : (nameKind name).Admits name := by
  rw [nameKind]
  split
  · rename_i hkeyword
    exact List.contains_iff_mem.mp hkeyword
  · rename_i hkeyword
    exact ⟨h, fun hmem => hkeyword (List.contains_iff_mem.mpr hmem)⟩

/-- The lexeme at the front of a text has a text of its kind. -/
theorem Lexeme.front_admits (c : Char) (cs : List Char) :
    (Lexeme.front c cs).kind.Admits (c :: cs.take (Lexeme.front c cs).more) := by
  rw [Lexeme.front]
  split
  · rename_i hspace
    exact List.forall_mem_cons.mpr ⟨hspace, fun _ => mem_take_runLength⟩
  split
  · rename_i hcomment
    simp only [Bool.and_eq_true, decide_eq_true_eq] at hcomment
    obtain ⟨rfl, hslash⟩ := hcomment
    obtain ⟨ds, rfl⟩ := exists_of_begins_singleton hslash
    rw [runLength_cons (by decide), List.take_succ_cons]
    exact lineComment_admits ds
  split
  · rename_i hcomment
    simp only [Bool.and_eq_true, decide_eq_true_eq] at hcomment
    obtain ⟨rfl, hstar⟩ := hcomment
    obtain ⟨ds, rfl⟩ := exists_of_begins_singleton hstar
    simp only [Nat.add_comm 1, List.take_succ_cons, List.drop_succ_cons, List.drop_zero]
    exact ⟨⟨_, rfl⟩, fun before behind => eq_nil_of_blockComment⟩
  split
  · rename_i hquote
    simp only [Bool.or_eq_true, decide_eq_true_eq] at hquote
    exact ⟨c, _, rfl, hquote⟩
  split
  · rename_i hquote
    subst hquote
    exact ⟨_, rfl⟩
  split
  · rename_i hnumber
    simp only [Bool.or_eq_true, Bool.and_eq_true, decide_eq_true_eq] at hnumber
    refine ⟨c, _, rfl, hnumber.imp_right ?_⟩
    rintro ⟨rfl, hdigit⟩
    exact ⟨rfl, headIs_take_numberRest hdigit⟩
  split
  · rename_i hname
    exact name_admits ⟨c, _, rfl, hname, fun _ => mem_take_runLength⟩
  split
  · rename_i hdot
    subst hdot
    split
    · rename_i hdots
      left
      exact congrArg ('.' :: ·) (take_of_begins hdots)
    · rfl
  split
  · rename_i hequals
    simp only [Bool.and_eq_true, decide_eq_true_eq] at hequals
    obtain ⟨rfl, -⟩ := hequals
    rfl
  split
  · rename_i hsign
    exact .inr (List.forall_mem_cons.mpr ⟨hsign, fun _ => mem_take_runLength⟩)
  · rename_i hspace _ _ _ _ hnumber hname _ _ hsign
    cases hdelimiter : delimiter? c with
    | some kind => exact delimiter_admits hdelimiter
    | none =>
        simp only [Bool.or_eq_true, not_or, Bool.not_eq_true] at hspace hnumber hname hsign
        exact ⟨c, rfl, hspace, hname, hnumber.1, hsign, hdelimiter⟩

end Script

end Relex
