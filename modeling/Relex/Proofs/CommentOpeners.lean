import Relex.Proofs.Coverage
import Relex.Proofs.LexemeText
import Relex.Proofs.OperatorRuns

/-! # Comments behind operator signs

A comment opens only where a lexeme begins. Its first sign is a sign of operators too, and an
operator runs over all signs that follow each other, so a comment behind other signs is not read as
one: the operator takes its opener with it (`RunsOverComment`). Apart from that a comment opener is
passed over only inside a string, a template or another comment (`OpenerRead`), in scripts as in
expressions (`MarkupGrammar.comments_open_unless_operators_run_over`).
-/

namespace Relex

open Text Unicode

namespace Script

/-- The kind of the comment that a text begins with. -/
def commentKind? (text : List Char) : Option ScriptKind :=
  if begins ['/', '/'] text then some .lineComment
  else if begins ['/', '*'] text then some .blockComment
  else none

/-- The text begins with an equals sign that assigns. -/
def Assigns (text : List Char) : Prop :=
  ∃ more, text = '=' :: more ∧ more.head? ≠ some '=' ∧ more.head? ≠ some '>'

/-- The text begins with signs of operators and a comment behind them, but neither with a comment
    nor with an equals sign that assigns. -/
def RunsOverComment (text : List Char) : Prop :=
  commentKind? text = none ∧ ¬Assigns text ∧
    ∃ signs behind, text = signs ++ behind ∧ signs ≠ [] ∧ (∀ c ∈ signs, isOperatorSign c = true) ∧
      (commentKind? behind).isSome

/-- A comment of some kind opens at an offset of the region that ends at `stop`, if it is read from
    there. -/
def CommentAt (source : List Char) (stop : Nat) (kind : ScriptKind) (offset : Nat) : Prop :=
  ∃ text, Spans source text offset stop ∧ commentKind? text = some kind

/-- What a lexeme is, by its kind, that begins in front of some text and holds the opener of a
    comment of some kind. -/
inductive OpenerRead (text : List Char) (comment : ScriptKind) (offset opener : Nat) :
    ScriptKind → Prop
  | opens (hhere : offset = opener) : OpenerRead text comment offset opener comment
  | within {kind : ScriptKind} (hbefore : offset < opener)
      (hkind : kind ∈ [.string, .templateString, .lineComment, .blockComment]) :
      OpenerRead text comment offset opener kind
  | swallowed (hbefore : offset < opener) (hruns : RunsOverComment text) :
      OpenerRead text comment offset opener .operator

variable {c : Char} {cs text behind : List Char} {kind : ScriptKind}

/-! ## Openers and lexemes -/

theorem exists_of_commentKind? (h : commentKind? text = some kind) :
    ∃ sign rest, text = '/' :: sign :: rest ∧
      (sign = '/' ∧ kind = .lineComment ∨ sign = '*' ∧ kind = .blockComment) := by
  rw [commentKind?] at h
  split at h
  · rename_i hline
    obtain ⟨rest, rfl⟩ := begins_iff.mp hline
    exact ⟨'/', rest, rfl, .inl ⟨rfl, (Option.some.inj h).symm⟩⟩
  split at h
  · rename_i hblock
    obtain ⟨rest, rfl⟩ := begins_iff.mp hblock
    exact ⟨'*', rest, rfl, .inr ⟨rfl, (Option.some.inj h).symm⟩⟩
  · cases h

theorem Lexeme.front_of_comment (h : commentKind? (c :: cs) = some kind) :
    (Lexeme.front c cs).kind = kind := by
  have hspace : isWhiteSpace '/' = false := by decide
  obtain ⟨sign, rest, htext, hsign⟩ := exists_of_commentKind? h
  obtain ⟨rfl, rfl⟩ := List.cons.inj htext
  rcases hsign with ⟨rfl, rfl⟩ | ⟨rfl, rfl⟩
  · simp [Lexeme.front, hspace, begins]
  · simp [Lexeme.front, hspace, begins]

/-- Where neither a comment begins nor an equals sign assigns, signs of operators are one
    operator. -/
theorem Lexeme.front_of_sign (hsign : isOperatorSign c = true)
    (hcomment : commentKind? (c :: cs) = none) (hassigns : ¬Assigns (c :: cs)) :
    Lexeme.front c cs = ⟨.operator, runLength isOperatorSign cs⟩ := by
  refine front_of_isOperatorSign hsign ?_ ?_
  · rintro rfl
    constructor
    all_goals
      intro hhead
      obtain ⟨rest, rfl⟩ := List.head?_eq_some_iff.mp hhead
      simp [commentKind?, begins] at hcomment
  · rintro rfl
    by_contra hneither
    exact hassigns ⟨cs, rfl, not_or.mp hneither⟩

theorem Lexeme.more_of_number (hkind : (Lexeme.front c cs).kind = .number) :
    (Lexeme.front c cs).more = numberRest c cs := by
  have hadmits := Lexeme.front_admits c cs
  rw [hkind] at hadmits
  obtain ⟨d, ds, htext, hstart⟩ := hadmits
  obtain ⟨rfl, rfl⟩ := List.cons.inj htext
  rcases hstart with hdigit | ⟨rfl, hdigit⟩
  · rw [front_of_isDigit hdigit]
  · have hnext : headIs Char.isDigit cs = true := by
      obtain ⟨d, ds, htake, hd⟩ := exists_of_headIs hdigit
      rw [← List.take_append_drop (Lexeme.front '.' cs).more cs, htake]
      exact hd
    have hdot : isWhiteSpace '.' = false := by decide
    simp [Lexeme.front, hdot, hnext]

/-- The lexemes that hold a slash behind their first sign. -/
theorem Lexeme.kind_of_slash (h : '/' ∈ cs.take (Lexeme.front c cs).more) :
    (Lexeme.front c cs).kind ∈ [.string, .templateString, .lineComment, .blockComment] ∨
      (Lexeme.front c cs).kind = .operator := by
  have hadmits := Lexeme.front_admits c cs
  have hmem : '/' ∈ c :: cs.take (Lexeme.front c cs).more := List.mem_cons_of_mem c h
  -- A lexeme of one sign has nothing behind it.
  have hone : ∀ d, c :: cs.take (Lexeme.front c cs).more ≠ [d] := by
    intro d hsame
    rw [(List.cons.inj hsame).2] at h
    cases h
  generalize hkind : (Lexeme.front c cs).kind = kind at hadmits
  cases kind with
  | string | templateString | lineComment | blockComment => exact .inl (by simp)
  | operator => exact .inr rfl
  | whiteSpace =>
      have hslash := hadmits '/' hmem
      revert hslash
      decide
  | identifier =>
      obtain ⟨⟨d, ds, htext, -, hnames⟩, -⟩ := hadmits
      have hslash := hnames '/' ((List.cons.inj htext).2 ▸ h)
      revert hslash
      decide
  | keyword =>
      have hplain : ∀ word ∈ keywords, '/' ∉ word.toList := by decide
      have hnot := hplain _ hadmits
      rw [String.toList_ofList] at hnot
      exact absurd hmem hnot
  | number =>
      have hclear : Clear ['/'] (numberRest c cs) cs := clear_numberRest (by decide) c
      rw [Lexeme.more_of_number hkind] at h
      exact absurd List.mem_cons_self (hclear '/' h)
  | badCharacter =>
      obtain ⟨d, htext, -⟩ := hadmits
      exact absurd htext (hone d)
  | lParen | rParen | lBracket | rBracket | lBrace | rBrace | semicolon | comma | dot | eq =>
      exact absurd hadmits (hone _)

/-- An operator that holds a slash behind its first sign is made of signs. -/
theorem Lexeme.signs_of_slash (h : '/' ∈ cs.take (Lexeme.front c cs).more)
    (hkind : (Lexeme.front c cs).kind = .operator) :
    ∀ d ∈ c :: cs.take (Lexeme.front c cs).more, isOperatorSign d = true := by
  have hadmits := Lexeme.front_admits c cs
  rw [hkind] at hadmits
  refine hadmits.resolve_left ?_
  intro hdots
  rw [(List.cons.inj hdots).2] at h
  revert h
  decide

/-! ## Openers in lexemes -/

/-- A front part of a text that is not longer than a lexeme is a front part of the lexeme. -/
theorem exists_part_of_front {front : List Char} (more : Nat) (htext : c :: cs = front ++ behind)
    (hle : byteLength front ≤ byteLength (c :: cs.take more)) :
    ∃ part, c :: cs.take more = front ++ part ∧ behind = part ++ cs.drop more := by
  have hsplit : front ++ behind = (c :: cs.take more) ++ cs.drop more := by
    rw [← htext, List.cons_append, List.take_append_drop]
  exact front_of_le hsplit hle

/-- An operator that reaches over the slash of a comment runs over it. -/
theorem Lexeme.runsOverComment {front part : List Char} (htext : c :: cs = front ++ behind)
    (hpart : c :: cs.take (Lexeme.front c cs).more = front ++ part) (hne : front ≠ [])
    (hkind : commentKind? behind = some kind) (hslash : '/' ∈ cs.take (Lexeme.front c cs).more)
    (hoperator : (Lexeme.front c cs).kind = .operator) : RunsOverComment (c :: cs) := by
  refine ⟨?_, ?_, front, behind, htext, hne, ?_, ?_⟩
  · cases hfront : commentKind? (c :: cs) with
    | none => rfl
    | some comment =>
        have hsame := Lexeme.front_of_comment hfront
        obtain ⟨-, -, -, ⟨-, rfl⟩ | ⟨-, rfl⟩⟩ := exists_of_commentKind? hfront
        · cases hoperator.symm.trans hsame
        · cases hoperator.symm.trans hsame
  · rintro ⟨more, hequals, hassigns⟩
    obtain ⟨rfl, rfl⟩ := List.cons.inj hequals
    rw [front_assignment hassigns.1 hassigns.2] at hoperator
    cases hoperator
  · intro d hd
    apply Lexeme.signs_of_slash hslash hoperator
    rw [hpart]
    exact List.mem_append_left _ hd
  · rw [hkind]
    rfl

/-- How a lexeme reads a comment that opens in it. -/
theorem Lexeme.openerRead {source : List Char} {offset opener stop : Nat}
    (hspans : Spans source (c :: cs) offset stop) (hcomment : CommentAt source stop kind opener)
    (hle : offset ≤ opener)
    (hlt : opener < offset + byteLength (c :: cs.take (Lexeme.front c cs).more)) :
    OpenerRead (c :: cs) kind offset opener (Lexeme.front c cs).kind := by
  obtain ⟨behind, hbehind, hkind⟩ := hcomment
  obtain ⟨front, htext, rfl⟩ := hspans.exists_front hbehind hle
  cases front with
  | nil =>
      rw [List.nil_append] at htext
      rw [Lexeme.front_of_comment (htext ▸ hkind)]
      exact .opens rfl
  | cons first before =>
      have hbefore : offset < offset + byteLength (first :: before) := by
        have hpos := byteLength_pos first before
        omega
      obtain ⟨part, hpart, hlater⟩ := exists_part_of_front (Lexeme.front c cs).more htext (by omega)
      have hslash : '/' ∈ cs.take (Lexeme.front c cs).more := by
        obtain ⟨sign, rest, rfl, -⟩ := exists_of_commentKind? hkind
        cases part with
        | nil =>
            rw [hpart, List.append_nil] at hlt
            exact absurd hlt (Nat.lt_irrefl _)
        | cons d part =>
            obtain ⟨rfl, -⟩ := List.cons.inj hlater
            rw [(List.cons.inj hpart).2]
            simp
      rcases Lexeme.kind_of_slash hslash with hwithin | hoperator
      · exact .within hbefore hwithin
      · rw [hoperator]
        exact .swallowed hbefore
          (Lexeme.runsOverComment htext hpart (List.cons_ne_nil _ _) hkind hslash hoperator)

/-- An operator holds the opener of a comment exactly if it begins with signs that run over one. -/
theorem Lexeme.operator_runs_over_iff {source : List Char} {offset stop : Nat}
    (hspans : Spans source (c :: cs) offset stop) :
    ((Lexeme.front c cs).kind = .operator ∧ ∃ kind opener, CommentAt source stop kind opener ∧
      offset < opener ∧ opener + 2 ≤ offset + byteLength (c :: cs.take (Lexeme.front c cs).more)) ↔
      RunsOverComment (c :: cs) := by
  constructor
  · rintro ⟨hoperator, kind, opener, hcomment, hlt, hle⟩
    have hread := Lexeme.openerRead hspans hcomment (Nat.le_of_lt hlt) (by omega)
    rw [hoperator] at hread
    cases hread with
    | opens hhere => omega
    | within _ hkind => exact absurd hkind (by decide)
    | swallowed _ hruns => exact hruns
  · rintro ⟨hnone, hassigns, signs, behind, htext, hne, hsigns, hopener⟩
    obtain ⟨kind, hkind⟩ := Option.isSome_iff_exists.mp hopener
    obtain ⟨sign, rest, rfl, hsign⟩ := exists_of_commentKind? hkind
    obtain ⟨first, before, rfl⟩ := List.exists_cons_of_ne_nil hne
    obtain ⟨rfl, rfl⟩ := List.cons.inj htext
    rw [Lexeme.front_of_sign (hsigns c List.mem_cons_self) hnone hassigns, take_runLength]
    refine ⟨rfl, kind, offset + byteLength (c :: before), ⟨_, ?_, hkind⟩, ?_, ?_⟩
    · rw [htext] at hspans
      exact hspans.of_append_right
    · have hpos := byteLength_pos c before
      omega
    · have hopener : ∀ d ∈ ['/', sign], isOperatorSign d = true := by
        rcases hsign with ⟨rfl, -⟩ | ⟨rfl, -⟩ <;> simp [isOperatorSign, operatorSigns]
      have hsize : byteLength ['/', sign] = 2 := by
        rcases hsign with ⟨rfl, -⟩ | ⟨rfl, -⟩ <;> rfl
      have hsigns : ∀ d ∈ before ++ ['/', sign], isOperatorSign d = true := by
        intro d hd
        rcases List.mem_append.mp hd with hd | hd
        · exact hsigns d (List.mem_cons_of_mem c hd)
        · exact hopener d hd
      have hrun : (before ++ '/' :: sign :: rest).takeWhile isOperatorSign =
          before ++ ['/', sign] ++ rest.takeWhile isOperatorSign := by
        rw [List.append_cons, List.append_cons, List.append_assoc before]
        exact List.takeWhile_append_of_pos hsigns
      change _ ≤ offset + byteLength (c :: (before ++ '/' :: sign :: rest).takeWhile isOperatorSign)
      rw [hrun]
      simp only [byteLength_cons, byteLength_append] at hsize ⊢
      omega

/-! ## Openers in a text -/

section Search

variable {source : List Char} {offset opener stop : Nat}

theorem CommentAt.lt_stop (h : CommentAt source stop kind opener) : opener < stop := by
  obtain ⟨behind, hbehind, hkind⟩ := h
  obtain ⟨sign, rest, rfl, -⟩ := exists_of_commentKind? hkind
  have hstop := hbehind.stop_eq
  have hpos := byteLength_pos '/' (sign :: rest)
  omega

/-- A lexeme of the text reads the comment that opens in it. -/
theorem exists_openerRead (hspans : Spans source text offset stop)
    (hcomment : CommentAt source stop kind opener) (hle : offset ≤ opener) :
    ∃ token ∈ (readings offset text).map Reading.token, ∃ part lexeme,
      token.kind = .script lexeme ∧ token.start ≤ opener ∧ opener < token.stop ∧
        Spans source part token.start stop ∧ OpenerRead part kind token.start opener lexeme := by
  fun_induction readings offset text with
  | case1 offset =>
      have hstop := hspans.stop_eq
      have hlt := hcomment.lt_stop
      simp only [byteLength_nil] at hstop
      omega
  | case2 offset c cs lexeme behind ih =>
      by_cases hlt : opener < behind
      · exact ⟨_, List.mem_cons_self, c :: cs, _, rfl, hle, hlt, hspans,
          Lexeme.openerRead hspans hcomment hle hlt⟩
      · obtain ⟨token, htoken, hread⟩ := ih (spans_rest _ hspans) (Nat.not_lt.mp hlt)
        exact ⟨token, List.mem_cons_of_mem _ htoken, hread⟩

/-- An operator of the script grammar holds the opener of a comment exactly where signs run over
    one. -/
theorem lexemeAt_runs_over_iff {source : String} (hspans : Spans source.toList text offset stop) :
    (∃ behind, lexemeAt source offset stop = .ok (.operator, behind) ∧
      ∃ kind opener, CommentAt source.toList stop kind opener ∧ offset < opener ∧
        opener + 2 ≤ behind) ↔ RunsOverComment text := by
  cases text with
  | nil =>
      have hnone : lexemeAt source offset stop = .ok (.badCharacter, offset) := by
        rw [lexemeAt, region_eq_ok_iff.mpr hspans]
        rfl
      constructor
      · rintro ⟨behind, hlexeme, -⟩
        rw [hnone] at hlexeme
        cases hlexeme
      · rintro ⟨-, -, signs, behind, htext, hne, -⟩
        exact absurd (List.append_eq_nil_iff.mp htext.symm).1 hne
  | cons c cs =>
      rw [← Lexeme.operator_runs_over_iff hspans, lexemeAt_eq hspans]
      constructor
      · rintro ⟨behind, hlexeme, hcomment⟩
        obtain ⟨hkind, rfl⟩ := Prod.mk.inj (Except.ok.inj hlexeme)
        exact ⟨hkind, hcomment⟩
      · rintro ⟨hkind, hcomment⟩
        exact ⟨_, by rw [hkind], hcomment⟩

end Search

end Script

namespace Markup

open Script

section Expression

variable {form : Form} {c : Char} {cs source : List Char} {kind : ScriptKind}
  {offset opener stop : Nat}

/-- A comment that opens within one sign is that sign. -/
theorem eq_slash_of_lt (hspans : Spans source (c :: cs) offset stop)
    (hcomment : CommentAt source stop kind opener) (hle : offset ≤ opener)
    (hlt : opener < offset + c.utf8Size) : c = '/' := by
  obtain ⟨behind, hbehind, hkind⟩ := hcomment
  obtain ⟨sign, rest, rfl, -⟩ := exists_of_commentKind? hkind
  obtain ⟨front, htext, rfl⟩ := hspans.exists_front hbehind hle
  cases front with
  | nil => exact (List.cons.inj htext).1
  | cons first before =>
      obtain ⟨rfl, -⟩ := List.cons.inj htext
      rw [byteLength_cons] at hlt
      omega

/-- No comment opens in the sign of an end tag. -/
theorem le_of_opensEndTag (hspans : Spans source (c :: cs) offset stop)
    (hcomment : CommentAt source stop kind opener) (hopens : opensEndTag (c :: cs) = true)
    (hle : offset ≤ opener) : offset + byteLength (c :: cs.take 1) ≤ opener := by
  simp only [opensEndTag, Bool.and_eq_true, begins_iff] at hopens
  obtain ⟨⟨name, hsigns⟩, hname⟩ := hopens
  obtain ⟨rfl, rfl⟩ := List.cons.inj hsigns
  obtain ⟨behind, hbehind, hkind⟩ := hcomment
  obtain ⟨sign, rest, rfl, hsign⟩ := exists_of_commentKind? hkind
  obtain ⟨front, htext, rfl⟩ := hspans.exists_front hbehind hle
  cases front with
  | nil => exact absurd (List.cons.inj htext).1 (by decide)
  | cons first before =>
      obtain ⟨rfl, hlater⟩ := List.cons.inj htext
      cases before with
      | nil =>
          obtain ⟨-, rfl⟩ := List.cons.inj hlater
          have hfirst : sign.isAlpha = true ∨ sign = '>' := by
            simpa [opensName, headIs] using hname
          rcases hsign with ⟨rfl, -⟩ | ⟨rfl, -⟩
          · exact absurd hfirst (by decide)
          · exact absurd hfirst (by decide)
      | cons second before =>
          obtain ⟨rfl, -⟩ := List.cons.inj hlater
          change offset + byteLength ['<', '/'] ≤ offset + byteLength (['<', '/'] ++ before)
          rw [byteLength_append]
          omega

/-- How a token of an expression reads a comment that opens in it. -/
theorem Rule.expression_openerRead (nesting : Nesting) (hspans : Spans source (c :: cs) offset stop)
    (hcomment : CommentAt source stop kind opener) (hle : offset ≤ opener) :
    opener < offset + byteLength (c :: cs.take (Rule.expression nesting c cs).more) →
    ∃ lexeme, (Rule.expression nesting c cs).kind = .script lexeme ∧
      OpenerRead (c :: cs) kind offset opener lexeme ∧
      (offset = opener → (Rule.expression nesting c cs).next = .expression ∧
        (Rule.expression nesting c cs).change = .keep) := by
  have hone : c ≠ '/' → ¬opener < offset + byteLength (c :: cs.take 0) := by
    intro hslash hlt
    exact hslash (eq_slash_of_lt hspans hcomment hle hlt)
  rw [expression]
  split
  · rename_i hopen
    exact fun hlt => absurd hlt (hone (hopen ▸ by decide))
  split
  · rename_i hclose
    have hslash : c ≠ '/' := hclose ▸ by decide
    split
    · exact fun hlt => absurd hlt (hone hslash)
    · split
      · exact fun hlt => absurd hlt (hone hslash)
      · exact fun hlt => absurd hlt (hone hslash)
  split
  · rename_i hopens
    exact fun hlt => absurd hlt (Nat.not_lt.mpr (le_of_opensEndTag hspans hcomment hopens hle))
  split
  · rename_i hopens
    have hslash : c ≠ '/' := by
      rintro rfl
      simp [opensStartTag, begins] at hopens
    exact fun hlt => absurd hlt (hone hslash)
  · exact fun hlt => ⟨_, rfl, Lexeme.openerRead hspans hcomment hle hlt, fun _ => ⟨rfl, rfl⟩⟩

/-- What a cursor in an expression reads where a comment opens. -/
theorem Cursor.openerRead {cursor : Cursor} (hwithin : cursor.Within source stop)
    (hstate : cursor.context.state = .expression) (hcomment : CommentAt source stop kind opener)
    (hle : cursor.offset ≤ opener) (hlt : opener < (cursor.tape form).stop) :
    ∃ lexeme, (cursor.tape form).kind? = some (.script lexeme) ∧
      OpenerRead cursor.rest kind cursor.offset opener lexeme ∧
      (cursor.offset = opener → (cursor.next form).context = cursor.context) := by
  obtain ⟨offset, ⟨state, nesting⟩, text⟩ := cursor
  obtain rfl : state = .expression := hstate
  cases text with
  | nil =>
      rw [Cursor.tape_nil] at hlt
      exact absurd hlt (Nat.not_lt.mpr hle)
  | cons c cs =>
      rw [Cursor.tape_cons] at hlt ⊢
      obtain ⟨lexeme, hkind, hread, hstays⟩ :=
        Rule.expression_openerRead nesting hwithin hcomment hle hlt
      refine ⟨lexeme, congrArg some hkind, hread, ?_⟩
      intro hhere
      obtain ⟨hnext, hchange⟩ := hstays hhere
      change Context.after form ⟨.expression, nesting⟩ (Rule.expression nesting c cs) = _
      rw [Context.after, hnext, hchange]
      rfl

end Expression

end Markup

namespace ScriptGrammar

open Script

/-- Every comment opener of a region is read by a lexeme of the script. -/
theorem exists_openerRead_of_start {source : String} {start stop : Nat}
    (hstart : Boundary source.toList start) (hstop : Boundary source.toList stop)
    (hle : start ≤ stop) (lexer : Lexer ScriptGrammar Nat Unit) (state : UInt32) :
    ∃ started, lexer.start source start stop state = .ok started ∧
      ∀ kind opener, CommentAt source.toList stop kind opener → start ≤ opener →
        ∃ token ∈ started.tape.tokens, ∃ part lexeme, token.kind = .script lexeme ∧
          token.start ≤ opener ∧ opener < token.stop ∧
          Spans source.toList part token.start stop ∧
          OpenerRead part kind token.start opener lexeme := by
  obtain ⟨text, hspans⟩ := spans_between hstart hstop hle
  obtain ⟨tape, htape, hreadings⟩ := exists_tape_of_spans hspans
  have hread : Reader.start lexer.reader source start stop state = .ok tape := htape
  obtain ⟨started, hstarted, rfl, -⟩ := Lexer.start_of_read hread
  refine ⟨started, hstarted, ?_⟩
  intro kind opener hcomment hopener
  rw [Tape.tokens, hreadings]
  exact exists_openerRead hspans hcomment hopener

end ScriptGrammar

namespace MarkupGrammar

open Markup Script

/-- How an expression reads the openers of comments, wherever a lexer of the markup is started. -/
theorem openerRead_of_start {source : String} {start stop : Nat}
    (hstart : Boundary source.toList start) (hstop : Boundary source.toList stop)
    (hle : start ≤ stop) (lexer : Lexer MarkupGrammar Snapshot Nesting) (state : UInt32) :
    ∃ started, lexer.start source start stop state = .ok started ∧
      ∀ n kind opener, let here := (Session.advanceTimes n started).tape
        let behind := (Session.advanceTimes (n + 1) started).tape
        here.place.state = State.expression.code → CommentAt source.toList stop kind opener →
        here.place.offset ≤ opener → opener < here.stop →
        ∃ part lexeme, Spans source.toList part here.place.offset stop ∧
          here.kind? = some (.script lexeme) ∧
          OpenerRead part kind here.place.offset opener lexeme ∧
          (here.place.offset = opener →
            behind.place.state = here.place.state ∧ behind.place.live = here.place.live) := by
  obtain ⟨text, hspans⟩ := spans_between hstart hstop hle
  let form := lexer.reader.form
  let first : Cursor := ⟨start, contextOf form state, text⟩
  have hfirst : first.Within source.toList stop := hspans
  obtain ⟨started, hstarted, htape⟩ := exists_start lexer state hspans
  refine ⟨started, hstarted, ?_⟩
  intro n kind opener
  rw [htape, htape, Function.iterate_succ_apply']
  have hwithin : ((Cursor.next form)^[n] first).Within source.toList stop := hfirst.iterate n
  generalize (Cursor.next form)^[n] first = cursor at hwithin ⊢
  simp only [Cursor.place_tape, Markup.placeAt]
  intro hcode hcomment hbefore hlt
  have hstate : cursor.context.state = .expression := State.code_injective hcode
  obtain ⟨lexeme, hkind, hopener, hstays⟩ := Cursor.openerRead hwithin hstate hcomment hbefore hlt
  refine ⟨cursor.rest, lexeme, hwithin, hkind, hopener, ?_⟩
  intro hhere
  rw [hstays hhere]
  exact ⟨rfl, rfl⟩

/-- An operator holds the opener of a comment exactly where signs of operators run over it. Otherwise
    a comment opener in a script or an expression begins a comment, unless a string, a template or a
    comment reaches over it. The comment leaves the braces and the elements that are open as they
    are. -/
theorem comments_open_unless_operators_run_over (source : String) (start stop : Nat)
    (hstart : Boundary source.toList start) (hstop : Boundary source.toList stop)
    (hle : start ≤ stop) :
    (∀ offset text, Spans source.toList text offset stop →
      ((∃ behind, lexemeAt source offset stop = .ok (.operator, behind) ∧
        ∃ kind opener, CommentAt source.toList stop kind opener ∧ offset < opener ∧
          opener + 2 ≤ behind) ↔ RunsOverComment text)) ∧
    (∀ (lexer : Lexer ScriptGrammar Nat Unit) (state : UInt32),
      ∃ started, lexer.start source start stop state = .ok started ∧
        ∀ kind opener, CommentAt source.toList stop kind opener → start ≤ opener →
          ∃ token ∈ started.tape.tokens, ∃ part lexeme, token.kind = .script lexeme ∧
            token.start ≤ opener ∧ opener < token.stop ∧
            Spans source.toList part token.start stop ∧
            OpenerRead part kind token.start opener lexeme) ∧
    (∀ (lexer : Lexer MarkupGrammar Snapshot Nesting) (state : UInt32),
      ∃ started, lexer.start source start stop state = .ok started ∧
        ∀ n kind opener, let here := (Session.advanceTimes n started).tape
          let behind := (Session.advanceTimes (n + 1) started).tape
          here.place.state = State.expression.code → CommentAt source.toList stop kind opener →
          here.place.offset ≤ opener → opener < here.stop →
          ∃ part lexeme, Spans source.toList part here.place.offset stop ∧
            here.kind? = some (.script lexeme) ∧
            OpenerRead part kind here.place.offset opener lexeme ∧
            (here.place.offset = opener →
              behind.place.state = here.place.state ∧ behind.place.live = here.place.live)) :=
  ⟨fun _ _ => lexemeAt_runs_over_iff, ScriptGrammar.exists_openerRead_of_start hstart hstop hle,
    openerRead_of_start hstart hstop hle⟩

/-- Behind a blank the comment is read, and the brace in it closes nothing. -/
theorem comments_open_unless_operators_run_over_behind_blank :
    Boundary "\x7ba+ /*\x7d*/\x7d".toList 0 ∧ Boundary "\x7ba+ /*\x7d*/\x7d".toList 10 ∧
    CommentAt "\x7ba+ /*\x7d*/\x7d".toList 10 .blockComment 4 ∧
    ∃ started, (Lexer.idle ⟨.document⟩ : Lexer MarkupGrammar Snapshot Nesting).start
        "\x7ba+ /*\x7d*/\x7d" 0 10 0 = .ok started ∧
      (Session.advanceTimes 4 started).tape.place.state = State.expression.code ∧
      (Session.advanceTimes 4 started).tape.kind? = some (.script .blockComment) ∧
      (Session.advanceTimes 5 started).tape.place.live =
        (Session.advanceTimes 4 started).tape.place.live := by
  let source := "\x7ba+ /*\x7d*/\x7d"
  let lexer : Lexer MarkupGrammar Snapshot Nesting := Lexer.idle ⟨.document⟩
  have hstart : Boundary source.toList 0 := by decide
  have hstop : Boundary source.toList 10 := by decide
  have hcomment : CommentAt "\x7ba+ /*\x7d*/\x7d".toList 10 .blockComment 4 :=
    ⟨['/', '*', '\x7d', '*', '/', '\x7d'], ⟨['\x7b', 'a', '+', ' '], [], rfl, rfl, rfl⟩, rfl⟩
  refine ⟨hstart, hstop, hcomment, ?_⟩
  obtain ⟨started, hstarted, hrun⟩ :=
    (comments_open_unless_operators_run_over source 0 10 hstart hstop (by decide)).2.2 lexer 0
  have hplace : (lexer.start source 0 10 0).toOption.map (fun started =>
      ((Session.advanceTimes 4 started).tape.place.state,
        (Session.advanceTimes 4 started).tape.place.offset,
        (Session.advanceTimes 4 started).tape.stop)) = some (State.expression.code, 4, 9) := by
    decide +kernel
  rw [hstarted] at hplace
  simp only [Except.toOption, Option.map_some, Option.some.injEq, Prod.mk.injEq] at hplace
  obtain ⟨hstate, hoffset, hbehind⟩ := hplace
  obtain ⟨part, lexeme, -, hkind, hopener, hstays⟩ :=
    hrun 4 .blockComment 4 hstate hcomment (by omega) (by omega)
  refine ⟨started, hstarted, hstate, ?_, (hstays hoffset).2⟩
  rw [hoffset] at hopener
  cases hopener with
  | opens => exact hkind
  | within hbefore => exact absurd hbefore (Nat.lt_irrefl 4)
  | swallowed hbefore => exact absurd hbefore (Nat.lt_irrefl 4)

/-- The operator takes the opener with it, and the brace in the comment closes the expression. -/
theorem operator_swallows_comment :
    CommentAt "\x7b+/*\x7d*/\x7d".toList 8 .blockComment 2 ∧
    lexemeAt "\x7b+/*\x7d*/\x7d" 1 8 = .ok (.operator, 4) ∧
    ((Lexer.idle ⟨.document⟩ : Lexer MarkupGrammar Snapshot Nesting).start
      "\x7b+/*\x7d*/\x7d" 0 8 0).toOption.map (fun started => started.tape.tokens) =
      some [⟨.expressionStart, 0, 1⟩, ⟨.script .operator, 1, 4⟩, ⟨.expressionEnd, 4, 5⟩,
        ⟨.dataCharacters, 5, 6⟩, ⟨.dataCharacters, 6, 7⟩, ⟨.dataCharacters, 7, 8⟩] := by
  refine ⟨?_, by decide +kernel, by decide +kernel⟩
  exact ⟨['/', '*', '\x7d', '*', '/', '\x7d'], ⟨['\x7b', '+'], [], rfl, rfl, rfl⟩, rfl⟩

end MarkupGrammar

end Relex
