import Relex.Proofs.Fragment
import Relex.Proofs.Order
import Relex.Proofs.Printing
import Relex.Proofs.Reading

/-! # Tags behind operator signs

In an expression a tag opens only where a token begins. The angle bracket is a sign of operators too,
and an operator runs over all signs that follow each other, so behind any other sign it is part of
the operator and the tag is lost. The one exception is the equals sign that assigns, which is a token
by itself (`MarkupGrammar.tag_opens_behind_assignment_only`).
-/

namespace Relex

open Text Unicode Markup

namespace Covers

variable {text : List Char} {start stop offset : Nat} {tokens : List Token} {inner : Token}

theorem le_start (h : Covers text stop start tokens) : ∀ token ∈ tokens, start ≤ token.start := by
  induction h with
  | nil => exact List.forall_mem_nil _
  | cons hstart hlt _ _ _ ih =>
      refine List.forall_mem_cons.mpr ⟨Nat.le_of_eq hstart.symm, ?_⟩
      intro token htoken
      have := ih token htoken
      omega

/-- Where a token reaches over an offset, no other token begins there. -/
theorem start_ne (h : Covers text stop start tokens) (hinner : inner ∈ tokens)
    (hstart : inner.start < offset) (hstop : offset < inner.stop) :
    ∀ token ∈ tokens, token.start ≠ offset := by
  induction h with
  | nil => exact List.forall_mem_nil _
  | @cons start first later hfirst hlt _ _ hlater ih =>
      have hbehind := hlater.le_start
      rcases List.mem_cons.mp hinner with rfl | hinner
      · refine List.forall_mem_cons.mpr ⟨Nat.ne_of_lt hstart, ?_⟩
        intro token htoken
        have := hbehind token htoken
        omega
      · have := hbehind inner hinner
        exact List.forall_mem_cons.mpr ⟨by omega, ih hinner⟩

end Covers

namespace Script

/-- Signs of operators without an angle bracket, among which no comment begins. -/
structure Operators (text : List Char) : Prop where
  ne_nil : text ≠ []
  signs : ∀ c ∈ text, isOperatorSign c = true ∧ c ≠ '<'
  lineComment : ¬ ['/', '/'] <:+: text
  blockComment : ¬ ['/', '*'] <:+: text

theorem operators_iff (text : List Char) : Operators text ↔
    text ≠ [] ∧ (text.all fun c => isOperatorSign c && c != '<') = true ∧
      ¬ ['/', '/'] <:+: text ∧ ¬ ['/', '*'] <:+: text := by
  have hall : (text.all fun c => isOperatorSign c && c != '<') = true ↔
      ∀ c ∈ text, isOperatorSign c = true ∧ c ≠ '<' := by
    simp only [List.all_eq_true, Bool.and_eq_true, bne_iff_ne]
  rw [hall]
  exact ⟨fun h => ⟨h.ne_nil, h.signs, h.lineComment, h.blockComment⟩,
    fun ⟨hne, hsigns, hline, hblock⟩ => ⟨hne, hsigns, hline, hblock⟩⟩

instance (text : List Char) : Decidable (Operators text) :=
  decidable_of_iff _ (operators_iff text).symm

namespace Operators

variable {first : Char} {more : List Char}

theorem tail (h : Operators (first :: more)) (hne : more ≠ []) : Operators more where
  ne_nil := hne
  signs c hc := h.signs c (List.mem_cons_of_mem first hc)
  lineComment hinfix := h.lineComment (List.infix_cons hinfix)
  blockComment hinfix := h.blockComment (List.infix_cons hinfix)

theorem head?_ne (h : Operators (first :: more)) (hslash : first = '/') :
    more.head? ≠ some '/' ∧ more.head? ≠ some '*' := by
  subst hslash
  constructor
  all_goals
    intro hhead
    obtain ⟨behind, rfl⟩ := List.head?_eq_some_iff.mp hhead
  · exact h.lineComment ⟨[], behind, rfl⟩
  · exact h.blockComment ⟨[], behind, rfl⟩

end Operators

/-- Such signs that are one operator: no equals sign that assigns stands in front of them. -/
structure OneOperator (text : List Char) : Prop extends Operators text where
  whole : ∀ more, text = '=' :: more → more.head? = some '=' ∨ more.head? = some '>'

/-- Only an equals sign in front is a token by itself. -/
theorem Operators.eq_or_oneOperator {text : List Char} (h : Operators text) :
    text = ['='] ∨
      (∃ more, text = '=' :: more ∧ more.head? ≠ some '=' ∧ more.head? ≠ some '>' ∧
        OneOperator more) ∨ OneOperator text := by
  by_cases hassigns : ∃ more, text = '=' :: more ∧ more.head? ≠ some '=' ∧ more.head? ≠ some '>'
  · obtain ⟨more, rfl, hequals, harrow⟩ := hassigns
    by_cases hmore : more = []
    · exact .inl (by rw [hmore])
    · refine .inr (.inl ⟨more, rfl, hequals, harrow, h.tail hmore, ?_⟩)
      rintro behind rfl
      exact absurd rfl hequals
  · refine .inr (.inr ⟨h, ?_⟩)
    intro more hmore
    by_contra hneither
    rw [not_or] at hneither
    exact hassigns ⟨more, hmore, hneither⟩

/-- The operator takes an angle bracket behind it with it. -/
theorem OneOperator.front_append {first : Char} {more closing rest : List Char}
    (h : OneOperator (first :: more)) (hclosing : closing = [] ∨ closing = ['<'])
    (hrest : ∀ c ∈ rest.head?, isOperatorSign c = false) :
    Lexeme.front first (more ++ closing ++ rest) = ⟨.operator, (more ++ closing).length⟩ := by
  have hhead : ∀ c, c ≠ '<' → ((more ++ closing).head? = some c ↔ more.head? = some c) := by
    intro c hc
    cases more with
    | nil => rcases hclosing with rfl | rfl <;> simp [Ne.symm hc]
    | cons d ds => rfl
  apply front_of_operatorSigns
  · have hsigns : ∀ c ∈ (first :: more) ++ closing, isOperatorSign c = true := by
      intro c hc
      rcases List.mem_append.mp hc with hc | hc
      · exact (h.signs c hc).1
      · rcases hclosing with rfl | rfl
        · cases hc
        · rw [List.mem_singleton.mp hc]
          decide
    exact List.all_eq_true.mpr hsigns
  · intro hslash
    have hne := h.head?_ne hslash
    rwa [ne_eq, ne_eq, hhead '/' (by decide), hhead '*' (by decide)]
  · rintro rfl
    rw [hhead '=' (by decide), hhead '>' (by decide)]
    exact h.whole more rfl
  · exact hrest

/-- An equals sign assigns, unless it is followed by another one or by an angle bracket that closes. -/
theorem front_assignment {rest : List Char} (hequals : rest.head? ≠ some '=')
    (harrow : rest.head? ≠ some '>') : Lexeme.front '=' rest = ⟨.eq, 0⟩ := by
  have hhead : headIs (fun d => d == '=' || d == '>') rest = false := by
    cases rest with
    | nil => rfl
    | cons c cs =>
        simp only [List.head?_cons, ne_eq, Option.some.injEq] at hequals harrow
        simp [headIs, hequals, harrow]
  have hletter : startsName '=' = false := by decide
  have hspace : isWhiteSpace '=' = false := by decide
  simp [Lexeme.front, hhead, hletter, hspace]

end Script

namespace Markup

open Script

namespace Rule

/-- A sign that opens neither braces nor a tag begins a lexeme of script. -/
theorem expression_of_ne {c : Char} (hopen : c ≠ '{') (hclose : c ≠ '}') (hbracket : c ≠ '<')
    (nesting : Nesting) (cs : List Char) : expression nesting c cs =
      ⟨.script (Lexeme.front c cs).kind, (Lexeme.front c cs).more, .expression, .keep⟩ := by
  have hstart : opensStartTag (c :: cs) = false := by
    simp [opensStartTag, begins, List.isPrefixOf, Ne.symm hbracket]
  have hend : opensEndTag (c :: cs) = false := by
    simp [opensEndTag, begins, List.isPrefixOf, Ne.symm hbracket]
  simp [expression, hopen, hclose, hstart, hend]

end Rule

section Tokens

variable {form : Form} {nesting : Nesting} {offset : Nat} {c : Char} {cs rest : List Char}

/-- The tokens of an expression that begins with a lexeme of script. -/
theorem tokens_lexeme {kind : ScriptKind} (hopen : c ≠ '{') (hclose : c ≠ '}') (hbracket : c ≠ '<')
    (hfront : Lexeme.front c (cs ++ rest) = ⟨kind, cs.length⟩) :
    ((Cursor.mk offset ⟨.expression, nesting⟩ (c :: cs ++ rest)).tape form).tokens =
      ⟨.script kind, offset, offset + byteLength (c :: cs)⟩ ::
        ((Cursor.mk (offset + byteLength (c :: cs)) ⟨.expression, nesting⟩ rest).tape form).tokens := by
  have htransition : Context.transition ⟨.expression, nesting⟩ c (cs ++ rest) =
      ⟨.script kind, cs.length, .expression, .keep⟩ := by
    rw [Context.transition, Rule.expression_of_ne hopen hclose hbracket, hfront]
  rw [List.cons_append, Cursor.tape_cons, Tape.tokens_cons]
  simp only [Cursor.next, htransition, List.take_left, List.drop_left]
  rfl

theorem tokens_operator {signs closing : List Char} (h : OneOperator signs)
    (hclosing : closing = [] ∨ closing = ['<'])
    (hrest : ∀ c ∈ rest.head?, isOperatorSign c = false) :
    ((Cursor.mk offset ⟨.expression, nesting⟩ (signs ++ closing ++ rest)).tape form).tokens =
      ⟨.script .operator, offset, offset + byteLength (signs ++ closing)⟩ ::
        ((Cursor.mk (offset + byteLength (signs ++ closing)) ⟨.expression, nesting⟩ rest).tape
          form).tokens := by
  obtain ⟨first, more, rfl⟩ := List.exists_cons_of_ne_nil h.ne_nil
  have hfirst := h.signs first List.mem_cons_self
  have hne : ∀ c, isOperatorSign c = false → first ≠ c := fun _ => ne_of_class hfirst.1
  exact tokens_lexeme (hne '\x7b' (by decide)) (hne '\x7d' (by decide)) hfirst.2
    (h.front_append hclosing hrest)

/-- The tokens of an expression that begins with a lexeme of one character. -/
theorem tokens_sign {kind : ScriptKind} (hopen : c ≠ '{') (hclose : c ≠ '}') (hbracket : c ≠ '<')
    (hfront : Lexeme.front c rest = ⟨kind, 0⟩) :
    ((Cursor.mk offset ⟨.expression, nesting⟩ (c :: rest)).tape form).tokens =
      ⟨.script kind, offset, offset + c.utf8Size⟩ ::
        ((Cursor.mk (offset + c.utf8Size) ⟨.expression, nesting⟩ rest).tape form).tokens :=
  @tokens_lexeme form nesting offset c [] rest kind hopen hclose hbracket hfront

theorem tokens_assignment {more : List Char} (hequals : (more ++ rest).head? ≠ some '=')
    (harrow : (more ++ rest).head? ≠ some '>') :
    ((Cursor.mk offset ⟨.expression, nesting⟩ ('=' :: more ++ rest)).tape form).tokens =
      ⟨.script .eq, offset, offset + 1⟩ ::
        ((Cursor.mk (offset + 1) ⟨.expression, nesting⟩ (more ++ rest)).tape form).tokens :=
  tokens_sign (by decide) (by decide) (by decide) (front_assignment hequals harrow)

theorem tokens_blank (hrest : ∀ d ∈ rest.head?, isWhiteSpace d = false) :
    ((Cursor.mk offset ⟨.expression, nesting⟩ (' ' :: rest)).tape form).tokens =
      ⟨.script .whiteSpace, offset, offset + 1⟩ ::
        ((Cursor.mk (offset + 1) ⟨.expression, nesting⟩ rest).tape form).tokens := by
  have hwhite : isWhiteSpace ' ' = true := by decide
  have hrun : runLength isWhiteSpace rest = 0 := by
    cases rest with
    | nil => rfl
    | cons d ds => simp [runLength, hrest d rfl]
  exact tokens_sign (by decide) (by decide) (by decide) (by simp [Lexeme.front, hwhite, hrun])

/-- Where a tag opens, its sign is a token. -/
theorem tagStart_mem_tokens (hname : opensName rest = true) :
    ⟨.tagStart, offset, offset + 1⟩ ∈
      ((Cursor.mk offset ⟨.expression, nesting⟩ ('<' :: rest)).tape form).tokens := by
  have htransition : Context.transition ⟨.expression, nesting⟩ '<' rest =
      ⟨.tagStart, 0, .startTagName, .keep⟩ :=
    transition_startTagSign .script nesting hname
  rw [Cursor.tape_cons, Tape.tokens_cons, htransition]
  exact List.mem_cons_self

end Tokens

/-! ## A tag behind operators -/

section Tag

variable {form : Form} {nesting : Nesting} {offset : Nat} {signs rest : List Char} {letter : Char}

theorem isOperatorSign_of_isAlpha (h : letter.isAlpha = true) : isOperatorSign letter = false := by
  apply Bool.eq_false_iff.mpr
  intro hsign
  have hnone := eq_false_of_any (by decide : operatorSigns.any Char.isAlpha = false)
    (List.contains_iff_mem.mp hsign)
  rw [h] at hnone
  cases hnone

/-- Behind other signs than one that assigns, the bracket belongs to the operator. -/
theorem exists_operator_over_bracket (h : Operators signs) (hletter : letter.isAlpha = true)
    (hassigns : signs ≠ ['=']) :
    ∃ first < offset + byteLength signs,
      ⟨.script .operator, first, offset + byteLength signs + 1⟩ ∈
        ((Cursor.mk offset ⟨.expression, nesting⟩ (signs ++ '<' :: letter :: rest)).tape
          form).tokens := by
  have hrest : ∀ c ∈ (letter :: rest).head?, isOperatorSign c = false := by
    simpa using isOperatorSign_of_isAlpha hletter
  have hone : ∀ offset {signs : List Char}, OneOperator signs →
      ⟨.script .operator, offset, offset + byteLength signs + 1⟩ ∈
        ((Cursor.mk offset ⟨.expression, nesting⟩ (signs ++ '<' :: letter :: rest)).tape
          form).tokens := by
    intro offset signs hsigns
    have hsplit : signs ++ '<' :: letter :: rest = signs ++ ['<'] ++ letter :: rest := by simp
    rw [hsplit, tokens_operator hsigns (.inr rfl) hrest, byteLength_append, ← Nat.add_assoc]
    exact List.mem_cons_self
  rcases h.eq_or_oneOperator with rfl | ⟨more, rfl, hequals, harrow, hmore⟩ | hsigns
  · exact absurd rfl hassigns
  · obtain ⟨first, behind, rfl⟩ := List.exists_cons_of_ne_nil hmore.ne_nil
    have hlength : byteLength ('=' :: first :: behind) = 1 + byteLength (first :: behind) := rfl
    have hpos := byteLength_pos first behind
    refine ⟨offset + 1, by omega, ?_⟩
    rw [tokens_assignment hequals harrow, hlength, ← Nat.add_assoc]
    exact List.mem_cons_of_mem _ (hone (offset + 1) hmore)
  · have hpos : 0 < byteLength signs := by
      obtain ⟨first, behind, rfl⟩ := List.exists_cons_of_ne_nil hsigns.ne_nil
      exact byteLength_pos first behind
    exact ⟨offset, by omega, hone offset hsigns⟩

/-- Behind a blank the bracket opens the tag. -/
theorem tagStart_behind_blank (h : Operators signs) (hletter : letter.isAlpha = true) :
    ⟨.tagStart, offset + byteLength signs + 1, offset + byteLength signs + 2⟩ ∈
      ((Cursor.mk offset ⟨.expression, nesting⟩ (signs ++ ' ' :: '<' :: letter :: rest)).tape
        form).tokens := by
  have hblank : ∀ offset, ⟨.tagStart, offset + 1, offset + 2⟩ ∈
      ((Cursor.mk offset ⟨.expression, nesting⟩ (' ' :: '<' :: letter :: rest)).tape
        form).tokens := by
    intro offset
    have hname : opensName (letter :: rest) = true := by simp [opensName, headIs, hletter]
    have hbracket : isWhiteSpace '<' = false := by decide
    rw [tokens_blank (by simpa using hbracket)]
    exact List.mem_cons_of_mem _ (tagStart_mem_tokens hname)
  have hone : ∀ offset {signs : List Char}, OneOperator signs →
      ⟨.tagStart, offset + byteLength signs + 1, offset + byteLength signs + 2⟩ ∈
        ((Cursor.mk offset ⟨.expression, nesting⟩ (signs ++ ' ' :: '<' :: letter :: rest)).tape
          form).tokens := by
    intro offset signs hsigns
    have hblankSign : isOperatorSign ' ' = false := by decide
    have hsplit : signs ++ ' ' :: '<' :: letter :: rest =
        signs ++ [] ++ ' ' :: '<' :: letter :: rest := by simp
    rw [hsplit, tokens_operator hsigns (.inl rfl) (by simpa using hblankSign), List.append_nil]
    exact List.mem_cons_of_mem _ (hblank _)
  have hassignment : ∀ more, byteLength ('=' :: more) = 1 + byteLength more := fun _ => rfl
  rcases h.eq_or_oneOperator with rfl | ⟨more, rfl, hequals, harrow, hmore⟩ | hsigns
  · rw [tokens_assignment (by simp) (by simp)]
    exact List.mem_cons_of_mem _ (hblank (offset + 1))
  · obtain ⟨first, behind, rfl⟩ := List.exists_cons_of_ne_nil hmore.ne_nil
    rw [tokens_assignment hequals harrow, hassignment, ← Nat.add_assoc]
    exact List.mem_cons_of_mem _ (hone (offset + 1) hmore)
  · exact hone offset hsigns

/-- The bracket opens the tag exactly behind an equals sign that assigns. -/
theorem exists_tagStart_iff {text : List Char} {stop : Nat}
    (hspans : Spans text (signs ++ '<' :: letter :: rest) offset stop) (h : Operators signs)
    (hletter : letter.isAlpha = true) :
    (∃ token ∈ ((Cursor.mk offset ⟨.expression, nesting⟩ (signs ++ '<' :: letter :: rest)).tape
        form).tokens, token.kind = .tagStart ∧ token.start = offset + byteLength signs) ↔
      signs = ['='] := by
  constructor
  · rintro ⟨token, htoken, -, hstart⟩
    by_contra hassigns
    obtain ⟨first, hfirst, hoperator⟩ :=
      exists_operator_over_bracket h hletter hassigns
    let cursor : Cursor := ⟨offset, ⟨.expression, nesting⟩, signs ++ '<' :: letter :: rest⟩
    have hwithin : cursor.Within text stop := hspans
    exact (Cursor.covers_tape form hwithin).start_ne hoperator hfirst (Nat.lt_succ_self _) token htoken hstart
  · rintro rfl
    have hname : opensName (letter :: rest) = true := by simp [opensName, headIs, hletter]
    rw [tokens_assignment (by simp) (by simp)]
    exact ⟨_, List.mem_cons_of_mem _ (tagStart_mem_tokens hname), rfl, rfl⟩

end Tag

end Markup

namespace MarkupGrammar

open Script

/-- Wherever an expression is read, a tag that opens behind operator signs is a tag only if the signs
    are an equals sign that assigns. Behind all others an operator takes the angle bracket with it,
    and with a blank in front of the bracket the tag is always read. -/
theorem tag_opens_behind_assignment_only (lexer : Lexer MarkupGrammar Snapshot Nesting)
    (source : String) (start stop : Nat) (state : UInt32) (hstart : Boundary source.toList start)
    (hstop : Boundary source.toList stop) (hle : start ≤ stop) :
    ∃ started, lexer.start source start stop state = .ok started ∧
      ∀ n signs letter rest, let here := (Session.advanceTimes n started).tape
        let bracket := here.place.offset + byteLength signs
        here.place.state = State.expression.code → Operators signs → letter.isAlpha = true →
        (Spans source.toList (signs ++ '<' :: letter :: rest) here.place.offset stop →
          ((∃ token ∈ here.tokens, token.kind = .tagStart ∧ token.start = bracket) ↔
            signs = ['=']) ∧
          (signs ≠ ['='] → ∃ first < bracket,
            ⟨.script .operator, first, bracket + 1⟩ ∈ here.tokens)) ∧
        (Spans source.toList (signs ++ ' ' :: '<' :: letter :: rest) here.place.offset stop →
          ⟨.tagStart, bracket + 1, bracket + 2⟩ ∈ here.tokens) := by
  obtain ⟨cs, hcs⟩ := spans_between hstart hstop hle
  let first : Cursor := ⟨start, contextOf lexer.reader.form state, cs⟩
  have hfirst : first.Within source.toList stop := hcs
  have hread : Reader.start lexer.reader source start stop state =
      .ok (first.tape lexer.reader.form) := Cursor.tape_eq hfirst
  obtain ⟨started, hstarted, htape, -⟩ := Lexer.start_of_read hread
  refine ⟨started, hstarted, ?_⟩
  intro n signs letter rest
  rw [Lexer.tape_advanceTimes, htape, Cursor.drop_tape]
  have hwithin : ((Cursor.next lexer.reader.form)^[n] first).Within source.toList stop :=
    hfirst.iterate n
  generalize (Cursor.next lexer.reader.form)^[n] first = cursor at hwithin ⊢
  obtain ⟨offset, ⟨state, nesting⟩, left⟩ := cursor
  simp only [Cursor.place_tape, Markup.placeAt]
  intro hstate hsigns hletter
  obtain rfl : state = .expression := by
    rw [← State.ofCode_code state, hstate, State.ofCode_code]
  constructor
  · intro hspans
    obtain rfl := hspans.unique hwithin
    exact ⟨exists_tagStart_iff hspans hsigns hletter,
      exists_operator_over_bracket hsigns hletter⟩
  · intro hspans
    obtain rfl := hspans.unique hwithin
    exact tagStart_behind_blank hsigns hletter

theorem tag_opens_behind_assignment_only_behind_arrow :
    Boundary "\x7ba-><b>\x7d".toList 0 ∧ Boundary "\x7ba-><b>\x7d".toList 8 ∧
    Operators ['-', '>'] ∧
    ∃ started, (Lexer.idle ⟨.document⟩ : Lexer MarkupGrammar Snapshot Nesting).start
        "\x7ba-><b>\x7d" 0 8 0 = .ok started ∧
      let here := (Session.advanceTimes 2 started).tape
      here.place.state = State.expression.code ∧
      Spans "\x7ba-><b>\x7d".toList (['-', '>'] ++ ['<', 'b', '>', '\x7d']) here.place.offset 8 ∧
      (¬∃ token ∈ here.tokens, token.kind = .tagStart ∧ token.start = 4) ∧
      ∃ first < 4, ⟨.script .operator, first, 5⟩ ∈ here.tokens := by
  have hstart : Boundary "\x7ba-><b>\x7d".toList 0 := by decide
  have hstop : Boundary "\x7ba-><b>\x7d".toList 8 := by decide
  have hsigns : Operators ['-', '>'] := by decide
  refine ⟨hstart, hstop, hsigns, ?_⟩
  obtain ⟨started, hstarted, hrun⟩ := tag_opens_behind_assignment_only
    (Lexer.idle ⟨.document⟩) "\x7ba-><b>\x7d" 0 8 0 hstart hstop (by decide)
  have hplace : ((Lexer.idle ⟨.document⟩ : Lexer MarkupGrammar Snapshot Nesting).start
      "\x7ba-><b>\x7d" 0 8 0).toOption.map (fun started =>
        ((Session.advanceTimes 2 started).tape.place.state,
          (Session.advanceTimes 2 started).tape.place.offset)) =
      some (State.expression.code, 2) := by decide +kernel
  rw [hstarted] at hplace
  obtain ⟨hstate, hoffset⟩ := Prod.mk.inj (Option.some.inj hplace)
  have hspans : Spans "\x7ba-><b>\x7d".toList (['-', '>'] ++ ['<', 'b', '>', '\x7d'])
      (Session.advanceTimes 2 started).tape.place.offset 8 := by
    rw [hoffset]
    exact ⟨['\x7b', 'a'], [], rfl, rfl, rfl⟩
  obtain ⟨hiff, hoperator⟩ := (hrun 2 ['-', '>'] 'b' ['>', '\x7d'] hstate hsigns (by decide)).1 hspans
  rw [hoffset] at hiff hoperator
  exact ⟨started, hstarted, hstate, hspans, mt hiff.mp (by decide), hoperator (by decide)⟩

/-- The operator takes the angle bracket with it, and no tag is read. -/
theorem operator_swallows_tag :
    Operators ['+'] ∧ ('a' : Char).isAlpha = true ∧
    Spans "\x7b+<a/>\x7d".toList (['+'] ++ ['<', 'a', '/', '>', '\x7d']) 1 7 ∧
    ((Lexer.idle ⟨.document⟩ : Lexer MarkupGrammar Snapshot Nesting).start
      "\x7b+<a/>\x7d" 0 7 0).toOption.map (fun started =>
        (started.advance.tape.place.offset, started.advance.tape.place.state,
          started.advance.tape.tokens)) =
      some (1, State.expression.code,
        [⟨.script .operator, 1, 3⟩, ⟨.script .identifier, 3, 4⟩, ⟨.script .operator, 4, 6⟩,
          ⟨.expressionEnd, 6, 7⟩]) := by
  refine ⟨by decide, by decide, ⟨['\x7b'], [], rfl, rfl, rfl⟩, ?_⟩
  decide +kernel

end MarkupGrammar

end Relex
