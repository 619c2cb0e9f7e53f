import Relex.Proofs.Coverage
import Relex.Proofs.LexemeText
import Relex.Proofs.Printing

/-! # Script without tags

Frontmatter is read as script, an expression as markup in which script may stand. Both ask for the same
lexemes, but markup looks for braces and tags first and keeps a stack of the braces that are open. Where
no lexeme starts with the sign of a tag and every closing brace has an opening one, a fragment of markup
has exactly the tokens of script (`MarkupGrammar.plain_script_read_alike`). What one token does to the
open braces is said once (`ScriptBraces.exists_expression`); over a whole text the number of open braces
is that of the opening braces less that of the closing ones.
-/

namespace Relex

namespace Markup

open Text Script

/-- The text begins with the sign of a tag: an angle bracket, perhaps a slash, and the letter or the
    bracket that makes it one. -/
inductive OpensTag : List Char → Prop
  | opening {c : Char} (cs : List Char) (hname : c.isAlpha = true ∨ c = '>') :
      OpensTag ('<' :: c :: cs)
  | closing {c : Char} (cs : List Char) (hname : c.isAlpha = true ∨ c = '>') :
      OpensTag ('<' :: '/' :: c :: cs)

section Signs

variable {text : List Char}

theorem opensName_iff :
    opensName text = true ↔ ∃ c cs, text = c :: cs ∧ (c.isAlpha = true ∨ c = '>') := by
  cases text with
  | nil => simp [opensName, headIs]
  | cons c cs => simp [opensName, headIs]

theorem opensTag_iff : OpensTag text ↔ (opensStartTag text || opensEndTag text) = true := by
  rw [Bool.or_eq_true, opensStartTag, opensEndTag, Bool.and_eq_true, Bool.and_eq_true, opensName_iff,
    opensName_iff]
  constructor
  · rintro (⟨cs, hname⟩ | ⟨cs, hname⟩)
    · exact .inl ⟨rfl, _, cs, rfl, hname⟩
    · exact .inr ⟨rfl, _, cs, rfl, hname⟩
  · rintro (⟨hsign, c, cs, hbehind, hname⟩ | ⟨hsign, c, cs, hbehind, hname⟩)
    · obtain ⟨behind, rfl⟩ := exists_of_begins_singleton hsign
      obtain rfl : behind = c :: cs := hbehind
      exact .opening cs hname
    · obtain ⟨behind, rfl⟩ := begins_iff.mp hsign
      obtain rfl : behind = c :: cs := hbehind
      exact .closing cs hname

instance : Decidable (OpensTag text) :=
  decidable_of_iff _ opensTag_iff.symm

end Signs

/-- Nothing is open but so many braces of script, none of them inside an element. -/
structure ScriptBraces (depth : Nat) (nesting : Nesting) : Prop where
  elements : nesting.elements = ∅
  size : nesting.expressions.size = depth
  braces : ∀ brace ∈ nesting.expressions.entries, brace.stateBehind = .expression ∧ brace.depth = 0

/-- How many of some tokens are of a kind of script. -/
def lexemeCount (kind : ScriptKind) (tokens : List Token) : Nat :=
  tokens.countP fun token => token.kind = .script kind

@[simp] theorem lexemeCount_nil (kind : ScriptKind) : lexemeCount kind [] = 0 := rfl

theorem lexemeCount_cons (kind : ScriptKind) {token : Token} {lexeme : ScriptKind}
    (hlexeme : token.kind = .script lexeme) (tokens : List Token) :
    lexemeCount kind (token :: tokens) = lexemeCount kind tokens + if lexeme = kind then 1 else 0 := by
  simp [lexemeCount, List.countP_cons, hlexeme]

namespace ScriptBraces

variable {nesting : Nesting} {depth offset stop : Nat} {c : Char} {cs text source : List Char}

theorem empty : ScriptBraces 0 ∅ where
  elements := rfl
  size := rfl
  braces := List.forall_mem_nil _

theorem opening (h : ScriptBraces depth nesting) :
    ScriptBraces (depth + 1) (nesting.apply (.openExpression (nesting.opening .expression))) where
  elements := h.elements
  size := congrArg (· + 1) h.size
  braces := by
    have hbrace : nesting.opening .expression = .atDepth .expression 0 := by
      rw [Nesting.opening, h.elements]
      rfl
    refine List.forall_mem_cons.mpr ⟨?_, h.braces⟩
    rw [hbrace]
    decide

theorem closing (h : ScriptBraces (depth + 1) nesting) :
    ScriptBraces depth (nesting.apply .closeExpression) where
  elements := h.elements
  size := by
    change nesting.expressions.size - 1 = depth
    rw [h.size, Nat.add_sub_cancel]
  braces brace hbrace := h.braces brace (List.mem_of_mem_drop hbrace)

/-- Inside a brace of script, the closing brace is script too. -/
theorem expression_closingBrace (h : ScriptBraces (depth + 1) nesting) (cs : List Char) :
    Rule.expression nesting '}' cs =
      { kind := .script .rBrace, more := 0, next := .expression, change := .closeExpression } := by
  have hsign : ('}' : Char) ≠ '{' := by decide
  cases htop : nesting.expressions.entries with
  | nil =>
      have hsize := nesting.expressions.size_eq
      rw [h.size, htop] at hsize
      cases hsize
  | cons brace outer =>
      have hbehind := (h.braces brace (htop ▸ List.mem_cons_self)).1
      simp [Rule.expression, hsign, Stack.top?, htop, hbehind]

/-- Where no tag opens, the token of an expression is the lexeme of the script, and it adds a brace or
    takes one away just when it is a brace. -/
theorem exists_expression (h : ScriptBraces depth nesting) (htag : ¬OpensTag (c :: cs))
    (hclose : (Lexeme.front c cs).kind = .rBrace → 0 < depth) :
    ∃ change behind, Rule.expression nesting c cs =
        { kind := .script (Lexeme.front c cs).kind, more := (Lexeme.front c cs).more
          next := .expression, change := change } ∧
      ScriptBraces behind (nesting.apply change) ∧
      behind + (if (Lexeme.front c cs).kind = .rBrace then 1 else 0) =
        depth + if (Lexeme.front c cs).kind = .lBrace then 1 else 0 := by
  by_cases hopen : c = '{'
  · subst hopen
    exact ⟨_, depth + 1, rfl, h.opening, rfl⟩
  by_cases hclosing : c = '}'
  · subst hclosing
    obtain ⟨depth, rfl⟩ := Nat.exists_eq_add_one_of_ne_zero (Nat.ne_of_gt (hclose rfl))
    exact ⟨_, depth, h.expression_closingBrace cs, h.closing, rfl⟩
  -- A lexeme that is a brace has the text of one.
  have hadmits := Lexeme.front_admits c cs
  have hleft : (Lexeme.front c cs).kind ≠ .lBrace := by
    intro hkind
    rw [hkind] at hadmits
    exact hopen (List.cons.inj hadmits).1
  have hright : (Lexeme.front c cs).kind ≠ .rBrace := by
    intro hkind
    rw [hkind] at hadmits
    exact hclosing (List.cons.inj hadmits).1
  have hsigns : ¬(opensStartTag (c :: cs) || opensEndTag (c :: cs)) = true := mt opensTag_iff.mpr htag
  rw [Bool.or_eq_true, not_or] at hsigns
  refine ⟨.keep, depth, ?_, h, ?_⟩
  · rw [Rule.expression, if_neg hopen, if_neg hclosing, if_neg hsigns.2, if_neg hsigns.1]
  · simp [hleft, hright]

end ScriptBraces

/-- How many braces are open behind some tokens, when so many are open in front of them. -/
def openBehind (depth : Nat) (tokens : List Token) : Nat :=
  depth + lexemeCount .lBrace tokens - lexemeCount .rBrace tokens

/-- No token starts with the sign of a tag. -/
def NoTagOpens (source : List Char) (stop : Nat) (tokens : List Token) : Prop :=
  ∀ token ∈ tokens, ∀ text, Spans source text token.start stop → ¬OpensTag text

/-- Inside so many braces, no front part of the tokens closes more braces than are open. -/
def ClosesOpenBraces (depth : Nat) (tokens : List Token) : Prop :=
  ∀ front, front <+: tokens → lexemeCount .rBrace front ≤ depth + lexemeCount .lBrace front

theorem mem_region_iff {source text : List Char} {start stop : Nat} :
    text ∈ (region source start stop).toOption ↔ Spans source text start stop := by
  rw [← region_eq_ok_iff]
  cases region source start stop with
  | error error => simp [Except.toOption]
  | ok part => simp [Except.toOption]

instance (source : List Char) (stop : Nat) (tokens : List Token) :
    Decidable (NoTagOpens source stop tokens) :=
  decidable_of_iff
    (∀ token ∈ tokens, ∀ text ∈ (region source token.start stop).toOption, ¬OpensTag text) <| by
      simp only [NoTagOpens, mem_region_iff]

instance (depth : Nat) (tokens : List Token) : Decidable (ClosesOpenBraces depth tokens) :=
  decidable_of_iff
    (∀ front ∈ tokens.inits, lexemeCount .rBrace front ≤ depth + lexemeCount .lBrace front) <| by
      simp only [ClosesOpenBraces, List.mem_inits]

section Counts

variable {depth behind : Nat} {token : Token} {tokens : List Token} {lexeme : ScriptKind}

theorem ClosesOpenBraces.pos (h : ClosesOpenBraces depth (token :: tokens))
    (hclose : token.kind = .script .rBrace) : 0 < depth := by
  have hone := h [token] (List.prefix_append [token] tokens)
  simp only [lexemeCount_cons _ hclose, lexemeCount_nil, if_true, reduceCtorEq, if_false] at hone
  omega

/-- A token leaves as many braces open as it says. -/
theorem ClosesOpenBraces.tail (h : ClosesOpenBraces depth (token :: tokens))
    (hlexeme : token.kind = .script lexeme)
    (hbehind : behind + (if lexeme = .rBrace then 1 else 0) =
      depth + if lexeme = .lBrace then 1 else 0) :
    ClosesOpenBraces behind tokens := by
  intro front hfront
  have hbound := h (token :: front) ((List.prefix_cons_inj token).mpr hfront)
  simp only [lexemeCount_cons _ hlexeme] at hbound
  omega

theorem openBehind_cons (hlexeme : token.kind = .script lexeme)
    (hbehind : behind + (if lexeme = .rBrace then 1 else 0) =
      depth + if lexeme = .lBrace then 1 else 0) :
    openBehind depth (token :: tokens) = openBehind behind tokens := by
  simp only [openBehind, lexemeCount_cons _ hlexeme]
  omega

end Counts

namespace Cursor

variable {nesting : Nesting} {depth offset stop : Nat} {c : Char} {cs text source : List Char}

/-- One token of script. -/
theorem exists_next_of_scriptBraces (form : Form) (offset : Nat) (h : ScriptBraces depth nesting)
    (htag : ¬OpensTag (c :: cs)) (hclose : (Lexeme.front c cs).kind = .rBrace → 0 < depth) :
    let lexeme := Lexeme.front c cs
    let stop := offset + byteLength (c :: cs.take lexeme.more)
    let here : Cursor := ⟨offset, ⟨.expression, nesting⟩, c :: cs⟩
    ∃ after behind, here.next form = ⟨stop, ⟨.expression, after⟩, cs.drop lexeme.more⟩ ∧
      (here.tape form).tokens =
        ⟨.script lexeme.kind, offset, stop⟩ :: ((here.next form).tape form).tokens ∧
      ScriptBraces behind after ∧
      behind + (if lexeme.kind = .rBrace then 1 else 0) =
        depth + if lexeme.kind = .lBrace then 1 else 0 := by
  obtain ⟨change, behind, htransition, hbehind, hcount⟩ := h.exists_expression htag hclose
  have hcontext : Context.transition ⟨.expression, nesting⟩ c cs =
      { kind := .script (Lexeme.front c cs).kind, more := (Lexeme.front c cs).more
        next := .expression, change := change } := htransition
  refine ⟨nesting.apply change, behind, ?_, ?_, hbehind, hcount⟩
  · simp only [next, hcontext, Context.after]
    rfl
  · rw [tape_cons, Tape.tokens_cons, hcontext]
    rfl

/-- A text without tags is read as script, and before the `n`th token those braces are open that the
    tokens before it have opened and not closed. -/
theorem reads_script (form : Form) (hspans : Spans source text offset stop)
    (h : ScriptBraces depth nesting)
    (htags : NoTagOpens source stop ((readings offset text).map Reading.token))
    (hbraces : ClosesOpenBraces depth ((readings offset text).map Reading.token)) :
    let tokens := (readings offset text).map Reading.token
    let here : Cursor := ⟨offset, ⟨.expression, nesting⟩, text⟩
    (here.tape form).tokens = tokens ∧ ∀ n,
      ((next form)^[n] here).context.state = .expression ∧
        ScriptBraces (openBehind depth (tokens.take n)) ((next form)^[n] here).context.nesting := by
  fun_induction readings offset text generalizing depth nesting with
  | case1 offset =>
      refine ⟨by rw [tape_nil]; rfl, fun n => ?_⟩
      have hstays : (next form)^[n] ⟨offset, ⟨.expression, nesting⟩, []⟩ =
          ⟨offset, ⟨.expression, nesting⟩, []⟩ := Function.iterate_fixed rfl n
      rw [hstays, List.map_nil, List.take_nil]
      exact ⟨rfl, h⟩
  | case2 offset c cs lexeme =>
      rename_i behind ih
      have hkind : (Reading.token ⟨.script lexeme.kind, behind, Script.placeAt offset⟩).kind =
          .script lexeme.kind := rfl
      have htag : ¬OpensTag (c :: cs) := htags _ List.mem_cons_self _ hspans
      have hclose : lexeme.kind = .rBrace → 0 < depth :=
        fun hbrace => hbraces.pos (hkind.trans (congrArg Kind.script hbrace))
      obtain ⟨after, inside, hnext, htokens, hafter, hcount⟩ :=
        exists_next_of_scriptBraces form offset h htag hclose
      obtain ⟨hlater, hplaces⟩ := ih (spans_rest lexeme.more hspans) hafter
        (fun token htoken => htags token (List.mem_cons_of_mem _ htoken)) (hbraces.tail hkind hcount)
      refine ⟨?_, fun n => ?_⟩
      · rw [htokens, hnext, hlater]
        rfl
      cases n with
      | zero => exact ⟨rfl, h⟩
      | succ n =>
          obtain ⟨hstate, hinside⟩ := hplaces n
          rw [Function.iterate_succ_apply, hnext]
          refine ⟨hstate, ?_⟩
          rw [List.map_cons, List.take_succ_cons, openBehind_cons hkind hcount]
          exact hinside

end Cursor

end Markup

namespace MarkupGrammar

open Text Markup Script

/-- On a text in which no lexeme of the script starts with the sign of a tag and no closing brace comes
    without an opening one, a fragment of markup is read exactly as script. All along, at the end too,
    the reading stays in the state of expressions, no element is open, and there is one brace of script
    for each opening brace that is not closed yet. -/
theorem plain_script_read_alike (script : Lexer ScriptGrammar Nat Unit)
    (fragment : Lexer MarkupGrammar Snapshot Nesting) (hform : fragment.reader.form = .fragment)
    (source : String) (word : UInt32) :
    ∃ lexemes markup, script.start source 0 source.utf8ByteSize word = .ok lexemes ∧
      fragment.start source 0 source.utf8ByteSize 0 = .ok markup ∧
      (NoTagOpens source.toList source.utf8ByteSize lexemes.tape.tokens →
        ClosesOpenBraces 0 lexemes.tape.tokens →
        markup.tape.tokens = lexemes.tape.tokens ∧ ∀ n,
          let place := (Session.advanceTimes n markup).tape.place
          let before := lexemes.tape.tokens.take n
          place.state = State.expression.code ∧ place.live.elements = ∅ ∧
            place.live.expressions.size = lexemeCount .lBrace before - lexemeCount .rBrace before ∧
            ∀ brace ∈ place.live.expressions.entries,
              brace.stateBehind = .expression ∧ brace.depth = 0) := by
  obtain ⟨tape, htape, hreadings⟩ := exists_tape_of_source source
  have hread : Reader.start script.reader source 0 source.utf8ByteSize word = .ok tape := htape
  obtain ⟨lexemes, hlexemes, rfl, -⟩ := Lexer.start_of_read hread
  obtain ⟨markup, hmarkup, hruns⟩ := exists_start fragment 0 (spans_whole source)
  refine ⟨lexemes, markup, hlexemes, hmarkup, ?_⟩
  intro htags hbraces
  have hcontext : contextOf fragment.reader.form 0 = ⟨.expression, ∅⟩ := by
    rw [hform]
    rfl
  rw [hcontext] at hruns
  have htokens : lexemes.tape.tokens = (readings 0 source.toList).map Reading.token :=
    congrArg (List.map Reading.token) hreadings
  rw [htokens] at htags hbraces ⊢
  obtain ⟨hsame, hplaces⟩ := Cursor.reads_script fragment.reader.form (spans_whole source)
    ScriptBraces.empty htags hbraces
  refine ⟨(congrArg Tape.tokens (hruns 0)).trans hsame, fun n => ?_⟩
  obtain ⟨hstate, hinside⟩ := hplaces n
  rw [hruns n, Cursor.place_tape]
  refine ⟨congrArg State.code hstate, hinside.elements, hinside.size.trans ?_, hinside.braces⟩
  rw [openBehind, Nat.zero_add]

/-- In `{a+<b}{'</p>'` a tag could open inside an operator and inside a string, but at no lexeme. The
    second brace stays open. -/
theorem plain_script_read_alike_of_open_brace :
    let source := "\x7ba+<b\x7d\x7b'</p>'"
    ∃ lexemes markup,
      (Lexer.idle ⟨⟩ : Lexer ScriptGrammar Nat Unit).start source 0 13 0 = .ok lexemes ∧
      (Lexer.idle ⟨.fragment⟩ : Lexer MarkupGrammar Snapshot Nesting).start source 0 13 0 = .ok markup ∧
      NoTagOpens source.toList 13 lexemes.tape.tokens ∧ ClosesOpenBraces 0 lexemes.tape.tokens ∧
      lexemes.tape.tokens = [⟨.script .lBrace, 0, 1⟩, ⟨.script .identifier, 1, 2⟩,
        ⟨.script .operator, 2, 4⟩, ⟨.script .identifier, 4, 5⟩, ⟨.script .rBrace, 5, 6⟩,
        ⟨.script .lBrace, 6, 7⟩, ⟨.script .string, 7, 13⟩] ∧
      markup.tape.tokens = lexemes.tape.tokens ∧
      (Session.advanceTimes 7 markup).tape.place.live.expressions.size = 1 := by
  intro source
  obtain ⟨lexemes, markup, hlexemes, hmarkup, hagree⟩ :=
    plain_script_read_alike (Lexer.idle ⟨⟩) (Lexer.idle ⟨.fragment⟩) rfl source 0
  have htokens : ((Lexer.idle ⟨⟩ : Lexer ScriptGrammar Nat Unit).start source 0 13 0).toOption.map
      (fun started => started.tape.tokens) = some [⟨.script .lBrace, 0, 1⟩, ⟨.script .identifier, 1, 2⟩,
        ⟨.script .operator, 2, 4⟩, ⟨.script .identifier, 4, 5⟩, ⟨.script .rBrace, 5, 6⟩,
        ⟨.script .lBrace, 6, 7⟩, ⟨.script .string, 7, 13⟩] := by decide +kernel
  have hsize : source.utf8ByteSize = 13 := by decide
  rw [hsize] at hlexemes hmarkup hagree
  obtain ⟨same, hread, heq⟩ := Except.exists_of_map_toOption htokens
  cases hlexemes.symm.trans hread
  have htags : NoTagOpens source.toList 13 lexemes.tape.tokens := by
    rw [heq]
    decide +kernel
  have hbraces : ClosesOpenBraces 0 lexemes.tape.tokens := by
    rw [heq]
    decide +kernel
  obtain ⟨hsame, hplaces⟩ := hagree htags hbraces
  refine ⟨lexemes, markup, hlexemes, hmarkup, htags, hbraces, heq, hsame, ?_⟩
  rw [(hplaces 7).2.2.1, heq]
  decide

end MarkupGrammar

end Relex
