import Relex.Proofs.Kinds
import Relex.Proofs.RestartPoint

/-! # Fragments inside braces

A fragment is read as what stands inside a pair of braces. Behind an opening brace a document has one
more brace open than the fragment, below all others (`Nesting.enclosed`), and every rule reads the same
in both: elements are out of reach of the braces around them, and no element is open around this brace.
Only where the fragment has a closing brace that closes nothing does the document do something else,
since there the brace around the fragment is closed. Up to that place each move of the fragment is a
move of the document (`Cursor.iterate_enclosed`).
-/

namespace Relex

open Text Unicode

/-- Puts an entry below all others. -/
def Stack.below {α : Type} (s : Stack α) (a : α) : Stack α where
  entries := s.entries ++ [a]
  size := s.size + 1
  size_eq := by simp [s.size_eq]

namespace Stack

variable {α : Type} (s : Stack α) (a : α)

@[simp] theorem entries_below : (s.below a).entries = s.entries ++ [a] := rfl

theorem push_below (b : α) : (s.below a).push b = (s.push b).below a :=
  ext_entries rfl

theorem drop_one_below {s : Stack α} (h : s.entries ≠ []) :
    (s.below a).drop 1 = (s.drop 1).below a := by
  obtain ⟨top, rest, hentries⟩ := List.exists_cons_of_ne_nil h
  apply ext_entries
  simp [hentries]

end Stack

namespace Markup

/-- The brace around a fragment: content follows it, and no element is open around it. -/
def Opening.outermost : Opening :=
  .atDepth .content 0

theorem Opening.depth_outermost : outermost.depth = 0 := rfl

namespace Nesting

variable (nesting : Nesting)

/-- What is open inside the braces around a fragment. -/
def enclosed : Nesting :=
  { nesting with expressions := nesting.expressions.below .outermost }

theorem elements_enclosed : nesting.enclosed.elements = nesting.elements := rfl

theorem outerDepth_enclosed : nesting.enclosed.outerDepth = nesting.outerDepth := by
  simp only [outerDepth, Stack.top?, enclosed, Stack.entries_below]
  cases nesting.expressions.entries with
  | nil => rfl
  | cons top rest => rfl

theorem withinReach_enclosed : nesting.enclosed.withinReach = nesting.withinReach := by
  rw [withinReach, withinReach, outerDepth_enclosed]
  rfl

theorem innermost?_enclosed : nesting.enclosed.innermost? = nesting.innermost? := by
  rw [innermost?, innermost?, withinReach_enclosed]

/-- A change inside the braces does not touch the brace around the fragment. -/
theorem apply_enclosed {nesting : Nesting} {change : Change}
    (h : change = .closeExpression → nesting.expressions.entries ≠ []) :
    nesting.enclosed.apply change = (nesting.apply change).enclosed := by
  cases change with
  | keep => rfl
  | openExpression opening =>
      simp only [apply, enclosed, Stack.push_below]
  | closeExpression =>
      simp only [apply, enclosed, Stack.drop_one_below _ (h rfl)]
  | openElement name => rfl
  | closeElement name =>
      simp only [apply, withinReach_enclosed]
      split
      · rfl
      · rfl
  | leaveElement =>
      by_cases hinside : nesting.outerDepth < nesting.elements.size
      · simp only [apply, outerDepth_enclosed, elements_enclosed, hinside, if_true]
        rfl
      · simp only [apply, outerDepth_enclosed, elements_enclosed, hinside, if_false]

theorem ambientState_enclosed :
    nesting.enclosed.ambientState .document = nesting.ambientState .fragment := by
  simp only [ambientState, Stack.top?, enclosed, Stack.entries_below]
  cases nesting.expressions.entries with
  | nil =>
      by_cases hsize : nesting.elements.size = 0
      · simp [Opening.depth_outermost, Stack.isEmpty, hsize]
      · simp [Opening.depth_outermost, Stack.isEmpty, hsize, Ne.symm hsize]
  | cons top rest => rfl

end Nesting

namespace Context

variable {context : Context} {c : Char} {cs : List Char}

def enclosed (context : Context) : Context :=
  { context with nesting := context.nesting.enclosed }

/-- A brace that closes nothing comes next. -/
def AtStrayBrace (context : Context) (text : List Char) : Prop :=
  context.state = .expression ∧ context.nesting.expressions.entries = [] ∧ begins ['}'] text = true

theorem attributes_enclosed (nesting : Nesting) :
    Rule.attributes nesting.enclosed c cs = Rule.attributes nesting c cs := by
  have hend : Rule.startTagEnd nesting.enclosed = Rule.startTagEnd nesting := by
    rw [Rule.startTagEnd, Rule.startTagEnd, Nesting.innermost?_enclosed]
  rw [Rule.attributes, Rule.attributes, hend]
  rfl

theorem expression_enclosed {nesting : Nesting}
    (h : nesting.expressions.entries ≠ [] ∨ c ≠ '}') :
    Rule.expression nesting.enclosed c cs = Rule.expression nesting c cs := by
  have htop : c = '}' → nesting.enclosed.expressions.top? = nesting.expressions.top? := by
    intro hc
    obtain ⟨top, rest, hentries⟩ := List.exists_cons_of_ne_nil (h.resolve_right (not_not.mpr hc))
    simp [Stack.top?, Nesting.enclosed, hentries]
  rw [Rule.expression, Rule.expression]
  by_cases hc : c = '}'
  · rw [htop hc]
    rfl
  · simp only [hc, if_false]
    rfl

/-- The same token comes next inside the braces, with the same transition. -/
theorem transition_enclosed (h : ¬context.AtStrayBrace (c :: cs)) :
    context.enclosed.transition c cs = context.transition c cs := by
  obtain ⟨state, nesting⟩ := context
  cases state with
  | startTagName =>
      simp only [transition, enclosed, Rule.startTagName, attributes_enclosed]
  | attributes => exact attributes_enclosed nesting
  | valueStart =>
      simp only [transition, enclosed, Rule.valueStart, attributes_enclosed]
      rfl
  | expression =>
      refine expression_enclosed ?_
      by_contra hnone
      simp only [not_or, not_not] at hnone
      exact h ⟨rfl, hnone.1, by simp [begins, hnone.2]⟩
  | _ => rfl

theorem after_enclosed (context : Context) (c : Char) (cs : List Char) :
    context.enclosed.after .document (context.transition c cs) =
      (context.after .fragment (context.transition c cs)).enclosed := by
  have hopen : (context.transition c cs).change = .closeExpression →
      context.nesting.expressions.entries ≠ [] := by
    intro hchange hnone
    obtain ⟨state, -, hmoves⟩ := context.exists_moves c cs
    rw [Transition.Moves, hchange] at hmoves
    generalize (context.transition c cs).kind = kind, (context.transition c cs).next = next at hmoves
    cases hmoves with
    | closeBrace htop => simp [Stack.top?, hnone] at htop
  simp only [after, enclosed, Nesting.apply_enclosed hopen, Nesting.ambientState_enclosed]

end Context

namespace Cursor

variable {cursor : Cursor}

/-- The cursor of a document that stands where this one stands in the fragment between the braces. -/
def enclosed (cursor : Cursor) : Cursor :=
  ⟨cursor.offset + 1, cursor.context.enclosed, cursor.rest⟩

def AtStrayBrace (cursor : Cursor) : Prop :=
  cursor.context.AtStrayBrace cursor.rest

theorem next_enclosed (h : ¬cursor.AtStrayBrace) :
    cursor.enclosed.next .document = (cursor.next .fragment).enclosed := by
  obtain ⟨offset, context, rest⟩ := cursor
  cases rest with
  | nil => rfl
  | cons c cs =>
      simp only [next, enclosed, Context.transition_enclosed h, Context.after_enclosed,
        Nat.add_right_comm]

theorem iterate_enclosed {n : Nat} (h : ∀ i < n, ¬((next .fragment)^[i] cursor).AtStrayBrace) :
    (next .document)^[n] cursor.enclosed = ((next .fragment)^[n] cursor).enclosed := by
  induction n with
  | zero => rfl
  | succ n ih =>
      have hbefore := ih fun i hi => h i (Nat.lt_succ_of_lt hi)
      rw [Function.iterate_succ_apply', Function.iterate_succ_apply', hbefore]
      exact next_enclosed (h n (Nat.lt_succ_self n))

end Cursor

end Markup

/-! ## The places and the tokens of both -/

/-- What begins at an offset of a text begins with the character there. -/
theorem Text.Spans.head_eq {text cs ds : List Char} {c d : Char} {start stop stop' : Nat}
    (h : Spans text (c :: cs) start stop) (h' : Spans text (d :: ds) start stop') : c = d := by
  obtain ⟨before, after, rfl, rfl, -⟩ := h
  obtain ⟨before', after', heq, hstart, -⟩ := h'
  simp only [List.append_assoc] at heq
  obtain ⟨part, rfl, hpart⟩ := front_of_le heq (Nat.le_of_eq hstart.symm)
  have hnone : part = [] := byteLength_eq_zero (by rw [byteLength_append] at hstart; omega)
  simp_all

open Markup

/-- The token is a brace that closes nothing. -/
def Token.StrayBrace (text : List Char) (token : Token) : Prop :=
  token.kind = .badCharacter ∧ ∃ cs, Spans text ('}' :: cs) token.start token.stop

/-- The place of a fragment, and the same place of the document in which braces stand around it. -/
structure Place.Enclosed (place around : Place Snapshot Nesting) : Prop where
  offset : around.offset = place.offset + 1
  state : around.state = place.state
  elements : around.live.elements = place.live.elements
  expressions : around.live.expressions.entries = place.live.expressions.entries ++ [.outermost]

/-- The current token of a fragment, and that of the document in which braces stand around it. -/
inductive Token.Enclosed (text : List Char) : (token? around? : Option Token) → Prop
  | ended : Enclosed text none none
  | inside {token : Token} (h : ¬token.StrayBrace text) :
      Enclosed text (some token) (some ⟨token.kind, token.start + 1, token.stop + 1⟩)
  | closing {token : Token} (h : token.StrayBrace text) :
      Enclosed text (some token) (some ⟨.expressionEnd, token.start + 1, token.stop + 1⟩)

namespace Markup

/-- Only in the state of an expression is a closing brace a bad character. -/
theorem Context.atStrayBrace_of_kind {context : Context} {cs : List Char}
    (h : (context.transition '}' cs).kind = .badCharacter) : context.AtStrayBrace ('}' :: cs) := by
  have hcontent : ∀ nesting, (Rule.content nesting '}' cs).kind ≠ .badCharacter := by
    intro nesting
    have hspace : isWhiteSpace '}' = false := by decide
    have hcontrol : isControl '}' = false := by decide
    simp [Rule.content, begins, opensEndTag, opensStartTag, hspace, hcontrol]
    split
    · exact Kind.noConfusion
    · exact Kind.noConfusion
  have hreads := context.reads_kind '}' cs
  obtain ⟨state, nesting⟩ := context
  rw [h] at hreads
  cases state with
  | initial =>
      have hinitial : Rule.initial nesting '}' cs = Rule.content nesting '}' cs := rfl
      exact absurd (hinitial ▸ h) (hcontent nesting)
  | content => exact absurd h (hcontent nesting)
  | unlisted code beyond => exact absurd h (hcontent nesting)
  | frontmatterClose =>
      have hclose : Rule.frontmatterClose nesting '}' cs = Rule.content nesting '}' cs := rfl
      exact absurd (hclose ▸ h) (hcontent nesting)
  | expression =>
      refine ⟨rfl, ?_, rfl⟩
      by_contra hopen
      obtain ⟨top, rest, hentries⟩ := List.exists_cons_of_ne_nil hopen
      have htop : nesting.expressions.top? = some top := by rw [Stack.top?, hentries]; rfl
      by_cases hscript : top.stateBehind = .expression
      · simp [transition, Rule.expression, htop, hscript] at h
      · simp [transition, Rule.expression, htop, hscript] at h
  | _ => cases hreads

/-- The brace that closes nothing in a fragment closes the brace around it. -/
theorem Context.AtStrayBrace.transition_eq {context : Context} {c : Char} {cs : List Char}
    (h : context.AtStrayBrace (c :: cs)) : c = '}' ∧
      context.transition c cs = ⟨.badCharacter, 0, .expression, .keep⟩ ∧
      context.enclosed.transition c cs = ⟨.expressionEnd, 0, .content, .closeExpression⟩ := by
  obtain ⟨state, nesting⟩ := context
  obtain ⟨rfl, hnone, hbrace⟩ := h
  change nesting.expressions.entries = [] at hnone
  obtain rfl : '}' = c := by
    rw [begins, List.isPrefixOf_cons_cons, Bool.and_eq_true, beq_iff_eq] at hbrace
    exact hbrace.1
  have houter : nesting.expressions.top? = none := by rw [Stack.top?, hnone]; rfl
  have hinner : nesting.enclosed.expressions.top? = some .outermost := by
    simp [Stack.top?, Nesting.enclosed, hnone]
  refine ⟨rfl, ?_, ?_⟩
  · simp only [transition, Rule.expression, houter]
    rfl
  · simp only [transition, enclosed, Rule.expression, hinner]
    rfl

namespace Cursor

variable {cursor : Cursor} {text : List Char} {stop : Nat} {token : Token}

theorem token?_tape_cons (form : Form) (offset : Nat) (context : Context) (c : Char)
    (cs : List Char) :
    ((Cursor.mk offset context (c :: cs)).tape form).token? =
      some ⟨(context.transition c cs).kind, offset,
        offset + byteLength (c :: cs.take (context.transition c cs).more)⟩ := by
  rw [tape_cons]
  rfl

theorem strayBrace_iff (hwithin : cursor.Within text stop)
    (htoken : (cursor.tape .fragment).token? = some token) :
    token.StrayBrace text ↔ cursor.AtStrayBrace := by
  obtain ⟨offset, context, rest⟩ := cursor
  cases rest with
  | nil =>
      rw [tape_nil] at htoken
      cases htoken
  | cons c cs =>
      rw [token?_tape_cons] at htoken
      obtain rfl := Option.some.inj htoken
      constructor
      · rintro ⟨hkind, behind, hspans⟩
        obtain rfl : '}' = c := hspans.head_eq hwithin
        exact Context.atStrayBrace_of_kind hkind
      · intro hstray
        obtain ⟨rfl, htransition, -⟩ := hstray.transition_eq
        have hfront : Spans text (['}'] ++ cs) offset stop := hwithin
        refine ⟨congrArg Transition.kind htransition, [], ?_⟩
        simp only [htransition]
        exact hfront.of_append_left

theorem exists_token?_of_atStrayBrace (h : cursor.AtStrayBrace) :
    ∃ token, (cursor.tape .fragment).token? = some token := by
  obtain ⟨offset, context, rest⟩ := cursor
  cases rest with
  | nil => cases h.2.2
  | cons c cs => exact ⟨_, token?_tape_cons ..⟩

theorem place_enclosed (cursor : Cursor) :
    Place.Enclosed (cursor.tape .fragment).place (cursor.enclosed.tape .document).place := by
  rw [place_tape, place_tape]
  exact ⟨rfl, rfl, rfl, rfl⟩

theorem token?_enclosed (hwithin : cursor.Within text stop) :
    Token.Enclosed text (cursor.tape .fragment).token? (cursor.enclosed.tape .document).token? := by
  cases htoken : (cursor.tape .fragment).token? with
  | none =>
      obtain ⟨offset, context, rest⟩ := cursor
      cases rest with
      | nil =>
          rw [enclosed, tape_nil]
          exact .ended
      | cons c cs =>
          rw [token?_tape_cons] at htoken
          cases htoken
  | some token =>
      have hstray := strayBrace_iff hwithin htoken
      obtain ⟨offset, context, rest⟩ := cursor
      cases rest with
      | nil =>
          rw [tape_nil] at htoken
          cases htoken
      | cons c cs =>
          rw [token?_tape_cons] at htoken
          obtain rfl := Option.some.inj htoken
          rw [enclosed, token?_tape_cons]
          by_cases hbrace : context.AtStrayBrace (c :: cs)
          · obtain ⟨rfl, htransition, houter⟩ := hbrace.transition_eq
            simp only [htransition, houter, Nat.add_right_comm _ 1] at hstray ⊢
            exact .closing (hstray.mpr hbrace)
          · simp only [Context.transition_enclosed hbrace, Nat.add_right_comm _ 1]
            exact .inside (hstray.not.mpr hbrace)

end Cursor

/-- Behind the brace around a fragment. -/
theorem next_openBrace (cs : List Char) :
    (Cursor.mk 0 (contextOf .document 0) ('{' :: cs)).next .document =
      (Cursor.mk 0 (contextOf .fragment 0) cs).enclosed := by
  rfl

end Markup

namespace MarkupGrammar

/-- A fragment is read as a document that has an opening brace in front of it, up to the first closing
    brace that closes nothing in the fragment. -/
theorem fragment_reads_as_between_braces (text : String) :
    ∃ fragment document : Lexer MarkupGrammar Snapshot Nesting,
      (Lexer.idle ⟨.fragment⟩ : Lexer MarkupGrammar Snapshot Nesting).start
        text 0 text.utf8ByteSize 0 = .ok fragment ∧
      (Lexer.idle ⟨.document⟩ : Lexer MarkupGrammar Snapshot Nesting).start
        ("\x7b" ++ text) 0 (text.utf8ByteSize + 1) 0 = .ok document ∧
      document.tape.token? = some ⟨.expressionStart, 0, 1⟩ ∧
      ∀ n, (∀ i < n, ∀ token, fragment.tape.tokens[i]? = some token →
          ¬token.StrayBrace text.toList) →
        Place.Enclosed (Session.advanceTimes n fragment).tape.place
          (Session.advanceTimes (n + 1) document).tape.place ∧
        Token.Enclosed text.toList (Session.advanceTimes n fragment).tape.token?
          (Session.advanceTimes (n + 1) document).tape.token? := by
  let inside : Cursor := ⟨0, contextOf .fragment 0, text.toList⟩
  let around : Cursor := ⟨0, contextOf .document 0, '\x7b' :: text.toList⟩
  have hbytes : ('\x7b' : Char).utf8Size = 1 := rfl
  have hinside : inside.Within text.toList text.utf8ByteSize :=
    ⟨[], [], by simp [inside], rfl, byteLength_toList text⟩
  have haround : around.Within ("\x7b" ++ text).toList (text.utf8ByteSize + 1) :=
    ⟨[], [], by simp [around], rfl, by
      simp [around, byteLength_toList, hbytes, Nat.add_comm]⟩
  let idle (form : Form) : Lexer MarkupGrammar Snapshot Nesting := Lexer.idle ⟨form⟩
  have hread : Reader.start (idle .fragment).reader text 0 text.utf8ByteSize 0 =
      .ok (inside.tape .fragment) := Cursor.tape_eq hinside
  have hread' : Reader.start (idle .document).reader ("\x7b" ++ text) 0
      (text.utf8ByteSize + 1) 0 = .ok (around.tape .document) := Cursor.tape_eq haround
  obtain ⟨fragment, hfragment, htape, -⟩ := Lexer.start_of_read hread
  obtain ⟨document, hdocument, htape', -⟩ := Lexer.start_of_read hread'
  refine ⟨fragment, document, hfragment, hdocument, ?_, ?_⟩
  · rw [htape', Cursor.token?_tape_cons]
    rfl
  · intro n hnone
    rw [Lexer.tape_advanceTimes, Lexer.tape_advanceTimes, htape, htape', Tape.drop_succ,
      Cursor.advance_tape, next_openBrace, Cursor.drop_tape, Cursor.drop_tape]
    have hclear : ∀ i < n, ¬((Cursor.next .fragment)^[i] inside).AtStrayBrace := by
      intro i hi hstray
      obtain ⟨token, htoken⟩ := Cursor.exists_token?_of_atStrayBrace hstray
      refine hnone i hi token ?_ ((Cursor.strayBrace_iff (hinside.iterate i) htoken).mpr hstray)
      rw [← Tape.token?_drop, htape, Cursor.drop_tape]
      exact htoken
    have hsame := Cursor.iterate_enclosed hclear
    rw [hsame]
    exact ⟨Cursor.place_enclosed _, Cursor.token?_enclosed (hinside.iterate n)⟩

end MarkupGrammar

end Relex
