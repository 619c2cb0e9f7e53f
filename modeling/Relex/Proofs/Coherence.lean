import Relex.Proofs.Moves
import Relex.Proofs.Nesting
import Relex.Proofs.Run

/-! # State and nesting belong together

A lexer of the markup grammar that was started with nothing open never confuses what it reads with
where it stands: in which state it is follows from the braces and elements that are open, as far as
`Coherent` says. This is not preserved from token to token by itself. The invariant that is,
`Cursor.Sound`, also says how the braces stand inside one another, in front of which text the cursor
is, and that there is not enough text left to open 2²⁴ elements.
-/

namespace Relex

namespace Markup

open Text

/-- Where a state is read, in terms of what is open there. -/
def Standing (form : Form) (nesting : Nesting) : State → Prop
  | .initial | .frontmatter | .frontmatterClose => form = .document ∧ nesting = ∅
  | .content => nesting.ambientState form = .content
  | .expression => nesting.ambientState form = .expression
  | .attributes | .valueStart | .doubleQuotedValue | .singleQuotedValue =>
    nesting.outerDepth < nesting.elements.size
  | .rawText => ∃ name ∈ rawTextElements, nesting.innermost? = some name
  | .startTagName | .endTagName | .endTagBody | .comment => True
  | .unlisted _ _ => False

structure Sound (form : Form) (state : State) (nesting : Nesting) : Prop where
  nested : Nested form nesting.expressions.entries
  inside : nesting.outerDepth ≤ nesting.elements.size
  standing : Standing form nesting state

theorem standing_inTag {form : Form} {nesting : Nesting} {state : State} (hstate : state.InTag) :
    Standing form nesting state ↔ nesting.outerDepth < nesting.elements.size := by
  rcases hstate with rfl | rfl | rfl | rfl
  · exact Iff.rfl
  · exact Iff.rfl
  · exact Iff.rfl
  · exact Iff.rfl

theorem ambientState_eq_content_iff {form : Form} {nesting : Nesting}
    (hinside : nesting.outerDepth ≤ nesting.elements.size) :
    nesting.ambientState form = .content ↔
      (∀ brace ∈ nesting.expressions.top?, brace.depth < nesting.elements.size) ∧
        (nesting.expressions.top? = none → form = .fragment → 0 < nesting.elements.size) := by
  simp only [Nesting.outerDepth, Nesting.ambientState] at hinside ⊢
  cases htop : nesting.expressions.top? with
  | none =>
      simp [Stack.isEmpty, Nat.pos_iff_ne_zero]
  | some brace =>
      simp only [htop, Option.elim_some] at hinside
      simp [Nat.lt_iff_le_and_ne, hinside]

/-- Script is read where no element stands between the place and the innermost brace. -/
theorem ambientState_eq_expression_iff {form : Form} {nesting : Nesting} :
    nesting.ambientState form = .expression ↔
      nesting.elements.size = depthAround nesting.expressions.entries ∧
        (nesting.expressions.entries = [] → form = .fragment) := by
  simp only [Nesting.ambientState, Stack.top?]
  cases nesting.expressions.entries with
  | nil => simp [Stack.isEmpty, depthAround, and_comm]
  | cons brace outer => simp [depthAround, eq_comm]

/-- An open brace in a sound nesting, with the braces around it. -/
theorem Sound.restsOn_top {form : Form} {state : State} {nesting : Nesting} {brace : Opening}
    (h : Sound form state nesting) (htop : nesting.expressions.top? = some brace) :
    ∃ outer, nesting.expressions.entries = brace :: outer ∧ RestsOn form brace outer ∧
      Nested form outer := by
  obtain ⟨outer, hentries⟩ := List.head?_eq_some_iff.mp htop
  have hnested := h.nested
  rw [hentries] at hnested
  exact ⟨outer, hentries, hnested.head, hnested.tail⟩

/-! ## What a move preserves -/

theorem State.OpensBrace.code_behindBrace_lt {state : State} (hstate : state.OpensBrace) :
    state.behindBrace.code.toNat < 256 := by
  rcases hstate with rfl | rfl | rfl | rfl | rfl <;> decide

section Move

variable {form : Form} {nesting : Nesting} {ahead : List Char} {state next : State} {kind : Kind}
  {change : Change}

/-- A brace that is read where a state may stand rests on the braces that are open there. -/
theorem Sound.restsOn_opening (hsound : Sound form state nesting)
    (hroom : nesting.elements.size < Opening.depthLimit) (hstate : state.OpensBrace) :
    RestsOn form (nesting.opening state.behindBrace) nesting.expressions.entries := by
  have hcode := hstate.code_behindBrace_lt
  have hbehind : (nesting.opening state.behindBrace).stateBehind = state.behindBrace :=
    Opening.stateBehind_atDepth hcode
  have hdepth : (nesting.opening state.behindBrace).depth = nesting.elements.size :=
    Opening.depth_atDepth hcode hroom
  rcases hstate with rfl | rfl | rfl | rfl | rfl
  · refine .content hbehind ?_
    rw [hsound.standing.2]
    intro brace hbrace
    cases hbrace
  · have hcontent := (ambientState_eq_content_iff hsound.inside).mp hsound.standing
    refine .content hbehind ?_
    rw [hdepth]
    exact hcontent.1
  · refine .attributes hbehind ?_
    rw [hdepth]
    exact hsound.standing
  · refine .attributes hbehind ?_
    rw [hdepth]
    exact hsound.standing
  · obtain ⟨hsize, hform⟩ := ambientState_eq_expression_iff.mp hsound.standing
    exact .script hbehind (hdepth.trans hsize) hform

theorem Move.nested (hmove : Move nesting ahead state kind next change)
    (hsound : Sound form state nesting) (hroom : nesting.elements.size < Opening.depthLimit) :
    Nested form (nesting.apply change).expressions.entries := by
  cases hmove with
  | openBrace hstate => exact .cons (hsound.restsOn_opening hroom hstate) hsound.nested
  | closeBrace htop =>
      obtain ⟨outer, hentries, -, houter⟩ := hsound.restsOn_top htop
      rw [Nesting.entries_closeExpression hentries]
      exact houter
  | _ => rw [Nesting.expressions_apply]; exact hsound.nested

theorem Move.inside (hmove : Move nesting ahead state kind next change)
    (hsound : Sound form state nesting) (hroom : nesting.elements.size < Opening.depthLimit) :
    (nesting.apply change).outerDepth ≤ (nesting.apply change).elements.size := by
  have hkept := nesting.outerDepth_le_apply hsound.inside change
  rw [Nesting.outerDepth_eq] at hkept ⊢
  cases hmove with
  | openBrace hstate =>
      have hcode : state.behindBrace.code.toNat < 256 := hstate.code_behindBrace_lt
      exact Nat.le_of_eq (Opening.depth_atDepth hcode hroom)
  | closeBrace htop =>
      obtain ⟨outer, hentries, hrests, -⟩ := hsound.restsOn_top htop
      rw [Nesting.entries_closeExpression hentries]
      rw [hentries] at hkept
      exact Nat.le_trans hrests.depthAround_le hkept
  | _ => rw [Nesting.expressions_apply]; exact hkept

theorem Sound.standing_behind {brace : Opening} (hsound : Sound form .expression nesting)
    (htop : nesting.expressions.top? = some brace) :
    brace.stateBehind = .content ∨
      Standing form (nesting.apply .closeExpression) brace.stateBehind := by
  obtain ⟨outer, hentries, hrests, -⟩ := hsound.restsOn_top htop
  have hrest : (nesting.apply .closeExpression).expressions.entries = outer :=
    Nesting.entries_closeExpression hentries
  have hsize : nesting.elements.size = brace.depth := by
    have hexpression := (ambientState_eq_expression_iff.mp hsound.standing).1
    rw [hentries] at hexpression
    exact hexpression
  cases hrests with
  | content hbehind hdepth => exact .inl hbehind
  | attributes hbehind hdepth =>
      right
      rw [hbehind]
      change (nesting.apply .closeExpression).outerDepth < nesting.elements.size
      rw [Nesting.outerDepth_eq, hrest, hsize]
      exact hdepth
  | script hbehind hdepth hform =>
      right
      rw [hbehind]
      refine ambientState_eq_expression_iff.mpr ?_
      rw [hrest]
      exact ⟨hsize.trans hdepth, hform⟩

/-- Content stands for whatever is read outside tags, so nothing is to be shown of it. -/
theorem Move.standing (hmove : Move nesting ahead state kind next change)
    (hsound : Sound form state nesting) (hroom : nesting.elements.size < Opening.depthLimit) :
    next = .content ∨ Standing form (nesting.apply change) next := by
  cases hmove with
  | stay hahead => exact .inr hsound.standing
  | pass hnext =>
      rcases hnext with rfl | rfl | rfl | rfl
      · exact .inl rfl
      · exact .inr trivial
      · exact .inr trivial
      · exact .inr trivial
  | startTag hahead => exact .inr trivial
  | enterFrontmatter => exact .inr hsound.standing
  | leaveFrontmatter hahead => exact .inr hsound.standing
  | alongTag hstate hnext =>
      right
      rw [standing_inTag hnext]
      exact (standing_inTag hstate).mp hsound.standing
  | enterRawText hstate hname hraw => exact .inr ⟨_, hraw, hname⟩
  | openBrace hstate =>
      have hdepth := Opening.depth_atDepth hstate.code_behindBrace_lt hroom
      right
      refine ambientState_eq_expression_iff.mpr ⟨hdepth.symm, ?_⟩
      intro hnone
      cases hnone
  | closeBrace htop => exact hsound.standing_behind htop
  | openElement hnext =>
      rcases hnext with rfl | rfl
      · exact .inl rfl
      · right
        exact Nat.lt_succ_of_le hsound.inside
  | closeElement hnext =>
      rcases hnext with rfl | rfl
      · exact .inl rfl
      · exact .inr trivial
  | leaveElement hstate => exact .inl rfl

/-- A state is entered in front of the text that it expects, if behind a closing brace only markup or
    script can follow. -/
theorem Move.expected_of_behind (hmove : Move nesting ahead state kind next change)
    (hbehind : ∀ brace ∈ nesting.expressions.top?, brace.stateBehind = .content ∨
      brace.stateBehind = .attributes ∨ brace.stateBehind = .expression) : Expects next ahead := by
  cases hmove with
  | stay hahead => exact hahead
  | pass hnext => rcases hnext with rfl | rfl | rfl | rfl <;> trivial
  | startTag hahead => exact hahead
  | leaveFrontmatter hahead => exact hahead
  | alongTag hstate hnext => rcases hnext with rfl | rfl | rfl | rfl <;> trivial
  | closeBrace htop =>
      rcases hbehind _ htop with hbehind | hbehind | hbehind
      · rw [hbehind]; trivial
      · rw [hbehind]; trivial
      · rw [hbehind]; trivial
  | openElement hnext => rcases hnext with rfl | rfl <;> trivial
  | closeElement hnext => rcases hnext with rfl | rfl <;> trivial
  | _ => trivial

theorem Move.expected (hmove : Move nesting ahead state kind next change)
    (hsound : Sound form state nesting) : Expects next ahead := by
  apply hmove.expected_of_behind
  intro brace htop
  obtain ⟨outer, -, hrests, -⟩ := hsound.restsOn_top htop
  exact hrests.stateBehind_cases

/-- Where content stands for what is read outside tags, that state may stand there. -/
theorem standing_ambient (h : next = .content ∨ Standing form nesting next) :
    Standing form nesting (if next = .content then nesting.ambientState form else next) := by
  split
  · rcases nesting.ambientState_cases form with hambient | hambient
    · rw [hambient]
      exact hambient
    · rw [hambient]
      exact hambient
  · rename_i hnext
    exact h.resolve_left hnext

theorem expects_ambient (h : Expects next ahead) :
    Expects (if next = .content then nesting.ambientState form else next) ahead := by
  split
  · rcases nesting.ambientState_cases form with hambient | hambient
    · rw [hambient]
      trivial
    · rw [hambient]
      trivial
  · exact h

end Move

namespace Cursor

variable {form : Form} {cursor : Cursor}

/-- What a cursor does at one token. -/
inductive Step (form : Form) (cursor : Cursor) : Prop
  | ended (hnext : cursor.next form = cursor)
  | moved {kind : Kind} {next : State} {change : Change}
      (hmove : Move cursor.context.nesting (cursor.next form).rest cursor.context.state kind next
        change)
      (hkind : (cursor.tape form).kind? = some kind)
      (hnesting : (cursor.next form).context.nesting = cursor.context.nesting.apply change)
      (hstate : (cursor.next form).context.state =
        if next = .content then (cursor.next form).context.nesting.ambientState form else next)
      (hrest : byteLength (cursor.next form).rest < byteLength cursor.rest)

theorem step (hexpected : Expects cursor.context.state cursor.rest) : cursor.Step form := by
  obtain ⟨offset, context, rest⟩ := cursor
  cases rest with
  | nil => exact .ended rfl
  | cons c cs =>
      have hmove := Context.moves context c cs hexpected
      refine .moved hmove ?_ rfl rfl ?_
      · rw [tape_cons]
        rfl
      · have hpos := byteLength_pos c (cs.take (context.transition c cs).more)
        calc
          byteLength (cs.drop (context.transition c cs).more)
              < byteLength (c :: cs.take (context.transition c cs).more) +
                  byteLength (cs.drop (context.transition c cs).more) := by omega
          _ = byteLength (c :: cs) := by
              rw [← byteLength_append, List.cons_append, List.take_append_drop]

structure Sound (form : Form) (cursor : Cursor) : Prop where
  coheres : Markup.Sound form cursor.context.state cursor.context.nesting
  expected : Expects cursor.context.state cursor.rest
  room : cursor.context.nesting.elements.size + byteLength cursor.rest < Opening.depthLimit

theorem Sound.few_elements (h : cursor.Sound form) :
    cursor.context.nesting.elements.size < Opening.depthLimit :=
  Nat.lt_of_le_of_lt (Nat.le_add_right _ _) h.room

theorem Sound.next (h : cursor.Sound form) : (cursor.next form).Sound form := by
  cases step h.expected with
  | ended hnext => rw [hnext]; exact h
  | moved hmove _ hnesting hstate hrest =>
      have hroom := h.room
      have hgrowth := cursor.context.nesting.elements_apply_size_le
      refine ⟨⟨?_, ?_, ?_⟩, ?_, ?_⟩
      · rw [hnesting]
        exact hmove.nested h.coheres h.few_elements
      · rw [hnesting]
        exact hmove.inside h.coheres h.few_elements
      · rw [hstate, hnesting]
        exact standing_ambient (hmove.standing h.coheres h.few_elements)
      · rw [hstate]
        exact expects_ambient (hmove.expected h.coheres)
      · -- A token opens at most one element, and it takes at least one byte off the text.
        calc
          (cursor.next form).context.nesting.elements.size + byteLength (cursor.next form).rest
              ≤ cursor.context.nesting.elements.size + 1 + byteLength (cursor.next form).rest := by
                rw [hnesting]
                exact Nat.add_le_add_right (hgrowth _) _
          _ ≤ cursor.context.nesting.elements.size + byteLength cursor.rest := by omega
          _ < Opening.depthLimit := hroom

/-- A cursor that starts with nothing open, in front of a text that is short enough, is sound. -/
theorem Sound.start (form : Form) (offset : Nat) {text : List Char}
    (hroom : byteLength text < Opening.depthLimit) :
    (Cursor.mk offset (contextOf form 0) text).Sound form := by
  have hsize : 0 + byteLength text < Opening.depthLimit := by omega
  cases form with
  | document => exact ⟨⟨.nil, Nat.le_refl _, rfl, rfl⟩, trivial, hsize⟩
  | fragment =>
      have hscript : Standing .fragment ∅ .expression :=
        ambientState_eq_expression_iff.mpr ⟨rfl, fun _ => rfl⟩
      exact ⟨⟨.nil, Nat.le_refl _, hscript⟩, trivial, hsize⟩

theorem Sound.iterate (h : cursor.Sound form) (n : Nat) :
    ((Cursor.next form)^[n] cursor).Sound form := by
  induction n with
  | zero => exact h
  | succ n ih => rw [Function.iterate_succ_apply']; exact ih.next

end Cursor

/-! ## What the invariant says of a place -/

/-- How the state of a place, the open braces and the open elements belong together. -/
structure Coherent (form : Form) (state : State) (nesting : Nesting) : Prop where
  behind : ∀ brace ∈ nesting.expressions.entries,
    brace.stateBehind = .content ∨ brace.stateBehind = .attributes ∨
      brace.stateBehind = .expression
  ascending :
    (nesting.expressions.toList.map Opening.depth ++ [nesting.elements.size]).Pairwise (· ≤ ·)
  above : ∀ inner brace below outer,
    nesting.expressions.entries = inner ++ brace :: below :: outer →
      if brace.stateBehind = .expression then brace.depth = below.depth
      else below.depth < brace.depth
  bottom : ∀ inner brace, nesting.expressions.entries = inner ++ [brace] →
    brace.stateBehind = .expression → brace.depth = 0 ∧ form = .fragment
  attributes : ∀ brace ∈ nesting.expressions.entries, brace.stateBehind = .attributes →
    1 ≤ brace.depth
  inExpression : state = .expression →
    (∀ brace ∈ nesting.expressions.top?, brace.depth = nesting.elements.size) ∧
      (nesting.expressions.top? = none → form = .fragment ∧ nesting.elements.size = 0)
  inContent : state = .content →
    (∀ brace ∈ nesting.expressions.top?, brace.depth < nesting.elements.size) ∧
      (nesting.expressions.top? = none → form = .fragment → 0 < nesting.elements.size)
  inTag : state.InTag →
    (∀ brace ∈ nesting.expressions.top?, brace.depth < nesting.elements.size) ∧
      (nesting.expressions.top? = none → 0 < nesting.elements.size)
  inRawText : state = .rawText →
    (∀ brace ∈ nesting.expressions.top?, brace.depth < nesting.elements.size) ∧
      (nesting.expressions.top? = none → 0 < nesting.elements.size) ∧
      ∃ name, nesting.elements.top? = some name ∧ (name = "script" ∨ name = "style")

theorem around_of_outerDepth_lt {nesting : Nesting}
    (h : nesting.outerDepth < nesting.elements.size) :
    (∀ brace ∈ nesting.expressions.top?, brace.depth < nesting.elements.size) ∧
      (nesting.expressions.top? = none → 0 < nesting.elements.size) := by
  rw [Nesting.outerDepth] at h
  refine ⟨?_, fun _ => Nat.zero_lt_of_lt h⟩
  intro brace hbrace
  rw [Option.mem_def.mp hbrace] at h
  exact h

theorem Sound.coherent {form : Form} {state : State} {nesting : Nesting}
    (h : Sound form state nesting) : Coherent form state nesting where
  behind := by
    intro brace hbrace
    obtain ⟨inner, outer, hentries⟩ := List.append_of_mem hbrace
    exact (hentries ▸ h.nested).of_append.head.stateBehind_cases
  ascending := by
    rw [Stack.toList, List.map_reverse, List.pairwise_append]
    refine ⟨?_, List.pairwise_singleton _ _, ?_⟩
    · rw [List.pairwise_reverse, List.pairwise_map]
      exact h.nested.descending
    · intro depth hdepth size hsize
      obtain ⟨brace, hbrace, rfl⟩ := List.mem_map.mp (List.mem_reverse.mp hdepth)
      rw [List.mem_singleton.mp hsize]
      exact Nat.le_trans (h.nested.depth_le hbrace) h.inside
  above := by
    intro inner brace below outer hentries
    cases (hentries ▸ h.nested).of_append.head with
    | content hbehind hdepth =>
        rw [hbehind]
        exact hdepth below rfl
    | attributes hbehind hdepth =>
        rw [hbehind]
        exact hdepth
    | script hbehind hdepth hform =>
        rw [hbehind]
        exact hdepth
  bottom := by
    intro inner brace hentries hscript
    cases (hentries ▸ h.nested).of_append.head with
    | content hbehind hdepth => cases hbehind.symm.trans hscript
    | attributes hbehind hdepth => cases hbehind.symm.trans hscript
    | script hbehind hdepth hform => exact ⟨hdepth, hform rfl⟩
  attributes := by
    intro brace hbrace hattributes
    obtain ⟨inner, outer, hentries⟩ := List.append_of_mem hbrace
    cases (hentries ▸ h.nested).of_append.head with
    | content hbehind hdepth => cases hbehind.symm.trans hattributes
    | attributes hbehind hdepth => exact Nat.one_le_of_lt hdepth
    | script hbehind hdepth hform => cases hbehind.symm.trans hattributes
  inExpression := by
    rintro rfl
    obtain ⟨hsize, hform⟩ := ambientState_eq_expression_iff.mp h.standing
    refine ⟨?_, ?_⟩
    · intro brace hbrace
      obtain ⟨outer, hentries, -, -⟩ := h.restsOn_top hbrace
      rw [hsize, hentries]
      rfl
    · intro hnone
      have hentries := List.head?_eq_none_iff.mp hnone
      rw [hsize, hentries]
      exact ⟨hform hentries, rfl⟩
  inContent := by
    rintro rfl
    exact (ambientState_eq_content_iff h.inside).mp h.standing
  inTag := by
    intro hstate
    exact around_of_outerDepth_lt ((standing_inTag hstate).mp h.standing)
  inRawText := by
    rintro rfl
    obtain ⟨name, hraw, hname⟩ := h.standing
    obtain ⟨hreach, htop⟩ := Nesting.innermost?_eq_some hname
    obtain ⟨hsome, hnone⟩ := around_of_outerDepth_lt hreach
    refine ⟨hsome, hnone, name, htop, ?_⟩
    simpa only [rawTextElements, List.mem_cons, List.not_mem_nil, or_false] using hraw

end Markup

namespace MarkupGrammar

open Markup

/-- A lexer that starts with nothing open moves over its region as a cursor does. -/
theorem exists_text_of_start {lexer started : Lexer MarkupGrammar Snapshot Nesting}
    {source : String} {start stop : Nat} (hstarted : lexer.start source start stop 0 = .ok started) :
    ∃ text, (text = [] ∨ Text.Spans source.toList text start stop) ∧
      Text.byteLength text ≤ source.utf8ByteSize ∧ ∀ n,
        (Session.advanceTimes n started).tape =
          ((Cursor.next lexer.reader.form)^[n]
            ⟨start, contextOf lexer.reader.form 0, text⟩).tape lexer.reader.form := by
  let form := lexer.reader.form
  have hread : Markup.tape form source stop ⟨start, contextOf form 0⟩ = .ok started.tape :=
    Lexer.read_of_start hstarted
  have hraw : (contextOf form 0).state ≠ .rawText := by
    cases form <;> decide
  obtain ⟨text, htext, htape⟩ := Cursor.exists_of_tape hraw hread
  refine ⟨text, htext, ?_, ?_⟩
  · rcases htext with rfl | hspans
    · exact Nat.zero_le _
    · have hstop := hspans.stop_eq
      have hle := hspans.stop_le
      rw [Text.byteLength_toList] at hle
      omega
  · intro n
    rw [Lexer.tape_advanceTimes, htape, Cursor.drop_tape]

/-- A lexer that starts with nothing open starts soundly, and it moves as a cursor does. -/
theorem start_sound {lexer started : Lexer MarkupGrammar Snapshot Nesting} {source : String}
    {start stop : Nat} (hsize : source.utf8ByteSize < Opening.depthLimit)
    (hstarted : lexer.start source start stop 0 = .ok started) :
    ∃ cursor : Cursor, cursor.Sound lexer.reader.form ∧ ∀ n,
      (Session.advanceTimes n started).tape =
        ((Cursor.next lexer.reader.form)^[n] cursor).tape lexer.reader.form := by
  obtain ⟨text, -, hlength, htape⟩ := exists_text_of_start hstarted
  exact ⟨_, Cursor.Sound.start _ start (Nat.lt_of_le_of_lt hlength hsize), htape⟩

/-- Wherever a lexer of the markup grammar gets to, the state, the open braces and the open
    elements belong together, as long as the source is too short to overflow a depth. -/
theorem places_cohere (lexer started : Lexer MarkupGrammar Snapshot Nesting) (source : String)
    (start stop : Nat) (hsize : source.utf8ByteSize < Opening.depthLimit)
    (hstarted : lexer.start source start stop 0 = .ok started) (n : Nat) :
    Coherent lexer.reader.form (.ofCode (Session.advanceTimes n started).tape.place.state)
      (Session.advanceTimes n started).tape.place.live := by
  obtain ⟨cursor, hsound, htape⟩ := start_sound hsize hstarted
  rw [htape n, Cursor.ofCode_state_tape, Cursor.live_tape]
  exact (hsound.iterate n).coheres.coherent

theorem places_cohere_in_attribute :
    "<p a=\x7b<b>\x7bx".utf8ByteSize < Opening.depthLimit ∧
      ∃ started : Lexer MarkupGrammar Snapshot Nesting,
        (Lexer.idle ⟨.document⟩ : Lexer MarkupGrammar Snapshot Nesting).start
          "<p a=\x7b<b>\x7bx" 0 11 0 = .ok started ∧
        (Session.advanceTimes 10 started).tape.place.live.expressions.size = 2 ∧
        Coherent .document (.ofCode (Session.advanceTimes 10 started).tape.place.state)
          (Session.advanceTimes 10 started).tape.place.live := by
  let lexer : Lexer MarkupGrammar Snapshot Nesting := Lexer.idle ⟨.document⟩
  have hsize : "<p a=\x7b<b>\x7bx".utf8ByteSize < Opening.depthLimit := by decide
  have hbraces : ((lexer.start "<p a=\x7b<b>\x7bx" 0 11 0).toOption.any fun started =>
      (Session.advanceTimes 10 started).tape.place.live.expressions.size == 2) = true := by
    decide +kernel
  cases hstarted : lexer.start "<p a=\x7b<b>\x7bx" 0 11 0 with
  | error error =>
      rw [hstarted] at hbraces
      cases hbraces
  | ok started =>
      rw [hstarted] at hbraces
      exact ⟨hsize, started, rfl, beq_iff_eq.mp hbraces,
        places_cohere lexer started _ 0 11 hsize hstarted 10⟩

end MarkupGrammar

end Relex
