import Relex.Proofs.RawText

/-! # Beyond the depths that a brace can count

A brace keeps the number of elements around it in three bytes, so the number is taken modulo 2²⁴
(`Opening.depth_atDepth_eq_mod`), while its state is never lost. Directly behind the brace nothing
shows of this. But the first element that is closed again leads back to what the nesting says is
read there (`Nesting.ambientState_inBraces`), and from 2²⁴ elements on that is content instead of
script.
-/

namespace Relex

namespace Markup

open Text

namespace Opening

variable {behind : State} {depth : Nat}

/-- What goes beyond three bytes is lost. -/
theorem atDepth_mod (behind : State) (depth : Nat) :
    atDepth behind (depth % depthLimit) = atDepth behind depth := by
  have hword : UInt32.ofNat (depth % depthLimit) <<< 8 = UInt32.ofNat depth <<< 8 := by
    apply UInt32.toNat_inj.mp
    simp only [UInt32.toNat_shiftLeft, UInt32.toNat_ofNat', UInt32.reduceToNat, Nat.shiftLeft_eq,
      Nat.reducePow, Nat.reduceMod, depthLimit]
    omega
  rw [atDepth, hword, atDepth]

theorem depth_atDepth_eq_mod (hbehind : behind.code.toNat < 256) :
    (atDepth behind depth).depth = depth % depthLimit := by
  rw [← atDepth_mod]
  exact depth_atDepth hbehind (Nat.mod_lt depth (by decide))

end Opening

namespace Nesting

variable {nesting : Nesting} {behind : State} {change : Change}

theorem outerDepth_inBraces (hbehind : behind.code.toNat < 256) :
    (nesting.inBraces behind).outerDepth = nesting.elements.size % Opening.depthLimit :=
  Opening.depth_atDepth_eq_mod hbehind

/-- Directly inside braces there is script, as long as they can count the elements around them. -/
theorem ambientState_inBraces (form : Form) (hbehind : behind.code.toNat < 256) :
    (nesting.inBraces behind).ambientState form =
      if nesting.elements.size < Opening.depthLimit then .expression else .content := by
  have hlimit : Opening.depthLimit ≠ 0 := by decide
  change (if (nesting.inBraces behind).outerDepth = nesting.elements.size then State.expression
    else .content) = _
  simp only [outerDepth_inBraces hbehind, Nat.mod_eq_iff_lt hlimit]

theorem exists_opening_of_lt
    (h : nesting.expressions.size < (nesting.apply change).expressions.size) :
    ∃ opening, change = .openExpression opening := by
  rw [expressions_apply] at h
  cases change with
  | openExpression opening => exact ⟨opening, rfl⟩
  | closeExpression => exact absurd h (Nat.not_lt.mpr (Nat.sub_le _ _))
  | _ => exact absurd h (Nat.lt_irrefl _)

end Nesting

section Reading

variable {form : Form} {ground : Ground} {nesting : Nesting} {behind : State} {rest : List Char}

/-- An element without attributes and content. -/
theorem reads_selfClosing (name : TagName) (hinside : nesting.outerDepth ≤ nesting.elements.size) :
    Reads form ⟨ground.state, nesting⟩ (name.startTag ['/', '>']) rest
      ⟨nesting.ambientState form, nesting⟩ := by
  have hprint : name.startTag ['/', '>'] = name.startTag [] ++ ['/', '>'] := by
    simp [TagName.startTag]
  have hstart : Reads form ⟨ground.state, nesting⟩ (name.startTag []) (['/', '>'] ++ rest)
      ⟨.attributes, nesting.inElement name.text⟩ :=
    reads_startTag name .nil (forall_head_cons (by decide))
  rw [hprint]
  exact hstart.append (reads_emptyElementEnd hinside)

/-- Such an element directly behind a brace leads back to script, or to content beyond the limit. -/
theorem reads_selfClosing_inBraces (name : TagName) (hbehind : behind.code.toNat < 256) :
    Reads form ⟨.expression, nesting.inBraces behind⟩ (name.startTag ['/', '>']) rest
      ⟨if nesting.elements.size < Opening.depthLimit then .expression else .content,
        nesting.inBraces behind⟩ := by
  have hinside : (nesting.inBraces behind).outerDepth ≤
      (nesting.inBraces behind).elements.size := by
    rw [Nesting.outerDepth_inBraces hbehind]
    exact Nat.mod_le _ _
  have hread : Reads form ⟨Ground.script.state, nesting.inBraces behind⟩
      (name.startTag ['/', '>']) rest _ := reads_selfClosing name hinside
  rw [Nesting.ambientState_inBraces form hbehind] at hread
  exact hread

/-- Moving past a token opens no braces but those of an expression. -/
theorem Cursor.Arrived.next_of_lt {cursor : Cursor} (h : cursor.Arrived form)
    (hlt : cursor.context.nesting.expressions.size <
      (cursor.next form).context.nesting.expressions.size) :
    cursor.context.state.OpensBrace ∧ (cursor.next form).context =
      ⟨.expression, cursor.context.nesting.inBraces cursor.context.state.behindBrace⟩ := by
  cases step h.expected with
  | ended hnext =>
      rw [hnext] at hlt
      exact absurd hlt (Nat.lt_irrefl _)
  | moved hmove _ hnesting hstate _ =>
      rw [hnesting] at hlt
      obtain ⟨opening, rfl⟩ := Nesting.exists_opening_of_lt hlt
      obtain ⟨offset, ⟨state, nesting⟩, rest⟩ := cursor
      cases hmove with
      | openBrace hopens => exact ⟨hopens, congrArg₂ Context.mk hstate hnesting⟩

end Reading

/-! ## A text that reaches the limit -/

/-- The start tags of elements without names. -/
def unnamedStartTags : Nat → List Char
  | 0 => []
  | count + 1 => '<' :: '>' :: unnamedStartTags count

/-- Inside elements without names, each of which stands in the one before. -/
def Nesting.inUnnamed (nesting : Nesting) : Nat → Nesting
  | 0 => nesting
  | count + 1 => (nesting.inElement "").inUnnamed count

section Unnamed

variable {nesting : Nesting} {rest : List Char}

theorem Nesting.size_inUnnamed (nesting : Nesting) (count : Nat) :
    (nesting.inUnnamed count).elements.size = nesting.elements.size + count := by
  induction count generalizing nesting with
  | zero => rfl
  | succ count ih =>
      calc
        ((nesting.inElement "").inUnnamed count).elements.size
            = nesting.elements.size + 1 + count := ih _
        _ = nesting.elements.size + (count + 1) := by omega

/-- Outside all braces a document has content. -/
theorem reads_unnamedTagEnd (hbraces : nesting.expressions.top? = none) :
    Reads .document ⟨.startTagName, nesting⟩ ['>'] rest ⟨.content, nesting.inElement ""⟩ := by
  have hambient : (nesting.inElement "").ambientState .document = .content := by
    simp [Nesting.ambientState, Nesting.inElement, Nesting.apply, hbraces]
  exact reads_token rfl rfl (congrArg (Context.mk · _) hambient)

theorem reads_unnamedStartTags (count : Nat) (hbraces : nesting.expressions.top? = none) :
    Reads .document ⟨.content, nesting⟩ (unnamedStartTags count) rest
      ⟨.content, nesting.inUnnamed count⟩ := by
  induction count generalizing nesting with
  | zero => exact .nil
  | succ count ih =>
      have hsign : Reads .document ⟨.content, nesting⟩ ['<']
          (['>'] ++ (unnamedStartTags count ++ rest)) ⟨.startTagName, nesting⟩ :=
        reads_token rfl rfl rfl
      have htag : Reads .document ⟨.content, nesting⟩ ['<', '>'] (unnamedStartTags count ++ rest)
          ⟨.content, nesting.inElement ""⟩ := hsign.append (reads_unnamedTagEnd hbraces)
      exact htag.append (ih hbraces)

theorem reads_brace_in_unnamed (count : Nat) :
    Reads .document (contextOf .document 0) (unnamedStartTags count ++ ['{']) rest
      ⟨.expression, ((∅ : Nesting).inUnnamed count).inBraces .content⟩ := by
  cases count with
  | zero => exact reads_token rfl rfl rfl
  | succ count =>
      have hsign : Reads .document (contextOf .document 0) ['<']
          (['>'] ++ (unnamedStartTags count ++ ['{'] ++ rest)) ⟨.startTagName, ∅⟩ :=
        reads_token rfl rfl rfl
      have htag : Reads .document (contextOf .document 0) ['<', '>']
          (unnamedStartTags count ++ ['{'] ++ rest) ⟨.content, (∅ : Nesting).inElement ""⟩ :=
        hsign.append (reads_unnamedTagEnd rfl)
      have hbrace : Reads .document
          ⟨Ground.content.state, ((∅ : Nesting).inElement "").inUnnamed count⟩ ['{'] rest
          ⟨.expression, (((∅ : Nesting).inElement "").inUnnamed count).inBraces .content⟩ :=
        reads_openingBrace
      exact htag.append ((reads_unnamedStartTags count rfl).append hbrace)

end Unnamed

end Markup

namespace MarkupGrammar

open Text Markup

/-- Wherever a lexer gets to that started with nothing open, an opening brace keeps the state behind
    it, and the number of elements around it modulo the limit. An element that is closed again
    directly behind the brace leads back to script below the limit, and to content beyond it. -/
theorem braces_count_modulo_limit (lexer started : Lexer MarkupGrammar Snapshot Nesting)
    (source : String) (start stop : Nat)
    (hstarted : lexer.start source start stop 0 = .ok started) (n : Nat) :
    let here := (Session.advanceTimes n started).tape.place
    let inside := (Session.advanceTimes (n + 1) started).tape.place
    here.live.expressions.size < inside.live.expressions.size →
    ∃ brace, inside.state = State.expression.code ∧ inside.live.elements = here.live.elements ∧
      inside.live.expressions = here.live.expressions.push brace ∧
      brace.stateBehind = (State.ofCode here.state).behindBrace ∧
      brace.depth = here.live.elements.size % Opening.depthLimit ∧
      ∀ (name : TagName) (rest : List Char),
        Spans source.toList (name.startTag ['/', '>'] ++ rest) inside.offset stop →
        ∃ m, (Session.advanceTimes (n + 1 + m) started).tape.place =
          placeAt (inside.offset + byteLength (name.startTag ['/', '>']))
            ⟨if here.live.elements.size < Opening.depthLimit then .expression else .content,
              inside.live⟩ := by
  obtain ⟨cursor, harrived, hregion, htape⟩ := exists_arrived hstarted n
  have hhere : (Session.advanceTimes n started).tape = cursor.tape lexer.reader.form := htape 0
  simp only [hhere, htape 1, Function.iterate_one, Cursor.place_tape, placeAt]
  intro hlt
  obtain ⟨hopens, hcontext⟩ := harrived.next_of_lt hlt
  have hcode := hopens.code_behindBrace_lt
  rw [hcontext]
  let brace := cursor.context.nesting.opening cursor.context.state.behindBrace
  refine ⟨brace, rfl, rfl, rfl, ?_, ?_, ?_⟩
  · rw [State.ofCode_code]
    exact Opening.stateBehind_atDepth hcode
  · exact Opening.depth_atDepth_eq_mod hcode
  · intro name rest hspans
    have hwithin : cursor.Within source.toList stop := by
      refine hregion.resolve_left ?_
      rintro rfl
      exact Nat.lt_irrefl _ hlt
    have hinside : cursor.next lexer.reader.form = ⟨(cursor.next lexer.reader.form).offset,
        ⟨.expression, cursor.context.nesting.inBraces cursor.context.state.behindBrace⟩,
        name.startTag ['/', '>'] ++ rest⟩ := by
      rw [← hcontext, ← hwithin.next.unique hspans]
    obtain ⟨m, hm⟩ := reads_selfClosing_inBraces name hcode _
    refine ⟨m, ?_⟩
    rw [Nat.add_assoc, Nat.add_comm 1, htape, Function.iterate_succ_apply, hinside, hm,
      Cursor.place_tape]
    rfl

/-- The limit is reached by a text: behind so many start tags script is taken for content once an
    element in it is closed. -/
theorem script_ends_beyond_limit (count : Nat) (name : TagName) :
    let source := String.ofList
      (unnamedStartTags count ++ ['{'] ++ name.startTag ['/', '>'])
    ∃ started, (Lexer.idle ⟨.document⟩ : Lexer MarkupGrammar Snapshot Nesting).start
        source 0 source.utf8ByteSize 0 = .ok started ∧
      ∃ n, (Session.advanceTimes n started).tape.place = placeAt source.utf8ByteSize
        ⟨if count < Opening.depthLimit then .expression else .content,
          ((∅ : Nesting).inUnnamed count).inBraces .content⟩ := by
  intro source
  let lexer : Lexer MarkupGrammar Snapshot Nesting := Lexer.idle ⟨.document⟩
  obtain ⟨started, hstarted, htape⟩ := exists_start lexer 0 (spans_whole source)
  refine ⟨started, hstarted, ?_⟩
  have hread : Reads .document (contextOf .document 0)
      (unnamedStartTags count ++ ['{'] ++ name.startTag ['/', '>']) []
      ⟨if count < Opening.depthLimit then .expression else .content,
        ((∅ : Nesting).inUnnamed count).inBraces .content⟩ := by
    have helement : Reads .document
        ⟨.expression, ((∅ : Nesting).inUnnamed count).inBraces .content⟩
        (name.startTag ['/', '>']) [] _ := reads_selfClosing_inBraces name (by decide)
    have hsize : ((∅ : Nesting).inUnnamed count).elements.size = count :=
      (Nesting.size_inUnnamed _ _).trans (Nat.zero_add _)
    rw [hsize] at helement
    exact (reads_brace_in_unnamed count).append helement
  rw [← String.toList_ofList (l := unnamedStartTags count ++ ['{'] ++ _)] at hread
  obtain ⟨n, hn⟩ := hread 0
  rw [List.append_nil, byteLength_toList, Nat.zero_add] at hn
  refine ⟨n, ?_⟩
  rw [htape]
  exact (congrArg (fun cursor => (Cursor.tape .document cursor).place) hn).trans
    (Cursor.place_tape _ _)

end MarkupGrammar

end Relex
