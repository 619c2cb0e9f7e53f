import Relex.Document
import Relex.Proofs.Run

/-! # Coverage

The tokens of a region cover it: the first begins where the region begins, each next one where the
one before it ends, the last ends where the region ends, and none is empty. Markup and script take
at least a character off the front of the text at every token. Grouping and expanding replace
neighbouring tokens by others that cover the same range.
-/

namespace Relex

open Text

/-- The tokens cover the text from the second offset to the first without gap or overlap. None is
    empty, and none begins or ends inside a character. -/
inductive Covers (text : List Char) (stop : Nat) : (start : Nat) → List Token → Prop
  | nil : Covers text stop stop []
  | cons {start : Nat} {token : Token} {tokens : List Token} :
      token.start = start → token.start < token.stop → Boundary text token.start →
      Boundary text token.stop → Covers text stop token.stop tokens →
      Covers text stop start (token :: tokens)

namespace Covers

variable {text : List Char} {start stop middle : Nat} {token : Token} {tokens later : List Token}

theorem append (h : Covers text middle start tokens) (hlater : Covers text stop middle later) :
    Covers text stop start (tokens ++ later) := by
  induction h with
  | nil => exact hlater
  | cons hstart hlt hb hb' _ ih => exact .cons hstart hlt hb hb' ih

/-- Behind a first token and some more, the rest covers from a boundary further on. -/
theorem behind (h : Covers text stop start (token :: (tokens ++ later))) :
    ∃ middle, start < middle ∧ Boundary text middle ∧ Covers text stop middle later := by
  induction tokens generalizing start token with
  | nil =>
      cases h with
      | cons hstart hlt _ hb' hlater => exact ⟨token.stop, by omega, hb', hlater⟩
  | cons next tokens ih =>
      cases h with
      | cons hstart hlt _ _ hrest =>
          obtain ⟨middle, hmiddle, hb, hlater⟩ := ih hrest
          exact ⟨middle, by omega, hb, hlater⟩

theorem length_le (h : Covers text stop start tokens) : start + tokens.length ≤ stop := by
  induction h with
  | nil => simp
  | cons hstart hlt _ _ _ ih =>
      simp only [List.length_cons]
      omega

theorem start_lt_stop (h : Covers text stop start tokens) :
    ∀ token ∈ tokens, token.start < token.stop := by
  induction h with
  | nil => exact List.forall_mem_nil _
  | cons _ hlt _ _ _ ih => exact List.forall_mem_cons.mpr ⟨hlt, ih⟩

theorem place_offset {π ι : Type} {tape : Tape π ι}
    (h : Covers text tape.final.offset start tape.tokens) : tape.place.offset = start := by
  obtain ⟨readings, final⟩ := tape
  cases readings with
  | nil => cases h; rfl
  | cons r rs => cases h with | cons hstart _ _ _ _ => exact hstart

end Covers

theorem spans_front {text cs : List Char} {c : Char} {start stop : Nat} (more : Nat)
    (h : Spans text (c :: cs) start stop) :
    Spans text (c :: cs.take more) start (start + byteLength (c :: cs.take more)) := by
  have hsplit : c :: cs = (c :: cs.take more) ++ cs.drop more := by simp
  rw [hsplit] at h
  exact h.of_append_left

/-- The range of a first lexeme that takes `more` characters besides the first. -/
theorem covers_front {text cs : List Char} {c : Char} {start stop more : Nat} {kind : Kind}
    {tokens : List Token} (h : Spans text (c :: cs) start stop)
    (hrest : Covers text stop (start + byteLength (c :: cs.take more)) tokens) :
    Covers text stop start (⟨kind, start, start + byteLength (c :: cs.take more)⟩ :: tokens) := by
  have hfront := spans_front more h
  have hpos : 0 < byteLength (c :: cs.take more) := byteLength_pos c _
  exact .cons rfl (by simp only; omega) hfront.boundary_start hfront.boundary_stop hrest

theorem spans_rest {text cs : List Char} {c : Char} {start stop : Nat} (more : Nat)
    (h : Spans text (c :: cs) start stop) :
    Spans text (cs.drop more) (start + byteLength (c :: cs.take more)) stop := by
  have hsplit : c :: cs = (c :: cs.take more) ++ cs.drop more := by simp
  rw [hsplit] at h
  exact h.of_append_right

/-! ## The layers -/

theorem covers_script {text cs : List Char} {start stop : Nat} (h : Spans text cs start stop) :
    Covers text stop start ((Script.readings start cs).map Reading.token) := by
  fun_induction Script.readings start cs with
  | case1 offset =>
      have hstop : stop = offset := h.stop_eq
      subst hstop
      exact .nil
  | case2 offset c cs lexeme behind ih => exact covers_front h (ih (spans_rest _ h))

theorem covers_markup {text cs : List Char} {start stop : Nat} (form : Markup.Form)
    (context : Markup.Context) (h : Spans text cs start stop) :
    (Markup.tapeOf form start context cs).final.offset = stop ∧
      Covers text stop start (Markup.tapeOf form start context cs).tokens := by
  fun_induction Markup.tapeOf form start context cs with
  | case1 offset context =>
      have hstop : stop = offset := h.stop_eq
      subst hstop
      exact ⟨rfl, .nil⟩
  | case2 offset context c cs transition behind ih =>
      obtain ⟨hfinal, hcovers⟩ := ih (spans_rest _ h)
      exact ⟨hfinal, covers_front h hcovers⟩

theorem Markup.Cursor.covers_tape {text : List Char} {stop : Nat} {cursor : Markup.Cursor}
    (form : Markup.Form) (h : cursor.Within text stop) :
    Covers text (cursor.tape form).final.offset cursor.offset (cursor.tape form).tokens := by
  obtain ⟨hend, hcovers⟩ := covers_markup form cursor.context h
  rwa [← hend] at hcovers

namespace Group

variable {π ι : Type}

theorem startPlace_ofReadings (grouping : Grouping) (final : Place π ι) (rs : List (Reading π ι)) :
    startPlace final (ofReadings grouping rs) = (Tape.mk rs final).place := by
  cases rs with
  | nil => rw [ofReadings]; rfl
  | cons r rs => rw [ofReadings]; rfl

theorem append_more (grouping : Grouping) (r : Reading π ι) (rs : List (Reading π ι)) :
    (front grouping r rs).more ++ rs.drop (front grouping r rs).more.length = rs :=
  List.prefix_iff_eq_append.mp (more_front_isPrefix grouping r rs)

theorem covers {text : List Char} {start : Nat} (grouping : Grouping) (final : Place π ι)
    (rs : List (Reading π ι)) (h : Covers text final.offset start (rs.map Reading.token)) :
    Covers text final.offset start
      ((readings final (ofReadings grouping rs)).map Reading.token) := by
  cases rs with
  | nil => simpa only [ofReadings, readings] using h
  | cons r rs =>
      let behind := rs.drop (front grouping r rs).more.length
      have hsplit : rs = (front grouping r rs).more ++ behind := (append_more grouping r rs).symm
      obtain ⟨middle, hlt, hb, hlater⟩ :
          ∃ middle, start < middle ∧ Boundary text middle ∧
            Covers text final.offset middle (behind.map Reading.token) := by
        rw [hsplit, List.map_cons, List.map_append] at h
        exact h.behind
      -- A group ends where the next one starts, which is where its last member ends.
      have hnext : (startPlace final (ofReadings grouping behind)).offset = middle := by
        rw [startPlace_ofReadings]
        let later : Tape π ι := ⟨behind, final⟩
        have htokens : Covers text later.final.offset middle later.tokens := hlater
        exact htokens.place_offset
      have hrest := covers grouping final behind hlater
      cases h with
      | cons hstart _ hb' _ _ =>
          rw [ofReadings]
          simp only [Reading.token] at hstart hb'
          subst hstart hnext
          exact .cons rfl hlt hb' hb hrest
termination_by rs.length
decreasing_by
  subst_vars
  simp only [List.length_cons, List.length_drop]
  omega

end Group

namespace Document

open Markup

/-- What stands for a token of the markup covers the same range. -/
theorem covers_expand {source : String} {r : Reading Snapshot Nesting}
    (hlt : r.place.offset < r.stop) (hstart : Boundary source.toList r.place.offset)
    (hstop : Boundary source.toList r.stop) :
    ∃ part, expand source r = .ok part ∧
      Covers source.toList r.stop r.place.offset (part.map Reading.token) := by
  obtain ⟨cs, hcs⟩ := spans_between hstart hstop (Nat.le_of_lt hlt)
  have hunchanged : Covers source.toList r.stop r.place.offset
      [⟨r.kind, r.place.offset, r.stop⟩] := .cons rfl hlt hstart hstop .nil
  cases hkind : r.kind.opensEmbedment with
  | false =>
      refine ⟨[⟨r.kind, r.stop, markupPlace r.place⟩], ?_, hunchanged⟩
      simp only [expand, hkind]
      rfl
  | true =>
      have htape : Script.tape source r.place.offset r.stop =
          .ok ⟨Script.readings r.place.offset cs, Script.placeAt r.stop⟩ := by
        simp only [Script.tape, hlt, if_true, region_eq_ok_iff.mpr hcs]
        rfl
      simp only [expand, hkind, if_true, htape, Except.map]
      refine ⟨_, rfl, ?_⟩
      split
      · exact hunchanged
      · rw [List.map_map]
        exact covers_script hcs

theorem covers_parts {source : String} {start stop : Nat} {rs : List (Reading Snapshot Nesting)}
    (h : Covers source.toList stop start (rs.map Reading.token)) :
    ∃ parts, rs.mapM (expand source) = .ok parts ∧
      Covers source.toList stop start (parts.flatten.map Reading.token) := by
  induction rs generalizing start with
  | nil => exact ⟨[], rfl, h⟩
  | cons r rs ih =>
      cases h with
      | cons hstart hlt hb hb' hrest =>
          obtain ⟨part, hpart, hcovers⟩ := covers_expand hlt hb hb'
          obtain ⟨parts, hparts, hlater⟩ := ih hrest
          refine ⟨part :: parts, ?_, ?_⟩
          · simp only [List.mapM_cons, hpart, hparts]
            rfl
          · simp only [Reading.token] at hstart
            subst hstart
            rw [List.flatten_cons, List.map_append]
            exact hcovers.append hlater

theorem covers_ofMarkup {source : String} {start : Nat} {markup : Tape Snapshot Nesting}
    (h : Covers source.toList markup.final.offset start markup.tokens) :
    ∃ document, ofMarkup source markup = .ok document ∧
      document.final = markupPlace markup.final ∧
      Covers source.toList document.final.offset start document.tokens := by
  obtain ⟨parts, hparts, hcovers⟩ := covers_parts h
  refine ⟨⟨parts.flatten, markupPlace markup.final⟩, ?_, rfl, hcovers⟩
  simp only [ofMarkup, hparts]
  rfl

/-- Neither grouping the tokens of the markup nor expanding them leaves a gap. -/
theorem covers_ofMarkup_group {source : String} {start : Nat} {markup : Tape Snapshot Nesting}
    (h : Covers source.toList markup.final.offset start markup.tokens) (grouping : Grouping) :
    ∃ document, ofMarkup source (markup.group grouping) = .ok document ∧
      document.final = markupPlace markup.final ∧
      Covers source.toList document.final.offset start document.tokens := by
  have hgrouped : Covers source.toList (markup.group grouping).final.offset start
      (markup.group grouping).tokens := Group.covers grouping _ _ h
  exact covers_ofMarkup hgrouped

end Document

namespace DocumentGrammar

open Document Markup

theorem start_covers (lexer : Lexer DocumentGrammar Snapshot Live) {source : String}
    {start stop : Nat} (state : UInt32) (hstart : Boundary source.toList start)
    (hstop : Boundary source.toList stop) (hle : start ≤ stop) :
    ∃ started, lexer.start source start stop state = .ok started ∧
      started.reader = lexer.reader ∧ started.source = source ∧ started.stop = stop ∧
      Covers source.toList stop start started.tape.tokens := by
  obtain ⟨cs, hcs⟩ := spans_between hstart hstop hle
  obtain ⟨context, hread⟩ := lexer.reader.start_eq state hcs
  obtain ⟨hfinal, hmarkup⟩ := covers_markup lexer.reader.form context hcs
  rw [← hfinal] at hmarkup
  obtain ⟨document, hdocument, hend, hcovers⟩ :=
    covers_ofMarkup_group hmarkup lexer.reader.grouping
  have hstop : document.final.offset = stop := (congrArg Place.offset hend).trans hfinal
  obtain ⟨started, hstarted, rfl, hfrom⟩ := Lexer.start_of_read (hread.trans hdocument)
  exact ⟨started, hstarted, hfrom.1, hfrom.2.1, hfrom.2.2, hstop ▸ hcovers⟩

/-- Reading a region to its end takes at most as many tokens as the region has bytes, and they cover
    the region, whatever the state word that reading starts from. -/
theorem reading_covers_region (lexer : Lexer DocumentGrammar Snapshot Live) (source : String)
    (start stop : Nat) (state : UInt32) (hstart : Boundary source.toList start)
    (hstop : Boundary source.toList stop) (hle : start ≤ stop) :
    ∃ started tokens, lexer.start source start stop state = .ok started ∧
      (∀ n, (Session.advanceTimes n started).tape.token? = tokens[n]?) ∧
      tokens.length ≤ stop - start ∧ Covers source.toList stop start tokens := by
  obtain ⟨started, hstarted, -, -, -, hcovers⟩ := start_covers lexer state hstart hstop hle
  refine ⟨started, started.tape.tokens, hstarted, ?_, ?_, hcovers⟩
  · intro n
    rw [Lexer.tape_advanceTimes, Tape.token?_drop]
  · have := hcovers.length_le
    omega

/-- From inside the frontmatter, at a state word that cannot be restarted. -/
theorem reading_covers_region_of_flagged_state :
    Boundary "é---\nlet a\n---".toList 2 ∧ Boundary "é---\nlet a\n---".toList 15 ∧ 2 ≤ 15 ∧
    ∃ started tokens,
      (Lexer.idle ⟨.values, .document⟩ : Lexer DocumentGrammar Snapshot Live).start
        "é---\nlet a\n---" 2 15 0x2000000C = .ok started ∧
      (∀ n, (Session.advanceTimes n started).tape.token? = tokens[n]?) ∧
      tokens.length ≤ 13 ∧ Covers "é---\nlet a\n---".toList 15 2 tokens := by
  have hstart : Boundary "é---\nlet a\n---".toList 2 := by decide
  have hstop : Boundary "é---\nlet a\n---".toList 15 := by decide
  exact ⟨hstart, hstop, by decide, reading_covers_region _ _ 2 15 _ hstart hstop (by decide)⟩

end DocumentGrammar

end Relex
