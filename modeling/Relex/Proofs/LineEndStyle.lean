import Relex.Proofs.LineEndReading
import Relex.Proofs.Shift

/-! # The style of line ends

Whether the lines of a document end in line feeds alone or with carriage returns in front of them, its
tokens have the same kinds and texts that are rewritten in the same way, if no string in it holds a line
feed (`Document.forall₂_rewritten`). The markup is read alike, grouping sees no difference in how comments
are cut, and the scripts are read alike as well. A string with a line feed in it is never the same, because
no string goes on behind a carriage return and a line feed (`Document.stringsAre_not_infix`): a backslash
escapes one character of the two.
-/

namespace Relex

open Text Script

/-! ## Strings -/

theorem Script.stringsAre_not_infix {text cs : List Char} {offset stop : Nat}
    (hspans : Spans text cs offset stop) :
    StringsAre (¬['\r', '\n'] <:+: ·) text ((Script.readings offset cs).map Reading.token) := by
  fun_induction Script.readings offset cs with
  | case1 => exact List.forall_mem_nil _
  | case2 offset c cs lexeme behind ih =>
      refine List.forall_mem_cons.mpr ⟨?_, ih (spans_rest _ hspans)⟩
      intro hkind part hpart
      rw [hpart.unique (spans_front lexeme.more hspans)]
      exact Lexeme.not_infix_of_string (Kind.script.inj hkind)

/-- A string is read as the lexeme that it is. -/
theorem Markup.Context.front_of_string {context : Context} {c : Char} {cs : List Char}
    (h : (context.transition c cs).kind = .script .string) :
    (Lexeme.front c cs).kind = .string ∧
      (context.transition c cs).more = (Lexeme.front c cs).more := by
  obtain ⟨state, nesting⟩ := context
  obtain rfl : state = .expression := Context.state_eq_expression (by rw [h]; rfl)
  simp only [Context.transition, Rule.expression] at h ⊢
  split at h
  · cases h
  split at h
  · split at h
    · cases h
    split at h
    · cases h
    · cases h
  split at h
  · cases h
  split at h
  · cases h
  · rename_i hopen hclose hend hstart
    simp only [if_neg hopen, if_neg hclose, if_neg hend, if_neg hstart]
    exact ⟨Kind.script.inj h, trivial⟩

theorem Markup.stringsAre_not_infix {text cs : List Char} {stop : Nat} (form : Form) (offset : Nat)
    (context : Context) (hspans : Spans text cs offset stop) :
    StringsAre (¬['\r', '\n'] <:+: ·) text (tapeOf form offset context cs).tokens := by
  fun_induction tapeOf form offset context cs with
  | case1 => exact List.forall_mem_nil _
  | case2 offset context c cs transition behind ih =>
      refine List.forall_mem_cons.mpr ⟨?_, ih (spans_rest _ hspans)⟩
      intro hkind part hpart
      rw [hpart.unique (spans_front transition.more hspans)]
      obtain ⟨hstring, hmore⟩ := Context.front_of_string hkind
      rw [hmore]
      exact Lexeme.not_infix_of_string hstring

theorem Grouping.ne_string_of_joins {grouping : Grouping} {a b : Kind} (h : grouping.joins a b = true) :
    a ≠ .script .string ∧ b ≠ .script .string := by
  rcases joins_iff.mp h with ⟨rfl, hneighbours⟩ | ⟨-, ha, hb⟩
  · refine ⟨?_, ?_⟩ <;>
    · rintro rfl
      cases hneighbours
  · refine ⟨?_, ?_⟩
    · rintro rfl
      cases ha
    · rintro rfl
      cases hb

/-! ## Grouping -/

/-- A token of the same kind over the corresponding range. -/
def Token.Mirrors (text : List Char) (token token' : Token) : Prop :=
  token'.kind = token.kind ∧ Corresponds text token.start token'.start ∧
    Corresponds text token.stop token'.stop

namespace Group

variable {π ι : Type} {text : List Char} {rs rs' : List (Reading π ι)} {final final' : Place π ι}

/-- A run of some kinds is one in both streams. -/
theorem forall₂_dropWhile (p : Kind → Bool) (h : List.Forall₂ (Reading.SameStart text) rs rs') :
    let inRun : Reading π ι → Bool := fun r => p r.kind
    List.Forall₂ (Reading.SameStart text) (rs.dropWhile inRun) (rs'.dropWhile inRun) ∧
      (rs'.takeWhile inRun).map Reading.kind = (rs.takeWhile inRun).map Reading.kind := by
  intro inRun
  induction h with
  | nil => exact ⟨.nil, rfl⟩
  | @cons r r' rs rs' hsame hrest ih =>
      have hrun : inRun r' = inRun r := congrArg p hsame.1
      cases hp : inRun r with
      | true =>
          rw [List.dropWhile_cons_of_pos hp, List.dropWhile_cons_of_pos (hrun.trans hp),
            List.takeWhile_cons_of_pos hp, List.takeWhile_cons_of_pos (hrun.trans hp), List.map_cons,
            List.map_cons, hsame.1, ih.2]
          exact ⟨ih.1, rfl⟩
      | false =>
          have hp := Bool.eq_false_iff.mp hp
          rw [List.dropWhile_cons_of_neg hp, List.dropWhile_cons_of_neg (hrun ▸ hp),
            List.takeWhile_cons_of_neg hp, List.takeWhile_cons_of_neg (hrun ▸ hp)]
          exact ⟨.cons hsame hrest, rfl⟩

theorem corresponds_place (hfinal : Corresponds text final.offset final'.offset)
    (h : List.Forall₂ (Reading.SameStart text) rs rs') :
    Corresponds text (Tape.mk rs final).place.offset (Tape.mk rs' final').place.offset := by
  cases h with
  | nil => exact hfinal
  | cons hsame hrest => exact hsame.2

/-- The same kinds at corresponding places are grouped in the same way. -/
theorem forall₂_mirrors_group (grouping : Grouping) (hfinal : Corresponds text final.offset final'.offset)
    (hapart : Apart rs) (hapart' : Apart rs') (h : List.Forall₂ (Reading.SameStart text) rs rs') :
    List.Forall₂ (Token.Mirrors text) ((Tape.mk rs final).group grouping).tokens
      ((Tape.mk rs' final').group grouping).tokens := by
  have htokens {rs : List (Reading π ι)} {final : Place π ι} :
      ((Tape.mk rs final).group grouping).tokens =
        (shown ((Tape.mk rs final).group grouping).readings).map Prod.fst := by
    rw [shown, List.map_map]
    rfl
  simp only [htokens]
  induction hlength : rs.length using Nat.strongRecOn generalizing rs rs' with
  | ind n ih =>
      cases h with
      | nil =>
          simp only [Tape.group, ofReadings, readings]
          exact .nil
      | @cons r r' rs rs' hsame hrest =>
          obtain ⟨hbehind, hkinds⟩ := forall₂_dropWhile (grouping.joins r.kind) hrest
          rw [shown_group_cons grouping final hapart, shown_group_cons grouping final' hapart', hsame.1,
            kindOf_congr _ hkinds]
          refine .cons ⟨rfl, hsame.2, corresponds_place hfinal hbehind⟩ (ih _ ?_ ?_ ?_ hbehind rfl)
          · have hle := (List.dropWhile_suffix (fun s => grouping.joins r.kind s.kind) (l := rs)).length_le
            rw [List.length_cons] at hlength
            omega
          · exact hapart.sublist ((List.dropWhile_sublist _).trans (List.sublist_cons_self r rs))
          · exact hapart'.sublist ((List.dropWhile_sublist _).trans (List.sublist_cons_self r' rs'))

end Group

/-- Grouping sees no difference in how comments are cut. -/
theorem Markup.SameUpToComments.forall₂_mirrors_group {text : List Char}
    {tape tape' : Tape Snapshot Nesting} (h : SameUpToComments text tape tape') (grouping : Grouping)
    (hapart : Group.Apart tape.readings) (hapart' : Group.Apart tape'.readings) :
    List.Forall₂ (Token.Mirrors text) (tape.group grouping).tokens (tape'.group grouping).tokens := by
  obtain ⟨hfinal, ss, ss', hss, hss', hpairs⟩ := h
  have hjoins : ∀ r s : Reading Snapshot Nesting, BothComments r s →
      grouping.joins r.kind s.kind = true := by
    rintro r s ⟨hr, hs⟩
    rw [hr, hs]
    exact Grouping.joins_iff.mpr (.inl ⟨rfl, rfl⟩)
  have htokens {tape : Tape Snapshot Nesting} {ss : List (Reading Snapshot Nesting)}
      (h : Group.Folds BothComments tape.final tape.readings ss) (hapart : Group.Apart tape.readings) :
      (tape.group grouping).tokens = ((Tape.mk ss tape.final).group grouping).tokens := by
    have hshown := congrArg (List.map Prod.fst) (h.shown_group hjoins hapart)
    rw [Group.shown, Group.shown, List.map_map, List.map_map] at hshown
    exact hshown.symm
  rw [htokens hss hapart, htokens hss' hapart']
  exact Group.forall₂_mirrors_group grouping hfinal (hss.apart hapart) (hss'.apart hapart') hpairs

/-! ## Scripts -/

/-- Script reads as the same lexemes, if no string in it holds a line feed. -/
theorem Script.forall₂_mirrors {source before cs after : List Char}
    (hsource : source = before ++ cs ++ after)
    (hstrings : StringsAre ('\n' ∉ ·) source
      ((Script.readings (byteLength before) cs).map Reading.token)) :
    List.Forall₂ (Token.Mirrors source) ((Script.readings (byteLength before) cs).map Reading.token)
      ((Script.readings (byteLength (crlf before)) (crlf cs)).map Reading.token) := by
  induction hlength : cs.length using Nat.strongRecOn generalizing before cs with
  | ind n ih =>
      cases cs with
      | nil =>
          rw [crlf_nil, Script.readings, Script.readings]
          exact .nil
      | cons c cs =>
          let lexeme := Lexeme.front c cs
          let front := c :: cs.take lexeme.more
          let rest := cs.drop lexeme.more
          have hcs : c :: cs = front ++ rest :=
            congrArg (c :: ·) (List.take_append_drop lexeme.more cs).symm
          have hsplit : source = before ++ front ++ (rest ++ after) := by
            rw [hsource, hcs]
            simp only [List.append_assoc]
          have hshort : rest.length < n := by
            rw [← hlength, List.length_drop, List.length_cons]
            omega
          rw [Script.readings, ← byteLength_append] at hstrings
          obtain ⟨hstring, hlater⟩ := StringsAre.of_cons hsplit hstrings
          obtain ⟨d, ds, hcrlf⟩ := crlf_eq_cons c cs
          obtain ⟨hkind, hmore⟩ := Lexeme.mirrors hcrlf fun hkind hmem =>
            hstring (congrArg Kind.script hkind) (List.mem_cons_of_mem _ hmem)
          obtain ⟨htake, hdrop⟩ := cut_crlf_cons hcrlf hmore
          rw [hcrlf, Script.readings, Script.readings, htake, hdrop, ← byteLength_append,
            ← byteLength_append, ← crlf_append]
          refine .cons ⟨congrArg Kind.script hkind, ?_, ?_⟩ (ih _ hshort ?_ hlater rfl)
          · exact ⟨before, _, hsource.trans (List.append_assoc _ _ _), rfl, rfl⟩
          · exact ⟨before ++ front, _, hsplit, rfl, rfl⟩
          · rw [hsplit, List.append_assoc (before ++ front)]

theorem Script.forall₂_mirrors_of_spans {source cs : List Char} {start stop start' : Nat}
    (hspans : Spans source cs start stop) (hstart : Corresponds source start start')
    (hstrings : StringsAre ('\n' ∉ ·) source ((Script.readings start cs).map Reading.token)) :
    List.Forall₂ (Token.Mirrors source) ((Script.readings start cs).map Reading.token)
      ((Script.readings start' (crlf cs)).map Reading.token) := by
  obtain ⟨before, after, rfl, rfl, -⟩ := hspans
  have hstart' : start' = byteLength (crlf before) := by
    rw [List.append_assoc] at hstart
    exact hstart.eq
  rw [hstart']
  exact Script.forall₂_mirrors rfl hstrings

/-! ## Documents -/

/-- A token of the same kind, over the same text with the other line ends. -/
def Token.Rewritten (text : List Char) (token token' : Token) : Prop :=
  token'.kind = token.kind ∧ ∃ part, Spans text part token.start token.stop ∧
    Spans (crlf text) (crlf part) token'.start token'.stop

theorem Token.Mirrors.rewritten {text : List Char} {token token' : Token}
    (h : Token.Mirrors text token token') (hle : token.start ≤ token.stop) :
    Token.Rewritten text token token' := by
  obtain ⟨hkind, hstart, hstop⟩ := h
  obtain ⟨part, hpart⟩ := spans_between hstart.boundary hstop.boundary hle
  exact ⟨hkind, part, hpart, hpart.crlf hstart hstop⟩

namespace Document

open Markup

section Tokens

variable {source : String} {rs : List (Reading Snapshot Nesting)} {final : Place Snapshot Nesting}
  {markup : Tape Snapshot Nesting} {document : Tape Snapshot Live} {r : Reading Snapshot Nesting}
  {grouping : Grouping} {P : List Char → Prop} {start : Nat}

/-- All tokens of the markup stand in the document, but the script of the frontmatter. -/
theorem mem_tokens_of_ofMarkup (h : ofMarkup source ⟨rs, final⟩ = .ok document)
    (hr : r ∈ rs) (hkind : r.kind ≠ .frontmatterScript) : r.token ∈ document.tokens := by
  induction rs generalizing document with
  | nil => cases hr
  | cons first rs ih =>
      rcases List.mem_cons.mp hr with rfl | hr
      · have h : ofMarkup source ((Tape.mk rs final).cons r) = .ok document := h
        obtain ⟨rest, hrest, rfl⟩ := exists_of_cons hkind h
        exact List.mem_cons_self
      · obtain ⟨part, later, -, hlater, rfl⟩ := ofMarkup_cons h
        have hmem : r.token ∈ later.tokens := ih hlater hr
        rw [Tape.tokens] at hmem ⊢
        rw [List.map_append]
        exact List.mem_append_right _ hmem

/-- Strings are neither grouped nor expanded. -/
theorem mem_tokens_of_string (grouping : Grouping)
    (hcovers : Covers source.toList markup.final.offset start markup.tokens)
    {token : Token} (htoken : token.kind = .script .string) :
    token ∈ (markup.group grouping).tokens ↔ token ∈ markup.tokens :=
  (Group.folds_readings grouping markup.final (Tape.ascending_of_covers hcovers).apart).mem_tokens_iff
    (fun _ _ => Grouping.ne_string_of_joins) hcovers htoken

theorem stringsAre_markup (hcovers : Covers source.toList markup.final.offset start markup.tokens)
    (h : ofMarkup source (markup.group grouping) = .ok document)
    (hstrings : StringsAre P source.toList document.tokens) :
    StringsAre P source.toList markup.tokens := by
  refine hstrings.of_mem fun token hkind htoken => ?_
  have hgrouped : token ∈ (markup.group grouping).tokens :=
    (mem_tokens_of_string grouping hcovers hkind).mpr htoken
  obtain ⟨r, hr, rfl⟩ := List.mem_map.mp hgrouped
  refine mem_tokens_of_ofMarkup h hr ?_
  intro hscript
  cases hscript.symm.trans hkind

theorem stringsAre_ofMarkup (hcovers : Covers source.toList markup.final.offset start markup.tokens)
    (h : ofMarkup source (markup.group grouping) = .ok document)
    (hmarkup : StringsAre P source.toList markup.tokens)
    (hscript : ∀ cs start stop, Spans source.toList cs start stop →
      StringsAre P source.toList ((Script.readings start cs).map Reading.token)) :
    StringsAre P source.toList document.tokens := by
  intro token htoken hkind part hpart
  obtain ⟨s, hs, rfl⟩ := List.mem_map.mp htoken
  obtain ⟨r, hr, expanded, hexpand, hmem⟩ := mem_readings_ofMarkup h hs
  have hgrouped := Group.covers grouping markup.final markup.readings hcovers
  have hlt : r.place.offset < r.stop := hgrouped.start_lt_stop r.token (List.mem_map_of_mem hr)
  rcases expand_cases_of_lt hlt hexpand with ⟨-, rfl⟩ | ⟨hscriptKind, script, htape, rfl⟩
  · obtain rfl := List.mem_singleton.mp hmem
    have hraw := (mem_tokens_of_string grouping hcovers hkind).mp (List.mem_map_of_mem hr)
    exact hmarkup r.token hraw hkind part hpart
  · obtain ⟨lexeme, hlexeme, rfl⟩ := List.mem_map.mp hmem
    simp only [Script.tape, hlt, if_true] at htape
    obtain ⟨cs, hregion, rfl⟩ := Except.map_eq_ok_iff.mp htape
    exact hscript cs _ _ (region_eq_ok_iff.mp hregion) lexeme.token (List.mem_map_of_mem hlexeme) hkind
      part hpart

end Tokens

section Expanding

variable {source other : String} {rs rs' : List (Reading Snapshot Nesting)}
  {final final' : Place Snapshot Nesting} {document document' : Tape Snapshot Live}
  {r r' : Reading Snapshot Nesting} {part part' : List (Reading Snapshot Live)}

/-- What stands for a token is the same with either line ends, if no string in it holds a line feed. -/
theorem forall₂_mirrors_expand (hother : other.toList = crlf source.toList)
    (hsame : Token.Mirrors source.toList r.token r'.token)
    (hlt : r.place.offset < r.stop) (hlt' : r'.place.offset < r'.stop)
    (hstrings : StringsAre ('\n' ∉ ·) source.toList (part.map Reading.token))
    (hpart : expand source r = .ok part)
    (hpart' : expand other r' = .ok part') :
    List.Forall₂ (Token.Mirrors source.toList) (part.map Reading.token) (part'.map Reading.token) := by
  have hkind : r'.kind = r.kind := hsame.1
  cases hembeds : r.kind.opensEmbedment with
  | false =>
      have hembeds' : r'.kind.opensEmbedment = false := hkind ▸ hembeds
      simp only [expand, hembeds, Bool.false_eq_true, if_false, Except.ok.injEq] at hpart
      simp only [expand, hembeds', Bool.false_eq_true, if_false, Except.ok.injEq] at hpart'
      subst hpart hpart'
      exact .cons hsame .nil
  | true =>
      have hembeds' : r'.kind.opensEmbedment = true := hkind ▸ hembeds
      obtain ⟨-, hstart, hstop⟩ := hsame
      obtain ⟨cs, hspans⟩ := spans_between hstart.boundary hstop.boundary (Nat.le_of_lt hlt)
      have hspans' : Spans other.toList (crlf cs) r'.place.offset r'.stop :=
        hother ▸ hspans.crlf hstart hstop
      have htokens (place : Place Snapshot Nesting) (lexemes : List (Reading Nat Unit)) :
          (lexemes.map (scriptReading place)).map Reading.token = lexemes.map Reading.token :=
        List.map_map
      rw [expand_script hembeds hlt hspans] at hpart
      rw [expand_script hembeds' hlt' hspans'] at hpart'
      obtain rfl := Except.ok.inj hpart
      obtain rfl := Except.ok.inj hpart'
      rw [htokens] at hstrings ⊢
      rw [htokens]
      exact Script.forall₂_mirrors_of_spans hspans hstart hstrings

theorem forall₂_mirrors_ofMarkup (hother : other.toList = crlf source.toList)
    (hsame : List.Forall₂ (fun r r' => Token.Mirrors source.toList r.token r'.token) rs rs')
    (hlt : ∀ r ∈ rs, r.place.offset < r.stop) (hlt' : ∀ r' ∈ rs', r'.place.offset < r'.stop)
    (hstrings : StringsAre ('\n' ∉ ·) source.toList document.tokens)
    (h : ofMarkup source ⟨rs, final⟩ = .ok document)
    (h' : ofMarkup other ⟨rs', final'⟩ = .ok document') :
    List.Forall₂ (Token.Mirrors source.toList) document.tokens document'.tokens := by
  induction hsame generalizing document document' with
  | nil =>
      cases h
      cases h'
      exact .nil
  | @cons r r' rs rs' hfirst hrest ih =>
      obtain ⟨part, later, hpart, hlater, rfl⟩ := ofMarkup_cons h
      obtain ⟨part', later', hpart', hlater', rfl⟩ := ofMarkup_cons h'
      obtain ⟨hltFirst, hlt⟩ := List.forall_mem_cons.mp hlt
      obtain ⟨hltFirst', hlt'⟩ := List.forall_mem_cons.mp hlt'
      have htokens (part : List (Reading Snapshot Live)) (later : Tape Snapshot Live) :
          (Tape.mk (part ++ later.readings) later.final).tokens =
            part.map Reading.token ++ later.tokens := List.map_append
      rw [htokens] at hstrings ⊢
      rw [htokens]
      refine List.rel_append ?_ (ih hlt hlt' ?_ hlater hlater')
      · refine forall₂_mirrors_expand hother hfirst hltFirst hltFirst' (hstrings.of_mem ?_) hpart hpart'
        exact fun _ _ htoken => List.mem_append_left _ htoken
      · exact hstrings.of_mem fun _ _ htoken => List.mem_append_right _ htoken

end Expanding

variable {source other : String} {document document' : Tape Snapshot Live} {form : Form} {context : Context}
  {grouping : Grouping}

/-- No string of a document goes on behind a line end. -/
theorem stringsAre_not_infix
    (h : ofMarkup source ((tapeOf form 0 context source.toList).group grouping) = .ok document) :
    StringsAre (¬['\r', '\n'] <:+: ·) source.toList document.tokens := by
  have hspans := spans_whole source
  exact stringsAre_ofMarkup (covers_whole source form context) h
    (Markup.stringsAre_not_infix form 0 context hspans)
    fun cs start stop => Script.stringsAre_not_infix

/-- If no string in it holds a line feed, a document has the same tokens with either line ends. -/
theorem forall₂_rewritten (hother : other.toList = crlf source.toList)
    (h : ofMarkup source ((tapeOf form 0 (contextOf form 0) source.toList).group grouping) =
      .ok document)
    (h' : ofMarkup other ((tapeOf form 0 (contextOf form 0) other.toList).group grouping) =
      .ok document')
    (hstrings : StringsAre ('\n' ∉ ·) source.toList document.tokens) :
    List.Forall₂ (Token.Rewritten source.toList) document.tokens document'.tokens := by
  let markup := tapeOf form 0 (contextOf form 0) source.toList
  let markup' := tapeOf form 0 (contextOf form 0) other.toList
  have hcovers : Covers source.toList markup.final.offset 0 markup.tokens := covers_whole source form _
  have hcovers' : Covers other.toList markup'.final.offset 0 markup'.tokens := covers_whole other form _
  have hmarkup : ReadsAlike form source.toList [] (contextOf form 0) source.toList :=
    (Cursor.Arrived.start form 0 source.toList).readsAlike rfl (stringsAre_markup hcovers h hstrings)
  rw [ReadsAlike, ← hother] at hmarkup
  have hgroups := hmarkup.forall₂_mirrors_group grouping (Tape.ascending_of_covers hcovers).apart
    (Tape.ascending_of_covers hcovers').apart
  have hgroupCovers := Group.covers grouping markup.final markup.readings hcovers
  have hgroupCovers' := Group.covers grouping markup'.final markup'.readings hcovers'
  have hdocuments : List.Forall₂ (Token.Mirrors source.toList) document.tokens document'.tokens :=
    forall₂_mirrors_ofMarkup hother
      (List.forall₂_map_right_iff.mp (List.forall₂_map_left_iff.mp hgroups))
      (fun r hr => hgroupCovers.start_lt_stop r.token (List.mem_map_of_mem hr))
      (fun r hr => hgroupCovers'.start_lt_stop r.token (List.mem_map_of_mem hr)) hstrings h h'
  obtain ⟨covered, hcovered, -, hdocument⟩ := covers_ofMarkup_group hcovers grouping
  obtain rfl := Except.ok.inj (h.symm.trans hcovered)
  have hordered : ∀ token ∈ document.tokens, token.start ≤ token.stop :=
    fun token htoken => Nat.le_of_lt (hdocument.start_lt_stop token htoken)
  exact ((List.forall₂_and_left _ _).mpr ⟨hordered, hdocuments⟩).imp
    fun token token' h => h.2.rewritten h.1

end Document

namespace DocumentGrammar

open Document Markup

theorem exists_mem_of_forall₂ {α β : Type} {R : α → β → Prop} {as : List α} {bs : List β}
    (h : List.Forall₂ R as bs) : ∀ a ∈ as, ∃ b ∈ bs, R a b := by
  induction h with
  | nil => exact List.forall_mem_nil _
  | cons hfirst hrest ih =>
      refine List.forall_mem_cons.mpr ⟨⟨_, List.mem_cons_self, hfirst⟩, fun a ha => ?_⟩
      obtain ⟨b, hb, hab⟩ := ih a ha
      exact ⟨b, List.mem_cons_of_mem _ hb, hab⟩

/-- With a carriage return in front of every line feed, a document is read as the same tokens exactly if
    no string in it holds a line feed. -/
theorem line_ends_matter_in_strings_only (lexer : Lexer DocumentGrammar Snapshot Live) (source : String) :
    let other := String.ofList (crlf source.toList)
    ∃ started started', lexer.start source 0 source.utf8ByteSize 0 = .ok started ∧
      lexer.start other 0 other.utf8ByteSize 0 = .ok started' ∧
      (List.Forall₂ (Token.Rewritten source.toList) started.tape.tokens started'.tape.tokens ↔
        StringsAre ('\n' ∉ ·) source.toList started.tape.tokens) := by
  intro other
  obtain ⟨started, hstarted, hdocument⟩ := exists_started lexer (spans_whole source)
  obtain ⟨started', hstarted', hdocument'⟩ := exists_started lexer (spans_whole other)
  refine ⟨started, started', hstarted, hstarted', ?_, ?_⟩
  · intro hsame token htoken hkind part hpart hfeed
    obtain ⟨token', htoken', hkind', part', hpart', hrewritten⟩ :=
      exists_mem_of_forall₂ hsame token htoken
    obtain rfl := hpart.unique hpart'
    rw [← String.toList_ofList (l := crlf source.toList)] at hrewritten
    refine stringsAre_not_infix hdocument' token' htoken' (hkind'.trans hkind) (crlf part)
      hrewritten ?_
    obtain ⟨front, behind, rfl⟩ := List.append_of_mem hfeed
    exact ⟨crlf front, crlf behind, by simp⟩
  · exact forall₂_rewritten String.toList_ofList hdocument hdocument'

/-- A string goes on behind an escaped line feed. Behind an escaped carriage return it ends at the line
    feed, and its closing quote opens another string that takes the brace. -/
theorem escaped_line_end_breaks_string :
    let reader : DocumentGrammar := ⟨.runs, .document⟩
    let source := "\x7b\"a\\\nb\"\x7d"
    let other := String.ofList (crlf source.toList)
    '\r' ∉ source.toList ∧ ∃ started started',
      (Lexer.idle reader).start source 0 source.utf8ByteSize 0 = .ok started ∧
      (Lexer.idle reader).start other 0 other.utf8ByteSize 0 = .ok started' ∧
      started.tape.tokens =
        [⟨.expressionStart, 0, 1⟩, ⟨.script .string, 1, 7⟩, ⟨.expressionEnd, 7, 8⟩] ∧
      started'.tape.tokens = [⟨.expressionStart, 0, 1⟩, ⟨.script .string, 1, 5⟩,
        ⟨.script .whiteSpace, 5, 6⟩, ⟨.script .identifier, 6, 7⟩, ⟨.script .string, 7, 9⟩] := by
  intro reader source other
  have hrun : ((Lexer.idle reader).start source 0 source.utf8ByteSize 0).toOption.map
      (·.tape.tokens) =
      some [⟨.expressionStart, 0, 1⟩, ⟨.script .string, 1, 7⟩, ⟨.expressionEnd, 7, 8⟩] := by
    decide +kernel
  have hother : ((Lexer.idle reader).start other 0 other.utf8ByteSize 0).toOption.map
      (·.tape.tokens) = some [⟨.expressionStart, 0, 1⟩, ⟨.script .string, 1, 5⟩,
        ⟨.script .whiteSpace, 5, 6⟩, ⟨.script .identifier, 6, 7⟩, ⟨.script .string, 7, 9⟩] := by
    decide +kernel
  obtain ⟨started, hstarted, htokens⟩ := Except.exists_of_map_toOption hrun
  obtain ⟨started', hstarted', hbroken⟩ := Except.exists_of_map_toOption hother
  exact ⟨by decide, started, started', hstarted, hstarted', htokens, hbroken⟩

end DocumentGrammar

end Relex
