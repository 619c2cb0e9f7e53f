import Relex.Proofs.TokenText

/-! # Texts of joined tokens

What is joined is a token of its kind again. For most kinds nothing is said but of each character, and
two texts side by side keep that (`Spells.add`); a run of any length follows (`Arrived.spells_run`).
Bad characters need the state too, since control characters and stray braces are read in different
states and no run of bad characters goes from one to the other. With the lexemes of the frontmatter
every token of a document has a text of its kind (`DocumentGrammar.tokens_have_texts_of_their_kinds`).
-/

namespace Relex

open Text Unicode

namespace Markup

variable {grouping : Grouping} {form : Form} {state next : State} {text : List Char} {m n : Nat}
  {kind : Kind}

theorem forall_mem_take_add {P : Char → Prop} (h : ∀ c ∈ text.take m, P c)
    (hnext : ∀ c ∈ (text.drop m).take n, P c) : ∀ c ∈ text.take (m + n), P c := by
  rw [List.take_add]
  exact List.forall_mem_append.mpr ⟨h, hnext⟩

/-- Tokens that join are one token. -/
theorem Spells.add (hjoins : grouping.joins kind kind = true)
    (hstate : kind = .badCharacter → form = .fragment →
      (state = .expression ↔ next = .expression))
    (h : Spells grouping form state text m kind)
    (hnext : Spells grouping form next (text.drop m) n kind) :
    Spells grouping form state text (m + n) kind := by
  cases kind with
  | whiteSpace => exact forall_mem_take_add h hnext
  | dataCharacters => exact forall_mem_take_add h hnext
  | tagCharacters => exact forall_mem_take_add h hnext
  | commentCharacters =>
      intro k hk
      by_cases hfront : k < m
      · exact h k hfront
      · have hbehind := hnext (k - m) (by omega)
        rwa [List.drop_drop, Nat.add_sub_cancel' (Nat.not_lt.mp hfront)] at hbehind
  | attributeValue =>
      change text.take (m + n) ≠ []
      rw [List.take_add]
      exact List.append_ne_nil_of_left_ne_nil h _
  | charEntityRef =>
      cases grouping with
      | runs => cases hjoins
      | values =>
          obtain ⟨parts, hne, hparts, htext⟩ := h
          obtain ⟨more, -, hmore, hbehind⟩ := hnext
          refine ⟨parts ++ more, List.append_ne_nil_of_left_ne_nil hne _,
            List.forall_mem_append.mpr ⟨hparts, hmore⟩, ?_⟩
          rw [List.take_add, htext, hbehind, List.flatten_append]
  | script kind =>
      cases kind with
      | templateString =>
          obtain ⟨cs, htext⟩ := h
          exact ⟨cs ++ (text.drop m).take n, by rw [List.take_add, htext]; rfl⟩
      | _ => simp [Grouping.joins, Kind.joinsNeighbours, Kind.isValuePiece] at hjoins
  | badCharacter =>
      simp only [Spells] at h hnext ⊢
      by_cases hscript : state = .expression
      · rw [if_pos hscript] at h ⊢
        rw [if_pos ((hstate rfl h.1).mp hscript)] at hnext
        exact ⟨h.1, forall_mem_take_add h.2 hnext.2⟩
      · rw [if_neg hscript] at h ⊢
        by_cases hnextScript : next = .expression
        · rw [if_pos hnextScript] at hnext
          exact absurd ((hstate rfl hnext.1).mpr hnextScript) hscript
        · rw [if_neg hnextScript] at hnext
          exact forall_mem_take_add h hnext
  | _ => simp [Grouping.joins, Kind.joinsNeighbours, Kind.isValuePiece] at hjoins

/-- A control character is read in content, and content goes on behind it. -/
theorem Rule.content_of_badCharacter {nesting : Nesting} {c : Char} {cs : List Char}
    (h : (content nesting c cs).kind = .badCharacter) :
    content nesting c cs = ⟨.badCharacter, 0, .content, .keep⟩ := by
  revert h
  rw [content]
  repeat' split
  all_goals intro hkind
  all_goals first | rfl | cases hkind

theorem Rule.expression_of_badCharacter {nesting : Nesting} {c : Char} {cs : List Char}
    (h : (expression nesting c cs).kind = .badCharacter) :
    (expression nesting c cs).next = .expression := by
  revert h
  rw [expression]
  repeat' split
  all_goals intro hkind
  all_goals first | rfl | cases hkind

namespace Cursor

variable {cursor : Cursor}

/-- In a fragment a stray brace is followed by script, and a control character by content. -/
theorem Arrived.expression_iff_of_badCharacter (h : cursor.Arrived .fragment)
    (hkind : (cursor.tape .fragment).kind? = some .badCharacter) :
    cursor.context.state = .expression ↔ (cursor.next .fragment).context.state = .expression := by
  obtain ⟨offset, context, rest⟩ := cursor
  cases rest with
  | nil =>
      rw [tape_nil] at hkind
      cases hkind
  | cons c cs =>
      rw [tape_cons] at hkind
      have hbad : (context.transition c cs).kind = .badCharacter := Option.some.inj hkind
      have hreads := context.reads_kind c cs
      rw [hbad] at hreads
      have hmarkup := h.fragment rfl
      obtain ⟨state, nesting⟩ := context
      cases state with
      | content =>
          have hcontent := h.content rfl
          have htransition : Context.transition ⟨.content, nesting⟩ c cs =
              ⟨.badCharacter, 0, .content, .keep⟩ := Rule.content_of_badCharacter hbad
          have hnext : (Context.after .fragment ⟨.content, nesting⟩
              ⟨.badCharacter, 0, .content, .keep⟩).state = .content := hcontent
          simp [Cursor.next, htransition, hnext]
      | expression =>
          have hnext : (Context.transition ⟨.expression, nesting⟩ c cs).next = .expression :=
            Rule.expression_of_badCharacter hbad
          simp [Cursor.next, Context.after, hnext]
      | initial | frontmatterClose | unlisted => exact hmarkup.elim
      | _ => cases hreads

theorem Arrived.spells_token (h : cursor.Arrived form) (grouping : Grouping)
    (hkind : (cursor.tape form).kind? = some kind) :
    ∃ m, Spells grouping form cursor.context.state cursor.rest m kind ∧
      (cursor.next form).rest = cursor.rest.drop m := by
  obtain ⟨offset, context, rest⟩ := cursor
  cases rest with
  | nil =>
      rw [tape_nil] at hkind
      cases hkind
  | cons c cs =>
      rw [tape_cons] at hkind
      obtain rfl := Option.some.inj hkind
      exact ⟨_, h.spells grouping, rfl⟩

/-- A run of tokens of one kind that joins itself has a text of the kind. -/
theorem Arrived.spells_run (h : cursor.Arrived form)
    (hkinds : ∀ i ≤ n, (((Cursor.next form)^[i] cursor).tape form).kind? = some kind)
    (hjoins : n ≠ 0 → grouping.joins kind kind = true) :
    ∃ m, Spells grouping form cursor.context.state cursor.rest m kind ∧
      ((Cursor.next form)^[n + 1] cursor).rest = cursor.rest.drop m := by
  induction n generalizing cursor with
  | zero => exact h.spells_token grouping (hkinds 0 (Nat.le_refl 0))
  | succ n ih =>
      have hjoins := hjoins (Nat.succ_ne_zero n)
      have hkind := hkinds 0 (Nat.zero_le _)
      obtain ⟨m, hfront, hrest⟩ := h.spells_token grouping hkind
      have hlater : ∀ i ≤ n,
          (((Cursor.next form)^[i] (cursor.next form)).tape form).kind? = some kind := by
        intro i hi
        rw [← Function.iterate_succ_apply]
        exact hkinds (i + 1) (Nat.succ_le_succ hi)
      obtain ⟨k, hbehind, hend⟩ := ih h.next hlater fun _ => hjoins
      rw [hrest] at hbehind hend
      refine ⟨m + k, hfront.add hjoins ?_ hbehind, ?_⟩
      · rintro rfl rfl
        exact h.expression_iff_of_badCharacter hkind
      · rw [Function.iterate_succ_apply, hend, List.drop_drop]

/-- The text between two places of a run. -/
theorem spans_iterate {source : List Char} {stop : Nat} (hwithin : cursor.Within source stop)
    (hrest : ((Cursor.next form)^[n] cursor).rest = cursor.rest.drop m) :
    Spans source (cursor.rest.take m) cursor.offset ((Cursor.next form)^[n] cursor).offset := by
  have hthere := (hwithin.iterate n : ((Cursor.next form)^[n] cursor).Within source stop).stop_eq
  have hhere : stop = cursor.offset + byteLength cursor.rest := hwithin.stop_eq
  have hsplit : byteLength cursor.rest =
      byteLength (cursor.rest.take m) + byteLength (cursor.rest.drop m) := by
    rw [← byteLength_append, List.take_append_drop]
  have hoffset : ((Cursor.next form)^[n] cursor).offset =
      cursor.offset + byteLength (cursor.rest.take m) := by
    rw [hrest] at hthere
    omega
  have hwhole : Spans source (cursor.rest.take m ++ cursor.rest.drop m) cursor.offset stop := by
    rwa [List.take_append_drop]
  rw [hoffset]
  exact hwhole.of_append_left

end Cursor

end Markup

/-! ## Groups -/

open Markup

namespace Group

variable {π ι : Type} {grouping : Grouping} {kind : Kind} {rs : List (Reading π ι)}

/-- What joins a kind is of that kind, unless value text makes a value of all. -/
theorem kind_of_joins (h : ∀ s ∈ rs, grouping.joins kind s.kind = true)
    (hvalue : kindOf kind rs ≠ .attributeValue) :
    kindOf kind rs = kind ∧ ∀ s ∈ rs, s.kind = kind := by
  rw [kindOf] at hvalue ⊢
  split at hvalue
  · exact absurd rfl hvalue
  · rename_i hnone
    rw [if_neg hnone]
    refine ⟨rfl, ?_⟩
    intro s hs
    have hother : s.kind ≠ .attributeValue := fun hs' =>
      hnone (List.any_eq_true.mpr ⟨s, hs, beq_iff_eq.mpr hs'⟩)
    rcases Grouping.joins_iff.mp (h s hs) with ⟨hsame, -⟩ | ⟨-, hpiece, hpiece'⟩
    · exact hsame.symm
    · have hreference : ∀ k : Kind, k.isValuePiece = true → k ≠ .attributeValue →
          k = .charEntityRef := by
        intro k hk hne
        cases k <;> simp_all [Kind.isValuePiece]
      rw [hreference _ hpiece hvalue, hreference _ hpiece' hother]

end Group

theorem Covers.of_mem {text : List Char} {stop start : Nat} {token : Token} {tokens : List Token}
    (h : Covers text stop start tokens) (htoken : token ∈ tokens) :
    token.start < token.stop ∧ Boundary text token.start ∧ Boundary text token.stop := by
  induction h with
  | nil => cases htoken
  | cons hstart hlt hb hb' _ ih =>
      rcases List.mem_cons.mp htoken with rfl | hlater
      · exact ⟨hlt, hb, hb'⟩
      · exact ih hlater

namespace Markup

variable {grouping : Grouping} {form : Form} {cursor : Cursor} {source : List Char} {stop : Nat}

/-- The tokens that join the first one have, with it, a text of its kind. -/
theorem Cursor.Arrived.exists_text_of_joined (h : cursor.Arrived form)
    (hwithin : cursor.Within source stop) {r : Reading Snapshot Nesting}
    {joined later : List (Reading Snapshot Nesting)}
    (hreadings : (cursor.tape form).readings = r :: (joined ++ later))
    (hjoins : ∀ s ∈ joined, grouping.joins r.kind s.kind = true)
    (hsame : ∀ s ∈ joined, s.kind = r.kind) (hkind : r.kind ≠ .frontmatterScript) :
    ∃ part, Spans source part cursor.offset
        ((cursor.tape form).drop (joined.length + 1)).place.offset ∧
      r.kind.Admits grouping form part := by
  have hkinds : ∀ i ≤ joined.length,
      (((Cursor.next form)^[i] cursor).tape form).kind? = some r.kind := by
    intro i hi
    rw [← Cursor.drop_tape, Tape.kind?, Tape.readings_drop, hreadings, List.head?_drop]
    cases i with
    | zero => rfl
    | succ i =>
        have hlt : i < joined.length := hi
        rw [List.getElem?_cons_succ, List.getElem?_append_left hlt, List.getElem?_eq_getElem hlt]
        exact congrArg some (hsame _ (List.getElem_mem hlt))
  have hself : joined.length ≠ 0 → grouping.joins r.kind r.kind = true := by
    intro hne
    obtain ⟨s, hs⟩ := List.exists_mem_of_length_pos (Nat.pos_of_ne_zero hne)
    have hjoined := hjoins s hs
    rwa [hsame s hs] at hjoined
  obtain ⟨m, hspells, hrest⟩ := h.spells_run hkinds hself
  refine ⟨cursor.rest.take m, ?_, hspells.admits hkind⟩
  rw [Cursor.drop_tape, Cursor.place_tape]
  exact Cursor.spans_iterate hwithin hrest

/-- A group of tokens has a text of its kind. -/
theorem Cursor.Arrived.exists_text_of_group (h : cursor.Arrived form)
    (hwithin : cursor.Within source stop) {s : Reading Snapshot Nesting}
    (hs : s ∈ ((cursor.tape form).group grouping).readings) (hkind : s.kind ≠ .frontmatterScript) :
    ∃ part, Spans source part s.place.offset s.stop ∧ s.kind.Admits grouping form part := by
  have hcovers := Cursor.covers_tape form hwithin
  have hapart := (Tape.ascending_of_covers hcovers).apart
  obtain ⟨hlt, hb, hb'⟩ := (Group.covers grouping _ _ hcovers).of_mem (List.mem_map_of_mem hs)
  obtain ⟨k, r, rs, hreadings, rfl⟩ := Tape.mem_readings_group hs
  let joined := rs.takeWhile fun s => grouping.joins r.kind s.kind
  have hfront : Group.front grouping r rs = ⟨Group.kindOf r.kind joined, r, joined⟩ :=
    Group.front_of_apart grouping (hreadings ▸ hapart.drop)
  rw [hfront] at hkind hlt hb hb' ⊢
  by_cases hvalue : Group.kindOf r.kind joined = .attributeValue
  · obtain ⟨part, hpart⟩ := spans_between hb hb' (Nat.le_of_lt hlt)
    refine ⟨part, hpart, ?_⟩
    have hne : part ≠ [] := by
      rintro rfl
      have hstop := hpart.stop_eq
      rw [byteLength_nil] at hstop
      omega
    simpa [Group.reading, hvalue, Kind.Admits] using hne
  · have hjoins : ∀ s ∈ joined, grouping.joins r.kind s.kind = true := fun s hs =>
      List.mem_takeWhile_imp (p := fun s : Reading Snapshot Nesting =>
        grouping.joins r.kind s.kind) hs
    obtain ⟨hkindOf, hsame⟩ := Group.kind_of_joins hjoins hvalue
    obtain ⟨later, hlater⟩ : joined <+: rs := List.takeWhile_prefix _
    simp only [Group.reading, hkindOf] at hkind ⊢
    have hthere : ((Cursor.next form)^[k] cursor).tape form = ⟨r :: rs, (cursor.tape form).final⟩ := by
      rw [← Cursor.drop_tape]
      exact Tape.ext_readings hreadings rfl
    have hplace := Cursor.place_tape form ((Cursor.next form)^[k] cursor)
    have hmembers : (((Cursor.next form)^[k] cursor).tape form).readings = r :: (joined ++ later) := by
      rw [hthere, hlater]
    have htext := (h.iterate k).exists_text_of_joined (hwithin.iterate k) hmembers hjoins hsame hkind
    rw [hthere] at hplace htext
    have hoffset : r.place.offset = ((Cursor.next form)^[k] cursor).offset :=
      congrArg Place.offset hplace
    rw [hoffset]
    exact htext

end Markup

/-! ## Documents -/

/-- The lexemes of a text have texts of their kinds. -/
theorem Script.exists_text_of_mem_readings {source cs : List Char} {offset stop : Nat}
    {lexeme : Reading Nat Unit} (hspans : Spans source cs offset stop)
    (h : lexeme ∈ Script.readings offset cs) (grouping : Grouping) (form : Form) :
    ∃ part, Spans source part lexeme.place.offset lexeme.stop ∧
      lexeme.kind.Admits grouping form part := by
  fun_induction Script.readings offset cs with
  | case1 => cases h
  | case2 offset c cs front behind ih =>
      rcases List.mem_cons.mp h with rfl | hlater
      · refine ⟨c :: cs.take front.more, ?_, Lexeme.front_admits c cs⟩
        have hsplit : c :: cs = (c :: cs.take front.more) ++ cs.drop front.more := by simp
        rw [hsplit] at hspans
        exact hspans.of_append_left
      · exact ih (spans_rest _ hspans) hlater

namespace Document

variable {source : String} {grouping : Grouping} {form : Form} {r : Reading Snapshot Nesting}
  {part : List (Reading Snapshot Live)}

/-- What stands for a token of the markup has texts of its kinds, if the token has one. -/
theorem exists_text_of_expand (hlt : r.place.offset < r.stop) (h : expand source r = .ok part)
    (htext : r.kind ≠ .frontmatterScript → ∃ text,
      Spans source.toList text r.place.offset r.stop ∧ r.kind.Admits grouping form text) :
    ∀ s ∈ part, ∃ text, Spans source.toList text s.place.offset s.stop ∧
      s.kind.Admits grouping form text := by
  intro s hs
  rcases expand_cases_of_lt hlt h with ⟨hkind, rfl⟩ | ⟨-, script, hscript, rfl⟩
  · obtain rfl := List.mem_singleton.mp hs
    exact htext hkind
  · obtain ⟨lexeme, hlexeme, rfl⟩ := List.mem_map.mp hs
    rw [Script.tape, if_pos hlt] at hscript
    obtain ⟨text, hregion, rfl⟩ := Except.map_eq_ok_iff.mp hscript
    exact Script.exists_text_of_mem_readings (region_eq_ok_iff.mp hregion) hlexeme grouping form

end Document

namespace DocumentGrammar

open Document

/-- The text that a token of a document covers is one of its kind. -/
theorem tokens_have_texts_of_their_kinds (lexer : Lexer DocumentGrammar Snapshot Live)
    (source : String) (start stop : Nat) (hstart : Boundary source.toList start)
    (hstop : Boundary source.toList stop) (hle : start ≤ stop) :
    ∃ started, lexer.start source start stop 0 = .ok started ∧
      ∀ token ∈ started.tape.tokens, ∃ text, Spans source.toList text token.start token.stop ∧
        token.kind.Admits lexer.reader.grouping lexer.reader.form text := by
  obtain ⟨cs, hspans⟩ := spans_between hstart hstop hle
  let form := lexer.reader.form
  let cursor : Cursor := ⟨start, contextOf form 0, cs⟩
  have hwithin : cursor.Within source.toList stop := hspans
  have harrived : cursor.Arrived form := Cursor.Arrived.start form start cs
  have hmarkup : Markup.tape form source stop ⟨cursor.offset, cursor.context⟩ =
      .ok (cursor.tape form) := Cursor.tape_eq hwithin
  obtain ⟨document, hdocument⟩ := Markup.exists_ofMarkup hmarkup lexer.reader.grouping
  have hread : Reader.start lexer.reader source start stop 0 = .ok document :=
    (lexer.reader.start_eq_resume source start stop 0).trans
      ((lexer.reader.resume_eq hwithin).trans hdocument)
  obtain ⟨started, hstarted, rfl, -⟩ := Lexer.start_of_read hread
  refine ⟨started, hstarted, ?_⟩
  intro token htoken
  obtain ⟨s, hs, rfl⟩ := List.mem_map.mp htoken
  obtain ⟨r, hr, part, hexpand, hpart⟩ := mem_readings_ofMarkup hdocument hs
  have hcovers := Group.covers lexer.reader.grouping _ _ (Cursor.covers_tape form hwithin)
  obtain ⟨hlt, -, -⟩ := hcovers.of_mem (List.mem_map_of_mem hr)
  exact exists_text_of_expand hlt hexpand (harrived.exists_text_of_group hwithin hr) s hpart

/-- Behind frontmatter, with references in a value, a comment and a void element. -/
theorem tokens_have_texts_of_their_kinds_behind_frontmatter :
    let source := "---\nlet a\n---<p b='é&amp;&#x1f;'><!-- - -->\x7b`c`\x7d<br/>"
    Boundary source.toList 0 ∧ Boundary source.toList 54 ∧ 0 ≤ 54 ∧
    ∃ started, (Lexer.idle ⟨.values, .document⟩ : Lexer DocumentGrammar Snapshot Live).start
        source 0 54 0 = .ok started ∧
      ∀ token ∈ started.tape.tokens, ∃ text, Spans source.toList text token.start token.stop ∧
        token.kind.Admits .values .document text := by
  intro source
  have hstart : Boundary source.toList 0 := by decide
  have hstop : Boundary source.toList 54 := by decide
  exact ⟨hstart, hstop, by decide,
    tokens_have_texts_of_their_kinds (Lexer.idle ⟨.values, .document⟩) source 0 54 hstart hstop
      (by decide)⟩

end DocumentGrammar

end Relex
