import Relex.Proofs.Lookahead
import Relex.Proofs.MaximalRuns
import Relex.Proofs.Turns

/-! # Between the fences

A document has frontmatter where a fence is the first thing in it but white space. The script between
this fence and the next one that begins a line, or the end, is read by the script grammar, and
everything behind is markup, in which there are no fences. `Document.Fenced` says what is shown, and
the initial state has no other way into the frontmatter (`DocumentGrammar.frontmatter_between_fences`).
-/

namespace Relex

open Text Markup Unicode

/-! ## Groups one by one -/

namespace Tape

variable {π ι : Type} {r : Reading π ι} {rs later : List (Reading π ι)} {final : Place π ι}
  {grouping : Grouping}

/-- Tokens that join, in front of one that does not join them, are the first group. -/
theorem group_append (h : Group.Apart (r :: (rs ++ later)))
    (hjoins : ∀ s ∈ rs, grouping.joins r.kind s.kind = true)
    (hlater : ∀ s ∈ later.head?, grouping.joins r.kind s.kind = false) :
    (Tape.mk (r :: (rs ++ later)) final).group grouping =
      ((Tape.mk later final).group grouping).cons
        ((Group.mk (Group.kindOf r.kind rs) r rs).reading (Tape.mk later final).place) := by
  have hnone : later.takeWhile (fun s => grouping.joins r.kind s.kind) = [] := by
    cases later with
    | nil => rfl
    | cons s later => exact List.takeWhile_cons_of_neg (Bool.eq_false_iff.mp (hlater s rfl))
  have hfront : Group.front grouping r (rs ++ later) = ⟨Group.kindOf r.kind rs, r, rs⟩ := by
    rw [Group.front_of_apart grouping h, List.takeWhile_append_of_pos hjoins, hnone, List.append_nil]
  have hdrop : (Tape.mk (rs ++ later) final).drop rs.length = ⟨later, final⟩ :=
    ext_readings List.drop_left rfl
  rw [group_cons, hfront]
  simp only [hdrop]

/-- A token that joins no other is a group of its own. -/
theorem group_alone (h : Group.Apart (r :: rs)) (hneighbours : r.kind.joinsNeighbours = false)
    (hpiece : r.kind.isValuePiece = false) :
    (Tape.mk (r :: rs) final).group grouping =
      ((Tape.mk rs final).group grouping).cons
        ((Group.mk r.kind r []).reading (Tape.mk rs final).place) := by
  have hempty : Group.Apart (r :: ([] ++ rs)) := h
  refine group_append hempty (List.forall_mem_nil _) ?_
  intro s hs
  simp only [Grouping.joins, hneighbours, hpiece, Bool.and_false, Bool.false_and, Bool.or_false]

/-- The kinds of groups are those of tokens, or that of value text. -/
theorem forall_kind_group {P : Kind → Prop} {tape : Tape π ι} (hvalue : P .attributeValue)
    (h : ∀ s ∈ tape.readings, P s.kind) : ∀ s ∈ (tape.group grouping).readings, P s.kind := by
  intro s hs
  obtain ⟨n, r, rs, hreadings, rfl⟩ := mem_readings_group hs
  have hmem : ∀ t ∈ r :: rs, P t.kind := by
    intro t ht
    rw [← hreadings] at ht
    exact h t (List.mem_of_mem_drop ht)
  have hleader : Group.leader r rs ∈ r :: rs := by
    rw [Group.leader]
    cases hlast : (Group.atStart r rs).getLast? with
    | none => exact List.mem_cons_self
    | some t =>
        have ht := (List.takeWhile_prefix _).subset (List.mem_of_getLast? hlast)
        exact List.mem_cons_of_mem r ht
  simp only [Group.reading, Group.front_eq, Group.kindOf]
  split
  · exact hvalue
  · exact hmem _ hleader

end Tape

/-! ## The markup -/

namespace Markup

theorem lineSpaceLength_le {white rest : List Char} (hrest : ∀ c ∈ rest.head?, isWhiteSpace c = false) :
    lineSpaceLength (white ++ rest) ≤ white.length := by
  induction white with
  | nil =>
      cases rest with
      | nil => exact Nat.le_refl _
      | cons c rest =>
          simp only [List.nil_append, lineSpaceLength, hrest c rfl, Bool.not_false, if_true]
          exact Nat.le_refl _
  | cons c white ih =>
      simp only [List.cons_append, lineSpaceLength, List.length_cons]
      split
      · exact Nat.zero_le _
      split
      · exact Nat.le_add_left _ _
      · exact Nat.succ_le_succ ih

theorem lineSpaceRest_le {white rest : List Char} (hrest : ∀ c ∈ rest.head?, isWhiteSpace c = false)
    (c : Char) : lineSpaceRest c (white ++ rest) ≤ white.length := by
  rw [lineSpaceRest]
  split
  · exact Nat.zero_le _
  · exact lineSpaceLength_le hrest

theorem tapeOf_cons {form : Form} {offset : Nat} {context : Context} {c : Char} {cs : List Char}
    {transition : Transition} (h : context.transition c cs = transition) :
    tapeOf form offset context (c :: cs) =
      (tapeOf form (offset + byteLength (c :: cs.take transition.more))
        (context.after form transition) (cs.drop transition.more)).cons
          ⟨transition.kind, offset + byteLength (c :: cs.take transition.more),
            placeAt offset context⟩ := by
  rw [tapeOf, h]

/-- White space in front of anything else is read line by line, and leaves the initial state. -/
theorem tapeOf_white (form : Form) (nesting : Nesting) {white rest : List Char} (offset : Nat)
    (hwhite : ∀ c ∈ white, isWhiteSpace c = true)
    (hrest : ∀ c ∈ rest.head?, isWhiteSpace c = false) :
    let behind := tapeOf form (offset + byteLength white) ⟨.initial, nesting⟩ rest
    ∃ lines, (∀ r ∈ lines, r.kind = .whiteSpace) ∧ (lines = [] ↔ white = []) ∧
      tapeOf form offset ⟨.initial, nesting⟩ (white ++ rest) =
        ⟨lines ++ behind.readings, behind.final⟩ := by
  induction hlength : white.length using Nat.strongRecOn generalizing white offset with
  | ind n ih =>
      cases white with
      | nil => exact ⟨[], List.forall_mem_nil _, by simp, rfl⟩
      | cons c white =>
          let more := lineSpaceRest c (white ++ rest)
          have hmore : more ≤ white.length := lineSpaceRest_le hrest c
          have htransition : Context.transition ⟨.initial, nesting⟩ c (white ++ rest) =
              { kind := .whiteSpace, more := more, next := .initial } := by
            simp only [Context.transition, Rule.initial, hwhite c List.mem_cons_self, if_true, more]
          have hdrop : (white ++ rest).drop more = white.drop more ++ rest :=
            List.drop_append_of_le_length hmore
          have htake : (white ++ rest).take more = white.take more :=
            List.take_append_of_le_length hmore
          have hoffset : offset + byteLength (c :: white.take more) + byteLength (white.drop more) =
              offset + byteLength (c :: white) := by
            rw [Nat.add_assoc, ← byteLength_append, List.cons_append, List.take_append_drop]
          obtain ⟨lines, hlines, -, htape⟩ := ih (white.drop more).length
            (by simp only [← hlength, List.length_drop, List.length_cons]; omega)
            (offset + byteLength (c :: white.take more))
            (fun d hd => hwhite d (List.mem_cons_of_mem c (List.mem_of_mem_drop hd))) rfl
          rw [hoffset] at htape
          let line : Reading Snapshot Nesting := ⟨.whiteSpace,
            offset + byteLength (c :: white.take more), placeAt offset ⟨.initial, nesting⟩⟩
          refine ⟨line :: lines, List.forall_mem_cons.mpr ⟨rfl, hlines⟩, by simp, ?_⟩
          rw [List.cons_append, tapeOf_cons htransition]
          simp only [hdrop, htake]
          exact congrArg (Tape.cons line) htape

/-! ## Kinds behind the frontmatter -/

/-- The kinds of tokens outside the frontmatter and its fences. -/
def IsMarkup (kind : Kind) : Prop :=
  kind ≠ .frontmatterSeparator ∧ kind ≠ .frontmatterScript

theorem isMarkup_of_inContent {kind : Kind} (h : inContent kind = true) : IsMarkup kind := by
  constructor
  · rintro rfl
    cases h
  · rintro rfl
    cases h

theorem State.InMarkup.isMarkup {state : State} {kind : Kind} (h : state.InMarkup)
    (hreads : state.reads kind = true) : IsMarkup kind := by
  constructor
  · rintro rfl
    cases state with
    | initial | frontmatter | frontmatterClose | unlisted => exact h
    | _ => cases hreads
  · rintro rfl
    cases state with
    | initial | frontmatter | frontmatterClose | unlisted => exact h
    | _ => cases hreads

/-- Nothing leads back into the frontmatter. -/
theorem isMarkup_tapeOf (form : Form) (offset : Nat) {context : Context}
    (h : context.Throughout State.InMarkup) (cs : List Char) :
    ∀ r ∈ (tapeOf form offset context cs).readings, IsMarkup r.kind := by
  fun_induction tapeOf form offset context cs with
  | case1 offset context => exact List.forall_mem_nil _
  | case2 offset context c cs transition stop ih =>
      have hfirst : IsMarkup transition.kind := h.state.isMarkup (context.reads_kind c cs)
      exact List.forall_mem_cons.mpr ⟨hfirst, ih (h.after State.lasting_inMarkup c cs)⟩

/-- What is read in the initial state where no fence begins is markup. -/
theorem isMarkup_tapeOf_initial (form : Form) (offset : Nat) {rest : List Char}
    (hwhite : ∀ c ∈ rest.head?, isWhiteSpace c = false) (hfence : ¬ fence <+: rest) :
    ∀ r ∈ (tapeOf form offset ⟨.initial, ∅⟩ rest).readings, IsMarkup r.kind := by
  cases rest with
  | nil =>
      rw [tapeOf]
      exact List.forall_mem_nil _
  | cons c cs =>
      have hnone : begins fence (c :: cs) = false := Bool.eq_false_iff.mpr (mt begins_iff.mp hfence)
      have htransition : Context.transition ⟨.initial, ∅⟩ c cs = Rule.content ∅ c cs := by
        simp only [Context.transition, Rule.initial, hwhite c rfl, hnone, Bool.false_eq_true, if_false]
      -- From here on the initial state is read as content.
      have hcontent : Context.Throughout State.InMarkup ⟨.content, ∅⟩ :=
        Context.throughout_empty trivial
      rw [tapeOf_cons htransition]
      refine List.forall_mem_cons.mpr ⟨isMarkup_of_inContent (Rule.content_kind ∅ c cs), ?_⟩
      exact isMarkup_tapeOf form _ (hcontent.after State.lasting_inMarkup c cs) _

/-- White space in front of it changes nothing. -/
theorem isMarkup_tapeOf_white (form : Form) (offset : Nat) {white rest : List Char}
    (hwhite : ∀ c ∈ white, isWhiteSpace c = true) (hrest : ∀ c ∈ rest.head?, isWhiteSpace c = false)
    (hfence : ¬ fence <+: rest) :
    ∀ r ∈ (tapeOf form offset ⟨.initial, ∅⟩ (white ++ rest)).readings, IsMarkup r.kind := by
  obtain ⟨lines, hlines, -, htape⟩ := tapeOf_white form ∅ offset hwhite hrest
  rw [htape]
  intro r hr
  rcases List.mem_append.mp hr with hr | hr
  · rw [hlines r hr]
    exact ⟨Kind.noConfusion, Kind.noConfusion⟩
  · exact isMarkup_tapeOf_initial form _ hrest hfence r hr

end Markup

/-! ## The document -/

namespace Document

/-- The tokens that are shown, and whether each of them is read in the frontmatter. -/
def marked (rs : List (Reading Snapshot Live)) : List (Token × Bool) :=
  rs.map fun r => (r.token, r.place.live.inFrontmatter)

/-- What is shown for a text behind an opening fence. The script goes on up to the first line break
    that a fence follows, or to the end, and behind the closing fence there is no other one. -/
inductive Fenced (text body : List Char) (start stop : Nat) : List (Token × Bool) → Prop
  | closed {n close : Nat} {script later : List Token}
      (hfence : '\n' :: fence <+: body.drop n) (hfirst : ∀ k < n, ¬ '\n' :: fence <+: body.drop k)
      (hclose : close = start + byteLength (body.take n) + 1)
      (hscript : Covers text close start script)
      (hkinds : ∀ t ∈ script, ∃ kind, t.kind = .script kind)
      (hlater : ∀ t ∈ later, t.kind ≠ .frontmatterSeparator) :
      Fenced text body start stop (script.map (·, true) ++
        (⟨.frontmatterSeparator, close, close + 3⟩, false) :: later.map (·, false))
  | unclosed {script : List Token} (hnone : ∀ k, ¬ '\n' :: fence <+: body.drop k)
      (hscript : Covers text stop start script)
      (hkinds : ∀ t ∈ script, ∃ kind, t.kind = .script kind) :
      Fenced text body start stop (script.map (·, true))

section Marked

variable {source : String} {r : Reading Snapshot Nesting} {rs : List (Reading Snapshot Nesting)}
  {final : Place Snapshot Nesting} {document : Tape Snapshot Live}

theorem marked_keep (hkind : r.kind ≠ .frontmatterScript)
    (h : ofMarkup source ⟨r :: rs, final⟩ = .ok document) :
    ∃ later, ofMarkup source ⟨rs, final⟩ = .ok later ∧
      marked document.readings = (r.token, false) :: marked later.readings := by
  obtain ⟨part, later, hpart, hlater, rfl⟩ := ofMarkup_cons h
  refine ⟨later, hlater, ?_⟩
  have hplain : r.kind.opensEmbedment = false :=
    Bool.eq_false_iff.mpr (mt (Kind.opensEmbedment_eq_true_iff r.kind).mp hkind)
  rcases expand_cases hpart with rfl | ⟨hopens, -⟩
  · rfl
  · rw [hplain] at hopens
    cases hopens

theorem marked_script (hkind : r.kind = .frontmatterScript) (hlt : r.place.offset < r.stop)
    (hstart : Boundary source.toList r.place.offset) (hstop : Boundary source.toList r.stop)
    (h : ofMarkup source ⟨r :: rs, final⟩ = .ok document) :
    ∃ script later, ofMarkup source ⟨rs, final⟩ = .ok later ∧
      Covers source.toList r.stop r.place.offset script ∧
      (∀ t ∈ script, ∃ kind, t.kind = .script kind) ∧
      marked document.readings = script.map (·, true) ++ marked later.readings := by
  obtain ⟨part, later, hpart, hlater, rfl⟩ := ofMarkup_cons h
  obtain ⟨covered, hcovered, hcovers⟩ := covers_expand hlt hstart hstop
  rw [hpart] at hcovered
  cases hcovered
  rcases expand_cases_of_lt hlt hpart with ⟨hother, -⟩ | ⟨-, script, htape, rfl⟩
  · exact absurd hkind hother
  · refine ⟨script.tokens, later, hlater, ?_, ?_, ?_⟩
    · rw [List.map_map] at hcovers
      exact hcovers
    · intro t ht
      obtain ⟨lexeme, hlexeme, rfl⟩ := List.mem_map.mp ht
      exact (Script.tape_of_lt hlt htape).2 lexeme hlexeme
    · simp only [marked, List.map_append, List.map_map, Tape.tokens]
      rfl

theorem marked_of_isMarkup (hkinds : ∀ r ∈ rs, IsMarkup r.kind)
    (h : ofMarkup source ⟨rs, final⟩ = .ok document) :
    marked document.readings = (rs.map Reading.token).map (·, false) := by
  induction rs generalizing document with
  | nil =>
      cases h
      rfl
  | cons r rs ih =>
      obtain ⟨hkind, hlater⟩ := List.forall_mem_cons.mp hkinds
      obtain ⟨later, hrest, hmarked⟩ := marked_keep hkind.2 h
      rw [hmarked, ih hlater hrest]
      rfl

/-- Where no token of the markup is one of the frontmatter, nothing is read there. -/
theorem exists_marked_of_isMarkup {markup : Tape Snapshot Nesting} {grouping : Grouping}
    (hkinds : ∀ r ∈ markup.readings, IsMarkup r.kind)
    (h : ofMarkup source (markup.group grouping) = .ok document) :
    ∃ tokens : List Token, (∀ t ∈ tokens, t.kind ≠ .frontmatterSeparator) ∧
      marked document.readings = tokens.map (·, false) := by
  have hgrouped : ∀ r ∈ (markup.group grouping).readings, IsMarkup r.kind :=
    Tape.forall_kind_group ⟨Kind.noConfusion, Kind.noConfusion⟩ hkinds
  refine ⟨(markup.group grouping).tokens, ?_, marked_of_isMarkup hgrouped h⟩
  intro t ht
  obtain ⟨r, hr, rfl⟩ := List.mem_map.mp ht
  exact (hgrouped r hr).1

end Marked

section Fences

variable {source : String} {grouping : Grouping} {offset stop : Nat} {document : Tape Snapshot Live}

theorem apart_tapeOf (form : Form) (context : Context) {cs : List Char}
    (h : Spans source.toList cs offset stop) :
    Group.Apart (tapeOf form offset context cs).readings := by
  obtain ⟨hfinal, hcovers⟩ := covers_markup form context h
  rw [← hfinal] at hcovers
  exact (Tape.ascending_of_covers hcovers).apart

/-- A token that joins no other is shown as it is. -/
theorem group_tapeOf_cons (form : Form) (grouping : Grouping) {context : Context} {c : Char}
    {cs : List Char} {transition : Transition} (htransition : context.transition c cs = transition)
    (hneighbours : transition.kind.joinsNeighbours = false)
    (hpiece : transition.kind.isValuePiece = false)
    (hspans : Spans source.toList (c :: cs) offset stop) :
    let behind := offset + byteLength (c :: cs.take transition.more)
    let later := tapeOf form behind (context.after form transition) (cs.drop transition.more)
    ∃ r, r.token = ⟨transition.kind, offset, behind⟩ ∧
      (tapeOf form offset context (c :: cs)).group grouping = (later.group grouping).cons r := by
  intro behind later
  have hapart := apart_tapeOf form context hspans
  rw [tapeOf_cons htransition] at hapart ⊢
  have hplace : later.place = placeAt behind (context.after form transition) :=
    Cursor.place_tape form ⟨behind, context.after form transition, cs.drop transition.more⟩
  refine ⟨_, ?_, Tape.group_alone hapart hneighbours hpiece⟩
  change Token.mk transition.kind offset later.place.offset = _
  rw [hplace]
  rfl

/-- A fence, in front of anything else. -/
theorem marked_fence {context : Context} {next : State} {rest : List Char}
    (htransition : context.transition '-' ('-' :: '-' :: rest) = ⟨.frontmatterSeparator, 2, next, .keep⟩)
    (hspans : Spans source.toList (fence ++ rest) offset stop)
    (h : ofMarkup source ((tapeOf .document offset context (fence ++ rest)).group grouping) =
      .ok document) :
    ∃ later, ofMarkup source ((tapeOf .document (offset + 3)
          (context.after .document ⟨.frontmatterSeparator, 2, next, .keep⟩) rest).group grouping) =
        .ok later ∧
      marked document.readings =
        (⟨.frontmatterSeparator, offset, offset + 3⟩, false) :: marked later.readings := by
  obtain ⟨r, htoken, hgroup⟩ := group_tapeOf_cons .document grouping htransition rfl rfl hspans
  change (tapeOf .document offset context (fence ++ rest)).group grouping = _ at hgroup
  rw [hgroup] at h
  have hkind : r.kind = .frontmatterSeparator := congrArg Token.kind htoken
  obtain ⟨later, hlater, hmarked⟩ := marked_keep (by rw [hkind]; exact Kind.noConfusion) h
  rw [htoken] at hmarked
  exact ⟨later, hlater, hmarked⟩

theorem context_behind_fence :
    (Context.mk .frontmatterClose ∅).after .document ⟨.frontmatterSeparator, 2, .content, .keep⟩ =
      ⟨.content, ∅⟩ :=
  rfl

/-- Behind the script there is nothing, or a fence and then markup. -/
theorem marked_close {content : List Char} (hspans : Spans source.toList (fence ++ content) offset stop)
    (h : ofMarkup source ((tapeOf .document offset ⟨.frontmatterClose, ∅⟩ (fence ++ content)).group
      grouping) = .ok document) :
    ∃ later : List Token, (∀ t ∈ later, t.kind ≠ .frontmatterSeparator) ∧
      marked document.readings =
        (⟨.frontmatterSeparator, offset, offset + 3⟩, false) :: later.map (·, false) := by
  have htransition : Context.transition ⟨.frontmatterClose, ∅⟩ '-' ('-' :: '-' :: content) =
      ⟨.frontmatterSeparator, 2, .content, .keep⟩ := by
    simp [Context.transition, Rule.frontmatterClose, begins, fence]
  obtain ⟨rest, hrest, hmarked⟩ := marked_fence htransition hspans h
  have hcontent : Context.Throughout State.InMarkup ⟨.content, ∅⟩ :=
    Context.throughout_empty trivial
  rw [context_behind_fence] at hrest
  obtain ⟨later, hlater, hmarkup⟩ :=
    exists_marked_of_isMarkup (isMarkup_tapeOf .document _ hcontent content) hrest
  exact ⟨later, hlater, by rw [hmarked, hmarkup]⟩

/-- A line break and a fence, cut behind the line break. -/
theorem exists_of_seek? {body : List Char} {n : Nat} (h : '\n' :: fence <+: body.drop n) :
    ∃ content, body.drop (n + 1) = fence ++ content ∧
      byteLength (body.take (n + 1)) = byteLength (body.take n) + 1 := by
  obtain ⟨content, hcontent⟩ := h
  have hn : n < body.length := by
    by_contra hle
    rw [List.drop_of_length_le (Nat.not_lt.mp hle)] at hcontent
    cases hcontent
  rw [List.drop_eq_getElem_cons hn, List.cons_append] at hcontent
  obtain ⟨hbreak, hrest⟩ := List.cons.inj hcontent
  refine ⟨content, hrest.symm, ?_⟩
  rw [List.take_succ_eq_append_getElem hn, byteLength_append, ← hbreak]
  rfl

/-- The script up to the closing fence, in front of what is read from there. -/
theorem marked_frontmatter {c : Char} {cs : List Char}
    (hspans : Spans source.toList (c :: cs) offset stop)
    (h : ofMarkup source ((tapeOf .document offset ⟨.frontmatter, ∅⟩ (c :: cs)).group grouping) =
      .ok document) :
    let close := offset + byteLength (c :: cs.take (frontmatterRest c cs))
    let behind := tapeOf .document close ⟨.frontmatterClose, ∅⟩ (cs.drop (frontmatterRest c cs))
    ∃ script later, ofMarkup source (behind.group grouping) = .ok later ∧
      Covers source.toList close offset script ∧ (∀ t ∈ script, ∃ kind, t.kind = .script kind) ∧
      marked document.readings = script.map (·, true) ++ marked later.readings := by
  intro close behind
  have htransition : Context.transition ⟨.frontmatter, ∅⟩ c cs =
      ⟨.frontmatterScript, frontmatterRest c cs, .frontmatterClose, .keep⟩ := rfl
  obtain ⟨r, htoken, hgroup⟩ := group_tapeOf_cons .document grouping htransition rfl rfl hspans
  rw [hgroup] at h
  have hkind : r.kind = .frontmatterScript := congrArg Token.kind htoken
  have hstart : r.place.offset = offset := congrArg Token.start htoken
  have hstop : r.stop = close := congrArg Token.stop htoken
  have hlt : r.place.offset < r.stop := by
    have := byteLength_pos c (cs.take (frontmatterRest c cs))
    rw [hstart, hstop]
    omega
  have hfirst : Boundary source.toList r.place.offset := by
    rw [hstart]
    exact hspans.boundary_start
  have hlast : Boundary source.toList r.stop := by
    rw [hstop]
    exact (spans_rest _ hspans).boundary_start
  obtain ⟨script, later, hlater, hcovers, hkinds, hmarked⟩ := marked_script hkind hlt hfirst hlast h
  rw [hstart, hstop] at hcovers
  exact ⟨script, later, hlater, hcovers, hkinds, hmarked⟩

theorem marked_nil {context : Context}
    (h : ofMarkup source ((tapeOf .document offset context []).group grouping) = .ok document) :
    marked document.readings = [] := by
  rw [tapeOf, Tape.ended, Tape.group, Group.ofReadings] at h
  cases h
  rfl

/-- What is shown for the text behind the opening fence. -/
theorem fenced_of_ofMarkup {body : List Char} (hspans : Spans source.toList body offset stop)
    (h : ofMarkup source ((tapeOf .document offset ⟨.frontmatter, ∅⟩ body).group grouping) =
      .ok document) : Fenced source.toList body offset stop (marked document.readings) := by
  have hne : '\n' :: fence ≠ [] := List.cons_ne_nil _ _
  cases body with
  | nil =>
      have hstop : stop = offset := hspans.stop_eq
      subst hstop
      rw [marked_nil h]
      exact .unclosed (not_prefix_of_seek? hne rfl) Covers.nil (List.forall_mem_nil _)
  | cons c cs =>
      obtain ⟨script, later, hlater, hcovers, hkinds, hmarked⟩ := marked_frontmatter hspans h
      have hrest := spans_rest (frontmatterRest c cs) hspans
      rw [hmarked]
      cases hseek : seek? (begins ('\n' :: fence)) (c :: cs) with
      | none =>
          have hmore : frontmatterRest c cs = cs.length := by
            rw [frontmatterRest, hseek]
            rfl
          rw [hmore, List.drop_length] at hlater hrest
          have hstop : stop = offset + byteLength (c :: cs.take cs.length) := hrest.stop_eq
          rw [hmore, ← hstop] at hcovers
          rw [marked_nil hlater, List.append_nil]
          exact .unclosed (not_prefix_of_seek? hne hseek) hcovers hkinds
      | some n =>
          have hmore : frontmatterRest c cs = n := by
            rw [frontmatterRest, hseek]
            rfl
          have hfence := begins_iff.mp (seek?_spec hseek)
          obtain ⟨content, hcontent, hlength⟩ := exists_of_seek? hfence
          rw [List.drop_succ_cons] at hcontent
          rw [hmore] at hcovers
          rw [hmore, hcontent] at hlater hrest
          obtain ⟨markup, hmarkup, hclose⟩ := marked_close hrest hlater
          rw [hclose]
          refine .closed hfence ?_ ?_ hcovers hkinds hmarkup
          · intro k hk hprefix
            exact Bool.eq_false_iff.mp (seek?_first hseek k hk) (begins_iff.mpr hprefix)
          · rw [← List.take_succ_cons, hlength, Nat.add_assoc]

theorem transition_fence (body : List Char) : Context.transition ⟨.initial, ∅⟩ '-' ('-' :: '-' :: body) =
    ⟨.frontmatterSeparator, 2, .frontmatter, .keep⟩ := by
  have hdash : isWhiteSpace '-' = false := by decide
  simp [Context.transition, Rule.initial, hdash, begins, fence]

/-- White space in front of a fence is one token. -/
theorem marked_white {white body : List Char} (hwhite : ∀ c ∈ white, isWhiteSpace c = true)
    (hspans : Spans source.toList (white ++ (fence ++ body)) offset stop)
    (h : ofMarkup source ((tapeOf .document offset ⟨.initial, ∅⟩ (white ++ (fence ++ body))).group
      grouping) = .ok document) :
    let first := offset + byteLength white
    ∃ later, ofMarkup source ((tapeOf .document first ⟨.initial, ∅⟩ (fence ++ body)).group grouping) =
        .ok later ∧
      marked document.readings =
        (if white = [] then [] else [(⟨.whiteSpace, offset, first⟩, false)]) ++
          marked later.readings := by
  intro first
  let behind := tapeOf .document first ⟨.initial, ∅⟩ (fence ++ body)
  have hdash : ∀ c ∈ (fence ++ body).head?, isWhiteSpace c = false := by
    intro c hc
    obtain rfl : '-' = c := Option.some.inj hc
    decide
  obtain ⟨lines, hlines, hnil, htape⟩ := tapeOf_white .document ∅ offset hwhite hdash
  have hapart := apart_tapeOf .document ⟨.initial, ∅⟩ hspans
  cases lines with
  | nil =>
      have hempty : white = [] := hnil.mp rfl
      refine ⟨document, ?_, by rw [if_pos hempty, List.nil_append]⟩
      rw [htape] at h
      exact h
  | cons r rs =>
      have hne : white ≠ [] := fun hempty => List.cons_ne_nil r rs (hnil.mpr hempty)
      have hoffset : r.place = placeAt offset ⟨.initial, ∅⟩ := by
        have hplace := Cursor.place_tape .document ⟨offset, ⟨.initial, ∅⟩, white ++ (fence ++ body)⟩
        rw [Cursor.tape, htape] at hplace
        exact hplace
      have hfirst : behind.place = placeAt first ⟨.initial, ∅⟩ :=
        Cursor.place_tape .document ⟨first, ⟨.initial, ∅⟩, fence ++ body⟩
      obtain ⟨hr, hrs⟩ := List.forall_mem_cons.mp hlines
      have hjoins : ∀ s ∈ rs, grouping.joins r.kind s.kind = true := by
        intro s hs
        rw [hr, hrs s hs]
        exact Grouping.joins_iff.mpr (.inl ⟨rfl, rfl⟩)
      have hother : ∀ s ∈ behind.readings.head?, grouping.joins r.kind s.kind = false := by
        intro s hs
        have hbehind : behind.readings = _ := congrArg Tape.readings (tapeOf_cons (transition_fence body))
        rw [hbehind] at hs
        obtain rfl := Option.some.inj hs
        rw [hr]
        cases grouping <;> rfl
      rw [htape] at h hapart
      rw [List.cons_append, Tape.group_append hapart hjoins hother] at h
      have hkind : Group.kindOf r.kind rs = .whiteSpace := by
        rw [hr]
        exact Group.kindOf_of_forall hrs
      have hkept : Group.kindOf r.kind rs ≠ .frontmatterScript := by
        rw [hkind]
        exact Kind.noConfusion
      obtain ⟨later, hlater, hmarked⟩ := marked_keep hkept h
      refine ⟨later, hlater, ?_⟩
      rw [hmarked, if_neg hne]
      change (Token.mk (Group.kindOf r.kind rs) r.place.offset behind.place.offset, false) :: _ = _
      rw [hkind, hoffset, hfirst]
      rfl

end Fences

end Document

namespace DocumentGrammar

open Document

/-- A document has frontmatter exactly where a fence is the first thing in it but white space, and
    everything between this fence and the next line that begins with one is read as script. -/
theorem frontmatter_between_fences (lexer : Lexer DocumentGrammar Snapshot Live) (source : String)
    (text : List Char) (start stop : Nat) (hform : lexer.reader.form = .document)
    (hspans : Spans source.toList text start stop) :
    let white := text.takeWhile isWhiteSpace
    let rest := text.dropWhile isWhiteSpace
    let first := start + byteLength white
    ∃ started, lexer.start source start stop 0 = .ok started ∧
      started.tape.final.live.inFrontmatter = false ∧
      (∀ body, rest = fence ++ body → ∃ shown, Fenced source.toList body (first + 3) stop shown ∧
        marked started.tape.readings =
          (if white = [] then [] else [(⟨.whiteSpace, start, first⟩, false)]) ++
            (⟨.frontmatterSeparator, first, first + 3⟩, false) :: shown) ∧
      (¬ fence <+: rest → ∀ r ∈ started.tape.readings,
        r.kind ≠ .frontmatterSeparator ∧ r.place.live.inFrontmatter = false) := by
  intro white rest first
  have hsplit : text = white ++ rest := List.takeWhile_append_dropWhile.symm
  have hwhite : ∀ c ∈ white, isWhiteSpace c = true := fun c hc => List.mem_takeWhile_imp hc
  have hrest : ∀ c ∈ rest.head?, isWhiteSpace c = false := by
    intro c hc
    have h := List.head?_dropWhile_not isWhiteSpace text
    rw [Option.mem_def.mp hc] at h
    exact h
  let markup := tapeOf .document start ⟨.initial, ∅⟩ text
  obtain ⟨hfinal, hcovers⟩ := covers_markup .document ⟨.initial, ∅⟩ hspans
  rw [← hfinal] at hcovers
  obtain ⟨document, hdocument, hend, -⟩ := covers_ofMarkup_group hcovers lexer.reader.grouping
  have hread : Reader.start lexer.reader source start stop 0 = .ok document := by
    let cursor : Cursor := ⟨start, ⟨.initial, ∅⟩, text⟩
    have hwithin : cursor.Within source.toList stop := hspans
    have hresume := lexer.reader.resume_eq hwithin
    rw [hform] at hresume
    rw [start_eq_resume, hform]
    exact hresume.trans hdocument
  obtain ⟨started, hstarted, rfl, -⟩ := Lexer.start_of_read hread
  refine ⟨started, hstarted, ?_, ?_, ?_⟩
  · rw [hend]
    rfl
  · intro body hbody
    rw [hsplit, hbody] at hspans hdocument
    obtain ⟨fenced, hfenced, hmarked⟩ := marked_white hwhite hspans hdocument
    have hfence := hspans.of_append_right
    obtain ⟨inside, hinside, hopened⟩ := marked_fence (transition_fence body) hfence hfenced
    have hbehind : Spans source.toList body (first + 3) stop := hfence.of_append_right
    exact ⟨_, fenced_of_ofMarkup hbehind hinside, by rw [hmarked, hopened]⟩
  · intro hfence
    have hkinds : ∀ r ∈ markup.readings, IsMarkup r.kind := by
      simp only [markup]
      rw [hsplit]
      exact isMarkup_tapeOf_white .document start hwhite hrest hfence
    obtain ⟨tokens, htokens, hmarked⟩ := exists_marked_of_isMarkup hkinds hdocument
    intro r hr
    have hmem : (r.token, r.place.live.inFrontmatter) ∈ tokens.map (·, false) := by
      rw [← hmarked]
      exact List.mem_map_of_mem hr
    obtain ⟨t, ht, heq⟩ := List.mem_map.mp hmem
    obtain ⟨rfl, houtside⟩ := Prod.mk.inj heq
    exact ⟨htokens _ ht, houtside.symm⟩

/-- In a region behind the beginning of the source, with white space in front of the fence. -/
theorem frontmatter_between_fences_behind_white :
    let source := "é \n---\n1\n---<p>"
    let text := " \n---\n1\n---<p>".toList
    let lexer : Lexer DocumentGrammar Snapshot Live := Lexer.idle ⟨.values, .document⟩
    lexer.reader.form = .document ∧ Spans source.toList text 2 16 ∧ ∃ started shown,
      lexer.start source 2 16 0 = .ok started ∧ Fenced source.toList "\n1\n---<p>".toList 7 16 shown ∧
      marked started.tape.readings =
        [(⟨.whiteSpace, 2, 4⟩, false)] ++ (⟨.frontmatterSeparator, 4, 7⟩, false) :: shown ∧
      marked started.tape.readings =
        [(⟨.whiteSpace, 2, 4⟩, false), (⟨.frontmatterSeparator, 4, 7⟩, false),
          (⟨.script .whiteSpace, 7, 8⟩, true), (⟨.script .number, 8, 9⟩, true),
          (⟨.script .whiteSpace, 9, 10⟩, true), (⟨.frontmatterSeparator, 10, 13⟩, false),
          (⟨.tagStart, 13, 14⟩, false), (⟨.tagName, 14, 15⟩, false), (⟨.tagEnd, 15, 16⟩, false)] := by
  intro source text lexer
  have hspans : Spans source.toList text 2 16 := ⟨['é'], [], by decide, rfl, rfl⟩
  obtain ⟨started, hstarted, -, hfenced, -⟩ :=
    frontmatter_between_fences lexer source text 2 16 rfl hspans
  obtain ⟨shown, hshown, hmarked⟩ := hfenced "\n1\n---<p>".toList (by decide +kernel)
  have hwhite : text.takeWhile isWhiteSpace = [' ', '\n'] := by decide +kernel
  have hrun : ((lexer.start source 2 16 0).toOption.map fun started => marked started.tape.readings) =
      some [(⟨.whiteSpace, 2, 4⟩, false), (⟨.frontmatterSeparator, 4, 7⟩, false),
        (⟨.script .whiteSpace, 7, 8⟩, true), (⟨.script .number, 8, 9⟩, true),
        (⟨.script .whiteSpace, 9, 10⟩, true), (⟨.frontmatterSeparator, 10, 13⟩, false),
        (⟨.tagStart, 13, 14⟩, false), (⟨.tagName, 14, 15⟩, false), (⟨.tagEnd, 15, 16⟩, false)] := by
    decide +kernel
  rw [hwhite] at hshown hmarked
  rw [hstarted] at hrun
  exact ⟨rfl, hspans, started, shown, hstarted, hshown, hmarked, Option.some.inj hrun⟩

end DocumentGrammar

end Relex
