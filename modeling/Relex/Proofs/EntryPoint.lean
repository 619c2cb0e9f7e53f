import Relex.Proofs.Fences

/-! # Joining a document at any token of its markup

The markup below a document is finer than the document: groups join its tokens, and the script of the
frontmatter replaces one. A document can be taken up at every token of its markup all the same, and it
goes on as it would have, except that of the group around the token only the rest is left. What joins
a token does not depend on where reading began: from a member of a run on, the groups are the rest of
the run and the runs behind it (`Group.Runs.group_member`), and the document of these groups is an end of
the whole document (`Document.exists_drop`).
-/

namespace Relex

open Text Markup

/-- What is left of tokens that cover a text covers the rest of it. -/
theorem Covers.drop {π ι : Type} {text : List Char} {start : Nat} {tape : Tape π ι}
    (h : Covers text tape.final.offset start tape.tokens) (n : Nat) :
    Covers text (tape.drop n).final.offset (tape.drop n).place.offset (tape.drop n).tokens := by
  induction n generalizing tape start with
  | zero => exact h.place_offset.symm ▸ h
  | succ n ih =>
      obtain ⟨readings, final⟩ := tape
      rw [Tape.drop_succ]
      cases readings with
      | nil =>
          have hfinal : start = final.offset := by cases h; rfl
          subst hfinal
          exact ih h
      | cons r rs => cases h with | cons _ _ _ _ hrest => exact ih hrest

/-! ## Runs from one of their members on -/

namespace Group

variable {π ι : Type} {grouping : Grouping} {r : Reading π ι} {rs front more : List (Reading π ι)}
  {part : List (Reading π ι)} {before after parts : List (List (Reading π ι))} {final : Place π ι}

theorem exists_of_getElem?_flatten {α : Type} {parts : List (List α)} {n : Nat} {a : α}
    (h : parts.flatten[n]? = some a) :
    ∃ before front more after, parts = before ++ (front ++ a :: more) :: after ∧
      n = before.flatten.length + front.length := by
  induction parts generalizing n with
  | nil => simp at h
  | cons part parts ih =>
      rw [List.flatten_cons] at h
      by_cases hn : n < part.length
      · have ha : part[n] = a := by
          simpa [List.getElem?_append_left hn, List.getElem?_eq_getElem hn] using h
        refine ⟨[], part.take n, part.drop (n + 1), parts, ?_, by simp; omega⟩
        simp [← ha]
      · rw [List.getElem?_append_right (by omega)] at h
        obtain ⟨before, front, more, after, rfl, hindex⟩ := ih h
        refine ⟨part :: before, front, more, after, rfl, ?_⟩
        rw [List.flatten_cons, List.length_append]
        omega

theorem Runs.tail (h : Runs grouping rs (part :: parts)) : Runs grouping parts.flatten parts where
  flatten := rfl
  nonempty := fun hnil => h.nonempty (List.mem_cons_of_mem part hnil)
  joined := fun next hnext => h.joined next (List.mem_cons_of_mem part hnext)
  maximal := h.maximal.tail

theorem Runs.behind (h : Runs grouping rs (before ++ after)) :
    Runs grouping after.flatten after := by
  induction before generalizing rs with
  | nil => simpa [← h.flatten] using h
  | cons part before ih => exact ih h.tail

/-- In a run every token joins every other one. -/
theorem pairwise_of_isChain (h : rs.IsChain fun s t => grouping.joins s.kind t.kind = true) :
    rs.Pairwise fun s t => grouping.joins s.kind t.kind = true := by
  have : IsTrans (Reading π ι) fun s t => grouping.joins s.kind t.kind = true :=
    ⟨fun _ _ _ => Grouping.joins_trans⟩
  exact List.isChain_iff_pairwise.mp h

/-- What follows a run does not join any of its members. -/
theorem Runs.not_joins_behind (h : Runs grouping rs ((front ++ r :: more) :: after)) :
    ∀ s ∈ after.flatten.head?, grouping.joins r.kind s.kind = false := by
  intro s hs
  cases after with
  | nil => simp at hs
  | cons next after =>
      obtain ⟨⟨hpart, hnext, hbreak⟩, -⟩ := List.isChain_cons_cons.mp h.maximal
      obtain ⟨t, next, rfl⟩ := List.exists_cons_of_ne_nil hnext
      obtain rfl : t = s := by simpa using hs
      have hpairs := pairwise_of_isChain (h.joined _ List.mem_cons_self)
      -- The last member of the run is the token itself or joins it.
      cases hmore : more.getLast? with
      | none =>
          obtain rfl := List.getLast?_eq_none_iff.mp hmore
          simpa using hbreak
      | some last =>
          have hlast : last ∈ more := List.mem_of_getLast? hmore
          have hjoins : grouping.joins r.kind last.kind = true :=
            (List.pairwise_cons.mp (List.pairwise_append.mp hpairs).2.1).1 last hlast
          have hend : (front ++ r :: more).getLast hpart = last := by
            obtain ⟨init, rfl⟩ := List.getLast?_eq_some_iff.mp hmore
            simp
          rw [hend, List.head_cons] at hbreak
          rw [Bool.eq_false_iff] at hbreak ⊢
          exact fun hr => hbreak (Grouping.joins_trans (Grouping.joins_symm hjoins) hr)

/-- From a member of a run on, the first group is the rest of the run, and the groups behind it are the
    runs behind this one. -/
theorem Runs.group_member (h : Runs grouping rs ((front ++ r :: more) :: after)) (hrs : Apart rs) :
    (Tape.mk (r :: (more ++ after.flatten)) final).group grouping =
      ((Tape.mk after.flatten final).group grouping).cons
        ((Group.mk (kindOf r.kind more) r more).reading (Tape.mk after.flatten final).place) := by
  have hdrop : rs.drop front.length = r :: (more ++ after.flatten) := by
    rw [← h.flatten]
    simp
  have hpairs := pairwise_of_isChain (h.joined _ List.mem_cons_self)
  apply Tape.group_append
  · rw [← hdrop]
    exact hrs.drop
  · exact (List.pairwise_cons.mp (List.pairwise_append.mp hpairs).2.1).1
  · exact h.not_joins_behind

/-- Every run is one token of the grouped tape. -/
theorem Runs.drop_group (h : Runs grouping rs (before ++ after)) (hrs : Apart rs) :
    ((Tape.mk rs final).group grouping).drop before.length =
      (Tape.mk after.flatten final).group grouping := by
  induction before generalizing rs with
  | nil => simp [← h.flatten]
  | cons part before ih =>
      obtain ⟨r, more, rfl⟩ : ∃ r more, part = r :: more := by
        apply List.exists_cons_of_ne_nil
        rintro rfl
        exact h.nonempty List.mem_cons_self
      have hflatten : rs = r :: (more ++ (before ++ after).flatten) := by simp [← h.flatten]
      have hrun : Runs grouping rs (([] ++ r :: more) :: (before ++ after)) := h
      have hbehind : Apart (before ++ after).flatten := by
        have hdrop : (before ++ after).flatten = rs.drop (more.length + 1) := by simp [hflatten]
        rw [hdrop]
        exact hrs.drop
      rw [List.length_cons, Tape.drop_succ]
      conv_lhs => rw [hflatten]
      rw [hrun.group_member hrs, Tape.advance_cons]
      exact ih h.tail hbehind

end Group

/-! ## The document of a part of the markup -/

namespace Document

variable {source : String} {markup later : Tape Snapshot Nesting} {document : Tape Snapshot Live}

/-- The document of what is left of the markup is what is left of the document. -/
theorem exists_drop (h : ofMarkup source markup = .ok document) (k : Nat) :
    ∃ m, ofMarkup source (markup.drop k) = .ok (document.drop m) := by
  induction k generalizing markup document with
  | zero => exact ⟨0, h⟩
  | succ k ih =>
      obtain ⟨readings, final⟩ := markup
      cases readings with
      | nil => exact ⟨0, by simpa [Tape.drop] using h⟩
      | cons r rs =>
          obtain ⟨part, rest, -, hrest, rfl⟩ := ofMarkup_cons h
          obtain ⟨m, hm⟩ := ih hrest
          refine ⟨part.length + m, ?_⟩
          rw [Tape.drop_succ]
          simpa [Tape.advance, Tape.drop] using hm

/-- A token of the markup other than the script of the frontmatter is a token of the document. -/
theorem exists_of_cons {r : Reading Snapshot Nesting} (hkind : r.kind ≠ .frontmatterScript)
    (h : ofMarkup source (later.cons r) = .ok document) :
    ∃ rest, ofMarkup source later = .ok rest ∧
      document = rest.cons ⟨r.kind, r.stop, markupPlace r.place⟩ := by
  obtain ⟨part, rest, hpart, hrest, rfl⟩ := ofMarkup_cons h
  have hplain : r.kind.opensEmbedment = false :=
    Bool.eq_false_iff.mpr (mt (Kind.opensEmbedment_eq_true_iff r.kind).mp hkind)
  simp only [expand, hplain, Bool.false_eq_true, if_false, Except.ok.injEq] at hpart
  subst hpart
  exact ⟨rest, hrest, rfl⟩

/-- How a document goes on that is taken up at the token `r` of its markup, between the members `front`
    and `more` of a group that ends at `stop`. The whole document goes on from this group as `whole`.
    At the script of the frontmatter both are the same, and elsewhere they differ in one token, which
    begins at `r` where it begins at the group in the whole document. -/
inductive Joined (front : List (Reading Snapshot Nesting)) (r : Reading Snapshot Nesting)
    (more : List (Reading Snapshot Nesting)) (stop : Nat) :
    (whole joined : Tape Snapshot Live) → Prop
  | script {whole : Tape Snapshot Live} (hkind : r.kind = .frontmatterScript)
      (hoffset : whole.place.offset = r.place.offset)
      (hinside : whole.place.live.inFrontmatter = true) : Joined front r more stop whole whole
  | group {first rest : Reading Snapshot Live} {later : Tape Snapshot Live}
      (hkind : r.kind ≠ .frontmatterScript)
      (hfirst : first.token = ⟨Group.kindOf r.kind (front ++ r :: more),
        (front.head?.getD r).place.offset, stop⟩)
      (hrest : rest.token = ⟨Group.kindOf r.kind (r :: more), r.place.offset, stop⟩)
      (hlater : later.place.offset = stop) :
      Joined front r more stop (later.cons first) (later.cons rest)

section Joined

variable {grouping : Grouping} {r : Reading Snapshot Nesting}
  {rs front more : List (Reading Snapshot Nesting)} {after : List (List (Reading Snapshot Nesting))}
  {final : Place Snapshot Nesting} {whole joined : Tape Snapshot Live} {start : Nat}

/-- A document begins where its markup begins. -/
theorem offset_place_of_ofMarkup
    (hcovers : Covers source.toList markup.final.offset start markup.tokens)
    (h : ofMarkup source (markup.group grouping) = .ok document) : document.place.offset = start := by
  obtain ⟨covered, hcovered, -, htokens⟩ := covers_ofMarkup_group hcovers grouping
  rw [h] at hcovered
  cases hcovered
  exact htokens.place_offset

/-- Nothing joins the script of the frontmatter. -/
theorem alone_of_script (hkind : r.kind = .frontmatterScript)
    (h : Group.Runs grouping rs ((front ++ r :: more) :: after)) : front = [] ∧ more = [] := by
  have hnone : ∀ kind, grouping.joins .frontmatterScript kind = false := by
    intro kind
    simp [Grouping.joins, Kind.joinsNeighbours, Kind.isValuePiece]
  have hpairs := Group.pairwise_of_isChain (h.joined _ List.mem_cons_self)
  obtain ⟨-, hmore, hfront⟩ := List.pairwise_append.mp hpairs
  constructor
  · cases front with
    | nil => rfl
    | cons s front =>
        have hjoins := Grouping.joins_symm (hfront s List.mem_cons_self r List.mem_cons_self)
        simp [hkind, hnone] at hjoins
  · cases more with
    | nil => rfl
    | cons s more =>
        have hjoins := (List.pairwise_cons.mp hmore).1 s List.mem_cons_self
        simp [hkind, hnone] at hjoins

theorem joined_of_script (hkind : r.kind = .frontmatterScript)
    (hcovers : Covers source.toList (Tape.mk rs final).final.offset start (Tape.mk rs final).tokens)
    (h : Group.Runs grouping rs (([] ++ r :: []) :: after))
    (hwhole : ofMarkup source ((Tape.mk rs final).group grouping) = .ok whole) (stop : Nat) :
    Joined [] r [] stop whole whole := by
  obtain rfl : rs = r :: after.flatten := by simp [← h.flatten]
  have hordered := Tape.ascending_of_covers hcovers
  have hstart : r.place.offset = start := by cases hcovers with | cons hstart _ _ _ _ => exact hstart
  have hlt : r.place.offset < (Tape.mk after.flatten final).place.offset :=
    (Tape.ascending_cons_iff.mp hordered).1 _ (Tape.offset_place_mem _)
  refine .script hkind ?_ ?_
  · rw [hstart]
    exact offset_place_of_ofMarkup hcovers hwhole
  · rw [← List.nil_append after.flatten, h.group_member hordered.apart] at hwhole
    obtain ⟨part, later, hpart, -, rfl⟩ := ofMarkup_cons hwhole
    have hgroup : Group.kindOf r.kind ([] : List (Reading Snapshot Nesting)) = r.kind := rfl
    rcases expand_cases_of_lt hlt hpart with ⟨hother, -⟩ | ⟨-, script, htape, rfl⟩
    · exact absurd hkind (hgroup ▸ hother)
    · obtain ⟨lexeme, lexemes, hlexemes⟩ :=
        List.exists_cons_of_ne_nil (Script.tape_of_lt hlt htape).1
      simp [hlexemes, Tape.place, scriptReading]

/-- Value text makes a value of all that joins it, so a group has one kind from wherever in it that is
    told. -/
theorem kindOf_of_joins {s : Reading Snapshot Nesting} (hs : s ∈ rs) (hr : r ∈ rs)
    (hjoins : s = r ∨ grouping.joins s.kind r.kind = true) :
    Group.kindOf s.kind rs = Group.kindOf r.kind rs := by
  rcases hjoins with rfl | hjoins
  · rfl
  rcases Grouping.joins_iff.mp hjoins with ⟨hkind, -⟩ | ⟨-, hpiece, hpiece'⟩
  · rw [hkind]
  · simp only [Group.kindOf]
    split
    · rfl
    · rename_i htext
      simp only [List.any_eq_true, beq_iff_eq, not_exists, not_and] at htext
      have hs' := htext s hs
      have hr' := htext r hr
      revert hpiece hpiece' hs' hr'
      cases s.kind <;> cases r.kind <;> simp [Kind.isValuePiece]

theorem kindOf_ne_script (hkind : r.kind ≠ .frontmatterScript)
    (members : List (Reading Snapshot Nesting)) :
    Group.kindOf r.kind members ≠ .frontmatterScript := by
  rw [Group.kindOf]
  split
  · exact Kind.noConfusion
  · exact hkind

/-- The kind of a group as told from a member of it. -/
theorem kindOf_group {first : Reading Snapshot Nesting} {others : List (Reading Snapshot Nesting)}
    (h : Group.Runs grouping rs ((front ++ r :: more) :: after))
    (hmembers : front ++ r :: more = first :: others) :
    Group.kindOf first.kind others = Group.kindOf r.kind (front ++ r :: more) := by
  have hpairs := Group.pairwise_of_isChain (h.joined _ List.mem_cons_self)
  have hr : r ∈ first :: others := by simp [← hmembers]
  rw [hmembers] at hpairs ⊢
  have hjoins : first = r ∨ grouping.joins first.kind r.kind = true :=
    (List.mem_cons.mp hr).imp Eq.symm ((List.pairwise_cons.mp hpairs).1 r)
  rw [← Group.kindOf_cons_self]
  exact kindOf_of_joins List.mem_cons_self hr hjoins

/-- From the group around a token on, the whole document and the one that is taken up at the token. -/
theorem joined_of_runs
    (hcovers : Covers source.toList (Tape.mk rs final).final.offset start (Tape.mk rs final).tokens)
    (h : Group.Runs grouping rs ((front ++ r :: more) :: after))
    (hwhole : ofMarkup source ((Tape.mk rs final).group grouping) = .ok whole)
    (hjoined : ofMarkup source (((Tape.mk rs final).drop front.length).group grouping) = .ok joined) :
    Joined front r more (Tape.mk after.flatten final).place.offset whole joined := by
  by_cases hkind : r.kind = .frontmatterScript
  · obtain ⟨rfl, rfl⟩ := alone_of_script hkind h
    obtain rfl : whole = joined := Except.ok.inj (hwhole.symm.trans hjoined)
    exact joined_of_script hkind hcovers h hwhole _
  · have hapart := (Tape.ascending_of_covers hcovers).apart
    obtain ⟨first, others, hmembers, hfirst⟩ : ∃ first others, front ++ r :: more = first :: others ∧
        front.head?.getD r = first := by
      cases front with
      | nil => exact ⟨r, more, rfl, rfl⟩
      | cons s front => exact ⟨s, front ++ r :: more, rfl, rfl⟩
    have hgroup := kindOf_group h hmembers
    have hkeep : Group.kindOf first.kind others ≠ .frontmatterScript :=
      hgroup ▸ kindOf_ne_script hkind _
    have hrs : rs = first :: (others ++ after.flatten) := by simp [← h.flatten, hmembers]
    have hrun : Group.Runs grouping rs (([] ++ first :: others) :: after) := hmembers ▸ h
    have hmember : (Tape.mk rs final).drop front.length = ⟨r :: (more ++ after.flatten), final⟩ := by
      simp [Tape.drop, ← h.flatten]
    have hbehind : (Tape.mk rs final).drop (others.length + 1) = ⟨after.flatten, final⟩ := by
      simp [Tape.drop, hrs]
    -- Both documents are one token in front of the document of the groups behind.
    rw [hmember, h.group_member hapart] at hjoined
    conv at hwhole => rw [hrs]
    rw [hrun.group_member hapart] at hwhole
    obtain ⟨later, hlater, rfl⟩ := exists_of_cons (kindOf_ne_script hkind more) hjoined
    obtain ⟨same, hsame, rfl⟩ := exists_of_cons hkeep hwhole
    obtain rfl : later = same := Except.ok.inj (hlater.symm.trans hsame)
    refine .group hkind ?_ ?_ ?_
    · rw [hfirst, ← hgroup]
      rfl
    · rw [Group.kindOf_cons_self]
      rfl
    · have hrest := hcovers.drop (others.length + 1)
      rw [hbehind] at hrest
      exact offset_place_of_ofMarkup hrest hlater

end Joined

end Document

namespace DocumentGrammar

open Document

/-- The document that a cursor of the markup reads, and what is read from each token that it passes. -/
theorem joined_of_cursor (reader : DocumentGrammar) {source : String} {stop : Nat} {cursor : Cursor}
    {document : Tape Snapshot Live} (hwithin : cursor.Within source.toList stop)
    (h : ofMarkup source ((cursor.tape reader.form).group reader.grouping) = .ok document) :
    ∃ parts, Group.Runs reader.grouping (cursor.tape reader.form).readings parts ∧
      ∀ n r, (cursor.tape reader.form).readings[n]? = some r →
        ∃ before front more after m snapshot joined,
          parts = before ++ (front ++ r :: more) :: after ∧
          n = before.flatten.length + front.length ∧
          ((cursor.tape reader.form).drop n).place.snapshot = .ok snapshot ∧
          Reader.resume reader source stop snapshot = .ok joined ∧
          Joined front r more (Tape.mk after.flatten (cursor.tape reader.form).final).place.offset
            (document.drop m) joined := by
  let markup := cursor.tape reader.form
  have hcovers : Covers source.toList markup.final.offset cursor.offset markup.tokens :=
    Cursor.covers_tape reader.form hwithin
  have hapart := (Tape.ascending_of_covers hcovers).apart
  have hruns := Group.runs_of_apart reader.grouping hapart
  refine ⟨_, hruns, ?_⟩
  intro n r hr
  have hindexed := hr
  rw [← hruns.flatten] at hindexed
  obtain ⟨before, front, more, after, hparts, hn⟩ := Group.exists_of_getElem?_flatten hindexed
  rw [hparts] at hruns
  -- The document from the group on, and the one from the token on.
  let rest : Tape Snapshot Nesting := ⟨((front ++ r :: more) :: after).flatten, markup.final⟩
  have hgroup : markup.drop before.flatten.length = rest := by
    apply Tape.ext_readings
    · simp only [Tape.readings_drop, rest, markup, ← hruns.flatten, List.flatten_append,
        List.drop_left]
    · rfl
  have hmember : ((Cursor.next reader.form)^[n] cursor).tape reader.form =
      rest.drop front.length := by
    rw [← Cursor.drop_tape, hn, ← Tape.drop_drop]
    exact congrArg (Tape.drop front.length) hgroup
  obtain ⟨m, hdrop⟩ := exists_drop h before.length
  have hwhole : ofMarkup source (rest.group reader.grouping) = .ok (document.drop m) :=
    (congrArg (ofMarkup source) (hruns.drop_group hapart)).symm.trans hdrop
  have hrest := hcovers.drop before.flatten.length
  rw [hgroup] at hrest
  have hthere : ((Cursor.next reader.form)^[n] cursor).Within source.toList stop := hwithin.iterate n
  obtain ⟨joined, hjoined⟩ := Markup.exists_ofMarkup (Cursor.tape_eq hthere) reader.grouping
  refine ⟨before, front, more, after, m, _, joined, hparts, hn, ?_,
    (reader.resume_eq hthere).trans hjoined, ?_⟩
  · rw [Cursor.drop_tape, Cursor.place_tape]
    rfl
  · rw [hmember] at hjoined
    exact joined_of_runs hrest hruns.behind hwhole hjoined

/-- A document can be taken up at every token of its markup, and it goes on as the whole document does,
    except that the group around the token begins at the token. -/
theorem joined_at_any_token (lexer : Lexer DocumentGrammar Snapshot Live) (source : String)
    (start stop : Nat) (state : UInt32) (hstart : Boundary source.toList start)
    (hstop : Boundary source.toList stop) (hle : start ≤ stop) :
    ∃ begun started parts,
      (Lexer.idle ⟨lexer.reader.form⟩ : Lexer MarkupGrammar Snapshot Nesting).start source start stop
        (if isRestartPoint state then state else State.initial.code) = .ok begun ∧
      lexer.start source start stop state = .ok started ∧
      Group.Runs lexer.reader.grouping begun.tape.readings parts ∧
      ∀ n r, begun.tape.readings[n]? = some r → ∃ before front more after m snapshot,
        parts = before ++ (front ++ r :: more) :: after ∧
        n = before.flatten.length + front.length ∧
        (Session.advanceTimes n begun).snapshot = .ok snapshot ∧
        ∀ other : Lexer DocumentGrammar Snapshot Live,
          other.reader = lexer.reader → other.source = source → other.stop = stop →
          ∃ restored, other.restore snapshot = .ok restored ∧
            Joined front r more (Tape.mk after.flatten begun.tape.final).place.offset
              (Session.advanceTimes m started).tape restored.tape := by
  obtain ⟨text, htext⟩ := spans_between hstart hstop hle
  let form := lexer.reader.form
  let cursor : Cursor :=
    ⟨start, contextOf form (if isRestartPoint state then state else State.initial.code), text⟩
  have hwithin : cursor.Within source.toList stop := htext
  have hmarkup : Markup.tape form source stop ⟨cursor.offset, cursor.context⟩ =
      .ok (cursor.tape form) := Cursor.tape_eq hwithin
  obtain ⟨document, hdocument⟩ := Markup.exists_ofMarkup hmarkup lexer.reader.grouping
  have hread : Reader.start lexer.reader source start stop state = .ok document :=
    (lexer.reader.start_eq_resume source start stop state).trans
      ((lexer.reader.resume_eq hwithin).trans hdocument)
  obtain ⟨started, hstarted, rfl, -⟩ := Lexer.start_of_read hread
  let idle : Lexer MarkupGrammar Snapshot Nesting := Lexer.idle ⟨form⟩
  have hbelow : Reader.start idle.reader source start stop
      (if isRestartPoint state then state else State.initial.code) = .ok (cursor.tape form) :=
    hmarkup
  obtain ⟨begun, hbegun, htape, -⟩ := Lexer.start_of_read hbelow
  obtain ⟨parts, hruns, hjoined⟩ := lexer.reader.joined_of_cursor hwithin hdocument
  rw [← htape] at hruns hjoined
  refine ⟨begun, started, parts, hbegun, hstarted, hruns, ?_⟩
  intro n r hr
  obtain ⟨before, front, more, after, m, snapshot, joined, hparts, hn, hsnapshot, hresume, hjoins⟩ :=
    hjoined n r hr
  refine ⟨before, front, more, after, m, snapshot, hparts, hn, ?_, ?_⟩
  · rw [Lexer.snapshot, Lexer.tape_advanceTimes]
    exact hsnapshot
  · rintro other hreader rfl rfl
    rw [← hreader] at hresume
    obtain ⟨restored, hrestored, rfl⟩ := Lexer.restore_of_read hresume
    rw [Lexer.tape_advanceTimes]
    exact ⟨restored, hrestored, hjoins⟩

/-- Behind frontmatter, with a reference in the middle of a value. -/
theorem joined_at_any_token_of_reference_in_value :
    let source := "---\nlet a\n---<p b='é&amp;c'>"
    Boundary source.toList 0 ∧ Boundary source.toList 29 ∧ 0 ≤ 29 ∧
    ∃ begun started parts,
      (Lexer.idle ⟨.document⟩ : Lexer MarkupGrammar Snapshot Nesting).start source 0 29
        (if isRestartPoint 0 then 0 else State.initial.code) = .ok begun ∧
      (Lexer.idle ⟨.values, .document⟩ : Lexer DocumentGrammar Snapshot Live).start source 0 29 0 =
        .ok started ∧
      Group.Runs .values begun.tape.readings parts ∧
      ∀ n r, begun.tape.readings[n]? = some r → ∃ before front more after m snapshot,
        parts = before ++ (front ++ r :: more) :: after ∧
        n = before.flatten.length + front.length ∧
        (Session.advanceTimes n begun).snapshot = .ok snapshot ∧
        ∀ other : Lexer DocumentGrammar Snapshot Live,
          other.reader = ⟨.values, .document⟩ → other.source = source → other.stop = 29 →
          ∃ restored, other.restore snapshot = .ok restored ∧
            Joined front r more (Tape.mk after.flatten begun.tape.final).place.offset
              (Session.advanceTimes m started).tape restored.tape := by
  intro source
  have hstart : Boundary source.toList 0 := by decide
  have hstop : Boundary source.toList 29 := by decide
  exact ⟨hstart, hstop, by decide,
    joined_at_any_token (Lexer.idle ⟨.values, .document⟩) source 0 29 0 hstart hstop (by decide)⟩

end DocumentGrammar

end Relex
