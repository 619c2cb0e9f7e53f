import Relex.Proofs.LineEndRules
import Relex.Proofs.Regrouping

/-! # Reading with either line ends

A text without carriage returns in front of its line feeds and the text with them are read side by side.
Outside comments one step reads one token of each (`Context.mirrors`). The lines of a comment are cut in
different places, so a comment is passed over as a whole, as a run that folds into one token
(`folds_comment`). Up to such folds the tapes hold tokens of the same kinds at corresponding places, as long
as no string holds a line feed (`Cursor.Arrived.sameUpToComments`).
-/

namespace Relex

open Text Script

open Relex.Group Markup

/-! ## Comments -/

/-- Both tokens are of the text of a comment. -/
def BothComments {π ι : Type} (r s : Reading π ι) : Prop :=
  r.kind = .commentCharacters ∧ s.kind = .commentCharacters

namespace Markup

variable {form : Form} {offset : Nat} {nesting : Nesting} {c : Char} {cs : List Char}
  {ts : List (Reading Snapshot Nesting)}

/-- The end of a comment. -/
def closesComment (cs : List Char) : Bool :=
  begins ['-', '-', '>'] cs

/-- A line of a comment ends before the comment does. -/
theorem exists_commentLine (hopen : closesComment (c :: cs) = false) :
    ∃ more, Rule.comment c cs = ⟨.commentCharacters, more, .comment, .keep⟩ ∧
      seek closesComment (c :: cs) = more + 1 + seek closesComment (cs.drop more) := by
  have hopen' : ¬begins ['-', '-', '>'] (c :: cs) = true := Bool.eq_false_iff.mp hopen
  rw [Rule.comment, if_neg hopen']
  have hadd {more : Nat} (hle : more ≤ cs.length)
      (hnone : ∀ k < more, closesComment (cs.drop k) = false) :
      seek closesComment (c :: cs) = more + 1 + seek closesComment (cs.drop more) := by
    rw [seek_cons, hopen, if_neg Bool.false_ne_true, seek_eq_add hle hnone, Nat.add_right_comm]
  split
  · exact ⟨0, rfl, hadd (Nat.zero_le _) fun k hk => absurd hk (Nat.not_lt_zero k)⟩
  · refine ⟨_, rfl, hadd (seek_le _ _) fun k hk => ?_⟩
    exact (Bool.or_eq_false_iff.mp (seek_first k hk)).2

/-- The text of a comment is read as a run of tokens, up to its end or to the end of all. -/
theorem exists_commentRun (form : Form) (offset : Nat) (nesting : Nesting)
    (hopen : closesComment (c :: cs) = false) :
    let reach := seek closesComment (c :: cs)
    let behind := tapeOf form (offset + byteLength ((c :: cs).take reach)) ⟨.comment, nesting⟩
      ((c :: cs).drop reach)
    ∃ first more, (∀ s ∈ first :: more, s.kind = .commentCharacters) ∧
      first.place = placeAt offset ⟨.comment, nesting⟩ ∧
      tapeOf form offset ⟨.comment, nesting⟩ (c :: cs) =
        ⟨first :: more ++ behind.readings, behind.final⟩ := by
  induction hlength : cs.length using Nat.strongRecOn generalizing offset c cs with
  | ind n ih =>
      obtain ⟨more, hline, hreach⟩ := exists_commentLine hopen
      let stop := offset + byteLength (c :: cs.take more)
      let first : Reading Snapshot Nesting :=
        ⟨.commentCharacters, stop, placeAt offset ⟨.comment, nesting⟩⟩
      have htape : tapeOf form offset ⟨.comment, nesting⟩ (c :: cs) =
          (tapeOf form stop ⟨.comment, nesting⟩ (cs.drop more)).cons first := by
        have hline : (Context.mk .comment nesting).transition c cs =
          ⟨.commentCharacters, more, .comment, .keep⟩ := hline
        exact tapeOf_cons hline
      have htake : (c :: cs).take (seek closesComment (c :: cs)) =
          c :: cs.take more ++ (cs.drop more).take (seek closesComment (cs.drop more)) := by
        rw [hreach, List.take_add]
        rfl
      have hdrop : (c :: cs).drop (seek closesComment (c :: cs)) =
          (cs.drop more).drop (seek closesComment (cs.drop more)) := by
        rw [hreach, ← List.drop_drop]
        rfl
      simp only [htake, hdrop, byteLength_append, ← Nat.add_assoc, htape]
      cases hrest : cs.drop more with
      | nil => exact ⟨first, [], List.forall_mem_singleton.mpr rfl, rfl, rfl⟩
      | cons d ds =>
          cases hclose : closesComment (d :: ds) with
          | true =>
              simp only [seek_cons, hclose, if_true]
              exact ⟨first, [], List.forall_mem_singleton.mpr rfl, rfl, rfl⟩
          | false =>
              have hshort : ds.length < n := by
                have := congrArg List.length hrest
                rw [List.length_drop, List.length_cons] at this
                omega
              obtain ⟨second, others, hkinds, -, hlater⟩ := ih _ hshort stop hclose rfl
              refine ⟨first, second :: others, List.forall_mem_cons.mpr ⟨rfl, hkinds⟩, rfl, ?_⟩
              exact congrArg (Tape.cons first) hlater

/-- Behind the text of a comment no more of it follows. -/
theorem kind_ne_behind_comment {text : List Char} {s : Reading Snapshot Nesting}
    (h : s ∈ (tapeOf form offset ⟨.comment, nesting⟩
      (text.drop (seek closesComment text))).readings.head?) : s.kind ≠ .commentCharacters := by
  obtain ⟨d, ds, hrest, hkind, -⟩ := head_tapeOf h
  have hclose : begins ['-', '-', '>'] (d :: ds) = true := by
    have hfound : closesComment (text.drop (seek closesComment text)) = true :=
      seek_spec (hrest ▸ List.cons_ne_nil d ds)
    rwa [hrest] at hfound
  rw [hkind, Context.transition]
  simp only [Rule.comment, if_pos hclose]
  intro hsame
  cases hsame

/-- A comment folds into one token. -/
theorem folds_comment (form : Form) (offset : Nat) (nesting : Nesting)
    (hopen : closesComment (c :: cs) = false) :
    let reach := seek closesComment (c :: cs)
    let stop := offset + byteLength ((c :: cs).take reach)
    let behind := tapeOf form stop ⟨.comment, nesting⟩ ((c :: cs).drop reach)
    let tape := tapeOf form offset ⟨.comment, nesting⟩ (c :: cs)
    tape.final = behind.final ∧ behind.readings <:+ tape.readings ∧
      ∀ ts, Folds BothComments behind.final behind.readings ts →
        Folds BothComments tape.final tape.readings
          (⟨.commentCharacters, stop, placeAt offset ⟨.comment, nesting⟩⟩ :: ts) := by
  intro reach stop behind tape
  obtain ⟨first, more, hkinds, hplace, htape⟩ := exists_commentRun form offset nesting hopen
  have htape : tape = ⟨first :: more ++ behind.readings, behind.final⟩ := htape
  rw [htape]
  refine ⟨rfl, List.suffix_append _ _, fun ts hts =>
    .run ?_ ?_ ?_ (by rw [hplace]) (by rw [hplace]) ?_ hts⟩
  · exact List.Pairwise.isChain (List.pairwise_of_forall_mem_list fun r hr s hs =>
      ⟨hkinds r hr, hkinds s hs⟩)
  · exact fun _ _ s hs hboth => kind_ne_behind_comment hs hboth.2
  · rw [hkinds first List.mem_cons_self]
    exact (kindOf_of_forall hkinds).symm
  · exact (congrArg Place.offset (Cursor.place_tape form ⟨stop, ⟨.comment, nesting⟩, _⟩)).symm

end Markup

/-! ## Corresponding places -/

namespace Text

/-- The second offset is, in the text with the other line ends, where the first one is. -/
def Corresponds (text : List Char) (offset offset' : Nat) : Prop :=
  ∃ before behind, text = before ++ behind ∧ byteLength before = offset ∧
    byteLength (crlf before) = offset'

section Corresponds

variable {text part before behind : List Char} {start stop start' stop' : Nat}

theorem Corresponds.boundary (h : Corresponds text start start') : Boundary text start := by
  obtain ⟨before, behind, htext, hlength, -⟩ := h
  exact ⟨before, behind, htext, hlength⟩

theorem Corresponds.eq (h : Corresponds (before ++ behind) (byteLength before) stop') :
    stop' = byteLength (crlf before) := by
  obtain ⟨before', behind', htext, hlength, rfl⟩ := h
  obtain ⟨between, rfl, -⟩ := front_of_le htext (Nat.le_of_eq hlength.symm)
  rw [byteLength_append] at hlength
  have hnil : between = [] := byteLength_eq_zero (by omega)
  rw [hnil, List.append_nil]

/-- What stands between two places stands, with the other line ends, between the corresponding ones. -/
theorem Spans.crlf (h : Spans text part start stop) (hstart : Corresponds text start start')
    (hstop : Corresponds text stop stop') : Spans (crlf text) (crlf part) start' stop' := by
  obtain ⟨before, after, rfl, rfl, rfl⟩ := h
  rw [List.append_assoc] at hstart
  obtain rfl := hstart.eq
  obtain rfl := hstop.eq
  exact ⟨Text.crlf before, Text.crlf after, by simp, rfl, by simp⟩

end Corresponds

end Text

/-- A token of the same kind, at the corresponding place. -/
def Reading.SameStart {π ι : Type} (text : List Char) (r r' : Reading π ι) : Prop :=
  r'.kind = r.kind ∧ Corresponds text r.place.offset r'.place.offset

/-- The texts of the strings among some tokens have a property. -/
def StringsAre (P : List Char → Prop) (text : List Char) (tokens : List Token) : Prop :=
  ∀ token ∈ tokens, token.kind = .script .string →
    ∀ part, Spans text part token.start token.stop → P part

namespace StringsAre

variable {P : List Char → Prop} {text before front behind : List Char} {tokens others : List Token}
  {kind : Kind}

theorem of_mem (h : StringsAre P text tokens)
    (hmem : ∀ token, token.kind = .script .string → token ∈ others → token ∈ tokens) :
    StringsAre P text others :=
  fun token htoken hkind => h token (hmem token hkind htoken) hkind

theorem of_cons (htext : text = before ++ front ++ behind)
    (h : StringsAre P text (⟨kind, byteLength before, byteLength (before ++ front)⟩ :: tokens)) :
    (kind = .script .string → P front) ∧ StringsAre P text tokens := by
  obtain ⟨hfirst, hlater⟩ := List.forall_mem_cons.mp h
  have hspans : Spans text front (byteLength before) (byteLength (before ++ front)) :=
    ⟨before, behind, htext, rfl, rfl⟩
  exact ⟨fun hkind => hfirst hkind front hspans, hlater⟩

end StringsAre

namespace Markup

variable {form : Form} {nesting : Nesting} {context : Context} {c : Char}
  {source before rest cs : List Char}

/-- Up to how comments are cut, both tapes hold the same tokens. -/
def SameUpToComments (text : List Char) (tape tape' : Tape Snapshot Nesting) : Prop :=
  Corresponds text tape.final.offset tape'.final.offset ∧ ∃ ss ss',
    Folds BothComments tape.final tape.readings ss ∧
    Folds BothComments tape'.final tape'.readings ss' ∧
    List.Forall₂ (Reading.SameStart text) ss ss'

/-- The rest of a text is read in the same way with either line ends. -/
def ReadsAlike (form : Form) (source before : List Char) (context : Context) (rest : List Char) :
    Prop :=
  SameUpToComments source (tapeOf form (byteLength before) context rest)
    (tapeOf form (byteLength (crlf before)) context (crlf rest))

theorem SameUpToComments.cons {text : List Char} {r r' : Reading Snapshot Nesting}
    {rest rest' : Tape Snapshot Nesting} (hkind : r.kind ≠ .commentCharacters)
    (hsame : r.SameStart text r') (hstop : r.stop = rest.place.offset)
    (hstop' : r'.stop = rest'.place.offset) (h : SameUpToComments text rest rest') :
    SameUpToComments text (rest.cons r) (rest'.cons r') := by
  obtain ⟨hfinal, ss, ss', hss, hss', hpairs⟩ := h
  have hcons {r : Reading Snapshot Nesting} {rest : Tape Snapshot Nesting}
      {ts : List (Reading Snapshot Nesting)} (hkind : r.kind ≠ .commentCharacters)
      (hstop : r.stop = rest.place.offset) (h : Folds BothComments rest.final rest.readings ts) :
      Folds BothComments rest.final (r :: rest.readings) (r :: ts) :=
    h.alone (fun s _ hboth => hkind hboth.1) hstop
  exact ⟨hfinal, r :: ss, r' :: ss', hcons hkind hstop hss, hcons (hsame.1 ▸ hkind) hstop' hss',
    .cons hsame hpairs⟩

/-- Only a comment that goes on reads more of its text. -/
theorem Context.kind_ne_commentCharacters
    (hclosed : context.state = .comment → closesComment (c :: cs) = true) :
    (context.transition c cs).kind ≠ .commentCharacters := by
  intro hkind
  have hreads := context.reads_kind c cs
  rw [hkind] at hreads
  obtain ⟨state, nesting⟩ := context
  cases state with
  | comment =>
      have hclose : begins ['-', '-', '>'] (c :: cs) = true := hclosed rfl
      simp only [Context.transition, Rule.comment, if_pos hclose] at hkind
      cases hkind
  | _ => cases hreads

namespace ReadsAlike

theorem ended (hsource : source = before) : ReadsAlike form source before context [] := by
  rw [ReadsAlike, crlf_nil, tapeOf, tapeOf]
  exact ⟨⟨before, [], by rw [hsource, List.append_nil], rfl, rfl⟩, [], [], .nil, .nil, .nil⟩

/-- A comment is read alike if what is behind it is. -/
theorem comment (hsource : source = before ++ c :: cs) (hopen : closesComment (c :: cs) = false) :
    let reach := seek closesComment (c :: cs)
    ReadsAlike form source (before ++ (c :: cs).take reach) ⟨.comment, nesting⟩ ((c :: cs).drop reach) →
      ReadsAlike form source before ⟨.comment, nesting⟩ (c :: cs) := by
  intro reach h
  simp only [ReadsAlike, crlf_append, byteLength_append] at h
  obtain ⟨hfinal, ss, ss', hss, hss', hpairs⟩ := h
  obtain ⟨d, ds, hcrlf⟩ := crlf_eq_cons c cs
  have hsign : ['-', '-', '>'].any isLineBreak = false := by decide
  have hopen' : closesComment (d :: ds) = false := by
    rw [← hcrlf, closesComment, begins_crlf hsign]
    exact hopen
  have hreach : seek closesComment (d :: ds) = crlfReach (c :: cs) reach := by
    rw [← hcrlf]
    exact seek_crlf (begins_crlf hsign) (fun l => rfl) _
  have hbody : (d :: ds).take (seek closesComment (d :: ds)) = crlf ((c :: cs).take reach) := by
    rw [hreach, ← hcrlf, take_crlfReach]
  have hrest : (d :: ds).drop (seek closesComment (d :: ds)) = crlf ((c :: cs).drop reach) := by
    rw [hreach, ← hcrlf, drop_crlfReach]
  obtain ⟨hend, -, hfold⟩ :=
    folds_comment form (byteLength before) nesting hopen
  obtain ⟨hend', -, hfold'⟩ :=
    folds_comment form (byteLength (crlf before)) nesting hopen'
  rw [hbody, hrest] at hend' hfold'
  rw [ReadsAlike, hcrlf]
  refine ⟨?_, _, _, hfold ss hss, hfold' ss' hss', .cons ⟨rfl, before, _, hsource, rfl, rfl⟩ hpairs⟩
  rw [hend, hend']
  exact hfinal

/-- A token that is no part of a comment is read alike, if it is no string with a line feed. -/
theorem step (hsource : source = before ++ c :: cs)
    (hclosed : context.state = .comment → closesComment (c :: cs) = true)
    (hplain : context.state = .rawText → ∀ name ∈ context.nesting.elements.top?,
      (name.toList.map Char.toLower).any isLineBreak = false)
    (hstring : (context.transition c cs).kind = .script .string →
      '\n' ∉ cs.take (context.transition c cs).more) :
    let transition := context.transition c cs
    ReadsAlike form source (before ++ c :: cs.take transition.more) (context.after form transition)
        (cs.drop transition.more) →
      ReadsAlike form source before context (c :: cs) := by
  intro transition h
  simp only [ReadsAlike, crlf_append, byteLength_append] at h
  obtain ⟨d, ds, hcrlf⟩ := crlf_eq_cons c cs
  have hmirrors : Transition.Mirrors (c :: cs) transition (context.transition d ds) :=
    Context.mirrors hclosed hplain hstring hcrlf
  have hafter : context.after form (context.transition d ds) = context.after form transition := by
    rw [Context.after, Context.after, hmirrors.next, hmirrors.change]
  obtain ⟨htake, hdrop⟩ := cut_crlf_cons hcrlf hmirrors.more
  rw [ReadsAlike, hcrlf, tapeOf_cons rfl, tapeOf_cons rfl, htake, hdrop, hafter]
  refine .cons (Context.kind_ne_commentCharacters hclosed)
    ⟨hmirrors.kind, before, _, hsource, rfl, rfl⟩ ?_ ?_ h
  · exact (congrArg Place.offset (Cursor.place_tape form ⟨_, _, cs.drop transition.more⟩)).symm
  · exact (congrArg Place.offset (Cursor.place_tape form ⟨_, _, crlf (cs.drop transition.more)⟩)).symm

end ReadsAlike

/-- The names of raw text elements hold no line breaks. -/
theorem Cursor.Arrived.plain_rawText {cursor : Cursor} (h : cursor.Arrived form)
    (hstate : cursor.context.state = .rawText) :
    ∀ name ∈ cursor.context.nesting.elements.top?,
      (name.toList.map Char.toLower).any isLineBreak = false := by
  obtain ⟨name, hraw, hname⟩ := h.rawText hstate
  have htop := (Nesting.innermost?_eq_some hname).2
  have hplain : ∀ name ∈ rawTextElements, (name.toList.map Char.toLower).any isLineBreak = false := by
    decide
  intro other hother
  obtain rfl := Option.some.inj (htop.symm.trans hother)
  exact hplain name hraw

/-- A text whose strings hold no line feeds is read in the same way with either line ends. -/
theorem Cursor.Arrived.readsAlike (hsource : source = before ++ rest)
    (h : (Cursor.mk (byteLength before) context rest).Arrived form)
    (hstrings : StringsAre ('\n' ∉ ·) source (tapeOf form (byteLength before) context rest).tokens) :
    ReadsAlike form source before context rest := by
  induction hlength : rest.length using Nat.strongRecOn generalizing before context rest with
  | ind n ih =>
      cases rest with
      | nil => exact .ended (hsource.trans (List.append_nil before))
      | cons c cs =>
          by_cases hcomment : context.state = .comment ∧ closesComment (c :: cs) = false
          · obtain ⟨hstate, hopen⟩ := hcomment
            obtain ⟨state, nesting⟩ := context
            obtain rfl : state = .comment := hstate
            let reach := seek closesComment (c :: cs)
            have hshort : ((c :: cs).drop reach).length < n := by
              obtain ⟨more, -, hreach⟩ := exists_commentLine hopen
              simp only [reach]
              rw [← hlength, List.length_drop, hreach, List.length_cons]
              omega
            obtain ⟨-, hsuffix, -⟩ := folds_comment form (byteLength before) nesting hopen
            rw [← byteLength_append] at hsuffix
            refine .comment hsource hopen (ih _ hshort ?_ ?_ (hstrings.of_mem ?_) rfl)
            · rw [List.append_assoc, List.take_append_drop, hsource]
            · exact ⟨trivial, nofun, nofun, nofun, h.closing, nofun, fun _ => trivial⟩
            · exact fun token _ htoken => List.map_subset Reading.token hsuffix.subset htoken
          · have hclosed : context.state = .comment → closesComment (c :: cs) = true :=
              fun hstate => Bool.of_not_eq_false fun hopen => hcomment ⟨hstate, hopen⟩
            let transition := context.transition c cs
            have hshort : (cs.drop transition.more).length < n := by
              rw [← hlength, List.length_drop, List.length_cons]
              omega
            have hsplit : source = before ++ (c :: cs.take transition.more) ++ cs.drop transition.more := by
              rw [hsource, List.append_assoc, List.cons_append, List.take_append_drop]
            have harrived : (Cursor.mk (byteLength (before ++ c :: cs.take transition.more))
                (context.after form transition) (cs.drop transition.more)).Arrived form := by
              rw [byteLength_append]
              exact h.next
            rw [tapeOf_cons rfl, ← byteLength_append] at hstrings
            obtain ⟨hstring, hlater⟩ := StringsAre.of_cons hsplit hstrings
            exact .step hsource hclosed h.plain_rawText
              (fun hkind hmem => hstring hkind (List.mem_cons_of_mem _ hmem))
              (ih _ hshort hsplit harrived hlater rfl)

end Markup

end Relex
