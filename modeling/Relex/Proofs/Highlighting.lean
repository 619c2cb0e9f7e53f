import Relex.Proofs.Regrouping

/-! # Highlighted values

A document can be read with whole attribute values as single tokens, for highlighting. That joins the
pieces of values, and a reference to a character is such a piece wherever it stands. So the document with
whole values is the one without, with every run of pieces folded (`Document.folds_ofMarkup`). Neighbouring
pieces are all inside of one value or all references in content (`Markup.isChain_piecesAlike`), and it is
the latter that makes highlighting change more than values
(`DocumentGrammar.highlighting_changes_values_only_iff`).
-/

namespace Relex

open Text

namespace Markup

/-- The state words in front of a value and inside of quotes. -/
def isValue (code : UInt32) : Bool :=
  code == State.valueStart.code || code == State.doubleQuotedValue.code ||
    code == State.singleQuotedValue.code

section Pieces

variable {π ι : Type}

/-- Both tokens are pieces of values. -/
def BothPieces (r s : Reading π ι) : Prop :=
  r.kind.isValuePiece = true ∧ s.kind.isValuePiece = true

/-- If both tokens are pieces, then both are inside of a value, or both are references outside. -/
def PiecesAlike (r s : Reading π ι) : Prop :=
  BothPieces r s → isValue r.place.state = isValue s.place.state ∧
    (isValue r.place.state = false → r.kind = .charEntityRef ∧ s.kind = .charEntityRef)

/-- Only the kinds of neighbours matter, and whether their state words are those of values. -/
theorem PiecesAlike.congr {π' ι' : Type} {r s : Reading π ι} {r' s' : Reading π' ι'}
    (h : PiecesAlike r s) (hkind : r.kind = r'.kind)
    (hvalue : isValue r.place.state = isValue r'.place.state) (hkind' : s.kind = s'.kind)
    (hvalue' : isValue s.place.state = isValue s'.place.state) : PiecesAlike r' s' := by
  rw [PiecesAlike, BothPieces] at h ⊢
  rwa [← hkind, ← hkind', ← hvalue, ← hvalue']

end Pieces

/-- A state word that is not listed is none of these. -/
theorem isValue_unlisted {code : UInt32} (beyond : 14 ≤ code) : isValue code = false := by
  have hne {word : UInt32} (hlow : word < 14) : (code == word) = false := by
    rw [beq_eq_false_iff_ne]
    rintro rfl
    exact UInt32.not_lt.mpr beyond hlow
  simp only [isValue, State.code, hne (by decide : (5 : UInt32) < 14),
    hne (by decide : (6 : UInt32) < 14), hne (by decide : (7 : UInt32) < 14), Bool.or_self]

theorem isValuePiece_iff {kind : Kind} :
    kind.isValuePiece = true ↔ kind = .charEntityRef ∨ kind = .attributeValue := by
  cases kind <;> simp [Kind.isValuePiece]

namespace Rule

variable {nesting : Nesting} {c : Char} {cs : List Char}

/-- Content goes on behind a reference. -/
theorem content_next_of_charEntityRef (h : (content nesting c cs).kind = .charEntityRef) :
    (content nesting c cs).next = .content := by
  revert h
  rw [content]
  repeat' split
  all_goals intro hkind
  all_goals first | rfl | cases hkind

/-- Behind a bare value other attributes follow. -/
theorem valueStart_next_of_attributeValue (h : (valueStart nesting c cs).kind = .attributeValue) :
    (valueStart nesting c cs).next = .attributes := by
  revert h
  rw [valueStart]
  split
  · exact fun hkind => by cases hkind
  split
  · exact fun hkind => by cases hkind
  split
  · exact fun hkind => by cases hkind
  split
  · exact fun hkind => by cases hkind
  split
  · intro hkind
    have hreads := attributes_kind nesting c cs
    rw [hkind] at hreads
    cases hreads
  · exact fun _ => rfl

/-- A piece between quotes leaves them open. -/
theorem quotedValue_next_of_piece {quote : Char} {state : State}
    (h : (quotedValue c cs quote state).kind.isValuePiece = true) :
    (quotedValue c cs quote state).next = state := by
  revert h
  rw [quotedValue]
  repeat' split
  all_goals intro hkind
  all_goals first | rfl | cases hkind

/-- In content a reference is the only piece. -/
theorem content_of_piece {nesting : Nesting} {c : Char} {cs : List Char}
    (h : (content nesting c cs).kind.isValuePiece = true) :
    (content nesting c cs).kind = .charEntityRef ∧ (content nesting c cs).next = .content := by
  have hreads := content_kind nesting c cs
  rcases isValuePiece_iff.mp h with hkind | hkind
  · exact ⟨hkind, content_next_of_charEntityRef hkind⟩
  · rw [hkind] at hreads
    cases hreads

end Rule

/-- A piece of a value is text or a reference inside of a value, or a reference in content. -/
theorem Context.piece_cases {context : Context} {c : Char} {cs : List Char}
    (h : (context.transition c cs).kind.isValuePiece = true) :
    (isValue context.state.code = true ∧ (context.transition c cs).next = context.state) ∨
      (isValue context.state.code = true ∧ (context.transition c cs).next = .attributes) ∨
      (isValue context.state.code = false ∧ (context.transition c cs).kind = .charEntityRef ∧
        (context.transition c cs).next = .content) := by
  have hreads := context.reads_kind c cs
  obtain ⟨state, nesting⟩ := context
  cases state with
  | content => exact .inr (.inr ⟨rfl, Rule.content_of_piece h⟩)
  | unlisted code beyond => exact .inr (.inr ⟨isValue_unlisted beyond, Rule.content_of_piece h⟩)
  | initial =>
      refine .inr (.inr ?_)
      simp only [transition, Rule.initial] at h ⊢
      split at h
      · cases h
      split at h
      · cases h
      · rename_i hspace hfence
        simp only [if_neg hspace, if_neg hfence]
        exact ⟨rfl, Rule.content_of_piece h⟩
  | frontmatterClose =>
      refine .inr (.inr ?_)
      simp only [transition, Rule.frontmatterClose] at h ⊢
      split at h
      · cases h
      · rename_i hfence
        simp only [if_neg hfence]
        exact ⟨rfl, Rule.content_of_piece h⟩
  | valueStart =>
      refine .inr (.inl ⟨rfl, Rule.valueStart_next_of_attributeValue ?_⟩)
      rcases isValuePiece_iff.mp h with hkind | hkind
      · rw [hkind] at hreads
        cases hreads
      · exact hkind
  | doubleQuotedValue => exact .inl ⟨rfl, Rule.quotedValue_next_of_piece h⟩
  | singleQuotedValue => exact .inl ⟨rfl, Rule.quotedValue_next_of_piece h⟩
  | _ =>
      exfalso
      rcases isValuePiece_iff.mp h with hkind | hkind
      · rw [hkind] at hreads
        cases hreads
      · rw [hkind] at hreads
        cases hreads

/-- Neighbouring pieces are inside of one value, or references in content. -/
theorem isChain_piecesAlike (form : Form) (offset : Nat) (context : Context) (text : List Char) :
    (tapeOf form offset context text).readings.IsChain PiecesAlike := by
  fun_induction tapeOf form offset context text with
  | case1 offset context => exact List.isChain_nil
  | case2 offset context c cs transition behind ih =>
      refine List.isChain_cons.mpr ⟨?_, ih⟩
      rintro s hs ⟨hpiece, hnext⟩
      obtain ⟨d, ds, -, hkind, hplace⟩ := head_tapeOf hs
      rw [hkind] at hnext
      rw [hkind, hplace]
      let later := context.after form transition
      change isValue context.state.code = isValue later.state.code ∧
        (isValue context.state.code = false → transition.kind = .charEntityRef ∧
          (later.transition d ds).kind = .charEntityRef)
      have hlater := Context.piece_cases hnext
      rcases Context.piece_cases hpiece with ⟨hvalue, hsame⟩ | ⟨hvalue, hattributes⟩ |
        ⟨hvalue, hreference, hcontent⟩
      · -- The quotes are still open.
        have hopen : context.state ≠ .content := by
          intro hstate
          rw [hstate] at hvalue
          cases hvalue
        have hstate : later.state = context.state := (if_neg (hsame.symm ▸ hopen)).trans hsame
        rw [hstate, hvalue]
        exact ⟨rfl, fun houtside => absurd houtside.symm Bool.false_ne_true⟩
      · -- No piece is read among attributes.
        have hleft : transition.next ≠ .content := by
          intro hcontent
          cases hattributes.symm.trans hcontent
        have hstate : later.state = .attributes := (if_neg hleft).trans hattributes
        have hreads := later.reads_kind d ds
        rw [hstate] at hreads hlater
        rcases hlater with ⟨hvalue, -⟩ | ⟨hvalue, -⟩ | ⟨-, hkind, -⟩
        · cases hvalue
        · cases hvalue
        · rw [hkind] at hreads
          cases hreads
      · have houtside : isValue later.state.code = false := by
          have hstate : later.state = later.nesting.ambientState form := if_pos hcontent
          rcases later.nesting.ambientState_cases form with hambient | hambient
          · rw [hstate, hambient]
            rfl
          · rw [hstate, hambient]
            rfl
        rw [houtside] at hlater ⊢
        rcases hlater with ⟨hinside, -⟩ | ⟨hinside, -⟩ | ⟨-, hkind, -⟩
        · cases hinside
        · cases hinside
        · exact ⟨hvalue, fun _ => ⟨hreference, hkind⟩⟩

end Markup

open Markup

namespace Group

variable {π ι : Type} {final : Place π ι} {r : Reading π ι} {rs ts : List (Reading π ι)}

/-! ## Pieces in a fold -/

theorem isValuePiece_of_isChain {more : List (Reading π ι)} (h : (r :: more).IsChain BothPieces) :
    ∀ s ∈ more, s.kind.isValuePiece = true := by
  have htrans : IsTrans (Reading π ι) BothPieces := ⟨fun _ _ _ h h' => ⟨h.1, h'.2⟩⟩
  exact fun s hs => ((List.pairwise_cons.mp (List.isChain_iff_pairwise.mp h)).1 s hs).2

/-- All in a run of pieces is inside of a value if its first piece is. -/
theorem isValue_of_isChain {more : List (Reading π ι)} (hpieces : (r :: more).IsChain BothPieces)
    (halike : (r :: more).IsChain PiecesAlike) :
    ∀ s ∈ more, isValue s.place.state = isValue r.place.state := by
  have hsame : (r :: more).IsChain fun s t => isValue s.place.state = isValue t.place.state := by
    rw [List.isChain_iff_forall_rel_of_append_cons_cons] at hpieces halike ⊢
    exact fun s t before after hsplit => (halike hsplit (hpieces hsplit)).1
  have htrans : IsTrans (Reading π ι) fun s t => isValue s.place.state = isValue t.place.state :=
    ⟨fun _ _ _ => Eq.trans⟩
  exact fun s hs => ((List.pairwise_cons.mp (List.isChain_iff_pairwise.mp hsame)).1 s hs).symm

/-- Grouping keeps the pieces of values apart from the references outside. -/
theorem piecesAlike_readings (final : Place π ι) (hapart : Apart rs) (h : rs.IsChain PiecesAlike) :
    (readings final (ofReadings .runs rs)).IsChain PiecesAlike := by
  refine (folds_readings .runs final hapart).isChain h ?_
  intro first more t hjoined halike hkind hstate
  have hmore : ∀ s ∈ more, s.kind = first.kind := by
    intro s hs
    rcases Grouping.joins_iff.mp (Folds.joins_of_isChain (fun _ _ h => h) hjoined s hs) with
      ⟨hsame, -⟩ | ⟨hvalues, -⟩
    · exact hsame.symm
    · cases hvalues
  have hsame : t.kind = first.kind := by
    rw [hkind, kindOf_cons_self]
    exact kindOf_of_forall hmore
  refine ⟨?_, ?_⟩
  · intro last hlast s hnext hpieces
    -- A run that ends with a piece is a run of pieces.
    have hpiece : ∀ s ∈ first :: more, s.kind.isValuePiece = true := by
      refine List.forall_mem_cons.mpr ⟨hsame ▸ hpieces.1, fun s hs => ?_⟩
      rw [hmore s hs, ← hsame]
      exact hpieces.1
    have hrun : (first :: more).IsChain BothPieces :=
      (List.pairwise_of_forall_mem_list fun a ha b hb => ⟨hpiece a ha, hpiece b hb⟩).isChain
    refine hnext.congr ?_ ?_ rfl rfl hpieces
    · rcases List.mem_cons.mp (List.mem_of_getLast? hlast) with rfl | hlast
      · exact hsame.symm
      · exact (hmore last hlast).trans hsame.symm
    · rw [hstate]
      rcases List.mem_cons.mp (List.mem_of_getLast? hlast) with rfl | hlast
      · rfl
      · exact isValue_of_isChain hrun halike last hlast
  · intro s hnext
    exact hnext.congr rfl rfl hsame.symm (congrArg isValue hstate.symm)

/-- Grouping with whole values folds the pieces of the groups without. -/
theorem folds_values (final : Place π ι) (hapart : Apart rs) :
    Folds BothPieces final (readings final (ofReadings .runs rs))
      (readings final (ofReadings .values rs)) := by
  have hruns := folds_readings .runs final hapart
  have hcoarser : ∀ r s : Reading π ι, Grouping.runs.joins r.kind s.kind = true →
      Grouping.values.joins r.kind s.kind = true := by
    intro r s hjoins
    rcases Grouping.joins_iff.mp hjoins with hsame | ⟨hvalues, -⟩
    · exact Grouping.joins_iff.mpr (.inl hsame)
    · cases hvalues
  have hvalues := folds_readings .values final (hruns.apart hapart)
  refine (hvalues.congr ?_).of_shown_eq (Folds.shown_group hcoarser hruns hapart).symm
  have hsettled := settled_of_apart .runs final hapart
  refine hsettled.imp ?_
  intro r s hnone
  have hnone : ¬Grouping.runs.joins r.kind s.kind = true := Bool.eq_false_iff.mp hnone
  rw [Grouping.joins_iff] at hnone ⊢
  exact ⟨fun h => h.elim (fun hsame => absurd (.inl hsame) hnone) And.right, fun h => .inr ⟨rfl, h⟩⟩

end Group

namespace Group

variable {π ι : Type} {final : Place π ι} {rs ts : List (Reading π ι)}

/-- Two references next to each other, the first of them outside of values. -/
def OutsideReferences (r s : Reading π ι) : Prop :=
  r.kind = .charEntityRef ∧ s.kind = .charEntityRef ∧ isValue r.place.state = false

namespace Folds

/-- All that is shown outside of values stays if no references are folded there. -/
theorem outside_eq {text : List Char} {start : Nat} (h : Folds BothPieces final rs ts)
    (hcovers : Covers text final.offset start (rs.map Reading.token)) (halike : rs.IsChain PiecesAlike)
    (hnone : rs.IsChain fun r s => ¬OutsideReferences r s) :
    (shown ts).filter (fun p => !isValue p.2) = (shown rs).filter fun p => !isValue p.2 := by
  induction h generalizing start with
  | nil => rfl
  | @run first t more rs ts hjoined hbehind hkind hoffset hstate hstop hlater ih =>
      obtain ⟨hfrontAlike, halike, -⟩ := List.isChain_append.mp halike
      obtain ⟨hfrontNone, hnone, -⟩ := List.isChain_append.mp hnone
      obtain ⟨middle, -, -, hrest⟩ := (List.map_append ▸ hcovers : Covers text final.offset start
        (first.token :: (more.map Reading.token ++ rs.map Reading.token))).behind
      have hrest := ih hrest halike hnone
      cases more with
      | nil =>
          have htoken : t.token = first.token := token_eq hcovers hkind hoffset hstop
          change ((t.token, t.place.state) :: shown ts).filter _ =
            ((first.token, first.place.state) :: shown rs).filter _
          rw [htoken, hstate, List.filter_cons, List.filter_cons, hrest]
      | cons second more =>
          -- A run of several pieces is inside of a value.
          have hfirst : isValue first.place.state = true := by
            obtain ⟨hpieces, -⟩ := List.isChain_cons_cons.mp hjoined
            obtain ⟨hfirstAlike, -⟩ := List.isChain_cons_cons.mp hfrontAlike
            obtain ⟨hfirstNone, -⟩ := List.isChain_cons_cons.mp hfrontNone
            by_contra hvalue
            have hvalue := Bool.eq_false_iff.mpr hvalue
            obtain ⟨hreference, hreference'⟩ := (hfirstAlike hpieces).2 hvalue
            exact hfirstNone ⟨hreference, hreference', hvalue⟩
          have hmore := isValue_of_isChain hjoined hfrontAlike
          have hgone : (shown (first :: second :: more)).filter (fun p => !isValue p.2) = [] := by
            rw [List.filter_eq_nil_iff]
            intro p hp
            obtain ⟨r, hr, rfl⟩ := List.mem_map.mp hp
            rcases List.mem_cons.mp hr with rfl | hr
            · simp [hfirst]
            · simp [hmore r hr, hfirst]
          have hshown : shown (first :: second :: more ++ rs) =
              shown (first :: second :: more) ++ shown rs := List.map_append
          change ((t.token, t.place.state) :: shown ts).filter _ = _
          rw [hshown, List.filter_append, hgone, List.nil_append,
            List.filter_cons_of_neg (by simp [hstate, hfirst]), hrest]

/-- What stands in front of a stream is not shown in its fold. -/
theorem not_mem_shown {run : List (Reading π ι)} {s : Reading π ι} (h : Folds Joins final rs ts)
    (hapart : Apart (run ++ rs)) (hs : s ∈ run) : (s.token, s.place.state) ∉ shown ts := by
  intro hmem
  obtain ⟨u, hu, hsame⟩ := List.mem_map.mp hmem
  have hoffset : u.place.offset = s.place.offset :=
    congrArg (fun p : Token × UInt32 => p.1.start) hsame
  have hbehind := h.sublist_offset.subset (List.mem_map_of_mem hu)
  rw [Apart, List.map_append, List.pairwise_append] at hapart
  have hlt := hapart.2.2 _ (List.mem_map_of_mem hs) _ hbehind
  omega

/-- Where references outside of values are folded, something is lost. -/
theorem none_of_forall_mem (h : Folds BothPieces final rs ts) (hapart : Apart rs)
    (halike : rs.IsChain PiecesAlike)
    (hkept : ∀ p ∈ shown rs, isValue p.2 = false → p ∈ shown ts) :
    rs.IsChain fun r s => ¬OutsideReferences r s := by
  induction h with
  | nil => exact List.isChain_nil
  | @run first t more rs ts hjoined hbehind hkind hoffset hstate hstop hlater ih =>
      have hbefore : ∀ r ∈ more ++ rs, first.place.offset < r.place.offset := by
        intro r hr
        exact (List.pairwise_cons.mp hapart).1 _ (List.mem_map_of_mem hr)
      have hrest : Apart rs := hapart.sublist (List.sublist_append_right _ _)
      -- What is kept begins behind the run.
      have hlaterKept : ∀ r ∈ more ++ rs, isValue r.place.state = false →
          (r.token, r.place.state) ∈ shown ts := by
        intro r hr hvalue
        have hmem := hkept (r.token, r.place.state)
          (List.mem_map_of_mem (List.mem_cons_of_mem _ hr)) hvalue
        rcases List.mem_cons.mp hmem with hsame | hmem
        · have hoffsets : r.place.offset = t.place.offset :=
            congrArg (fun p : Token × UInt32 => p.1.start) hsame
          have := hbefore r hr
          omega
        · exact hmem
      obtain ⟨hfrontAlike, hrestAlike, -⟩ := List.isChain_append.mp halike
      refine List.isChain_append.mpr ⟨?_, ?_, ?_⟩
      · rw [List.isChain_iff_forall_rel_of_append_cons_cons] at hfrontAlike ⊢
        rintro r s before after hsplit ⟨hreference, hreference', hvalue⟩
        have hpieces : BothPieces r s := ⟨hreference ▸ rfl, hreference' ▸ rfl⟩
        have hmem : s ∈ more := by
          have htail : more = (before ++ r :: s :: after).tail := congrArg List.tail hsplit
          rw [htail]
          cases before with
          | nil => exact List.mem_cons_self
          | cons _ before => simp
        have hstays := hlaterKept s (List.mem_append_left _ hmem)
          ((hfrontAlike hsplit hpieces).1.symm.trans hvalue)
        exact hlater.not_mem_shown hapart (List.mem_cons_of_mem _ hmem) hstays
      · refine ih hrest hrestAlike ?_
        intro p hp hvalue
        obtain ⟨r, hr, rfl⟩ := List.mem_map.mp hp
        exact hlaterKept r (List.mem_append_right _ hr) hvalue
      · rintro last hlast s hs ⟨hreference, hreference', -⟩
        refine hbehind last hlast s hs ⟨?_, ?_⟩
        · rw [hreference]
          rfl
        · rw [hreference']
          rfl

end Folds

end Group

namespace Document

open Relex.Group

variable {source : String} {start : Nat} {rs ts : List (Reading Snapshot Nesting)}
  {final : Place Snapshot Nesting} {document folded : Tape Snapshot Live}

/-- A token of the markup as the token of the document that stands for itself. -/
def kept (r : Reading Snapshot Nesting) : Reading Snapshot Live :=
  ⟨r.kind, r.stop, markupPlace r.place⟩

/-- Without the script of the frontmatter, all stands for itself. -/
theorem exists_of_append {run : List (Reading Snapshot Nesting)}
    (hrun : ∀ r ∈ run, r.kind ≠ .frontmatterScript)
    (h : ofMarkup source ⟨run ++ rs, final⟩ = .ok document) :
    ∃ later, ofMarkup source ⟨rs, final⟩ = .ok later ∧
      document = ⟨run.map kept ++ later.readings, later.final⟩ := by
  induction run generalizing document with
  | nil => exact ⟨document, h, rfl⟩
  | cons r run ih =>
      obtain ⟨hfirst, hrun⟩ := List.forall_mem_cons.mp hrun
      have h : ofMarkup source ((Tape.mk (run ++ rs) final).cons r) = .ok document := h
      obtain ⟨rest, hrest, rfl⟩ := exists_of_cons hfirst h
      obtain ⟨later, hlater, rfl⟩ := ih hrun hrest
      exact ⟨later, hlater, rfl⟩

theorem offset_place_of_covers
    (hcovers : Covers source.toList final.offset start (rs.map Reading.token))
    (h : ofMarkup source ⟨rs, final⟩ = .ok document) : document.place.offset = start := by
  let markup : Tape Snapshot Nesting := ⟨rs, final⟩
  have hcovers : Covers source.toList markup.final.offset start markup.tokens := hcovers
  obtain ⟨covered, hcovered, -, htokens⟩ := covers_ofMarkup hcovers
  obtain rfl := Except.ok.inj (h.symm.trans hcovered)
  exact htokens.place_offset

/-- A piece in a document is one of its markup. -/
theorem StandsFor.kind_eq_of_piece {s : Reading Snapshot Live} {r : Reading Snapshot Nesting}
    (h : StandsFor s r) (hpiece : s.kind.isValuePiece = true) : s.kind = r.kind := by
  cases h with
  | kept _ hsame _ => exact hsame
  | lexeme _ hscript _ =>
      rw [hscript] at hpiece
      cases hpiece

section Expand

variable {r r' : Reading Snapshot Nesting} {part part' : List (Reading Snapshot Live)}

/-- The script of the frontmatter is shown by its range and its state word only. -/
theorem shown_expand (hkind : r.kind = .frontmatterScript) (hkind' : r'.kind = .frontmatterScript)
    (htoken : r'.token = r.token) (hstate : r'.place.state = r.place.state)
    (hlt : r.place.offset < r.stop) (hpart : expand source r = .ok part)
    (hpart' : expand source r' = .ok part') : shown part' = shown part := by
  obtain ⟨-, hoffset, hstop⟩ := Token.mk.inj htoken
  rcases expand_cases_of_lt hlt hpart with ⟨hother, -⟩ | ⟨-, script, htape, rfl⟩
  · exact absurd hkind hother
  rcases expand_cases_of_lt (hoffset ▸ hstop ▸ hlt) hpart' with ⟨hother, -⟩ | ⟨-, script', htape', rfl⟩
  · exact absurd hkind' hother
  rw [hoffset, hstop, htape] at htape'
  obtain rfl := Except.ok.inj htape'
  simp only [shown, List.map_map]
  refine List.map_congr_left fun lexeme _ => ?_
  simp only [Function.comp_apply, Reading.token, scriptReading, hstate]

/-- None of the lexemes of the frontmatter is a piece of a value, so none is folded. -/
theorem folds_expand {place : Place Snapshot Live} (hkind : r.kind = .frontmatterScript)
    (hkind' : r'.kind = .frontmatterScript) (htoken : r'.token = r.token)
    (hstate : r'.place.state = r.place.state) (hlt : r.place.offset < r.stop)
    (hstart : Boundary source.toList r.place.offset) (hstop : Boundary source.toList r.stop)
    (hplace : place.offset = r.stop) (hpart : expand source r = .ok part)
    (hpart' : expand source r' = .ok part') : Folds BothPieces place part part' := by
  obtain ⟨covered, hcovered, hcovers⟩ := covers_expand hlt hstart hstop
  obtain rfl := Except.ok.inj (hpart.symm.trans hcovered)
  refine (Folds.refl (hplace ▸ hcovers) ?_).of_shown_eq
    (shown_expand hkind hkind' htoken hstate hlt hpart hpart')
  refine List.Pairwise.isChain (List.pairwise_of_forall_mem_list ?_)
  rintro s hs t - ⟨hpiece, -⟩
  have hsame := (standsFor_of_expand hlt hpart s hs).kind_eq_of_piece hpiece
  rw [hsame, hkind] at hpiece
  cases hpiece

end Expand

/-- What follows a run in a document is a piece only if it was one in the markup. -/
theorem head_not_piece (hlt : ∀ r ∈ rs, r.place.offset < r.stop)
    (hnone : ∀ r ∈ rs.head?, ¬r.kind.isValuePiece = true)
    (h : ofMarkup source ⟨rs, final⟩ = .ok document) :
    ∀ s ∈ document.readings.head?, ¬s.kind.isValuePiece = true := by
  intro s hs hpiece
  obtain ⟨r, hr, hstands⟩ := standsFor_head hlt h hs
  exact hnone r hr (hstands.kind_eq_of_piece hpiece ▸ hpiece)

section Run

variable {first t : Reading Snapshot Nesting} {more : List (Reading Snapshot Nesting)}

/-- A run of tokens that stand for themselves is one token in front of the rest of a document. -/
theorem folds_kept (hjoined : (first :: more).IsChain BothPieces)
    (hbehind : ∀ last ∈ (first :: more).getLast?, last.kind.isValuePiece = true →
      ∀ s ∈ document.readings.head?, ¬s.kind.isValuePiece = true)
    (hkind : t.kind = kindOf first.kind (first :: more))
    (hoffset : t.place.offset = first.place.offset) (hstate : t.place.state = first.place.state)
    (hstop : t.stop = document.place.offset)
    (hlater : Folds BothPieces document.final document.readings folded.readings) :
    Folds BothPieces document.final ((first :: more).map kept ++ document.readings)
      (kept t :: folded.readings) := by
  have hmap : (first :: more).map kept = kept first :: more.map kept := rfl
  have hchain : ((first :: more).map kept).IsChain BothPieces := by
    rw [List.isChain_map]
    exact hjoined
  refine .run (hmap ▸ hchain) ?_ ?_ hoffset hstate hstop hlater
  · rintro last hlast s hs ⟨hpiece, hpiece'⟩
    rw [← hmap, List.getLast?_map] at hlast
    obtain ⟨r, hr, rfl⟩ := Option.map_eq_some_iff.mp hlast
    exact hbehind r hr hpiece s hs hpiece'
  · change t.kind = _
    rw [hkind, ← hmap, kindOf, kindOf, List.any_map]
    rfl

/-- The script of the frontmatter is folded as its lexemes are, which stay. -/
theorem folds_script (hscript : first.kind = .frontmatterScript) (hscript' : t.kind = .frontmatterScript)
    (htoken : t.token = first.token) (hstate : t.place.state = first.place.state)
    (hcovers : Covers source.toList final.offset start ((first :: rs).map Reading.token))
    (h : ofMarkup source ⟨first :: rs, final⟩ = .ok document)
    (h' : ofMarkup source ⟨t :: ts, final⟩ = .ok folded)
    (hlater : ∀ {later later'}, ofMarkup source ⟨rs, final⟩ = .ok later →
      ofMarkup source ⟨ts, final⟩ = .ok later' →
        Folds BothPieces later.final later.readings later'.readings) :
    Folds BothPieces document.final document.readings folded.readings := by
  obtain ⟨part, later, hpart, hrest, rfl⟩ := ofMarkup_cons h
  obtain ⟨part', later', hpart', hrest', rfl⟩ := ofMarkup_cons h'
  cases hcovers with
  | cons _ hlt hstart hstop hcovers =>
      have hfirst := folds_expand hscript hscript' htoken hstate hlt hstart hstop
        (offset_place_of_covers hcovers hrest) hpart hpart'
      refine hfirst.append ?_ (hlater hrest hrest')
      rintro last hlast s - ⟨hpiece, -⟩
      have hstands := standsFor_of_expand hlt hpart last (List.mem_of_getLast? hlast)
      rw [hstands.kind_eq_of_piece hpiece, hscript] at hpiece
      cases hpiece

end Run

/-- Pieces of values are folded in a document where they are in its markup. -/
theorem folds_ofMarkup (hfolds : Folds BothPieces final rs ts)
    (hcovers : Covers source.toList final.offset start (rs.map Reading.token))
    (h : ofMarkup source ⟨rs, final⟩ = .ok document) (h' : ofMarkup source ⟨ts, final⟩ = .ok folded) :
    Folds BothPieces document.final document.readings folded.readings := by
  induction hfolds generalizing start document folded with
  | nil =>
      cases h
      cases h'
      exact .nil
  | @run first t more rs ts hjoined hbehind hkind hoffset hstate hstop hlater ih =>
      obtain ⟨middle, -, -, hrest⟩ := (List.map_append ▸ hcovers :
        Covers source.toList final.offset start
          (first.token :: (more.map Reading.token ++ rs.map Reading.token))).behind
      obtain ⟨r, hr, hsame⟩ : ∃ r ∈ first :: more, t.kind = r.kind := hkind ▸ exists_mem_kindOf first more
      by_cases hscript : first.kind = .frontmatterScript
      · -- The script of the frontmatter is a run of its own.
        obtain rfl : more = [] := by
          cases more with
          | nil => rfl
          | cons second more =>
              have hpiece := (List.isChain_cons_cons.mp hjoined).1.1
              rw [hscript] at hpiece
              cases hpiece
        obtain rfl := List.mem_singleton.mp hr
        exact folds_script hscript (hsame.trans hscript) (Folds.token_eq hcovers hkind hoffset hstop)
          hstate hcovers h h' (ih hrest)
      · have hplain : ∀ r ∈ first :: more, r.kind ≠ .frontmatterScript := by
          refine List.forall_mem_cons.mpr ⟨hscript, fun r hr hkind => ?_⟩
          have hpiece := isValuePiece_of_isChain hjoined r hr
          rw [hkind] at hpiece
          cases hpiece
        obtain ⟨later, hlater, rfl⟩ := exists_of_append hplain h
        have hfolded : t.kind ≠ .frontmatterScript := hsame ▸ hplain r hr
        have h' : ofMarkup source ((Tape.mk ts final).cons t) = .ok folded := h'
        obtain ⟨later', hlater', rfl⟩ := exists_of_cons hfolded h'
        have hlt : ∀ r ∈ rs, r.place.offset < r.stop :=
          fun r hr => hrest.start_lt_stop r.token (List.mem_map_of_mem hr)
        let behind : Tape Snapshot Nesting := ⟨rs, final⟩
        have hbehindCovers : Covers source.toList behind.final.offset middle behind.tokens := hrest
        refine folds_kept hjoined ?_ hkind hoffset hstate ?_ (ih hrest hlater hlater')
        · intro last hlast hpiece
          exact head_not_piece hlt (fun r hr hpiece' => hbehind last hlast r hr ⟨hpiece, hpiece'⟩) hlater
        · rw [hstop, offset_place_of_covers hrest hlater]
          exact hbehindCovers.place_offset

/-- Pieces are alike in a document where they are in its markup. -/
theorem piecesAlike_ofMarkup (hlt : ∀ r ∈ rs, r.place.offset < r.stop) (halike : rs.IsChain PiecesAlike)
    (h : ofMarkup source ⟨rs, final⟩ = .ok document) : document.readings.IsChain PiecesAlike := by
  have hstate {s : Reading Snapshot Live} {r : Reading Snapshot Nesting} (hstands : StandsFor s r)
      (hpiece : s.kind.isValuePiece = true) : s.place.state = r.place.state := by
    cases hstands with
    | kept _ _ hplace => rw [hplace, markupPlace]
    | lexeme _ hscript _ =>
        rw [hscript] at hpiece
        cases hpiece
  refine isChain_of_ofMarkup hlt halike ?_ ?_ h
  · intro r r' s t hnext hs ht hpieces
    exact hnext.congr (hs.kind_eq_of_piece hpieces.1).symm
      (congrArg isValue (hstate hs hpieces.1).symm) (ht.kind_eq_of_piece hpieces.2).symm
      (congrArg isValue (hstate ht hpieces.2).symm) hpieces
  · intro r s t hkind hs ht hpieces
    have hpiece := hpieces.1
    rw [hs.kind_eq_of_piece hpiece, hkind] at hpiece
    cases hpiece

end Document

namespace DocumentGrammar

open Document Relex.Group

/-- A document with whole values is the one without, with the runs of pieces folded, and outside of
    values it shows the same exactly if no references stand next to each other there. -/
theorem highlighting_changes_values_only_iff (form : Form) (source : String) :
    let reading (grouping : Grouping) : Lexer DocumentGrammar Snapshot Live :=
      Lexer.idle ⟨grouping, form⟩
    ∃ plain highlighted, (reading .runs).start source 0 source.utf8ByteSize 0 = .ok plain ∧
      (reading .values).start source 0 source.utf8ByteSize 0 = .ok highlighted ∧
      Folds BothPieces plain.tape.final plain.tape.readings highlighted.tape.readings ∧
      plain.tape.readings.IsChain PiecesAlike ∧
      ((∀ token state, isValue state = false →
          ((token, state) ∈ shown plain.tape.readings ↔
            (token, state) ∈ shown highlighted.tape.readings)) ↔
        plain.tape.readings.IsChain fun r s => ¬OutsideReferences r s) := by
  intro reading
  have hspans := spans_whole source
  obtain ⟨plain, hplain, hdocument⟩ := exists_started (reading .runs) hspans
  obtain ⟨highlighted, hhighlighted, hfolded⟩ := exists_started (reading .values) hspans
  let markup := tapeOf form 0 (contextOf form 0) source.toList
  have hmarkup : Covers source.toList markup.final.offset 0 markup.tokens := covers_whole source form _
  have hapart := (Tape.ascending_of_covers hmarkup).apart
  have hgrouped := Group.covers .runs markup.final markup.readings hmarkup
  have hfolds := folds_ofMarkup (folds_values markup.final hapart) hgrouped hdocument hfolded
  have halike := piecesAlike_ofMarkup
    (fun r hr => hgrouped.start_lt_stop r.token (List.mem_map_of_mem hr))
    (piecesAlike_readings markup.final hapart (isChain_piecesAlike form 0 _ source.toList)) hdocument
  obtain ⟨document, hcovered, -, hcovers⟩ := covers_ofMarkup_group hmarkup .runs
  obtain rfl : plain.tape = document := Except.ok.inj (hdocument.symm.trans hcovered)
  refine ⟨plain, highlighted, hplain, hhighlighted, hfolds, halike, ?_, ?_⟩
  · intro hsame
    refine hfolds.none_of_forall_mem (Tape.ascending_of_covers hcovers).apart halike ?_
    rintro ⟨token, state⟩ hp hvalue
    exact (hsame token state hvalue).mp hp
  · intro hnone token state hvalue
    have hmem := congrArg ((token, state) ∈ ·) (hfolds.outside_eq hcovers halike hnone)
    simp only [List.mem_filter, hvalue, Bool.not_false, and_true, eq_iff_iff] at hmem
    exact hmem.symm

/-- Two references side by side in content. -/
theorem neighbouring_references_fold_when_highlighted :
    let reading (grouping : Grouping) : Lexer DocumentGrammar Snapshot Live :=
      Lexer.idle ⟨grouping, .document⟩
    let source := "&lt;&gt;"
    ∃ plain highlighted, (reading .runs).start source 0 source.utf8ByteSize 0 = .ok plain ∧
      (reading .values).start source 0 source.utf8ByteSize 0 = .ok highlighted ∧
      shown plain.tape.readings = [(⟨.charEntityRef, 0, 4⟩, 0), (⟨.charEntityRef, 4, 8⟩, 1)] ∧
      shown highlighted.tape.readings = [(⟨.charEntityRef, 0, 8⟩, 0)] ∧
      isValue 1 = false := by
  intro reading source
  have hrun : ((reading .runs).start source 0 source.utf8ByteSize 0).toOption.map
      (fun started => shown started.tape.readings) =
      some [(⟨.charEntityRef, 0, 4⟩, 0), (⟨.charEntityRef, 4, 8⟩, 1)] := by
    decide +kernel
  have hvalues : ((reading .values).start source 0 source.utf8ByteSize 0).toOption.map
      (fun started => shown started.tape.readings) = some [(⟨.charEntityRef, 0, 8⟩, 0)] := by
    decide +kernel
  obtain ⟨plain, hplain, hshown⟩ := Except.exists_of_map_toOption hrun
  obtain ⟨highlighted, hhighlighted, hfolded⟩ := Except.exists_of_map_toOption hvalues
  exact ⟨plain, highlighted, hplain, hhighlighted, hshown, hfolded, by decide⟩

end DocumentGrammar

end Relex
