import Relex.Proofs.Frontmatter

/-! # The flag of the state word

Inside the frontmatter neither the state word nor a snapshot can tell how far the script has been
read. Four answers of a lexer bear on that: whether it is in the frontmatter, the flag of the state
word, whether there is a snapshot, and whether the state word can be restarted. Whatever was done
with the lexer before, they agree (`DocumentGrammar.flag_tells_truth`), and none of the calls that led
there could fail.
-/

namespace Relex

open Text Markup

namespace Document

/-- How the answers of a lexer belong together that stands at a place, in front of a token of some
    kind. -/
structure FlagTruthful (kind? : Option Kind) (place : Place Snapshot Live) : Prop where
  flag : place.live.inFrontmatter = true ↔ place.state &&& substateFlag ≠ 0
  snapshot : place.live.inFrontmatter = true ↔ ∃ misuse, place.snapshot = .error misuse
  restart : place.live.inFrontmatter = true ↔ isRestartPoint place.state = false
  inside : place.live.inFrontmatter = true →
    place.snapshot = .error (.noSnapshot place.offset) ∧ ∃ kind, kind? = some (.script kind)
  outside : place.live.inFrontmatter = false →
    place.state < 14 ∧ ∃ snapshot, place.snapshot = .ok snapshot ∧ snapshot.offset = place.offset
  kind : kind? ≠ some .frontmatterScript

theorem Shown.flagTruthful {kind? : Option Kind} {place : Place Snapshot Live}
    (h : Shown kind? place) : FlagTruthful kind? place := by
  cases h with
  | markup hkind hlisted hshows houtside =>
      have hpoint : isRestartPoint place.state = true := by
        rw [hshows.state]
        exact hlisted.state.isRestartPoint
      have hunflagged : place.state &&& substateFlag = 0 := by
        rw [isRestartPoint, Bool.and_eq_true, beq_iff_eq] at hpoint
        exact hpoint.1
      refine ⟨?_, ?_, ?_, ?_, ?_, hkind⟩
      · simp [houtside, hunflagged]
      · simp [houtside, hshows.snapshot]
      · simp [houtside, hpoint]
      · intro hinside
        rw [houtside] at hinside
        cases hinside
      · intro _
        refine ⟨?_, _, hshows.snapshot, rfl⟩
        rw [hshows.state]
        exact hlisted.state
  | script hstate hsnapshot hinside =>
      have hflagged : place.state &&& substateFlag ≠ 0 := by
        rw [hstate]
        decide
      have hrefused : isRestartPoint place.state = false := by
        rw [hstate]
        decide
      refine ⟨?_, ?_, ?_, fun _ => ⟨hsnapshot, _, rfl⟩, ?_,
        fun hkind => Kind.noConfusion (Option.some.inj hkind)⟩
      · simp [hinside, hflagged]
      · simp [hinside, hsnapshot]
      · simp [hinside, hrefused]
      · intro houtside
        rw [hinside] at houtside
        cases houtside

end Document

namespace DocumentGrammar

open Document

/-- The lexers that can be got by starting, advancing and restoring. A snapshot is restored only
    where it was taken, on the same source and with the same end of the region, though perhaps from
    another lexer. -/
inductive Reached : Lexer DocumentGrammar Snapshot Live → Prop
  | idle (reader : DocumentGrammar) : Reached (Lexer.idle reader)
  | start {lexer started : Lexer DocumentGrammar Snapshot Live} {source : String} {start stop : Nat}
      {state : UInt32} : Reached lexer → Boundary source.toList start →
      Boundary source.toList stop → lexer.start source start stop state = .ok started →
      Reached started
  | advance {lexer : Lexer DocumentGrammar Snapshot Live} : Reached lexer → Reached lexer.advance
  | restore {lexer other restored : Lexer DocumentGrammar Snapshot Live} {snapshot : Snapshot} :
      Reached lexer → Reached other → other.source = lexer.source → other.stop = lexer.stop →
      other.snapshot = .ok snapshot → lexer.restore snapshot = .ok restored → Reached restored

/-- What every lexer that is reached keeps. -/
structure Settled (lexer : Lexer DocumentGrammar Snapshot Live) : Prop where
  honest : Honest lexer.tape
  stop : Boundary lexer.source.toList lexer.stop
  offsets : ∀ offset ∈ lexer.tape.offsets, Boundary lexer.source.toList offset

theorem boundary_offsets_of_covers {π ι : Type} {text : List Char} {tape : Tape π ι} {start stop : Nat}
    (h : Covers text stop start tape.tokens) (hfinal : Boundary text tape.final.offset) :
    ∀ offset ∈ tape.offsets, Boundary text offset := by
  obtain ⟨readings, final⟩ := tape
  intro offset hoffset
  induction readings generalizing start with
  | nil =>
      rw [List.mem_singleton.mp hoffset]
      exact hfinal
  | cons r rs ih =>
      cases h with
      | cons _ _ hb _ hrest =>
          rcases List.mem_cons.mp hoffset with rfl | hlater
          · exact hb
          · exact ih hrest hfinal hlater

/-- From a boundary something can be read, and all its tokens begin at boundaries. -/
theorem exists_resume (reader : DocumentGrammar) {source : String} {stop : Nat}
    {snapshot : Snapshot} (hoffset : Boundary source.toList snapshot.offset)
    (hstop : Boundary source.toList stop) :
    ∃ document, Reader.resume reader source stop snapshot = .ok document ∧
      ∀ offset ∈ document.offsets, Boundary source.toList offset := by
  by_cases hle : snapshot.offset ≤ stop
  · obtain ⟨cs, hcs⟩ := spans_between hoffset hstop hle
    let cursor : Cursor := ⟨snapshot.offset, snapshot.context, cs⟩
    have hwithin : cursor.Within source.toList stop := hcs
    obtain ⟨hfinal, hcovers⟩ := covers_markup reader.form snapshot.context hcs
    rw [← hfinal] at hcovers
    obtain ⟨document, hdocument, hend, htokens⟩ := covers_ofMarkup_group hcovers reader.grouping
    refine ⟨document, (reader.resume_eq hwithin).trans hdocument, ?_⟩
    have hstopped : document.final.offset = stop := (congrArg Place.offset hend).trans hfinal
    exact boundary_offsets_of_covers htokens (hstopped.symm ▸ hstop)
  · refine ⟨_, reader.resume_of_le (Nat.le_of_not_le hle), ?_⟩
    intro offset hmem
    rw [List.mem_singleton.mp hmem]
    exact hoffset

theorem settled_idle (reader : DocumentGrammar) : Settled (Lexer.idle reader) where
  honest := by
    have hlisted : (Context.mk .initial ∅).Listed := ⟨by decide, nofun⟩
    exact ⟨List.forall_mem_nil _, .markup nofun hlisted ⟨rfl, rfl⟩ rfl⟩
  stop := ⟨[], [], rfl, rfl⟩
  offsets := by
    intro offset hmem
    rw [List.mem_singleton.mp hmem]
    exact ⟨[], [], rfl, rfl⟩

theorem Settled.advance {lexer : Lexer DocumentGrammar Snapshot Live} (h : Settled lexer) :
    Settled lexer.advance := by
  have htape : lexer.advance.tape = lexer.tape.drop 1 := (Tape.drop_succ 0 lexer.tape).symm
  refine ⟨?_, h.stop, ?_⟩
  · rw [htape]
    exact h.honest.drop 1
  · intro offset hmem
    rw [htape] at hmem
    exact h.offsets offset ((Tape.offsets_drop_sublist 1 lexer.tape).subset hmem)

/-- Nothing but restoring goes wrong with a snapshot, and not where it was taken. -/
theorem Settled.exists_restore {lexer other : Lexer DocumentGrammar Snapshot Live}
    {snapshot : Snapshot} (h : Settled lexer) (hother : Settled other)
    (hsource : other.source = lexer.source) (hsnapshot : other.snapshot = .ok snapshot) :
    ∃ restored, lexer.restore snapshot = .ok restored ∧ Settled restored := by
  obtain ⟨hlisted, hoffset⟩ := hother.honest.place.snapshot_eq_ok hsnapshot
  have hboundary := hother.offsets _ (Tape.offset_place_mem other.tape)
  rw [← hoffset, hsource] at hboundary
  obtain ⟨document, hdocument, hboundaries⟩ := exists_resume lexer.reader hboundary h.stop
  obtain ⟨restored, hrestored, htape⟩ := Lexer.restore_of_read hdocument
  obtain ⟨-, hfields⟩ := Lexer.read_of_restore hrestored
  refine ⟨restored, hrestored, ?_⟩
  rw [hfields, htape]
  exact ⟨honest_of_resume hlisted hdocument, h.stop, hboundaries⟩

theorem exists_start (lexer : Lexer DocumentGrammar Snapshot Live) {source : String}
    {start stop : Nat} (state : UInt32) (hstart : Boundary source.toList start)
    (hstop : Boundary source.toList stop) :
    ∃ started, lexer.start source start stop state = .ok started ∧ Settled started := by
  let context := contextOf lexer.reader.form
    (if isRestartPoint state then state else State.initial.code)
  let snapshot : Snapshot := ⟨start, context⟩
  have hlisted : snapshot.context.Listed := contextOf_accepted_listed lexer.reader.form state
  have hoffset : Boundary source.toList snapshot.offset := hstart
  obtain ⟨document, hdocument, hboundaries⟩ := exists_resume lexer.reader hoffset hstop
  obtain ⟨started, hstarted, htape, -, hsource, hregion⟩ := Lexer.start_of_read
    ((lexer.reader.start_eq_resume source start stop state).trans hdocument)
  refine ⟨started, hstarted, ?_, ?_, ?_⟩
  · rw [htape]
    exact honest_of_resume hlisted hdocument
  · rw [hsource, hregion]
    exact hstop
  · rw [htape, hsource]
    exact hboundaries

theorem Reached.settled {lexer : Lexer DocumentGrammar Snapshot Live} (h : Reached lexer) :
    Settled lexer := by
  induction h with
  | idle reader => exact settled_idle reader
  | start hlexer hstart hstop hstarted ih =>
      obtain ⟨started, hsame, hsettled⟩ := exists_start _ _ hstart hstop
      rw [hstarted] at hsame
      cases hsame
      exact hsettled
  | advance hlexer ih => exact ih.advance
  | restore hlexer hother hsource hregion hsnapshot hrestored ih ihother =>
      obtain ⟨restored, hsame, hsettled⟩ := ih.exists_restore ihother hsource hsnapshot
      rw [hrestored] at hsame
      cases hsame
      exact hsettled

/-- Whatever was done with a lexer, its answers agree, and it can be started and restored as
    before. -/
theorem flag_tells_truth (lexer : Lexer DocumentGrammar Snapshot Live) (h : Reached lexer) :
    FlagTruthful lexer.tape.kind? lexer.tape.place ∧
      (∀ source start stop state, Boundary source.toList start → Boundary source.toList stop →
        ∃ started, lexer.start source start stop state = .ok started) ∧
      ∀ other snapshot, Reached other → other.source = lexer.source → other.stop = lexer.stop →
        other.snapshot = .ok snapshot → ∃ restored, lexer.restore snapshot = .ok restored := by
  refine ⟨h.settled.honest.place.flagTruthful, ?_, ?_⟩
  · intro source start stop state hstart hstop
    obtain ⟨started, hstarted, -⟩ := exists_start lexer state hstart hstop
    exact ⟨started, hstarted⟩
  · intro other snapshot hother hsource _ hsnapshot
    obtain ⟨restored, hrestored, -⟩ := h.settled.exists_restore hother.settled hsource hsnapshot
    exact ⟨restored, hrestored⟩

/-- In a script that was entered, left by restoring, and entered again. -/
theorem flag_tells_truth_in_script_again :
    ∃ started restored : Lexer DocumentGrammar Snapshot Live, ∃ snapshot,
      (Lexer.idle ⟨.values, .document⟩ : Lexer DocumentGrammar Snapshot Live).start
        "---\n1\n---<p>" 0 12 0 = .ok started ∧
      started.snapshot = .ok snapshot ∧ started.advance.restore snapshot = .ok restored ∧
      Reached restored.advance ∧ restored.advance.tape.place.live.inFrontmatter = true ∧
      FlagTruthful restored.advance.tape.kind? restored.advance.tape.place := by
  let lexer : Lexer DocumentGrammar Snapshot Live := Lexer.idle ⟨.values, .document⟩
  let source := "---\n1\n---<p>"
  have hstart : Boundary source.toList 0 := by decide
  have hstop : Boundary source.toList 12 := by decide
  obtain ⟨started, hstarted⟩ :=
    (flag_tells_truth lexer (.idle _)).2.1 source 0 12 0 hstart hstop
  have hreached : Reached started := .start (.idle _) hstart hstop hstarted
  have hrun : ((lexer.start source 0 12 0).toOption.any fun started =>
      started.snapshot.toOption.any fun snapshot =>
        (started.advance.restore snapshot).toOption.any fun restored =>
          restored.advance.tape.place.live.inFrontmatter) = true := by
    decide +kernel
  rw [hstarted] at hrun
  cases hsnapshot : started.snapshot with
  | error misuse => simp [Except.toOption, hsnapshot] at hrun
  | ok snapshot =>
      obtain ⟨restored, hrestored⟩ := (flag_tells_truth started.advance hreached.advance).2.2
        started snapshot hreached rfl rfl hsnapshot
      have hagain : Reached restored.advance :=
        (Reached.restore hreached.advance hreached rfl rfl hsnapshot hrestored).advance
      have hinside : restored.advance.tape.place.live.inFrontmatter = true := by
        simpa [Except.toOption, hsnapshot, hrestored] using hrun
      exact ⟨started, restored, snapshot, hstarted, hsnapshot, hrestored, hagain, hinside,
        (flag_tells_truth _ hagain).1⟩

end DocumentGrammar

end Relex
