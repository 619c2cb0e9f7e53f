import Relex.CommandLine
import Relex.Proofs.Coverage

/-! # Resumption

What is read from a snapshot is what was still to come where the snapshot was taken. Three layers
carry this. A cursor is found again from its offset and context. Dropping groups drops all of their
members, so the rest of a grouped tape is the rest of a tape, grouped. A place of a document with a
snapshot stands for a whole token of the markup, so the rest of the document is the rest of the
markup, expanded.
-/

namespace Relex

namespace Tape

variable {π ι : Type}

/-- How many tokens the first group of the tape joins. -/
def joined (grouping : Grouping) (tape : Tape π ι) : Nat :=
  match tape.readings with
  | [] => 0
  | r :: rs => (Group.front grouping r rs).members.length

theorem advance_group (grouping : Grouping) (tape : Tape π ι) :
    (tape.group grouping).advance = (tape.drop (tape.joined grouping)).group grouping := by
  obtain ⟨readings, final⟩ := tape
  cases readings with
  | nil =>
      simp only [joined, group, Group.ofReadings, Group.readings, advance, drop_zero]
      rfl
  | cons r rs =>
      apply ext_readings
      · simp only [joined, Group.members, List.length_cons, group, drop, Group.ofReadings,
          Group.readings, advance, List.tail_cons, List.drop_succ_cons]
      · rfl

theorem drop_group (grouping : Grouping) (n : Nat) (tape : Tape π ι) :
    ∃ k, (tape.group grouping).drop n = (tape.drop k).group grouping := by
  induction n generalizing tape with
  | zero => exact ⟨0, rfl⟩
  | succ n ih =>
      obtain ⟨k, hk⟩ := ih (tape.drop (tape.joined grouping))
      refine ⟨tape.joined grouping + k, ?_⟩
      rw [drop_succ, advance_group, hk, drop_drop]

/-- A group has the snapshot of its first member. -/
theorem snapshot_group (grouping : Grouping) {tape : Tape π ι} {snapshot : π}
    (h : tape.place.snapshot = .ok snapshot) :
    (tape.group grouping).place.snapshot = .ok snapshot := by
  obtain ⟨readings, final⟩ := tape
  cases readings with
  | nil =>
      rw [group, Group.ofReadings]
      exact h
  | cons r rs =>
      have hfirst : (Group.front grouping r rs).first.place.snapshot = .ok snapshot := h
      simp only [group, Group.ofReadings, Group.readings, place, Group.reading, hfirst]

end Tape

namespace Document

open Markup Text

/-- A token either stays as it is or gives way to script. -/
theorem expand_cases {source : String} {r : Reading Snapshot Nesting}
    {part : List (Reading Snapshot Live)} (h : expand source r = .ok part) :
    part = [⟨r.kind, r.stop, markupPlace r.place⟩] ∨
      r.kind.opensEmbedment = true ∧ ∃ script, Script.tape source r.place.offset r.stop = .ok script ∧
        part = script.readings.map (scriptReading r.place) := by
  cases hkind : r.kind.opensEmbedment with
  | false =>
      simp only [expand, hkind] at h
      exact .inl (Except.ok.inj h).symm
  | true =>
      simp only [expand, hkind, if_true] at h
      obtain ⟨script, hscript, rfl⟩ := Except.map_eq_ok_iff.mp h
      split
      · exact .inl rfl
      · exact .inr ⟨rfl, script, hscript, rfl⟩

theorem ofMarkup_eq_ok_iff {source : String} {markup : Tape Snapshot Nesting}
    {document : Tape Snapshot Live} : ofMarkup source markup = .ok document ↔
      ∃ parts, markup.readings.mapM (expand source) = .ok parts ∧
        ⟨parts.flatten, markupPlace markup.final⟩ = document :=
  Except.map_eq_ok_iff

/-- Where a document has a snapshot, the rest of it is the expansion of the rest of its markup. -/
theorem drop_parts {source : String} {rs : List (Reading Snapshot Nesting)}
    {parts : List (List (Reading Snapshot Live))} {final : Place Snapshot Nesting} {n : Nat}
    {snapshot : Snapshot} (h : rs.mapM (expand source) = .ok parts)
    (hs : (Tape.mk (parts.flatten.drop n) (markupPlace final)).place.snapshot = .ok snapshot) :
    ∃ k later, (rs.drop k).mapM (expand source) = .ok later ∧
      later.flatten = parts.flatten.drop n ∧
      (Tape.mk (rs.drop k) final).place.snapshot = .ok snapshot := by
  induction rs generalizing parts n with
  | nil =>
      cases h
      exact ⟨0, [], rfl, by simp, by simpa [Tape.place, markupPlace] using hs⟩
  | cons r rs ih =>
      obtain ⟨part, later, hpart, hlater, rfl⟩ := Except.exists_of_mapM_cons h
      rw [List.flatten_cons] at hs ⊢
      by_cases hn : n < part.length
      · have hdrop : (part ++ later.flatten).drop n =
            part[n] :: (part.drop (n + 1) ++ later.flatten) := by
          rw [List.drop_append_of_le_length (Nat.le_of_lt hn), List.drop_eq_getElem_cons hn]
          rfl
        have hsnap : part[n].place.snapshot = .ok snapshot := by
          rw [hdrop] at hs
          exact hs
        rcases expand_cases hpart with rfl | ⟨-, script, -, rfl⟩
        · have hzero : n = 0 := by simpa using hn
          subst hzero
          exact ⟨0, _, h, by simp, hsnap⟩
        · rw [List.getElem_map] at hsnap
          cases hsnap
      · have hdrop : (part ++ later.flatten).drop n = later.flatten.drop (n - part.length) := by
          rw [List.drop_append, List.drop_of_length_le (by omega), List.nil_append]
        rw [hdrop] at hs ⊢
        obtain ⟨k, rest, hrest, hflat, hsnap⟩ := ih hlater hs
        exact ⟨k + 1, rest, hrest, hflat, hsnap⟩

theorem drop_ofMarkup {source : String} {markup : Tape Snapshot Nesting}
    {document : Tape Snapshot Live} {n : Nat} {snapshot : Snapshot}
    (h : ofMarkup source markup = .ok document)
    (hs : (document.drop n).place.snapshot = .ok snapshot) :
    ∃ k, ofMarkup source (markup.drop k) = .ok (document.drop n) ∧
      (markup.drop k).place.snapshot = .ok snapshot := by
  obtain ⟨parts, hparts, rfl⟩ := ofMarkup_eq_ok_iff.mp h
  obtain ⟨k, later, hlater, hflat, hsnap⟩ := drop_parts hparts hs
  refine ⟨k, ofMarkup_eq_ok_iff.mpr ⟨later, hlater, ?_⟩, hsnap⟩
  rw [hflat]
  rfl

end Document

namespace DocumentGrammar

open Text Markup Document

/-- Where a document has a snapshot, a cursor of its markup stands, and the rest is what that cursor
    still reads. -/
theorem exists_cursor (reader : DocumentGrammar) {source : String} {first : Cursor}
    {document : Tape Snapshot Live} {n : Nat} {snapshot : Snapshot}
    (h : ofMarkup source ((first.tape reader.form).group reader.grouping) = .ok document)
    (hs : (document.drop n).place.snapshot = .ok snapshot) :
    ∃ l, let cursor := (Cursor.next reader.form)^[l] first
      snapshot = ⟨cursor.offset, cursor.context⟩ ∧
        ofMarkup source ((cursor.tape reader.form).group reader.grouping) =
          .ok (document.drop n) := by
  obtain ⟨k, hrest, hsnap⟩ := drop_ofMarkup h hs
  obtain ⟨l, hl⟩ := Tape.drop_group reader.grouping k (first.tape reader.form)
  rw [Cursor.drop_tape] at hl
  refine ⟨l, ?_⟩
  intro cursor
  have hplace : (cursor.tape reader.form).place.snapshot = .ok ⟨cursor.offset, cursor.context⟩ := by
    rw [Cursor.place_tape]
    rfl
  have hgroup := Tape.snapshot_group reader.grouping hplace
  rw [hl, hgroup] at hsnap
  rw [← hl]
  exact ⟨(Except.ok.inj hsnap).symm, hrest⟩

/-- A snapshot is all that it takes to read on as before. -/
theorem resume_drop (reader : DocumentGrammar) {source : String} {start stop : Nat}
    {context : Context} {cs : List Char} {document : Tape Snapshot Live} {n : Nat}
    {snapshot : Snapshot} (hcs : Spans source.toList cs start stop)
    (h : ofMarkup source (((Cursor.mk start context cs).tape reader.form).group reader.grouping) =
      .ok document)
    (hs : (document.drop n).place.snapshot = .ok snapshot) :
    Reader.resume reader source stop snapshot = .ok (document.drop n) := by
  obtain ⟨l, rfl, hrest⟩ := reader.exists_cursor h hs
  let first : Cursor := ⟨start, context, cs⟩
  have hfirst : first.Within source.toList stop := hcs
  exact (reader.resume_eq (hfirst.iterate l)).trans hrest

theorem resume_started {lexer started : Lexer DocumentGrammar Snapshot Live} {source : String}
    {start stop n : Nat} {state : UInt32} {snapshot : Snapshot}
    (hstart : Boundary source.toList start) (hstop : Boundary source.toList stop)
    (hle : start ≤ stop) (h : lexer.start source start stop state = .ok started)
    (hs : (started.tape.drop n).place.snapshot = .ok snapshot) :
    Reader.resume lexer.reader source stop snapshot = .ok (started.tape.drop n) := by
  obtain ⟨cs, hcs⟩ := spans_between hstart hstop hle
  obtain ⟨context, hread⟩ := lexer.reader.start_eq state hcs
  rw [Lexer.read_of_start h] at hread
  exact lexer.reader.resume_drop hcs hread.symm hs

end DocumentGrammar

/-! ## The check of restarts -/

namespace RestartReport

open Text Markup Document

theorem divergingOffsets_drop {fresh : Lexer DocumentGrammar Snapshot Live}
    (h : ∀ n snapshot, (fresh.tape.drop n).place.snapshot = .ok snapshot →
      ∃ restored, fresh.restore snapshot = .ok restored ∧ restored.tape = fresh.tape.drop n)
    (n : Nat) : divergingOffsets fresh (fresh.tape.drop n).readings = .ok [] := by
  generalize hrs : (fresh.tape.drop n).readings = rs
  induction rs generalizing n with
  | nil => rfl
  | cons r rs ih =>
      have hlater : divergingOffsets fresh rs = .ok [] := by
        apply ih (n + 1)
        rw [← Tape.drop_drop, Tape.readings_drop, hrs]
        rfl
      cases hsnap : r.place.snapshot with
      | error misuse => simp [divergingOffsets, hlater, hsnap, bind, Except.bind, pure, Except.pure]
      | ok snapshot =>
          have hplace : (fresh.tape.drop n).place.snapshot = .ok snapshot := by
            simp only [Tape.place, hrs, hsnap]
          obtain ⟨restored, hrestored, htape⟩ := h n snapshot hplace
          have htokens : restored.tape.tokens = (r :: rs).map Reading.token := by
            rw [htape, Tape.tokens, hrs]
          simp [divergingOffsets, hlater, hsnap, hrestored, htokens, bind, Except.bind, pure,
            Except.pure]

theorem check_passes (reader : DocumentGrammar) (source : String) :
    ∃ report, check reader source = .ok report ∧ report.diverging = [] := by
  have hstart : Boundary source.toList 0 := ⟨[], source.toList, rfl, rfl⟩
  have hstop : Boundary source.toList source.utf8ByteSize :=
    ⟨source.toList, [], by simp, byteLength_toList source⟩
  have hle : 0 ≤ source.utf8ByteSize := Nat.zero_le _
  let idle : Lexer DocumentGrammar Snapshot Live := Lexer.idle reader
  obtain ⟨fresh, hfresh, hreader, hsource, hregion, -⟩ :=
    DocumentGrammar.start_covers idle 0 hstart hstop hle
  have hrestore : ∀ n snapshot, (fresh.tape.drop n).place.snapshot = .ok snapshot →
      ∃ restored, fresh.restore snapshot = .ok restored ∧ restored.tape = fresh.tape.drop n := by
    intro n snapshot hs
    apply Lexer.restore_of_read
    rw [hreader, hsource, hregion]
    exact DocumentGrammar.resume_started hstart hstop hle hfresh hs
  have hdiverging : divergingOffsets fresh fresh.tape.readings = .ok [] :=
    divergingOffsets_drop hrestore 0
  have hcheck : check reader source = .ok
      { tokens := fresh.tape.readings.length
        points := (fresh.tape.readings.filter fun r => r.place.snapshot.isOk).length
        diverging := [] } := by
    simp only [idle] at hfresh
    simp only [check, hfresh, bind, Except.bind, hdiverging]
    rfl
  exact ⟨_, hcheck, rfl⟩

end RestartReport

namespace DocumentGrammar

open Text Markup Document CommandLine

/-- A lexer that holds the source and the region of a run, whatever was done with it before, reads
    on from any snapshot of the run as the run did: the whole tape is the same, with the tokens, the
    state words, the live views and the snapshots. So a check of restarts finds no difference in any
    file. -/
theorem restored_run_continues :
    (∀ (lexer : Lexer DocumentGrammar Snapshot Live) (source : String) (start stop : Nat)
      (state : UInt32), Boundary source.toList start → Boundary source.toList stop →
      start ≤ stop →
      ∃ started, lexer.start source start stop state = .ok started ∧
        ∀ n snapshot, (Session.advanceTimes n started).snapshot = .ok snapshot →
          ∀ other : Lexer DocumentGrammar Snapshot Live,
            other.reader = lexer.reader → other.source = source → other.stop = stop →
            ∃ restored, other.restore snapshot = .ok restored ∧
              restored.tape = (Session.advanceTimes n started).tape) ∧
    ∀ (args : List String) (content : String → FileContent) (path : String) (options : Options)
      (bytes : ByteArray) (source : String), parse args = .ok (.restart path options) →
      content path = .bytes bytes → String.fromUTF8? bytes = some source →
      ∃ tokens points : Nat, run args content =
        { stderr := "OK: " ++ path ++ " (" ++ toString tokens ++ " tokens, " ++ toString points ++
            " restart points)\n" } := by
  constructor
  · intro lexer source start stop state hstart hstop hle
    obtain ⟨started, hstarted, -⟩ := start_covers lexer state hstart hstop hle
    refine ⟨started, hstarted, ?_⟩
    intro n snapshot hs other hother hsource hregion
    rw [Lexer.snapshot, Lexer.tape_advanceTimes] at hs
    rw [Lexer.tape_advanceTimes]
    apply Lexer.restore_of_read
    rw [hother, hsource, hregion]
    exact resume_started hstart hstop hle hstarted hs
  · intro args content path options bytes source hargs hcontent hsource
    obtain ⟨report, hreport, hdiverging⟩ := RestartReport.check_passes options.reader source
    refine ⟨report.tokens, report.points, ?_⟩
    simp [run, hargs, Invocation.path?, hcontent, runInvocation, readText, hsource, runOn, hreport,
      Except.map, restartOutcome, hdiverging]

theorem restored_run_continues_in_expression :
    (let lexer : Lexer DocumentGrammar Snapshot Live := Lexer.idle ⟨.values, .document⟩
     let other : Lexer DocumentGrammar Snapshot Live :=
        { lexer with source := "---\n1\n---<p>\x7bx\x7d", stop := 15 }
      ∃ started snapshot restored, lexer.start "---\n1\n---<p>\x7bx\x7d" 0 15 0 = .ok started ∧
        (Session.advanceTimes 9 started).snapshot = .ok snapshot ∧
        other.restore snapshot = .ok restored ∧
        restored.tape = (Session.advanceTimes 9 started).tape) ∧
    ∃ tokens points : Nat,
      run ["restart", "--highlight", "a.astro"] (fun _ => .bytes "é<p>".toUTF8) =
        { stderr := "OK: " ++ "a.astro" ++ " (" ++ toString tokens ++ " tokens, " ++
            toString points ++ " restart points)\n" } := by
  have hstart : Boundary "---\n1\n---<p>\x7bx\x7d".toList 0 := by decide
  have hstop : Boundary "---\n1\n---<p>\x7bx\x7d".toList 15 := by decide
  have hpath : "a.astro".startsWith "-" = false := by decide +kernel
  have hargs : parse ["restart", "--highlight", "a.astro"] =
      .ok (.restart "a.astro" { highlight := true }) := by
    simp [parse, parseFile, hpath, bind, Except.bind, pure, Except.pure]
  have hfile : String.fromUTF8? "é<p>".toUTF8 = some "é<p>" := by decide +kernel
  constructor
  · intro lexer other
    obtain ⟨started, hstarted, hrun⟩ :=
      restored_run_continues.1 lexer "---\n1\n---<p>\x7bx\x7d" 0 15 0 hstart hstop (by decide)
    have hgiven : ((lexer.start "---\n1\n---<p>\x7bx\x7d" 0 15 0).toOption.any fun started =>
        (Session.advanceTimes 9 started).snapshot.isOk) = true := by decide +kernel
    rw [hstarted] at hgiven
    cases hsnapshot : (Session.advanceTimes 9 started).snapshot with
    | error misuse => simp [Except.toOption, Except.isOk, Except.toBool, hsnapshot] at hgiven
    | ok snapshot =>
        obtain ⟨restored, hrestored, htape⟩ := hrun 9 snapshot hsnapshot other rfl rfl rfl
        exact ⟨started, snapshot, restored, hstarted, hsnapshot, hrestored, htape⟩
  · exact restored_run_continues.2 _ _ "a.astro" { highlight := true } _ "é<p>" hargs rfl hfile

end DocumentGrammar

end Relex
