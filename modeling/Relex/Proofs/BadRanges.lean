import Relex.Proofs.Delegation
import Relex.Proofs.RestartPoint

/-! # Where a start fails

A lexer that cuts its text at offsets could fail at every token. It fails only where it is started, and
only on a range that is not empty and whose ends do not both lie between characters. Raw text is the
exception: no element is open at a start, so all of the range is one token, which is not cut out and may
begin inside a character.
-/

namespace Relex

open Text Markup Document Pulling

/-- Whether a part of a text can be cut out depends on its end, and then on its start. -/
theorem Text.region_cases (text : List Char) {start stop : Nat} (hle : start ≤ stop) :
    (¬ Boundary text stop ∧ region text start stop = .error (.badStop stop)) ∨
      (Boundary text stop ∧ ¬ Boundary text start ∧
        region text start stop = .error (.badStart start)) ∨
      (Boundary text stop ∧ Boundary text start ∧ ∃ part, region text start stop = .ok part) := by
  by_cases hstop : Boundary text stop
  · by_cases hstart : Boundary text start
    · obtain ⟨part, hpart⟩ := spans_between hstart hstop hle
      exact .inr (.inr ⟨hstop, hstart, part, region_eq_ok_iff.mpr hpart⟩)
    · refine .inr (.inl ⟨hstop, hstart, ?_⟩)
      have hzero : Boundary text 0 := ⟨[], text, rfl, rfl⟩
      obtain ⟨upTo, hupTo⟩ := spans_between hzero hstop (Nat.zero_le stop)
      have hregion : region text start stop = sliceFrom upTo start := by
        rw [region_eq, sliceTo_eq_ok_iff.mpr hupTo]
        rfl
      rw [hregion]
      cases hrest : sliceFrom upTo start with
      | error error => exact congrArg Except.error (eq_badStart_of_sliceFrom hrest)
      | ok rest =>
          rw [hrest] at hregion
          exact absurd (region_eq_ok_iff.mp hregion).boundary_start hstart
  · refine .inl ⟨hstop, ?_⟩
    rw [region_eq]
    cases hupTo : sliceTo text stop with
    | error error => exact congrArg Except.error (eq_badStop_of_sliceTo hupTo)
    | ok upTo => exact absurd (sliceTo_eq_ok_iff.mp hupTo).boundary_stop hstop

namespace Markup

theorem tape_fails_iff {form : Form} {source : String} {stop : Nat} {snapshot : Snapshot} :
    (∃ error, tape form source stop snapshot = .error error) ↔
      snapshot.offset < stop ∧ (¬ Boundary source.toList stop ∨
        ¬ Boundary source.toList snapshot.offset ∧
          ¬ (snapshot.context.state = .rawText ∧ snapshot.context.nesting.elements.isEmpty)) := by
  unfold tape
  by_cases hlt : snapshot.offset < stop
  · simp only [hlt, true_and]
    rcases region_cases source.toList (Nat.le_of_lt hlt) with
      ⟨hstop, hregion⟩ | ⟨hstop, hstart, hregion⟩ | ⟨hstop, hstart, text, hregion⟩
    · simp [hregion, hstop]
    · simp only [hregion, hstop, hstart, not_true, not_false_iff, true_and, false_or]
      by_cases hraw :
        snapshot.context.state = .rawText ∧ snapshot.context.nesting.elements.isEmpty = true
      · simp only [if_pos hraw]
        exact iff_of_false nofun fun hcut => hcut hraw
      · simp only [if_neg hraw]
        exact iff_of_true ⟨_, rfl⟩ hraw
    · simp [hregion, hstop, hstart]
  · simp [hlt]

/-- Of the state words from which a start is accepted, one stands for raw text. -/
theorem state_contextOf_accepted_eq_rawText_iff (form : Form) (code : UInt32) :
    (contextOf form (if isRestartPoint code then code else State.initial.code)).state = .rawText ↔
      code = State.rawText.code := by
  cases hpoint : isRestartPoint code with
  | false =>
      refine iff_of_false ?_ ?_
      · simp only [Bool.false_eq_true, if_false]
        cases form <;> decide
      · rintro rfl
        cases hpoint
  | true =>
      obtain ⟨state, hstate, rfl⟩ := exists_listed_of_isRestartPoint hpoint
      cases state with
      | unlisted code beyond => exact absurd hstate (UInt32.not_lt.mpr beyond)
      | _ => cases form <;> decide

end Markup

namespace DocumentGrammar

/-- A document fails only where its markup cannot be cut out. -/
theorem resume_fails_iff (reader : DocumentGrammar) {source : String} {stop : Nat}
    {snapshot : Snapshot} : (∃ error, (Reader.resume reader source stop snapshot :
        Except RangeError (Tape Snapshot Live)) = .error error) ↔
      ∃ error, Markup.tape reader.form source stop snapshot = .error error := by
  rw [resume_eq_bind]
  cases hmarkup : Markup.tape reader.form source stop snapshot with
  | error error => exact iff_of_true ⟨error, rfl⟩ ⟨error, rfl⟩
  | ok markup =>
      obtain ⟨document, hdocument⟩ := Markup.exists_ofMarkup hmarkup reader.grouping
      simp [Except.map, bind, Except.bind, hdocument]

theorem start_fails_iff (reader : DocumentGrammar) (source : String) (start stop : Nat)
    (state : UInt32) : (∃ error, (Reader.start reader source start stop state :
        Except RangeError (Tape Snapshot Live)) = .error error) ↔
      start < stop ∧ (¬ Boundary source.toList stop ∨
        ¬ Boundary source.toList start ∧ state ≠ State.rawText.code) := by
  have hempty : ∀ code, (contextOf reader.form code).nesting.elements.isEmpty = true := fun _ => rfl
  rw [start_eq_resume, resume_fails_iff, tape_fails_iff,
    state_contextOf_accepted_eq_rawText_iff]
  simp only [hempty, and_true, ne_eq]

end DocumentGrammar

namespace Delegating

/-- A start fails on a range that is not empty and does not end between characters, or does not begin
    between characters and is not read as raw text. Behind a start that does not fail no number of moves
    fails, and all that is shown is what the lexer of documents shows. -/
theorem only_bad_ranges_fail (d : Delegating) (lexer : Lexer DocumentGrammar Snapshot Live)
    (hreader : lexer.reader = d.reader) (source : String) (start stop : Nat) (state : UInt32) :
    ((∃ error, d.start source start stop state = .error error) ↔
      start < stop ∧ (¬ Boundary source.toList stop ∨
        ¬ Boundary source.toList start ∧ state ≠ State.rawText.code)) ∧
    (∀ started, d.start source start stop state = .ok started →
      ∀ times, ∃ later, advances times started = .ok later) ∧
    Both (fun started begun => ∀ times, ∃ later, advances times started = .ok later ∧
        Shows (d.reader.grouping, d.reader.form, source, stop) later
          (Session.advanceTimes times begun).tape)
      (d.start source start stop state) (lexer.start source start stop state) := by
  have hboth := d.both_start source start stop state
  refine ⟨hboth.error_iff.trans (d.reader.start_fails_iff source start stop state), ?_, ?_⟩
  · intro started hstarted times
    rw [hstarted] at hboth
    obtain ⟨tape, -, htracks⟩ := Both.ok_left_iff.mp hboth
    obtain ⟨later, hlater, -⟩ := htracks.exists_advances times
    exact ⟨later, hlater⟩
  · rw [Lexer.start, hreader]
    refine hboth.map_right ?_
    intro started tape htracks times
    obtain ⟨later, hlater, hthere⟩ := htracks.exists_advances times
    rw [Lexer.tape_advanceTimes]
    exact ⟨later, hlater, hthere.shows⟩

/-- Raw text may begin inside a character, content may not. -/
theorem only_bad_ranges_fail_in_character :
    let d : Delegating := .idle ⟨.values, .fragment⟩
    (∃ error, d.start "éa" 1 3 State.content.code = .error error) ∧
    ∃ started, d.start "éa" 1 3 State.rawText.code = .ok started ∧
      ∀ times, ∃ later, advances times started = .ok later := by
  intro d
  let lexer : Lexer DocumentGrammar Snapshot Live := Lexer.idle ⟨.values, .fragment⟩
  have hstart : ¬ Boundary "éa".toList 1 := by decide
  have hstop : Boundary "éa".toList 3 := by decide
  constructor
  · have hcontent := only_bad_ranges_fail d lexer rfl "éa" 1 3 State.content.code
    exact hcontent.1.mpr ⟨by decide, .inr ⟨hstart, by decide⟩⟩
  · obtain ⟨hfails, hmoves, -⟩ := only_bad_ranges_fail d lexer rfl "éa" 1 3 State.rawText.code
    cases hstarted : d.start "éa" 1 3 State.rawText.code with
    | error error =>
        obtain ⟨-, hbad | ⟨-, hbad⟩⟩ := hfails.mp ⟨error, hstarted⟩
        · exact absurd hstop hbad
        · exact absurd rfl hbad
    | ok started => exact ⟨started, rfl, hmoves started hstarted⟩

end Delegating

end Relex
