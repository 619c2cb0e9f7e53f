import Relex.Proofs.BadRanges

/-! # What a start remembers

A start puts every layer somewhere else, and nothing of what was done before is left but the modes and
the misuses (`Delegating.start_idle_eq`). The misuses in turn depend on nothing but which starts were
refused: each time they are taken out, they are the first refusals since the time before
(`Operation.taken_of_run`).
-/

namespace Relex

open Text Markup Document Pulling

/-! ## Operations -/

/-- What can be done with a lexer: a call, or taking out the misuses. -/
inductive Operation where
  | call (call : Call)
  | takeMisuses

def Call.onDelegating (d : Delegating) : Call → Except RangeError Delegating
  | .start source offset stop state => d.start source offset stop state
  | .advance => d.advance
  | .restore snapshot => d.restore snapshot

/-- The misuse that a call is. -/
def Call.refused? : Call → Option Misuse
  | .start _ _ _ state => if isRestartPoint state then none else some (.refusedState state)
  | .advance => none
  | .restore _ => none

namespace Operation

def onDelegating (d : Delegating) : Operation → Except RangeError (List (List Misuse) × Delegating)
  | .call made => (made.onDelegating d).map ([], ·)
  | .takeMisuses => .ok ([d.takeMisuses.1], d.takeMisuses.2)

def onLexer (lexer : Lexer DocumentGrammar Snapshot Live) :
    Operation → Except RangeError (List (List Misuse) × Lexer DocumentGrammar Snapshot Live)
  | .call made => (made.onLexer lexer).map ([], ·)
  | .takeMisuses => .ok ([lexer.takeMisuses.1], lexer.takeMisuses.2)

/-- Carries out operations one after the other, and collects what is taken out. -/
def run {σ : Type} (step : σ → Operation → Except RangeError (List (List Misuse) × σ)) :
    List Operation → σ → Except RangeError (List (List Misuse) × σ)
  | [], s => .ok ([], s)
  | operation :: operations, s => do
    let (taken, s) ← step s operation
    let (later, s) ← run step operations s
    return (taken ++ later, s)

def takes : Operation → Bool
  | .call _ => false
  | .takeMisuses => true

def refused? : Operation → Option Misuse
  | .call made => made.refused?
  | .takeMisuses => none

/-- The refusals among some operations, in order: those up to each time they are taken out, since the
    time before, and those behind the last time. -/
def refusals (operations : List Operation) : List (List Misuse) :=
  (operations.splitOnP takes).map (List.filterMap refused?)

theorem refusals_nil : refusals [] = [[]] := by
  simp [refusals]

theorem refusals_takeMisuses (operations : List Operation) :
    refusals (.takeMisuses :: operations) = [] :: refusals operations := by
  simp [refusals, List.splitOnP_cons_eq_if_modifyHead, takes]

theorem refusals_call (made : Call) (operations : List Operation) :
    refusals (.call made :: operations) =
      (refusals operations).modifyHead (made.refused?.toList ++ ·) := by
  have hmade : refused? (.call made) = made.refused? := rfl
  simp only [refusals, List.splitOnP_cons_eq_if_modifyHead, takes]
  cases operations.splitOnP takes with
  | nil => simp
  | cons part parts => cases hrefused : made.refused? <;> simp [hmade, hrefused]

end Operation

/-! ## What is left of the past -/

theorem Markup.isRestartPoint_accepted (state : UInt32) :
    isRestartPoint (if isRestartPoint state then state else State.initial.code) = true := by
  split
  · assumption
  · decide

/-- A lexer that was never used starts from the accepted state word as any other lexer starts from the
    word that was asked for. -/
theorem Lexer.start_idle_eq (lexer : Lexer DocumentGrammar Snapshot Live) (source : String)
    (start stop : Nat) (state : UInt32) :
    (Lexer.idle lexer.reader).start source start stop
        (if isRestartPoint state then state else State.initial.code) =
      (lexer.start source start stop state).map fun started => { started with misuses := [] } := by
  have hpoint := isRestartPoint_accepted state
  have hread : (Reader.start lexer.reader source start stop
      (if isRestartPoint state then state else State.initial.code) :
        Except RangeError (Tape Snapshot Live)) =
      Reader.start lexer.reader source start stop state := by
    rw [DocumentGrammar.start_eq_resume, DocumentGrammar.start_eq_resume, if_pos hpoint]
  have hmisuse : Reader.misuse? lexer.reader
      (if isRestartPoint state then state else State.initial.code) = none := if_pos hpoint
  simp only [Lexer.start, Lexer.idle, hread, hmisuse]
  cases Reader.start lexer.reader source start stop state with
  | error error => rfl
  | ok tape => rfl

/-- Nothing but the grouping and the lexer below matters where a group is taken. -/
theorem Merging.locate_eq {σ κ π ι : Type} [Draining σ κ π ι] (m : Merging σ π) :
    m.locate = locate (.idle m.grouping m.original) := by
  unfold locate
  cases kind? m.original <;> rfl

namespace Delegating

variable {d e : Delegating}

def withMisuses (d : Delegating) (misuses : List Misuse) : Delegating :=
  { d with misuses := misuses }

/-- The layers do not look at the misuses. -/
theorem enter_withMisuses (d : Delegating) (misuses : List Misuse) :
    (d.withMisuses misuses).enter = d.enter.map (·.withMisuses misuses) := by
  obtain ⟨markup, script?, before⟩ := d
  change enter ⟨markup, script?, misuses⟩ = _
  unfold enter
  by_cases hfrontmatter : kind? markup = some .frontmatterScript
  · rw [if_pos hfrontmatter, if_pos hfrontmatter]
    cases Script.Scanner.idle.start markup.original.source (place markup).offset (stop markup) with
    | error error => rfl
    | ok script =>
        simp only [bind, Except.bind, Except.map, pure, Except.pure]
        split <;> rfl
  · rw [if_neg hfrontmatter, if_neg hfrontmatter]
    rfl

theorem leave_withMisuses (d : Delegating) (misuses : List Misuse) :
    (d.withMisuses misuses).leave = d.leave.map (·.withMisuses misuses) := by
  unfold leave
  simp only [withMisuses]
  cases Pulling.advance d.markup with
  | error error => rfl
  | ok markup => exact enter_withMisuses { d with markup := markup, script? := none } misuses

theorem advance_withMisuses (d : Delegating) (misuses : List Misuse) :
    (d.withMisuses misuses).advance = d.advance.map (·.withMisuses misuses) := by
  obtain ⟨markup, script?, before⟩ := d
  cases script? with
  | none => exact leave_withMisuses ⟨markup, none, before⟩ misuses
  | some script =>
      have hleave := leave_withMisuses ⟨markup, some script, before⟩ misuses
      simp only [advance, withMisuses]
      cases Pulling.advance script with
      | error error => rfl
      | ok script =>
          simp only [bind, Except.bind]
          split
          · rfl
          · exact hleave

theorem tracks_withMisuses {scope : Grouping × Form × String × Nat} {tape : Tape Snapshot Live}
    (misuses : List Misuse) (h : Tracks scope d tape) :
    Tracks scope (d.withMisuses misuses) tape := by
  induction h with
  | @ended d final hshows hstays =>
      refine .ended ⟨hshows.setting, hshows.kind?, hshows.stop, hshows.place⟩ ?_
      exact (advance_withMisuses d misuses).trans (congrArg _ hstays)
  | @cons d next r tape hshows hnext hlater ih =>
      refine .cons ⟨hshows.setting, hshows.kind?, hshows.stop, hshows.place⟩ ?_ ih
      exact (advance_withMisuses d misuses).trans (congrArg _ hnext)

theorem takeUp_withMisuses (d : Delegating) (misuses : List Misuse) (original : Markup.Scanner) :
    (d.withMisuses misuses).takeUp original =
      (d.takeUp original).map (·.withMisuses misuses) := by
  unfold takeUp
  simp only [withMisuses]
  cases Merging.locate { d.markup with original := original } with
  | error error => rfl
  | ok markup => exact enter_withMisuses { d with markup := markup, script? := none } misuses

/-- Nothing but the grouping and the misuses matters where the scanner has been put. -/
theorem takeUp_idle_eq (d : Delegating) (original : Markup.Scanner) :
    (idle d.reader).takeUp original = (d.withMisuses []).takeUp original := by
  simp only [takeUp, withMisuses, idle, reader]
  rw [Merging.locate_eq, Merging.locate_eq (Merging.mk _ original _ _ _ _)]
  rfl

/-- A start leaves what it would leave of a lexer that was never used, apart from the misuses. -/
theorem start_idle_eq (d : Delegating) (source : String) (start stop : Nat) (state : UInt32) :
    (idle d.reader).start source start stop
        (if isRestartPoint state then state else State.initial.code) =
      (d.start source start stop state).map (·.withMisuses []) := by
  let accepted := if isRestartPoint state then state else State.initial.code
  have hpoint : isRestartPoint accepted = true := isRestartPoint_accepted state
  have hidle : (idle d.reader).start source start stop accepted =
      d.markup.original.start source start stop accepted >>= (idle d.reader).takeUp := by
    simp only [Delegating.start, note, if_pos hpoint]
    rfl
  have hreader : (d.note state).reader = d.reader := by
    rw [reader, markup_note]
    rfl
  have htakeUp (original : Markup.Scanner) : (idle d.reader).takeUp original =
      ((d.note state).takeUp original).map (·.withMisuses []) := by
    rw [← hreader, takeUp_idle_eq, takeUp_withMisuses]
  change (idle d.reader).start source start stop accepted =
    (d.markup.original.start source start stop accepted >>= (d.note state).takeUp).map _
  rw [hidle]
  cases d.markup.original.start source start stop accepted with
  | error error => rfl
  | ok original => exact htakeUp original

/-! ## The misuses -/

theorem misuses_of_map {x : Except RangeError Delegating} {misuses : List Misuse}
    (h : x = x.map (·.withMisuses misuses)) (hx : x = .ok e) : e.misuses = misuses := by
  subst hx
  exact congrArg Delegating.misuses (Except.ok.inj h)

theorem misuses_of_advance (h : d.advance = .ok e) : e.misuses = d.misuses :=
  misuses_of_map (advance_withMisuses d d.misuses) h

theorem misuses_of_takeUp {original : Markup.Scanner} (h : d.takeUp original = .ok e) :
    e.misuses = d.misuses :=
  misuses_of_map (takeUp_withMisuses d d.misuses original) h

theorem misuses_of_start {source : String} {start stop : Nat} {state : UInt32}
    (h : d.start source start stop state = .ok e) : e.misuses = (d.note state).misuses := by
  rw [Delegating.start] at h
  obtain ⟨original, -, htakeUp⟩ := Except.exists_of_bind h
  exact misuses_of_takeUp htakeUp

theorem misuses_of_restore {snapshot : Snapshot} (h : d.restore snapshot = .ok e) :
    e.misuses = d.misuses := by
  rw [restore] at h
  obtain ⟨original, -, htakeUp⟩ := Except.exists_of_bind h
  exact misuses_of_takeUp htakeUp

/-- A refused state word is noted while there is room. -/
theorem misuses_note (hlimit : d.misuses.length ≤ misuseLimit) (state : UInt32) :
    (d.note state).misuses = (d.misuses ++
      (if isRestartPoint state then none else some (Misuse.refusedState state)).toList).take
        misuseLimit := by
  unfold note
  split
  · simp [List.take_of_length_le hlimit]
  · split
    · rw [List.take_of_length_le (by simp; omega)]
      rfl
    · rw [List.take_append_of_le_length (by omega), List.take_of_length_le hlimit]

/-- What a call does to the misuses depends on the call alone. -/
theorem misuses_of_call (hlimit : d.misuses.length ≤ misuseLimit) {made : Call}
    (h : made.onDelegating d = .ok e) :
    e.misuses = (d.misuses ++ made.refused?.toList).take misuseLimit := by
  have hkept : d.misuses = (d.misuses ++ []).take misuseLimit := by
    rw [List.append_nil, List.take_of_length_le hlimit]
  cases made with
  | start source offset stop state => exact (misuses_of_start h).trans (misuses_note hlimit state)
  | advance => exact (misuses_of_advance h).trans hkept
  | restore snapshot => exact (misuses_of_restore h).trans hkept

end Delegating

namespace Operation

theorem refusals_behind_nothing (operations : List Operation) :
    (refusals operations).modifyHead ([] ++ ·) = refusals operations := by
  cases refusals operations <;> rfl

/-- What is left out once is not missed later. -/
theorem take_append_take {α : Type} (n : Nat) (front behind : List α) :
    (front.take n ++ behind).take n = (front ++ behind).take n := by
  rcases Nat.le_total n front.length with hle | hle
  · rw [List.take_append_of_le_length (by simp [hle]), List.take_append_of_le_length hle,
      List.take_take, Nat.min_self]
  · rw [List.take_of_length_le hle]

/-- What is taken out in a history, and what is left behind it, are the first refusals of each stretch.
    The first stretch goes on from what is noted already. -/
theorem taken_of_run {d e : Delegating} {operations : List Operation} {taken : List (List Misuse)}
    (hlimit : d.misuses.length ≤ misuseLimit)
    (h : run onDelegating operations d = .ok (taken, e)) :
    taken ++ [e.misuses] = ((refusals operations).modifyHead (d.misuses ++ ·)).map
      (·.take misuseLimit) := by
  induction operations generalizing d taken with
  | nil =>
      cases h
      simp [refusals_nil, List.take_of_length_le hlimit]
  | cons operation operations ih =>
      obtain ⟨⟨first, next⟩, hstep, h⟩ := Except.exists_of_bind h
      obtain ⟨⟨later, last⟩, hlater, hpure⟩ := Except.exists_of_bind h
      cases hpure
      cases operation with
      | takeMisuses =>
          cases hstep
          have hrest := ih (Nat.zero_le _) hlater
          have hfirst : (d.misuses ++ []).take misuseLimit = d.misuses := by
            rw [List.append_nil, List.take_of_length_le hlimit]
          rw [refusals_takeMisuses, List.modifyHead_cons, List.map_cons, hfirst,
            ← refusals_behind_nothing]
          exact congrArg (d.misuses :: ·) hrest
      | call made =>
          obtain ⟨same, hmade, hsame⟩ := Except.map_eq_ok_iff.mp hstep
          cases hsame
          have hmisuses := Delegating.misuses_of_call hlimit hmade
          have hnext : next.misuses.length ≤ misuseLimit := by
            rw [hmisuses]
            exact List.length_take_le _ _
          have hrest := ih hnext hlater
          rw [refusals_call, List.modifyHead_modifyHead]
          refine hrest.trans ?_
          cases refusals operations with
          | nil => rfl
          | cons part parts =>
              simp only [List.modifyHead_cons, List.map_cons, Function.comp_apply, hmisuses,
                take_append_take, List.append_assoc]

end Operation

/-! ## The lexer of documents after the same history -/

/-- A lexer of documents and the layers on demand show the same and have noted the same. -/
structure Serves (reader : DocumentGrammar) (d : Delegating)
    (lexer : Lexer DocumentGrammar Snapshot Live) : Prop where
  modes : lexer.reader = reader
  tracks : Tracks (reader.grouping, reader.form, lexer.source, lexer.stop) d lexer.tape
  misuses : d.misuses = lexer.misuses
  limit : d.misuses.length ≤ misuseLimit

namespace Serves

variable {reader : DocumentGrammar} {d : Delegating}
  {lexer : Lexer DocumentGrammar Snapshot Live}

theorem idle (reader : DocumentGrammar) : Serves reader (.idle reader) (Lexer.idle reader) where
  modes := rfl
  tracks := .ended ⟨rfl, rfl, rfl, rfl⟩ rfl
  misuses := rfl
  limit := Nat.zero_le _

theorem setting_eq (h : Serves reader d lexer) : d.reader = reader ∧
    d.markup.original.source = lexer.source ∧ d.markup.original.stop = lexer.stop := by
  have hsetting : setting d = (reader.grouping, reader.form, lexer.source, lexer.stop) :=
    h.tracks.shows.setting
  simp only [setting, Prod.mk.injEq] at hsetting
  obtain ⟨hgrouping, hform, hsource, hstop⟩ := hsetting
  refine ⟨?_, hsource, hstop⟩
  rw [Delegating.reader, hgrouping, hform]

theorem both_call (h : Serves reader d lexer) (made : Call) :
    Both (Serves reader) (made.onDelegating d) (made.onLexer lexer) := by
  obtain ⟨hreader, hsource, hstop⟩ := h.setting_eq
  have hmisuses {e : Delegating} (he : made.onDelegating d = .ok e) :
      e.misuses = (d.misuses ++ made.refused?.toList).take misuseLimit ∧
        e.misuses.length ≤ misuseLimit := by
    have heq := Delegating.misuses_of_call h.limit he
    rw [heq]
    exact ⟨rfl, List.length_take_le _ _⟩
  cases made with
  | start source offset stop state =>
      have hboth := d.both_start source offset stop state
      rw [hreader, ← h.modes] at hboth
      refine hboth.attach.map_right ?_
      rintro e tape ⟨htracks, he, -⟩
      obtain ⟨hnoted, hlimit⟩ := hmisuses he
      refine ⟨h.modes, ?_, ?_, hlimit⟩
      · obtain rfl := h.modes
        rw [← hreader]
        exact htracks
      · rw [hnoted, h.misuses]
        rfl
  | advance =>
      obtain ⟨e, he, htracks⟩ := h.tracks.exists_advance
      have hkept : e.misuses = d.misuses := Delegating.misuses_of_advance he
      change Both _ (Pulling.advance d) _
      rw [he]
      exact .ok ⟨h.modes, htracks, hkept.trans h.misuses, hkept ▸ h.limit⟩
  | restore snapshot =>
      have hboth := d.both_restore snapshot
      rw [hreader, hsource, hstop, ← h.modes] at hboth
      refine hboth.attach.map_right ?_
      rintro e tape ⟨htracks, he, -⟩
      have hkept : e.misuses = d.misuses := Delegating.misuses_of_restore he
      refine ⟨h.modes, ?_, hkept.trans h.misuses, hkept ▸ h.limit⟩
      rwa [h.tracks.shows.setting] at htracks

theorem both_operation (h : Serves reader d lexer) (operation : Operation) :
    Both (fun a b => a.1 = b.1 ∧ Serves reader a.2 b.2) (operation.onDelegating d)
      (operation.onLexer lexer) := by
  cases operation with
  | call made => exact (h.both_call made).map fun _ _ hserves => ⟨rfl, hserves⟩
  | takeMisuses =>
      exact .ok ⟨congrArg ([·]) h.misuses, h.modes, Delegating.tracks_withMisuses [] h.tracks, rfl,
        Nat.zero_le _⟩

theorem both_run (h : Serves reader d lexer) (operations : List Operation) :
    Both (fun a b => a.1 = b.1 ∧ Serves reader a.2 b.2)
      (Operation.run Operation.onDelegating operations d)
      (Operation.run Operation.onLexer operations lexer) := by
  induction operations generalizing d lexer with
  | nil => exact .ok ⟨rfl, h⟩
  | cons operation operations ih =>
      refine (h.both_operation operation).bind ?_
      rintro ⟨taken, e⟩ ⟨same, begun⟩ ⟨rfl, hserves⟩
      refine (ih hserves).bind ?_
      rintro ⟨later, last⟩ ⟨same, behind⟩ ⟨rfl, hlast⟩
      exact .ok ⟨rfl, hlast⟩

end Serves

namespace Delegating

/-- A start between characters forgets everything but the misuses. All layers are afterwards as those of
    a lexer that was never used before and is started from the accepted state word, and so is all that
    they show from then on, which is what the lexer of documents reads. The misuses that were taken out on
    the way, and those that are left, are the first refusals of each stretch in order. -/
theorem start_forgets_history (reader : DocumentGrammar) (operations : List Operation)
    (taken : List (List Misuse)) (d : Delegating)
    (hrun : Operation.run Operation.onDelegating operations (idle reader) = .ok (taken, d))
    (source : String) (start stop : Nat) (state : UInt32) (hstart : Boundary source.toList start)
    (hstop : Boundary source.toList stop) :
    let accepted := if isRestartPoint state then state else State.initial.code
    taken ++ [d.misuses] = (Operation.refusals operations).map (·.take misuseLimit) ∧
    ∃ started lexer begun,
      d.start source start stop state = .ok started ∧
      (idle reader).start source start stop accepted = .ok (started.withMisuses []) ∧
      Operation.run Operation.onLexer operations (Lexer.idle reader) = .ok (taken, lexer) ∧
      lexer.start source start stop state = .ok begun ∧
      (Lexer.idle reader).start source start stop accepted = .ok { begun with misuses := [] } ∧
      Serves reader started begun ∧
      Serves reader (started.withMisuses []) { begun with misuses := [] } := by
  intro accepted
  refine ⟨?_, ?_⟩
  · have htaken := Operation.taken_of_run (Nat.zero_le _) hrun
    rw [← Operation.refusals_behind_nothing]
    exact htaken
  · have hboth := (Serves.idle reader).both_run operations
    rw [hrun] at hboth
    obtain ⟨⟨same, lexer⟩, hlexer, rfl, hserves⟩ := Both.ok_left_iff.mp hboth
    obtain ⟨hreader, -, -⟩ := hserves.setting_eq
    have hfails := (d.both_start source start stop state).error_iff.trans
      (d.reader.start_fails_iff source start stop state)
    have hcall := hserves.both_call (.start source start stop state)
    have hidle := start_idle_eq d source start stop state
    have hidleLexer := lexer.start_idle_eq source start stop state
    change Both _ (d.start source start stop state) (lexer.start source start stop state) at hcall
    cases hstarted : d.start source start stop state with
    | error error =>
        obtain ⟨-, hbad | ⟨hbad, -⟩⟩ := hfails.mp ⟨error, hstarted⟩
        · exact absurd hstop hbad
        · exact absurd hstart hbad
    | ok started =>
        rw [hstarted] at hcall hidle
        obtain ⟨begun, hbegun, hagain⟩ := Both.ok_left_iff.mp hcall
        rw [hbegun] at hidleLexer
        rw [hreader] at hidle
        rw [hserves.modes] at hidleLexer
        exact ⟨started, lexer, begun, rfl, hidle, hlexer, hbegun, hidleLexer, hagain,
          hagain.modes, tracks_withMisuses [] hagain.tracks, rfl, Nat.zero_le _⟩

/-- A refused start, and then a script that is left in the middle. -/
theorem start_forgets_history_in_script :
    let operations : List Operation := [.call (.start "x" 0 1 99), .takeMisuses,
      .call (.start "---\nlet a\n---<p>" 0 16 0), .call .advance, .call .advance]
    ∃ d started,
      Operation.run Operation.onDelegating operations (idle ⟨.runs, .document⟩) =
        .ok ([[.refusedState 99]], d) ∧
      d.start "é<p>" 0 5 0x2000000C = .ok started ∧
      (idle ⟨.runs, .document⟩).start "é<p>" 0 5 0 = .ok (started.withMisuses []) := by
  intro operations
  have hran : (Operation.run Operation.onDelegating operations
      (idle ⟨.runs, .document⟩)).toOption.map (·.1) = some [[.refusedState 99]] := by
    decide +kernel
  obtain ⟨⟨taken, d⟩, hrun, rfl⟩ := Except.exists_of_map_toOption hran
  have hstart : Boundary "é<p>".toList 0 := by decide
  have hstop : Boundary "é<p>".toList 5 := by decide
  obtain ⟨-, started, lexer, begun, hstarted, hfresh, -⟩ :=
    start_forgets_history ⟨.runs, .document⟩ operations _ d hrun "é<p>" 0 5 0x2000000C hstart hstop
  exact ⟨d, started, hrun, hstarted, hfresh⟩

end Delegating

end Relex
