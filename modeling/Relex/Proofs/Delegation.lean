import Relex.Proofs.Scanning

/-! # Documents on demand

A document is read on demand in three layers. A scanner finds the tokens of the markup, they are
grouped, and in front of the frontmatter token a scanner of script takes over until it has run dry.
`Delegating` has all three, with what each of them keeps between two calls. Wherever it is put, it
fails as the lexer of documents does, or it shows the tape that the lexer reads
(`Delegating.both_start`, `Delegating.both_restore`).
-/

namespace Relex

open Text Markup Document Pulling

/-- A lexer of documents on demand. -/
structure Delegating where
  markup : Merging Markup.Scanner Snapshot
  /-- The scanner whose turn it is inside the frontmatter. -/
  script? : Option Script.Scanner
  /-- The misuses since they were last taken out. -/
  misuses : List Misuse

namespace Delegating

/-- A lexer before its first start. -/
def idle (reader : DocumentGrammar) : Delegating where
  markup := .idle reader.grouping (.idle reader.form)
  script? := none
  misuses := []

/-- The modes of the layers. -/
def reader (d : Delegating) : DocumentGrammar where
  grouping := d.markup.grouping
  form := d.markup.original.form

/-- In front of the frontmatter token it is the turn of a scanner of script, if that finds any. -/
def enter (d : Delegating) : Except RangeError Delegating :=
  if kind? d.markup = some .frontmatterScript then do
    let script ← Script.Scanner.idle.start d.markup.original.source (place d.markup).offset
      (stop d.markup)
    return if (kind? script).isSome then { d with script? := some script } else d
  else
    .ok d

/-- Notes a refused state word, unless too many are noted already. -/
def note (d : Delegating) (state : UInt32) : Delegating :=
  if isRestartPoint state then d
  else if d.misuses.length < misuseLimit then
    { d with misuses := d.misuses ++ [.refusedState state] }
  else d

/-- Takes up the markup where its scanner has been put. -/
def takeUp (d : Delegating) (original : Markup.Scanner) : Except RangeError Delegating := do
  let markup ← Merging.locate { d.markup with original := original }
  enter { d with markup := markup, script? := none }

def start (d : Delegating) (source : String) (start stop : Nat) (state : UInt32) :
    Except RangeError Delegating := do
  let accepted := if isRestartPoint state then state else State.initial.code
  let original ← d.markup.original.start source start stop accepted
  (d.note state).takeUp original

/-- Moves on in the markup. -/
def leave (d : Delegating) : Except RangeError Delegating := do
  let markup ← Pulling.advance d.markup
  enter { d with markup := markup, script? := none }

/-- The markup moves on once the script has run dry. -/
def advance (d : Delegating) : Except RangeError Delegating :=
  match d.script? with
  | none => d.leave
  | some script => do
    let script ← Pulling.advance script
    if (kind? script).isSome then return { d with script? := some script } else d.leave

def restore (d : Delegating) (snapshot : Snapshot) : Except RangeError Delegating := do
  let original ← d.markup.original.restore snapshot
  d.takeUp original

/-- Takes out the noted misuses. -/
def takeMisuses (d : Delegating) : List Misuse × Delegating :=
  (d.misuses, { d with misuses := [] })

/-- What is shown at a place of the script, while the markup waits at the frontmatter token: the state
    word has the flag, and snapshots are refused. -/
def scriptPlace (waiting : Place Snapshot Nesting) (lexeme : Place Nat Unit) :
    Place Snapshot Live where
  offset := lexeme.offset
  state := waiting.state ||| substateFlag
  snapshot := .error (.noSnapshot lexeme.offset)
  live := ⟨waiting.live, true⟩

instance : Pulling Delegating (Grouping × Form × String × Nat) Snapshot Live where
  setting d := setting d.markup
  kind? d :=
    match d.script? with
    | some script => kind? script
    | none => kind? d.markup
  stop d :=
    match d.script? with
    | some script => stop script
    | none => stop d.markup
  place d :=
    match d.script? with
    | some script => scriptPlace (place d.markup) (place script)
    | none => markupPlace (place d.markup)
  advance := advance

/-! ## The tape of the document -/

variable {d entered : Delegating} {scope : Grouping × Form × String × Nat}
  {m next : Merging Markup.Scanner Snapshot} {misuses : List Misuse} {r : Reading Snapshot Nesting}
  {rs : List (Reading Snapshot Nesting)} {final : Place Snapshot Nesting}
  {later : Tape Snapshot Live}

/-- While no script has a turn, a token of the markup is shown as it is. -/
theorem tracks_unchanged (hmarkup : Tracks scope m ⟨r :: rs, final⟩)
    (hleave : leave ⟨m, none, misuses⟩ = .ok entered) (hlater : Tracks scope entered later) :
    Tracks scope (⟨m, none, misuses⟩ : Delegating)
      ⟨[⟨r.kind, r.stop, markupPlace r.place⟩] ++ later.readings, later.final⟩ := by
  have hshows := hmarkup.shows
  refine .cons ⟨hshows.setting, hshows.kind?, hshows.stop, ?_⟩ hleave hlater
  exact congrArg markupPlace hshows.place

/-- While the script has its turn, its lexemes are shown, and behind the last of them the markup goes
    on. -/
theorem tracks_script {script : Script.Scanner} {range : String × Nat}
    {lexemes : List (Reading Nat Unit)} {behind : Place Nat Unit} {place : Place Snapshot Nesting}
    (hplace : Pulling.place m = place) (hsetting : setting m = scope) (hne : lexemes ≠ [])
    (hscript : Tracks range script ⟨lexemes, behind⟩)
    (hleave : leave ⟨m, none, misuses⟩ = .ok entered) (hlater : Tracks scope entered later) :
    Tracks scope (⟨m, some script, misuses⟩ : Delegating)
      ⟨lexemes.map (scriptReading place) ++ later.readings, later.final⟩ := by
  induction lexemes generalizing script with
  | nil => exact absurd rfl hne
  | cons lexeme lexemes ih =>
      have hshows := hscript.shows
      obtain ⟨following, hnext, hrest⟩ := hscript.exists_advance
      have hkind : kind? following = (Tape.mk lexemes behind).kind? := hrest.shows.kind?
      have hthere : Shows scope (⟨m, some script, misuses⟩ : Delegating)
          ⟨(lexeme :: lexemes).map (scriptReading place) ++ later.readings, later.final⟩ :=
        ⟨hsetting, hshows.kind?, hshows.stop, congrArg₂ scriptPlace hplace hshows.place⟩
      cases lexemes with
      | nil =>
          refine .cons hthere ?_ hlater
          change advance _ = _
          simp only [advance, hnext, bind, Except.bind, hkind]
          exact hleave
      | cons second lexemes =>
          refine .cons hthere ?_ (ih (List.cons_ne_nil _ _) hrest)
          change advance _ = _
          simp only [advance, hnext, bind, Except.bind, hkind]
          rfl

theorem enter_of_ne (hkind : kind? m ≠ some .frontmatterScript) (misuses : List Misuse) :
    enter ⟨m, none, misuses⟩ = .ok ⟨m, none, misuses⟩ :=
  if_neg hkind

/-- At the end of the markup the document ends. -/
theorem tracks_ended (hmarkup : Tracks scope m (.ended final)) (misuses : List Misuse) :
    Tracks scope (⟨m, none, misuses⟩ : Delegating) (.ended (markupPlace final)) := by
  obtain ⟨hshows, hstays⟩ : Shows scope m (.ended final) ∧ Pulling.advance m = .ok m := by
    cases hmarkup with
    | ended hshows hstays => exact ⟨hshows, hstays⟩
  have hkind : kind? m ≠ some .frontmatterScript := by
    rw [hshows.kind?]
    exact nofun
  have hleave : leave ⟨m, none, misuses⟩ = .ok ⟨m, none, misuses⟩ := by
    simp only [leave, hstays]
    exact enter_of_ne hkind misuses
  refine .ended ⟨hshows.setting, hshows.kind?, hshows.stop, ?_⟩ hleave
  exact congrArg markupPlace hshows.place

/-- In front of the frontmatter token the script is started, and it has its turn unless it is empty. -/
theorem exists_enter_script {lexemes : List (Reading Nat Unit)} {behind : Place Nat Unit}
    (hshows : Shows scope m ⟨r :: rs, final⟩) (hkind : r.kind = .frontmatterScript)
    (htape : Script.tape scope.2.2.1 r.place.offset r.stop = .ok ⟨lexemes, behind⟩)
    (misuses : List Misuse) :
    ∃ script, Tracks (scope.2.2.1, r.stop) script (⟨lexemes, behind⟩ : Tape Nat Unit) ∧
      enter ⟨m, none, misuses⟩ =
        .ok ⟨m, if lexemes.isEmpty then none else some script, misuses⟩ := by
  have hboth := Script.Scanner.idle.both_start scope.2.2.1 r.place.offset r.stop
  rw [htape] at hboth
  obtain ⟨script, hstart, hscript⟩ := Both.ok_right_iff.mp hboth
  have hsource : m.original.source = scope.2.2.1 :=
    congrArg (fun scope => scope.2.2.1) hshows.setting
  have hfrontmatter : kind? m = some .frontmatterScript := hshows.kind?.trans (congrArg some hkind)
  have hplace : place m = r.place := hshows.place
  have hstop : stop m = r.stop := hshows.stop
  have hlexeme : kind? script = (Tape.mk lexemes behind).kind? := hscript.shows.kind?
  refine ⟨script, hscript, ?_⟩
  simp only [enter, if_pos hfrontmatter, hsource, hplace, hstop, hstart, bind, Except.bind, hlexeme]
  cases lexemes <;> rfl

/-- Whoever has the next turn, what is shown is the document for the markup. -/
theorem exists_enter {markup : Tape Snapshot Nesting} {document : Tape Snapshot Live}
    (hmarkup : Tracks scope m markup) (hdocument : ofMarkup scope.2.2.1 markup = .ok document)
    (misuses : List Misuse) : ∃ entered, enter ⟨m, none, misuses⟩ = .ok entered ∧
      Tracks scope entered document := by
  obtain ⟨readings, final⟩ := markup
  induction readings generalizing m document with
  | nil =>
      obtain rfl : Tape.ended (markupPlace final) = document := Except.ok.inj hdocument
      have hkind : kind? m = none := hmarkup.shows.kind?
      exact ⟨_, enter_of_ne (by simp [hkind]) misuses, tracks_ended hmarkup misuses⟩
  | cons r rs ih =>
      obtain ⟨part, later, hpart, hlater, rfl⟩ := ofMarkup_cons hdocument
      obtain ⟨next, hnext, hrest⟩ := hmarkup.exists_advance
      obtain ⟨behind, hbehind, htracks⟩ := ih hrest hlater
      have hshows := hmarkup.shows
      have hleave : leave ⟨m, none, misuses⟩ = .ok behind := by
        simp only [leave, hnext]
        exact hbehind
      cases hopens : r.kind.opensEmbedment with
      | false =>
          have hkind : kind? m = some r.kind := hshows.kind?
          have hother : kind? m ≠ some .frontmatterScript := by
            intro hsame
            rw [Option.some.inj (hkind.symm.trans hsame)] at hopens
            cases hopens
          simp only [expand, hopens] at hpart
          cases hpart
          exact ⟨_, enter_of_ne hother misuses, tracks_unchanged hmarkup hleave htracks⟩
      | true =>
          have hkind := (Kind.opensEmbedment_eq_true_iff r.kind).mp hopens
          simp only [expand, hopens, if_true] at hpart
          obtain ⟨⟨lexemes, last⟩, htape, rfl⟩ := Except.map_eq_ok_iff.mp hpart
          obtain ⟨script, hscript, henter⟩ := exists_enter_script hshows hkind htape misuses
          cases lexemes with
          | nil => exact ⟨_, henter, tracks_unchanged hmarkup hleave htracks⟩
          | cons lexeme lexemes =>
              exact ⟨_, henter, tracks_script hshows.place hshows.setting (List.cons_ne_nil _ _)
                hscript hleave htracks⟩

theorem markup_note (d : Delegating) (state : UInt32) : (d.note state).markup = d.markup := by
  unfold note
  split
  · rfl
  · split <;> rfl

theorem both_takeUp (d : Delegating) {form : Form} {source : String} {stop : Nat}
    {snapshot : Snapshot} {located : Except RangeError Markup.Scanner}
    (h : Both (Tracks (form, source, stop)) located (Markup.tape form source stop snapshot)) :
    Both (Tracks (d.markup.grouping, form, source, stop)) (located >>= d.takeUp)
      (Reader.resume (DocumentGrammar.mk d.markup.grouping form) source stop snapshot) := by
  rw [DocumentGrammar.resume_eq_bind]
  cases hmarkup : Markup.tape form source stop snapshot with
  | error error =>
      rw [hmarkup] at h
      cases h
      exact .error error
  | ok markup =>
      rw [hmarkup] at h
      obtain ⟨original, rfl, horiginal⟩ := Both.ok_right_iff.mp h
      obtain ⟨document, hdocument⟩ := Markup.exists_ofMarkup hmarkup d.markup.grouping
      let merging : Merging Markup.Scanner Snapshot := { d.markup with original := original }
      obtain ⟨located, hlocate, hgroups⟩ := merging.exists_locate horiginal
      obtain ⟨entered, henter, htracks⟩ := exists_enter hgroups hdocument d.misuses
      have htakeUp : d.takeUp original = .ok entered := by
        rw [takeUp, hlocate]
        exact henter
      simp only [bind, Except.bind, Except.map, htakeUp, hdocument]
      exact .ok htracks

/-- Put on any region, whatever was done before, the layers fail as the lexer of documents does, or they
    show what it reads. -/
theorem both_start (d : Delegating) (source : String) (start stop : Nat) (state : UInt32) :
    Both (Tracks (d.markup.grouping, d.markup.original.form, source, stop))
      (d.start source start stop state) (Reader.start d.reader source start stop state) := by
  let accepted := if isRestartPoint state then state else State.initial.code
  have htakeUp := (d.note state).both_takeUp
    (d.markup.original.both_start source start stop accepted)
  rw [markup_note] at htakeUp
  exact htakeUp

theorem both_restore (d : Delegating) (snapshot : Snapshot) :
    Both (Tracks (setting d)) (d.restore snapshot)
      (Reader.resume d.reader d.markup.original.source d.markup.original.stop snapshot) :=
  d.both_takeUp (d.markup.original.both_restore snapshot)

end Delegating

end Relex
