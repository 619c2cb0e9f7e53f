import Relex.Proofs.Frontmatter

/-! # The snapshot of a group

A grouped lexer runs ahead of the token that it shows, so it cannot ask the lexer below for the
snapshot of the first member any more. It keeps that snapshot. Where the lexer below has one at every
place, this is the answer at every token (`Beneath.snapshot_eq`). Where it refused one, the
grouped lexer asks again, but the lexer below then stands behind the group, and in a document it
answers for another place: it names an offset further on, or it has a snapshot there, from which
reading goes on without the rest of the script (`Layer.snapshot_of_group`).
-/

namespace Relex

open Text Markup

/-! ## Places -/

/-- A property of all places that a tape shows. -/
structure Tape.Everywhere {π ι : Type} (P : Place π ι → Prop) (tape : Tape π ι) : Prop where
  readings : ∀ r ∈ tape.readings, P r.place
  final : P tape.final

namespace Tape.Everywhere

variable {π ι : Type} {P : Place π ι → Prop} {tape : Tape π ι}

theorem ended {final : Place π ι} (h : P final) : (Tape.ended final).Everywhere P :=
  ⟨List.forall_mem_nil _, h⟩

theorem cons {r : Reading π ι} (hr : P r.place) (h : tape.Everywhere P) :
    (tape.cons r).Everywhere P :=
  ⟨List.forall_mem_cons.mpr ⟨hr, h.readings⟩, h.final⟩

theorem place (h : tape.Everywhere P) : P tape.place := by
  obtain ⟨readings, final⟩ := tape
  cases readings with
  | nil => exact h.final
  | cons r rs => exact h.readings r List.mem_cons_self

theorem drop (h : tape.Everywhere P) (n : Nat) : (tape.drop n).Everywhere P :=
  ⟨fun r hr => h.readings r (List.mem_of_mem_drop hr), h.final⟩

end Tape.Everywhere

/-- There is a snapshot of the place. -/
def Place.Granted {π ι : Type} (place : Place π ι) : Prop :=
  ∃ snapshot, place.snapshot = .ok snapshot

namespace Tape

variable {π ι : Type} {tape : Tape π ι}

/-- What a group answers about a snapshot: its first member, if that has one, and otherwise the place
    behind its last member. -/
theorem snapshot_group_eq (grouping : Grouping) (h : tape.readings ≠ []) :
    (tape.group grouping).place.snapshot =
      match tape.place.snapshot with
      | .ok snapshot => .ok snapshot
      | .error _ => (tape.drop (tape.joined grouping)).place.snapshot := by
  obtain ⟨readings, final⟩ := tape
  cases readings with
  | nil => exact absurd rfl h
  | cons r rs =>
      rw [group_cons]
      rfl

theorem readings_ne_nil_of_group {grouping : Grouping}
    (h : (tape.group grouping).kind?.isSome = true) : tape.readings ≠ [] := by
  intro hnil
  rw [kind?, group, hnil, Group.ofReadings] at h
  cases h

/-- Behind the first group the tape goes on further on. -/
theorem Ascending.offset_lt_behind (h : tape.Ascending) (hne : tape.readings ≠ [])
    (grouping : Grouping) :
    tape.place.offset < (tape.drop (tape.joined grouping)).place.offset := by
  obtain ⟨readings, final⟩ := tape
  cases readings with
  | nil => exact absurd rfl hne
  | cons r rs =>
      apply (ascending_cons_iff.mp h).1
      exact (offsets_drop_sublist (Group.front grouping r rs).more.length ⟨rs, final⟩).subset
        (offset_place_mem _)

theorem Everywhere.snapshot_group (h : tape.Everywhere Place.Granted) (grouping : Grouping) :
    (tape.group grouping).place.snapshot = tape.place.snapshot := by
  obtain ⟨snapshot, hsnapshot⟩ := h.place
  rw [hsnapshot]
  exact tape.snapshot_group grouping hsnapshot

theorem Everywhere.granted_group (h : tape.Everywhere Place.Granted) (grouping : Grouping) :
    (tape.group grouping).Everywhere Place.Granted := by
  refine ⟨?_, h.final⟩
  intro s hs
  obtain ⟨n, r, rs, hreadings, rfl⟩ := mem_readings_group hs
  have hr : r ∈ tape.readings := by
    apply List.mem_of_mem_drop (i := n)
    rw [← readings_drop, hreadings]
    exact List.mem_cons_self
  obtain ⟨snapshot, hsnapshot⟩ := h.readings r hr
  refine ⟨snapshot, ?_⟩
  have hfirst : (Group.front grouping r rs).first.place.snapshot = .ok snapshot := hsnapshot
  simp only [Group.reading, hfirst]

end Tape

/-! ## A grouped lexer and the lexer below -/

section Beneath

variable {ρ π ι : Type} [Reader ρ π ι]

/-- A grouped lexer, and the lexer below where it stands at the first of the tokens that are joined in
    the current one. The one can be started and restored where the other can (`Underlies.exists_start`,
    `Underlies.exists_restore`). -/
inductive Beneath : Lexer (Grouped ρ) π ι → Lexer ρ π ι → Prop
  | idle (reader : Grouped ρ) : Beneath (Lexer.idle reader) (Lexer.idle reader.inner)
  | start {merged started : Lexer (Grouped ρ) π ι} {below begun : Lexer ρ π ι} {source : String}
      {start stop : Nat} {state : UInt32} : Beneath merged below →
      merged.start source start stop state = .ok started →
      below.start source start stop state = .ok begun → Beneath started begun
  | advance {merged : Lexer (Grouped ρ) π ι} {below : Lexer ρ π ι} : Beneath merged below →
      Beneath merged.advance
        (Session.advanceTimes (below.tape.joined merged.reader.grouping) below)
  | restore {merged restored : Lexer (Grouped ρ) π ι} {below back : Lexer ρ π ι} {snapshot : π} :
      Beneath merged below → merged.restore snapshot = .ok restored →
      below.restore snapshot = .ok back → Beneath restored back

/-- A property of all tapes that a reader reads, and of what is left of them. -/
structure Reader.Always (ρ : Type) {π ι : Type} [Reader ρ π ι] (P : Tape π ι → Prop) : Prop where
  idle : ∀ reader : ρ, P (Reader.idle reader)
  start : ∀ (reader : ρ) (source : String) (start stop : Nat) (state : UInt32) (tape : Tape π ι),
    Reader.start reader source start stop state = .ok tape → P tape
  resume : ∀ (reader : ρ) (source : String) (stop : Nat) (snapshot : π) (tape : Tape π ι),
    Reader.resume reader source stop snapshot = .ok tape → P tape
  drop : ∀ (tape : Tape π ι) (n : Nat), P tape → P (tape.drop n)

/-- What two such lexers have in common. -/
structure Underlies (merged : Lexer (Grouped ρ) π ι) (below : Lexer ρ π ι) : Prop where
  reader : merged.reader.inner = below.reader
  source : merged.source = below.source
  stop : merged.stop = below.stop
  tape : merged.tape = below.tape.group merged.reader.grouping

variable {merged : Lexer (Grouped ρ) π ι} {below : Lexer ρ π ι} {P : Tape π ι → Prop}

/-- Before any start there is no token to be joined. -/
theorem Grouped.idle_eq {reader : Grouped ρ} {place : Place π ι}
    (hidle : (Reader.idle reader.inner : Tape π ι) = .ended place) (hoffset : place.offset = 0)
    (hstate : place.state = 0) : (Reader.idle reader : Tape π ι) =
      (Reader.idle reader.inner : Tape π ι).group reader.grouping := by
  obtain ⟨offset, state, snapshot, live⟩ := place
  subst hoffset hstate
  rw [hidle]
  simp only [Reader.idle, hidle, Tape.group, Tape.ended, Group.ofReadings]
  rfl

theorem Beneath.underlies
    (hidle : ∀ reader : Grouped ρ, (Reader.idle reader : Tape π ι) =
      (Reader.idle reader.inner : Tape π ι).group reader.grouping)
    (h : Beneath merged below) : Underlies merged below := by
  induction h with
  | idle reader => exact ⟨rfl, rfl, rfl, hidle reader⟩
  | start hbeneath hstarted hbegun ih =>
      have hread := Lexer.read_of_start hstarted
      obtain ⟨hreader, hsource, hstop⟩ := Lexer.fields_of_start hstarted
      obtain ⟨hreader', hsource', hstop'⟩ := Lexer.fields_of_start hbegun
      refine ⟨?_, hsource.trans hsource'.symm, hstop.trans hstop'.symm, ?_⟩
      · rw [hreader, hreader', ih.reader]
      · simp only [Reader.start, ih.reader, Lexer.read_of_start hbegun, Except.map,
          Except.ok.injEq] at hread
        rw [← hread, hreader]
  | advance hbeneath ih =>
      rw [Lexer.advanceTimes_eq]
      refine ⟨ih.reader, ih.source, ih.stop, ?_⟩
      simp only [Lexer.advance, ih.tape, Tape.advance_group]
  | restore hbeneath hrestored hback ih =>
      obtain ⟨hread, hrestored⟩ := Lexer.read_of_restore hrestored
      obtain ⟨hreadBelow, hback⟩ := Lexer.read_of_restore hback
      rw [hrestored, hback]
      refine ⟨ih.reader, ih.source, ih.stop, ?_⟩
      simp only [Reader.resume, ih.reader, ih.source, ih.stop, hreadBelow, Except.map,
        Except.ok.injEq] at hread
      exact hread.symm

/-- What the grouped lexer can be started on, the lexer below can be started on as well. -/
theorem Underlies.exists_start {started : Lexer (Grouped ρ) π ι} {source : String} {start stop : Nat}
    {state : UInt32} (h : Underlies merged below)
    (hstarted : merged.start source start stop state = .ok started) :
    ∃ begun, below.start source start stop state = .ok begun := by
  obtain ⟨tape, hbelow, -⟩ := Except.map_eq_ok_iff.mp (Lexer.read_of_start hstarted)
  rw [h.reader] at hbelow
  obtain ⟨begun, hbegun, -⟩ := Lexer.start_of_read hbelow
  exact ⟨begun, hbegun⟩

theorem Underlies.exists_restore {restored : Lexer (Grouped ρ) π ι} {snapshot : π}
    (h : Underlies merged below) (hrestored : merged.restore snapshot = .ok restored) :
    ∃ back, below.restore snapshot = .ok back := by
  obtain ⟨tape, hbelow, -⟩ := Except.map_eq_ok_iff.mp (Lexer.read_of_restore hrestored).1
  rw [h.reader, h.source, h.stop] at hbelow
  obtain ⟨back, hback, -⟩ := Lexer.restore_of_read hbelow
  exact ⟨back, hback⟩

theorem Beneath.always (halways : Reader.Always ρ P) (h : Beneath merged below) : P below.tape := by
  induction h with
  | idle reader => exact halways.idle reader.inner
  | start hbeneath hstarted hbegun ih => exact halways.start _ _ _ _ _ _ (Lexer.read_of_start hbegun)
  | advance hbeneath ih =>
      rw [Lexer.tape_advanceTimes]
      exact halways.drop _ _ ih
  | restore hbeneath hrestored hback ih =>
      exact halways.resume _ _ _ _ _ (Lexer.read_of_restore hback).1

theorem Beneath.snapshot_eq
    (hidle : ∀ reader : Grouped ρ, (Reader.idle reader : Tape π ι) =
      (Reader.idle reader.inner : Tape π ι).group reader.grouping)
    (halways : Reader.Always ρ (Tape.Everywhere Place.Granted : Tape π ι → Prop))
    (h : Beneath merged below) : merged.snapshot = below.snapshot := by
  have hgranted : below.tape.Everywhere Place.Granted := h.always halways
  rw [Lexer.snapshot, (h.underlies hidle).tape, hgranted.snapshot_group]
  rfl

end Beneath

/-! ## Grammars that have a snapshot at every place -/

theorem Markup.granted_of_tape {form : Form} {source : String} {stop : Nat} {snapshot : Snapshot}
    {tape : Tape Snapshot Nesting} (h : Markup.tape form source stop snapshot = .ok tape) :
    tape.Everywhere Place.Granted := by
  have hplace : ∀ offset context, (placeAt offset context).Granted := fun _ _ => ⟨_, rfl⟩
  have htext : ∀ offset context cs, (tapeOf form offset context cs).Everywhere Place.Granted := by
    intro offset context cs
    fun_induction tapeOf form offset context cs with
    | case1 offset context => exact .ended (hplace _ _)
    | case2 offset context c cs transition behind ih => exact ih.cons (hplace _ _)
  rw [Markup.tape] at h
  split at h
  · split at h
    · cases h
      exact htext _ _ _
    · split at h
      · cases h
        exact .cons (hplace _ _) (.ended (hplace _ _))
      · cases h
    · cases h
  · cases h
    exact .ended (hplace _ _)

theorem Script.granted_of_tape {source : String} {start stop : Nat} {tape : Tape Nat Unit}
    (h : Script.tape source start stop = .ok tape) : tape.Everywhere Place.Granted := by
  have hplace : ∀ offset, (Script.placeAt offset).Granted := fun _ => ⟨_, rfl⟩
  have htext : ∀ offset cs, ∀ lexeme ∈ Script.readings offset cs, lexeme.place.Granted := by
    intro offset cs
    fun_induction Script.readings offset cs with
    | case1 => exact List.forall_mem_nil _
    | case2 offset c cs front stop ih => exact List.forall_mem_cons.mpr ⟨hplace _, ih⟩
  rw [Script.tape] at h
  split at h
  · cases hregion : region source.toList start stop with
    | error error =>
        rw [hregion] at h
        cases h
    | ok text =>
        rw [hregion] at h
        cases h
        exact ⟨htext _ _, hplace _⟩
  · cases h
    exact .ended (hplace _)

theorem MarkupGrammar.always_granted : Reader.Always MarkupGrammar
    (Tape.Everywhere Place.Granted : Tape Snapshot Nesting → Prop) where
  idle _ := .ended ⟨_, rfl⟩
  start _ _ _ _ _ _ h := granted_of_tape h
  resume _ _ _ _ _ h := granted_of_tape h
  drop _ n h := h.drop n

theorem ScriptGrammar.always_granted : Reader.Always ScriptGrammar
    (Tape.Everywhere Place.Granted : Tape Nat Unit → Prop) where
  idle _ := .ended ⟨_, rfl⟩
  start _ _ _ _ _ _ h := Script.granted_of_tape h
  resume _ _ _ _ _ h := Script.granted_of_tape h
  drop _ n h := h.drop n

/-- Grouping keeps the snapshots. -/
theorem Grouped.always_granted {ρ π ι : Type} [Reader ρ π ι]
    (h : Reader.Always ρ (Tape.Everywhere Place.Granted : Tape π ι → Prop)) :
    Reader.Always (Grouped ρ) (Tape.Everywhere Place.Granted : Tape π ι → Prop) where
  idle reader := .ended (h.idle reader.inner).place
  start reader source start stop state tape hread := by
    obtain ⟨inner, hinner, rfl⟩ := Except.map_eq_ok_iff.mp hread
    exact (h.start _ _ _ _ _ _ hinner).granted_group reader.grouping
  resume reader source stop snapshot tape hread := by
    obtain ⟨inner, hinner, rfl⟩ := Except.map_eq_ok_iff.mp hread
    exact (h.resume _ _ _ _ _ hinner).granted_group reader.grouping
  drop _ n h := h.drop n

/-! ## Documents -/

namespace Document

/-- The place has a snapshot outside the frontmatter, and refuses one inside, naming itself. -/
inductive Answers (place : Place Snapshot Live) : Prop
  | granted (h : place.Granted) (houtside : place.live.inFrontmatter = false)
  | refused (h : place.snapshot = .error (.noSnapshot place.offset))
      (hinside : place.live.inFrontmatter = true)

theorem answers_markupPlace {place : Place Snapshot Nesting} (h : place.Granted) :
    Answers (markupPlace place) :=
  .granted h rfl

theorem answers_of_ofMarkup {source : String} {markup : Tape Snapshot Nesting}
    {document : Tape Snapshot Live} (hgranted : markup.Everywhere Place.Granted)
    (h : ofMarkup source markup = .ok document) : document.Everywhere Answers := by
  constructor
  · intro s hs
    obtain ⟨r, hr, part, hexpand, hpart⟩ := mem_readings_ofMarkup h hs
    rcases expand_cases hexpand with rfl | ⟨-, script, -, rfl⟩
    · rw [List.mem_singleton.mp hpart]
      exact answers_markupPlace (hgranted.readings r hr)
    · obtain ⟨lexeme, -, rfl⟩ := List.mem_map.mp hpart
      exact .refused rfl rfl
  · rw [DocumentGrammar.final_of_ofMarkup h]
    exact answers_markupPlace hgranted.final

end Document

namespace DocumentGrammar

open Document

theorem answers_of_resume {reader : DocumentGrammar} {source : String} {stop : Nat}
    {snapshot : Snapshot} {document : Tape Snapshot Live}
    (h : Reader.resume reader source stop snapshot = .ok document) :
    document.Ascending ∧ document.Everywhere Answers := by
  obtain ⟨markup, hmarkup, hdocument⟩ := exists_markup_of_resume h
  have hgranted := (granted_of_tape hmarkup).granted_group reader.grouping
  exact ⟨ascending_of_resume h, answers_of_ofMarkup hgranted hdocument⟩

theorem always_answers : Reader.Always DocumentGrammar
    (fun tape : Tape Snapshot Live => tape.Ascending ∧ tape.Everywhere Answers) where
  idle reader := ⟨Tape.ascending_ended _, .ended (answers_markupPlace ⟨_, rfl⟩)⟩
  start reader source start stop state tape h := by
    rw [start_eq_resume] at h
    exact answers_of_resume h
  resume _ _ _ _ _ h := answers_of_resume h
  drop _ n h := ⟨h.1.drop n, h.2.drop n⟩

theorem underlies_of_beneath {merged : Lexer (Grouped DocumentGrammar) Snapshot Live}
    {below : Lexer DocumentGrammar Snapshot Live} (h : Beneath merged below) :
    Underlies merged below :=
  h.underlies fun _ => Grouped.idle_eq rfl rfl rfl

/-- In the frontmatter a grouped document answers for a place behind the group. -/
theorem snapshot_eq_iff {merged : Lexer (Grouped DocumentGrammar) Snapshot Live}
    {below : Lexer DocumentGrammar Snapshot Live} (h : Beneath merged below)
    (htoken : merged.tape.kind?.isSome = true) :
    let behind := Session.advanceTimes (below.tape.joined merged.reader.grouping) below
    (merged.snapshot = below.snapshot ↔ below.tape.place.live.inFrontmatter = false) ∧
      (below.tape.place.live.inFrontmatter = true → merged.snapshot = behind.snapshot ∧
        below.tape.place.offset < behind.tape.place.offset) := by
  have htape := (underlies_of_beneath h).tape
  obtain ⟨hordered, hanswers⟩ := h.always always_answers
  rw [htape] at htoken
  have hne := Tape.readings_ne_nil_of_group htoken
  have hlt := hordered.offset_lt_behind hne merged.reader.grouping
  have hgroup := Tape.snapshot_group_eq merged.reader.grouping hne
  have hbehind := (hanswers.drop (below.tape.joined merged.reader.grouping)).place
  simp only [Lexer.snapshot, Lexer.tape_advanceTimes]
  rw [htape]
  cases hanswers.place with
  | granted hgranted houtside =>
      obtain ⟨snapshot, hsnapshot⟩ := hgranted
      rw [hsnapshot] at hgroup ⊢
      simp [hgroup, houtside]
  | refused hrefused hinside =>
      rw [hrefused] at hgroup ⊢
      have hother : (below.tape.drop (below.tape.joined merged.reader.grouping)).place.snapshot ≠
          .error (.noSnapshot below.tape.place.offset) := by
        cases hbehind with
        | granted hgranted houtside =>
            obtain ⟨snapshot, hsnapshot⟩ := hgranted
            rw [hsnapshot]
            intro hsame
            cases hsame
        | refused hrefused hinside =>
            rw [hrefused]
            intro hsame
            simp only [Except.error.injEq, Misuse.noSnapshot.injEq] at hsame
            omega
      refine ⟨iff_of_false ?_ ?_, fun _ => ⟨hgroup, hlt⟩⟩
      · rw [hgroup]
        exact hother
      · rw [hinside]
        exact Bool.noConfusion

end DocumentGrammar

/-! ## All lexers that are grouped -/

/-- The lexers over which a grouped lexer stands. -/
inductive Layer where
  | markup
  | script
  | groupedMarkup
  | document

namespace Layer

open Document

def Grammar : Layer → Type
  | markup => MarkupGrammar
  | script => ScriptGrammar
  | groupedMarkup => Grouped MarkupGrammar
  | document => DocumentGrammar

/-- The snapshots of a lexer. -/
def Point : Layer → Type
  | script => Nat
  | _ => Snapshot

/-- What a lexer shows of itself at a place. -/
def Shows : Layer → Type
  | markup => Nesting
  | script => Unit
  | groupedMarkup => Nesting
  | document => Live

instance reader : (layer : Layer) → Reader layer.Grammar layer.Point layer.Shows
  | markup => inferInstanceAs (Reader MarkupGrammar Snapshot Nesting)
  | script => inferInstanceAs (Reader ScriptGrammar Nat Unit)
  | groupedMarkup => inferInstanceAs (Reader (Grouped MarkupGrammar) Snapshot Nesting)
  | document => inferInstanceAs (Reader DocumentGrammar Snapshot Live)

/-- The lexers of a layer. -/
abbrev Lexers (layer : Layer) : Type := Lexer layer.Grammar layer.Point layer.Shows

/-- The lexers grouped over a layer. -/
abbrev GroupedLexers (layer : Layer) : Type :=
  Lexer (Grouped layer.Grammar) layer.Point layer.Shows

/-- Where a lexer has no snapshot: in the frontmatter of a document. -/
def refuses : (layer : Layer) → layer.Lexers → Bool
  | document, below => below.tape.place.live.inFrontmatter
  | _, _ => false

/-- A grouped lexer has the snapshot of the first member of the current group, whatever was done with
    it, wherever the lexer below does not refuse it. Where that does, the grouped lexer answers for
    the place behind the group, and this is never the same answer. -/
theorem snapshot_of_group (layer : Layer) (merged : layer.GroupedLexers) (below : layer.Lexers)
    (h : Beneath merged below) (htoken : merged.tape.kind?.isSome = true) :
    let behind := Session.advanceTimes (below.tape.joined merged.reader.grouping) below
    (merged.snapshot = below.snapshot ↔ layer.refuses below = false) ∧
      (layer.refuses below = true → merged.snapshot = behind.snapshot ∧
        below.tape.place.offset < behind.tape.place.offset) := by
  cases layer with
  | markup =>
      have hsame : merged.snapshot = below.snapshot :=
        h.snapshot_eq (fun _ => Grouped.idle_eq rfl rfl rfl) MarkupGrammar.always_granted
      exact ⟨iff_of_true hsame rfl, nofun⟩
  | script =>
      have hsame : merged.snapshot = below.snapshot :=
        h.snapshot_eq (fun _ => Grouped.idle_eq rfl rfl rfl) ScriptGrammar.always_granted
      exact ⟨iff_of_true hsame rfl, nofun⟩
  | groupedMarkup =>
      have hsame : merged.snapshot = below.snapshot :=
        h.snapshot_eq (fun _ => Grouped.idle_eq rfl rfl rfl)
          (Grouped.always_granted MarkupGrammar.always_granted)
      exact ⟨iff_of_true hsame rfl, nofun⟩
  | document => exact DocumentGrammar.snapshot_eq_iff h htoken

theorem snapshot_of_group_in_script :
    ∃ (merged : Lexer (Grouped DocumentGrammar) Snapshot Live)
      (below : Lexer DocumentGrammar Snapshot Live), Beneath merged below ∧
        merged.tape.kind? = some (.script .whiteSpace) ∧ merged.snapshot ≠ below.snapshot := by
  let reader : Grouped DocumentGrammar := ⟨.runs, ⟨.runs, .document⟩⟩
  let idle : Lexer (Grouped DocumentGrammar) Snapshot Live := Lexer.idle reader
  have hrun : ((idle.start "---\nx\n---" 0 9 0).toOption.any fun started =>
      decide (started.advance.tape.kind? = some (.script .whiteSpace))) = true := by
    decide +kernel
  have hbelow : ((Lexer.idle reader.inner).start "---\nx\n---" 0 9 0).toOption.any (fun begun =>
      (Session.advanceTimes (begun.tape.joined .runs) begun).tape.place.live.inFrontmatter) = true := by
    decide +kernel
  cases hstarted : idle.start "---\nx\n---" 0 9 0 with
  | error error => simp [Except.toOption, hstarted] at hrun
  | ok started =>
      cases hbegun : (Lexer.idle reader.inner).start "---\nx\n---" 0 9 0 with
      | error error => simp [Except.toOption, hbegun] at hbelow
      | ok begun =>
          have hnext : Beneath started.advance
              (Session.advanceTimes (begun.tape.joined .runs) begun) := by
            have hgrouping : started.reader.grouping = .runs := by
              rw [(Lexer.fields_of_start hstarted).1]
              rfl
            rw [← hgrouping]
            exact .advance (.start (.idle reader) hstarted hbegun)
          have hkind : started.advance.tape.kind? = some (.script .whiteSpace) := by
            simpa [Except.toOption, hstarted] using hrun
          have htoken : started.advance.tape.kind?.isSome = true := by
            rw [hkind]
            rfl
          refine ⟨_, _, hnext, hkind, ?_⟩
          intro hsame
          have houtside : (Session.advanceTimes (begun.tape.joined .runs)
              begun).tape.place.live.inFrontmatter = false :=
            (snapshot_of_group .document _ _ hnext htoken).1.mp hsame
          simp [Except.toOption, hbegun, houtside] at hbelow

/-- The first lexeme of a script, behind which the grouped lexer has already read one more. -/
theorem snapshot_of_first_lexeme :
    ((Lexer.idle (⟨.runs, ⟨.runs, .document⟩⟩ : Grouped DocumentGrammar)).start
      "---\nx\n---" 0 9 0).toOption.map (·.advance.snapshot) = some (.error (.noSnapshot 4)) ∧
    ((Lexer.idle (⟨.runs, .document⟩ : DocumentGrammar)).start
      "---\nx\n---" 0 9 0).toOption.map (·.advance.snapshot) = some (.error (.noSnapshot 3)) := by
  decide +kernel

end Layer

end Relex
