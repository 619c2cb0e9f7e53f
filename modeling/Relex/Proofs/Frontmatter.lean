import Relex.Proofs.RestartPoint

/-! # The frontmatter of a document

A document has two kinds of places. Outside the frontmatter it shows what its markup shows, with a
snapshot of a listed context. Inside it shows a lexeme of the script, with the flag in the state word
and no snapshot. `Document.Shown` says which, and everything that a document shows is of one of the
two kinds (`DocumentGrammar.honest_of_resume`). The frontmatter token itself is never shown, because
it is not empty, and so neither is its script (`Document.expand_cases_of_lt`).
-/

namespace Relex

open Text Markup

theorem Kind.opensEmbedment_eq_true_iff (kind : Kind) :
    kind.opensEmbedment = true ↔ kind = .frontmatterScript := by
  cases kind <;> simp [Kind.opensEmbedment]

/-- No group is empty. -/
theorem Tape.Ascending.offset_lt_stop {π ι : Type} {tape : Tape π ι} (h : tape.Ascending)
    {grouping : Grouping} {s : Reading π ι} (hs : s ∈ (tape.group grouping).readings) :
    s.place.offset < s.stop := by
  obtain ⟨n, r, rs, hreadings, rfl⟩ := Tape.mem_readings_group hs
  have hrest : tape.drop n = ⟨r :: rs, tape.final⟩ := Tape.ext_readings hreadings rfl
  have hordered := h.drop n
  rw [hrest, Tape.ascending_cons_iff] at hordered
  exact hordered.1 _ ((Tape.offsets_drop_sublist _ _).subset (Tape.offset_place_mem _))

namespace Script

theorem readings_ne_nil (offset : Nat) (c : Char) (cs : List Char) : readings offset (c :: cs) ≠ [] := by
  rw [readings]
  exact List.cons_ne_nil _ _

theorem kind_of_mem_readings {offset : Nat} {cs : List Char} {lexeme : Reading Nat Unit}
    (h : lexeme ∈ readings offset cs) : ∃ kind, lexeme.kind = .script kind := by
  fun_induction readings offset cs with
  | case1 => cases h
  | case2 offset c cs front stop ih =>
      rcases List.mem_cons.mp h with rfl | hlater
      · exact ⟨front.kind, rfl⟩
      · exact ih hlater

/-- The script of a range that is not empty has lexemes. -/
theorem tape_of_lt {source : String} {start stop : Nat} {script : Tape Nat Unit} (hlt : start < stop)
    (h : tape source start stop = .ok script) :
    script.readings ≠ [] ∧ ∀ lexeme ∈ script.readings, ∃ kind, lexeme.kind = .script kind := by
  rw [tape, if_pos hlt] at h
  cases hregion : region source.toList start stop with
  | error error =>
      rw [hregion] at h
      cases h
  | ok text =>
      rw [hregion] at h
      cases h
      refine ⟨?_, fun lexeme => kind_of_mem_readings⟩
      cases text with
      | nil =>
          have hstop := (region_eq_ok_iff.mp hregion).stop_eq
          simp only [byteLength_nil, Nat.add_zero] at hstop
          omega
      | cons c cs => exact readings_ne_nil start c cs

end Script

namespace Document

/-- What stands in the document for a token of the markup that is not empty. -/
theorem expand_cases_of_lt {source : String} {r : Reading Snapshot Nesting}
    {part : List (Reading Snapshot Live)} (hlt : r.place.offset < r.stop)
    (h : expand source r = .ok part) :
    r.kind ≠ .frontmatterScript ∧ part = [⟨r.kind, r.stop, markupPlace r.place⟩] ∨
      r.kind = .frontmatterScript ∧ ∃ script,
        Script.tape source r.place.offset r.stop = .ok script ∧ part =
          script.readings.map (scriptReading r.place) := by
  cases hkind : r.kind.opensEmbedment with
  | false =>
      left
      simp only [expand, hkind] at h
      refine ⟨?_, (Except.ok.inj h).symm⟩
      intro hscript
      rw [hscript] at hkind
      cases hkind
  | true =>
      right
      refine ⟨(Kind.opensEmbedment_eq_true_iff r.kind).mp hkind, ?_⟩
      simp only [expand, hkind, if_true] at h
      obtain ⟨script, hscript, rfl⟩ := Except.map_eq_ok_iff.mp h
      refine ⟨script, hscript, ?_⟩
      simp only [List.isEmpty_iff, (Script.tape_of_lt hlt hscript).1, if_false]

/-- The two kinds of places of a document, with the kind of the token there. -/
inductive Shown : Option Kind → Place Snapshot Live → Prop
  | markup {kind? : Option Kind} {place : Place Snapshot Live} {context : Context}
      (hkind : kind? ≠ some .frontmatterScript) (hlisted : context.Listed)
      (hshows : place.Shows context) (houtside : place.live.inFrontmatter = false) :
      Shown kind? place
  | script {kind : ScriptKind} {place : Place Snapshot Live}
      (hstate : place.state = State.frontmatter.code ||| substateFlag)
      (hsnapshot : place.snapshot = .error (.noSnapshot place.offset))
      (hinside : place.live.inFrontmatter = true) : Shown (some (.script kind)) place

theorem Shown.snapshot_eq_ok {kind? : Option Kind} {place : Place Snapshot Live} {snapshot : Snapshot}
    (h : Shown kind? place) (hs : place.snapshot = .ok snapshot) :
    snapshot.context.Listed ∧ snapshot.offset = place.offset := by
  cases h with
  | markup hkind hlisted hshows houtside =>
      rw [hshows.snapshot] at hs
      cases hs
      exact ⟨hlisted, rfl⟩
  | script hstate hsnapshot hinside =>
      rw [hsnapshot] at hs
      cases hs

theorem shown_of_expand {source : String} {r : Reading Snapshot Nesting}
    {part : List (Reading Snapshot Live)} (hlt : r.place.offset < r.stop) {context : Context}
    (hlisted : context.Listed) (hshows : r.place.Shows context)
    (hscript : r.kind = .frontmatterScript ↔ context.state = .frontmatter)
    (h : expand source r = .ok part) : ∀ s ∈ part, Shown (some s.kind) s.place := by
  intro s hs
  rcases expand_cases_of_lt hlt h with ⟨hkind, rfl⟩ | ⟨hkind, script, htape, rfl⟩
  · rw [List.mem_singleton.mp hs]
    refine .markup ?_ hlisted ⟨hshows.state, hshows.snapshot⟩ rfl
    intro hsame
    exact hkind (Option.some.inj hsame)
  · obtain ⟨lexeme, hlexeme, rfl⟩ := List.mem_map.mp hs
    obtain ⟨kind, hlexemeKind⟩ := (Script.tape_of_lt hlt htape).2 lexeme hlexeme
    have hstate : r.place.state = State.frontmatter.code := by
      rw [hshows.state, hscript.mp hkind]
    simp only [scriptReading, hlexemeKind]
    refine .script ?_ rfl rfl
    simp only [hstate]

theorem mem_of_mapM_expand {source : String} {rs : List (Reading Snapshot Nesting)}
    {parts : List (List (Reading Snapshot Live))} (h : rs.mapM (expand source) = .ok parts)
    {part : List (Reading Snapshot Live)} (hpart : part ∈ parts) :
    ∃ r ∈ rs, expand source r = .ok part := by
  induction rs generalizing parts with
  | nil =>
      cases h
      cases hpart
  | cons r rs ih =>
      obtain ⟨first, later, hfirst, hlater, rfl⟩ := Except.exists_of_mapM_cons h
      rcases List.mem_cons.mp hpart with rfl | hpart
      · exact ⟨r, List.mem_cons_self, hfirst⟩
      · obtain ⟨s, hs, hexpand⟩ := ih hlater hpart
        exact ⟨s, List.mem_cons_of_mem r hs, hexpand⟩

/-- What a document shows stands for some token of its markup. -/
theorem mem_readings_ofMarkup {source : String} {markup : Tape Snapshot Nesting}
    {document : Tape Snapshot Live} (h : ofMarkup source markup = .ok document)
    {s : Reading Snapshot Live} (hs : s ∈ document.readings) :
    ∃ r ∈ markup.readings, ∃ part, expand source r = .ok part ∧ s ∈ part := by
  obtain ⟨parts, hparts, rfl⟩ := ofMarkup_eq_ok_iff.mp h
  obtain ⟨part, hpart, hs⟩ := List.mem_flatten.mp hs
  obtain ⟨r, hr, hexpand⟩ := mem_of_mapM_expand hparts hpart
  exact ⟨r, hr, part, hexpand, hs⟩

/-- The readings of a document, and the place at its end. -/
structure Honest (document : Tape Snapshot Live) : Prop where
  readings : ∀ s ∈ document.readings, Shown (some s.kind) s.place
  final : Shown none document.final

theorem Honest.place {document : Tape Snapshot Live} (h : Honest document) :
    Shown document.kind? document.place := by
  obtain ⟨readings, final⟩ := document
  cases readings with
  | nil => exact h.final
  | cons s rest => exact h.readings s List.mem_cons_self

theorem Honest.drop {document : Tape Snapshot Live} (h : Honest document) (n : Nat) :
    Honest (document.drop n) where
  readings s hs := h.readings s (List.mem_of_mem_drop hs)
  final := h.final

theorem honest_of_ofMarkup {source : String} {markup : Tape Snapshot Nesting}
    {document : Tape Snapshot Live} (hrestartable : Restartable markup)
    (hlt : ∀ r ∈ markup.readings, r.place.offset < r.stop)
    (h : ofMarkup source markup = .ok document) : Honest document := by
  constructor
  · intro s hs
    obtain ⟨r, hr, part, hexpand, hpart⟩ := mem_readings_ofMarkup h hs
    obtain ⟨context, hlisted, hshows, hscript⟩ := hrestartable.readings r hr
    exact shown_of_expand (hlt r hr) hlisted hshows hscript hexpand s hpart
  · obtain ⟨context, hlisted, hshows⟩ := hrestartable.final
    rw [DocumentGrammar.final_of_ofMarkup h]
    exact .markup nofun hlisted ⟨hshows.state, hshows.snapshot⟩ rfl

end Document

namespace DocumentGrammar

open Document

/-- Whatever is read from a listed context. -/
theorem honest_of_resume {reader : DocumentGrammar} {source : String} {stop : Nat}
    {snapshot : Snapshot} {document : Tape Snapshot Live} (hlisted : snapshot.context.Listed)
    (h : Reader.resume reader source stop snapshot = .ok document) : Honest document := by
  obtain ⟨markup, hmarkup, hdocument⟩ := exists_markup_of_resume h
  have hordered := ascending_of_tape hmarkup
  have hrestartable := (restartable_of_tape hlisted hmarkup).group hordered reader.grouping
  exact honest_of_ofMarkup hrestartable (fun r hr => hordered.offset_lt_stop hr) hdocument

end DocumentGrammar

end Relex
