import Relex.Proofs.Folds
import Relex.Proofs.Phases

/-! # Grouping a document again

A document is grouped as markup, before the script of its frontmatter is expanded. So the lexemes of
that script are never joined, and a document that is grouped once more can still change: neighbouring
templates in the frontmatter become one token. Nothing else does
(`DocumentGrammar.regrouping_joins_templates`). The groups of the markup join nothing more, and no group
is next to a lexeme of its own kind, because script between braces is not read in front of the
frontmatter (`Cursor.Arrived.scriptApart`).
-/

namespace Relex

open Text

/-- The kinds of lexemes of script. -/
def Kind.isScript : Kind → Bool
  | .script _ => true
  | _ => false

namespace Grouping

variable {grouping : Grouping} {a b : Kind}

theorem isScript_of_joins (h : grouping.joins a b = true) :
    a.isScript = b.isScript ∧ (a = .frontmatterScript ↔ b = .frontmatterScript) := by
  rcases joins_iff.mp h with ⟨rfl, -⟩ | ⟨-, ha, hb⟩
  · exact ⟨rfl, Iff.rfl⟩
  · cases a <;> cases b <;> simp_all [Kind.isValuePiece, Kind.isScript]

/-- Of script only templates join, and only with each other. -/
theorem joins_script_iff {kind : ScriptKind} : grouping.joins a (.script kind) = true ↔
    a = .script .templateString ∧ kind = .templateString := by
  rw [joins_iff]
  constructor
  · rintro (⟨rfl, hneighbours⟩ | ⟨-, -, hpiece⟩)
    · cases kind <;> simp_all [Kind.joinsNeighbours]
    · cases hpiece
  · rintro ⟨rfl, rfl⟩
    exact .inl ⟨rfl, rfl⟩

end Grouping

namespace Markup

/-- Neither of two neighbouring kinds is a lexeme next to the script of the frontmatter. -/
def ScriptApart (a b : Kind) : Prop :=
  (a.isScript = true → b ≠ .frontmatterScript) ∧ (a = .frontmatterScript → b.isScript = false)

theorem ScriptApart.congr {a a' b b' : Kind} (h : ScriptApart a b)
    (ha : a.isScript = a'.isScript ∧ (a = .frontmatterScript ↔ a' = .frontmatterScript))
    (hb : b.isScript = b'.isScript ∧ (b = .frontmatterScript ↔ b' = .frontmatterScript)) :
    ScriptApart a' b' := by
  refine ⟨?_, ?_⟩
  · intro hscript hkind
    exact h.1 (ha.1.trans hscript) (hb.2.mpr hkind)
  · intro hkind
    rw [← hb.1]
    exact h.2 (ha.2.mpr hkind)

/-- The first token of a text is read from the context in front of it. -/
theorem head_tapeOf {form : Form} {offset : Nat} {context : Context} {text : List Char}
    {s : Reading Snapshot Nesting} (h : s ∈ (tapeOf form offset context text).readings.head?) :
    ∃ c cs, text = c :: cs ∧ s.kind = (context.transition c cs).kind ∧
      s.place = placeAt offset context := by
  cases text with
  | nil =>
      rw [tapeOf] at h
      cases h
  | cons c cs =>
      rw [tapeOf] at h
      obtain rfl := Option.some.inj h
      exact ⟨c, cs, rfl, rfl, rfl⟩

/-- Lexemes are read between braces only. -/
theorem Context.state_eq_expression {context : Context} {c : Char} {cs : List Char}
    (h : (context.transition c cs).kind.isScript = true) : context.state = .expression := by
  have hreads := context.reads_kind c cs
  generalize (context.transition c cs).kind = kind at h hreads
  obtain ⟨state, nesting⟩ := context
  cases kind with
  | script kind => cases state <;> first | rfl | cases hreads
  | _ => cases h

theorem Cursor.Arrived.scriptApart {form : Form} {offset : Nat} {context : Context}
    {text : List Char} (h : (Cursor.mk offset context text).Arrived form) :
    (tapeOf form offset context text).readings.IsChain fun r s => ScriptApart r.kind s.kind := by
  fun_induction tapeOf form offset context text with
  | case1 offset context => exact List.isChain_nil
  | case2 offset context c cs transition behind ih =>
      refine List.isChain_cons.mpr ⟨?_, ih h.next⟩
      intro s hs
      obtain ⟨d, ds, -, hkind, -⟩ := head_tapeOf hs
      simp only [hkind]
      refine ⟨?_, ?_⟩
      · intro hscript hnext
        have hstate : context.state = .expression := Context.state_eq_expression hscript
        have hmarkup : context.Throughout State.InMarkup :=
          ⟨hstate ▸ trivial, h.closing.inMarkup⟩
        have hafter : (context.after form transition).state.InMarkup :=
          (hmarkup.after State.lasting_inMarkup c cs).state
        rw [(Context.kind_eq_script_iff _ d ds).mp hnext] at hafter
        exact hafter
      · intro hscript
        have hstate := (context.kind_eq_script_iff c cs).mp hscript
        have hnext : transition.next = .frontmatterClose := by
          simp only [transition, Context.transition, hstate]
          rfl
        have hclose : (context.after form transition).state = .frontmatterClose := by
          rw [Context.after, hnext]
          rfl
        have hreads := (context.after form transition).reads_kind d ds
        rw [hclose] at hreads
        generalize ((context.after form transition).transition d ds).kind = kind at hreads ⊢
        cases kind with
        | script kind => cases hreads
        | _ => rfl

end Markup

open Markup

namespace Group

variable {π ι : Type} {grouping : Grouping} {rs : List (Reading π ι)}

/-- Groups have the scripts apart that are apart without them. -/
theorem scriptApart_readings (grouping : Grouping) (final : Place π ι) (hapart : Apart rs)
    (h : rs.IsChain fun r s => ScriptApart r.kind s.kind) :
    (readings final (ofReadings grouping rs)).IsChain fun r s => ScriptApart r.kind s.kind := by
  refine (folds_readings grouping final hapart).isChain h ?_
  intro first more t hjoined _ hkind _
  have hpairs := pairwise_of_isChain hjoined
  obtain ⟨s, hs, hsame⟩ := exists_mem_kindOf first more
  -- All members of a run are alike, and the run has the kind of one of them.
  have halike : ∀ r ∈ first :: more, r.kind.isScript = t.kind.isScript ∧
      (r.kind = .frontmatterScript ↔ t.kind = .frontmatterScript) := by
    intro r hr
    rw [hkind, hsame]
    rcases eq_or_ne r s with rfl | hne
    · exact ⟨rfl, Iff.rfl⟩
    · have hsymm : Std.Symm fun r s : Reading π ι => grouping.joins r.kind s.kind = true :=
        ⟨fun _ _ => Grouping.joins_symm⟩
      exact Grouping.isScript_of_joins (hpairs.forall hr hs hne)
  refine ⟨?_, ?_⟩
  · intro last hlast s h
    exact h.congr (halike last (List.mem_of_getLast? hlast)) ⟨rfl, Iff.rfl⟩
  · intro s h
    exact h.congr ⟨rfl, Iff.rfl⟩ (halike first List.mem_cons_self)

end Group

/-! ## Neighbours in a document -/

namespace Document

/-- A template in the script of the frontmatter. -/
def IsTemplate (s : Reading Snapshot Live) : Prop :=
  s.kind = .script .templateString ∧ s.place.live.inFrontmatter = true

/-- A token that stands for itself, or a lexeme of the frontmatter. -/
inductive StandsFor (s : Reading Snapshot Live) (r : Reading Snapshot Nesting) : Prop
  | kept (hkind : r.kind ≠ .frontmatterScript) (hsame : s.kind = r.kind)
      (hplace : s.place = markupPlace r.place)
  | lexeme {kind : ScriptKind} (hkind : r.kind = .frontmatterScript) (hscript : s.kind = .script kind)
      (hinside : s.place.live.inFrontmatter = true)

variable {source : String} {grouping : Grouping} {r r' : Reading Snapshot Nesting}
  {rs : List (Reading Snapshot Nesting)} {final : Place Snapshot Nesting}
  {s t : Reading Snapshot Live} {part : List (Reading Snapshot Live)} {document : Tape Snapshot Live}

theorem standsFor_of_expand (hlt : r.place.offset < r.stop) (h : expand source r = .ok part) :
    ∀ s ∈ part, StandsFor s r := by
  intro s hs
  rcases expand_cases_of_lt hlt h with ⟨hkind, rfl⟩ | ⟨hkind, script, htape, rfl⟩
  · obtain rfl := List.mem_singleton.mp hs
    exact .kept hkind rfl rfl
  · obtain ⟨lexeme, hlexeme, rfl⟩ := List.mem_map.mp hs
    obtain ⟨kind, hlexemeKind⟩ := (Script.tape_of_lt hlt htape).2 lexeme hlexeme
    exact .lexeme hkind hlexemeKind rfl

theorem StandsFor.lexeme_of_script (h : StandsFor s r) (hkind : r.kind = .frontmatterScript) :
    ∃ kind, s.kind = .script kind ∧ s.place.live.inFrontmatter = true := by
  cases h with
  | kept hother hsame hplace => exact absurd hkind hother
  | lexeme _ hscript hinside => exact ⟨_, hscript, hinside⟩

theorem ne_nil_of_expand (hlt : r.place.offset < r.stop) (h : expand source r = .ok part) :
    part ≠ [] := by
  rcases expand_cases_of_lt hlt h with ⟨-, rfl⟩ | ⟨-, script, htape, rfl⟩
  · exact List.cons_ne_nil _ _
  · exact mt List.map_eq_nil_iff.mp (Script.tape_of_lt hlt htape).1

/-- A document begins with what stands for the first token of its markup. -/
theorem standsFor_head (hlt : ∀ r ∈ rs, r.place.offset < r.stop)
    (h : ofMarkup source ⟨rs, final⟩ = .ok document) (hs : s ∈ document.readings.head?) :
    ∃ r ∈ rs.head?, StandsFor s r := by
  cases rs with
  | nil =>
      cases h
      cases hs
  | cons r rs =>
      obtain ⟨part, later, hpart, -, rfl⟩ := ofMarkup_cons h
      have hfront := hlt r List.mem_cons_self
      refine ⟨r, rfl, standsFor_of_expand hfront hpart s ?_⟩
      cases part with
      | nil => exact absurd rfl (ne_nil_of_expand hfront hpart)
      | cons first more =>
          obtain rfl := Option.some.inj hs
          exact List.mem_cons_self

theorem isTemplate_iff {kind : ScriptKind} (hscript : s.kind = .script kind)
    (hinside : s.place.live.inFrontmatter = true) : IsTemplate s ↔ kind = .templateString := by
  rw [IsTemplate, hscript, and_iff_left hinside]
  exact ⟨fun h => Kind.script.inj h, congrArg Kind.script⟩

/-- Lexemes of the frontmatter join only if both are templates. -/
theorem joins_iff_of_lexemes {kind kind' : ScriptKind} (hs : s.kind = .script kind)
    (hinside : s.place.live.inFrontmatter = true) (ht : t.kind = .script kind')
    (hinside' : t.place.live.inFrontmatter = true) :
    grouping.joins s.kind t.kind = true ↔ IsTemplate s ∧ IsTemplate t := by
  rw [isTemplate_iff hs hinside, isTemplate_iff ht hinside', hs, ht, Grouping.joins_script_iff]
  exact and_congr_left fun _ => ⟨fun h => Kind.script.inj h, congrArg Kind.script⟩

/-- What stands for neighbours joins only if it is templates of the frontmatter. -/
theorem joins_iff_of_standsFor (hs : StandsFor s r) (ht : StandsFor t r')
    (hsettled : grouping.joins r.kind r'.kind = false) (hscripts : ScriptApart r.kind r'.kind) :
    grouping.joins s.kind t.kind = true ↔ IsTemplate s ∧ IsTemplate t := by
  cases hs with
  | kept hkind hsame hplace =>
      refine iff_of_false ?_ fun h => ?_
      · cases ht with
        | kept hkind' hsame' hplace' => rw [hsame, hsame', hsettled]; exact Bool.false_ne_true
        | lexeme hkind' hscript' hinside' =>
            rw [hsame, hscript', Grouping.joins_script_iff]
            exact fun h => hscripts.1 (h.1 ▸ rfl) hkind'
      · have hinside := h.1.2
        rw [hplace] at hinside
        cases hinside
  | lexeme hkind hscript hinside =>
      cases ht with
      | lexeme hkind' hscript' hinside' => exact joins_iff_of_lexemes hscript hinside hscript' hinside'
      | kept hkind' hsame' hplace' =>
          refine iff_of_false ?_ fun h => ?_
          · rw [hsame', hscript, Grouping.joins_comm, Grouping.joins_script_iff]
            intro h
            have hnone := hscripts.2 hkind
            rw [h.1] at hnone
            cases hnone
          · have hinside := h.2.2
            rw [hplace'] at hinside
            cases hinside

/-- What is said of neighbours in the markup, of what stands for neighbours, and of lexemes of the
    frontmatter holds of neighbours in the document. -/
theorem isChain_of_ofMarkup {Next : Reading Snapshot Nesting → Reading Snapshot Nesting → Prop}
    {Next' : Reading Snapshot Live → Reading Snapshot Live → Prop}
    (hlt : ∀ r ∈ rs, r.place.offset < r.stop) (hnext : rs.IsChain Next)
    (hstands : ∀ r r' s t, Next r r' → StandsFor s r → StandsFor t r' → Next' s t)
    (hlexemes : ∀ r s t, r.kind = .frontmatterScript → StandsFor s r → StandsFor t r → Next' s t)
    (h : ofMarkup source ⟨rs, final⟩ = .ok document) : document.readings.IsChain Next' := by
  induction rs generalizing document with
  | nil =>
      cases h
      exact List.isChain_nil
  | cons r rs ih =>
      obtain ⟨part, later, hpart, hlater, rfl⟩ := ofMarkup_cons h
      obtain ⟨hfront, hbehind⟩ := List.forall_mem_cons.mp hlt
      obtain ⟨hfirst, hnext⟩ := List.isChain_cons.mp hnext
      have hpartStands := standsFor_of_expand hfront hpart
      refine List.IsChain.append ?_ (ih hbehind hnext hlater) ?_
      · rcases expand_cases_of_lt hfront hpart with ⟨-, rfl⟩ | ⟨hkind, -⟩
        · exact List.isChain_singleton _
        · rw [List.isChain_iff_forall_rel_of_append_cons_cons]
          rintro s t before after hsplit
          exact hlexemes r s t hkind (hpartStands s (by simp [hsplit])) (hpartStands t (by simp [hsplit]))
      · intro last hlast t ht
        obtain ⟨r', hr', hstands'⟩ := standsFor_head hbehind hlater ht
        exact hstands r r' last t (hfirst r' hr') (hpartStands last (List.mem_of_getLast? hlast)) hstands'

/-- In a document of groups only templates of the frontmatter join. -/
theorem isChain_joins_iff (hlt : ∀ r ∈ rs, r.place.offset < r.stop)
    (hsettled : Group.Settled grouping rs) (hscripts : rs.IsChain fun r s => ScriptApart r.kind s.kind)
    (h : ofMarkup source ⟨rs, final⟩ = .ok document) :
    document.readings.IsChain fun s t =>
      grouping.joins s.kind t.kind = true ↔ IsTemplate s ∧ IsTemplate t := by
  have hboth : rs.IsChain fun r s =>
      grouping.joins r.kind s.kind = false ∧ ScriptApart r.kind s.kind := by
    rw [Group.Settled] at hsettled
    rw [List.isChain_iff_forall_rel_of_append_cons_cons] at hsettled hscripts ⊢
    exact fun r s before after hsplit => ⟨hsettled hsplit, hscripts hsplit⟩
  refine isChain_of_ofMarkup hlt hboth ?_ ?_ h
  · intro r r' s t hnext hs ht
    exact joins_iff_of_standsFor hs ht hnext.1 hnext.2
  · intro r s t hkind hs ht
    obtain ⟨_, hscript, hinside⟩ := hs.lexeme_of_script hkind
    obtain ⟨_, hscript', hinside'⟩ := ht.lexeme_of_script hkind
    exact joins_iff_of_lexemes hscript hinside hscript' hinside'

end Document

namespace DocumentGrammar

open Document Relex.Group

/-- Grouping a document again makes one token of neighbouring templates in the frontmatter, and leaves
    everything else. -/
theorem regrouping_joins_templates (lexer : Lexer DocumentGrammar Snapshot Live) (source : String) :
    let grouped : Lexer (Grouped DocumentGrammar) Snapshot Live :=
      Lexer.idle ⟨lexer.reader.grouping, lexer.reader⟩
    ∃ started again, lexer.start source 0 source.utf8ByteSize 0 = .ok started ∧
      grouped.start source 0 source.utf8ByteSize 0 = .ok again ∧
      again.tape.final = started.tape.final ∧
      Folds (fun s t => IsTemplate s ∧ IsTemplate t) started.tape.final started.tape.readings
        again.tape.readings ∧
      (again.tape.tokens = started.tape.tokens ↔
        started.tape.readings.IsChain fun s t => ¬(IsTemplate s ∧ IsTemplate t)) := by
  intro grouped
  let form := lexer.reader.form
  let markup := tapeOf form 0 (contextOf form 0) source.toList
  have hspans := spans_whole source
  obtain ⟨started, hstarted, hdocument⟩ := exists_started lexer hspans
  have hregrouped : Reader.start grouped.reader source 0 source.utf8ByteSize 0 =
      .ok (started.tape.group lexer.reader.grouping) :=
    congrArg (Except.map (Tape.group lexer.reader.grouping)) (Lexer.read_of_start hstarted)
  obtain ⟨again, hagain, htape, -⟩ := Lexer.start_of_read hregrouped
  have hmarkup : Covers source.toList markup.final.offset 0 markup.tokens := covers_whole source form _
  have hordered : markup.Ascending := Tape.ascending_of_covers hmarkup
  -- In the document only templates join, so the groups are the folds of templates.
  have hneighbours := isChain_joins_iff (fun r hr => hordered.offset_lt_stop hr)
    (settled_of_apart lexer.reader.grouping markup.final hordered.apart)
    (scriptApart_readings lexer.reader.grouping markup.final hordered.apart
      (Cursor.Arrived.start form 0 source.toList).scriptApart) hdocument
  obtain ⟨document, hcovered, -, hcovers⟩ := covers_ofMarkup_group hmarkup lexer.reader.grouping
  obtain rfl : started.tape = document := Except.ok.inj (hdocument.symm.trans hcovered)
  have hapart := (Tape.ascending_of_covers hcovers).apart
  have hfolds : Folds (fun s t => IsTemplate s ∧ IsTemplate t) started.tape.final
      started.tape.readings (started.tape.group lexer.reader.grouping).readings :=
    (folds_readings lexer.reader.grouping started.tape.final hapart).congr hneighbours
  refine ⟨started, again, hstarted, hagain, ?_, ?_, ?_⟩
  · rw [htape]
    rfl
  · rw [htape]
    exact hfolds
  · rw [htape]
    exact hfolds.tokens_eq_iff hcovers

/-- Two templates without anything in them, side by side in the frontmatter. -/
theorem neighbouring_templates_join_again :
    let reader : DocumentGrammar := ⟨.runs, .document⟩
    let source := "---\n\x60\x60\x60\x60\n---"
    ∃ started again,
      (Lexer.idle reader).start source 0 source.utf8ByteSize 0 = .ok started ∧
      (Lexer.idle (Grouped.mk reader.grouping reader)).start source 0 source.utf8ByteSize 0 =
        .ok again ∧
      started.tape.tokens = [⟨.frontmatterSeparator, 0, 3⟩, ⟨.script .whiteSpace, 3, 4⟩,
        ⟨.script .templateString, 4, 6⟩, ⟨.script .templateString, 6, 8⟩,
        ⟨.script .whiteSpace, 8, 9⟩, ⟨.frontmatterSeparator, 9, 12⟩] ∧
      again.tape.tokens = [⟨.frontmatterSeparator, 0, 3⟩, ⟨.script .whiteSpace, 3, 4⟩,
        ⟨.script .templateString, 4, 8⟩, ⟨.script .whiteSpace, 8, 9⟩,
        ⟨.frontmatterSeparator, 9, 12⟩] := by
  intro reader source
  have hrun : ((Lexer.idle reader).start source 0 source.utf8ByteSize 0).toOption.map
      (·.tape.tokens) = some [⟨.frontmatterSeparator, 0, 3⟩, ⟨.script .whiteSpace, 3, 4⟩,
        ⟨.script .templateString, 4, 6⟩, ⟨.script .templateString, 6, 8⟩,
        ⟨.script .whiteSpace, 8, 9⟩, ⟨.frontmatterSeparator, 9, 12⟩] := by
    decide +kernel
  have hagain : ((Lexer.idle (Grouped.mk reader.grouping reader)).start source 0
      source.utf8ByteSize 0).toOption.map (·.tape.tokens) =
      some [⟨.frontmatterSeparator, 0, 3⟩, ⟨.script .whiteSpace, 3, 4⟩,
        ⟨.script .templateString, 4, 8⟩, ⟨.script .whiteSpace, 8, 9⟩,
        ⟨.frontmatterSeparator, 9, 12⟩] := by
    decide +kernel
  obtain ⟨started, hstarted, htokens⟩ := Except.exists_of_map_toOption hrun
  obtain ⟨again, hagain, hjoined⟩ := Except.exists_of_map_toOption hagain
  exact ⟨started, again, hstarted, hagain, htokens, hjoined⟩

end DocumentGrammar

end Relex
