import Relex.Proofs.Resumption

/-! # Tokens in order

Whatever a grammar of texts reads, each token begins further on than the one before it, and all of
them begin before the place where the tape ends. In an `Ascending` tape no two tokens begin at one
offset, so grouping is simple there: a group has the kind of its first member, unless both are pieces
of an attribute value (`Group.kind_front`), and it begins behind the beginning of the group before it
(`Tape.Ascending.group`).
-/

namespace Relex

open Text

namespace Tape

variable {π ι : Type} {tape : Tape π ι} {r : Reading π ι} {rs : List (Reading π ι)}
  {final : Place π ι}

/-- Where the tokens begin, and where the tape ends. -/
def offsets (tape : Tape π ι) : List Nat :=
  tape.readings.map (·.place.offset) ++ [tape.final.offset]

/-- Each token begins behind the beginning of the one before it. -/
def Ascending (tape : Tape π ι) : Prop :=
  tape.offsets.Pairwise (· < ·)

theorem ascending_ended (final : Place π ι) : (Tape.ended final).Ascending :=
  List.pairwise_singleton _ _

theorem ascending_cons_iff : (Tape.mk (r :: rs) final).Ascending ↔
    (∀ offset ∈ (Tape.mk rs final).offsets, r.place.offset < offset) ∧
      (Tape.mk rs final).Ascending := by
  simp only [Ascending, offsets, List.map_cons, List.cons_append, List.pairwise_cons]

theorem mem_offsets_of_mem {s : Reading π ι} (h : s ∈ rs) :
    s.place.offset ∈ (Tape.mk rs final).offsets :=
  List.mem_append_left _ (List.mem_map_of_mem h)

theorem offset_place_mem (tape : Tape π ι) : tape.place.offset ∈ tape.offsets := by
  obtain ⟨readings, final⟩ := tape
  cases readings with
  | nil => exact List.mem_singleton_self _
  | cons r rs => exact List.mem_cons_self

theorem offsets_drop_sublist (n : Nat) (tape : Tape π ι) :
    (tape.drop n).offsets.Sublist tape.offsets := by
  simp only [offsets, readings_drop, final_drop, List.map_drop]
  exact (List.drop_sublist n _).append_right _

theorem Ascending.drop (h : tape.Ascending) (n : Nat) : (tape.drop n).Ascending :=
  h.sublist (offsets_drop_sublist n tape)

theorem le_offsets_of_covers {text : List Char} {start : Nat}
    (h : Covers text tape.final.offset start tape.tokens) :
    ∀ offset ∈ tape.offsets, start ≤ offset := by
  obtain ⟨readings, final⟩ := tape
  intro offset hoffset
  induction readings generalizing start with
  | nil =>
      cases h
      exact Nat.le_of_eq (List.mem_singleton.mp hoffset).symm
  | cons r rs ih =>
      cases h with
      | cons hstart hlt _ _ hrest =>
          rcases List.mem_cons.mp hoffset with rfl | hlater
          · exact Nat.le_of_eq hstart.symm
          · have hle := ih hrest hlater
            omega

/-- Tokens that cover a text are in order. -/
theorem ascending_of_covers {text : List Char} {start : Nat}
    (h : Covers text tape.final.offset start tape.tokens) : tape.Ascending := by
  obtain ⟨readings, final⟩ := tape
  induction readings generalizing start with
  | nil => exact ascending_ended final
  | cons r rs ih =>
      cases h with
      | cons _ hlt _ _ hrest =>
          let later : Tape π ι := ⟨rs, final⟩
          have hlater : Covers text later.final.offset r.stop later.tokens := hrest
          refine ascending_cons_iff.mpr ⟨?_, ih hrest⟩
          intro offset hoffset
          have hle : r.stop ≤ offset := le_offsets_of_covers hlater offset hoffset
          exact Nat.lt_of_lt_of_le hlt hle

/-! ## Groups -/

/-- The first group, in front of the groups of the rest. -/
theorem group_cons (grouping : Grouping) (r : Reading π ι) (rs : List (Reading π ι))
    (final : Place π ι) :
    (Tape.mk (r :: rs) final).group grouping =
      (((Tape.mk rs final).drop (Group.front grouping r rs).more.length).group grouping).cons
        ((Group.front grouping r rs).reading
          ((Tape.mk rs final).drop (Group.front grouping r rs).more.length).place) := by
  apply ext_readings
  · simp only [group, Group.ofReadings, Group.readings, Group.startPlace_ofReadings, readings_cons,
      readings_drop, final_drop]
    rfl
  · rfl

/-- Every token of a grouped tape is the first group of what is left of the tape somewhere. -/
theorem mem_readings_group {grouping : Grouping} {s : Reading π ι}
    (h : s ∈ (tape.group grouping).readings) :
    ∃ n r rs, (tape.drop n).readings = r :: rs ∧
      s = (Group.front grouping r rs).reading
        ((Tape.mk rs tape.final).drop (Group.front grouping r rs).more.length).place := by
  obtain ⟨m, hm, hs⟩ := List.getElem_of_mem h
  obtain ⟨n, hn⟩ := tape.drop_group grouping m
  have hhead : ((tape.drop n).group grouping).readings.head? = some s := by
    rw [← hn, readings_drop, List.head?_drop, List.getElem?_eq_getElem hm, hs]
  cases hrest : (tape.drop n).readings with
  | nil =>
      rw [group, hrest, Group.ofReadings] at hhead
      cases hhead
  | cons r rs =>
      have htape : tape.drop n = ⟨r :: rs, tape.final⟩ := ext_readings hrest rfl
      rw [htape, group_cons] at hhead
      exact ⟨n, r, rs, hrest, (Option.some.inj hhead).symm⟩

end Tape

namespace Group

variable {π ι : Type} {r : Reading π ι} {rs : List (Reading π ι)}

/-- A single token is a group of its own. -/
theorem front_nil (grouping : Grouping) (r : Reading π ι) : front grouping r [] = ⟨r.kind, r, []⟩ := by
  simp [front]

/-- Where no other token begins at the same offset, a group has the kind of its first member, unless
    value text joins a reference. -/
theorem kind_front (grouping : Grouping) (h : ∀ s ∈ rs, s.place.offset ≠ r.place.offset) :
    (front grouping r rs).kind = r.kind ∨
      r.kind.isValuePiece = true ∧ (front grouping r rs).kind = .attributeValue := by
  have hstart : rs.takeWhile (fun s => s.place.offset == r.place.offset) = [] := by
    cases rs with
    | nil => rfl
    | cons s rs =>
        have hs : (s.place.offset == r.place.offset) = false := beq_false_of_ne (h s List.mem_cons_self)
        simp only [List.takeWhile_cons, hs, Bool.false_eq_true, if_false]
  simp only [front, hstart, List.getLast?_nil, Option.getD_none]
  by_cases hpieces : grouping = .values ∧ r.kind.isValuePiece = true
  · rw [if_pos hpieces]
    generalize List.any _ _ = withText
    cases withText with
    | true => exact .inr ⟨hpieces.2, rfl⟩
    | false => exact .inl rfl
  · rw [if_neg hpieces]
    exact .inl rfl

end Group

namespace Tape

variable {π ι : Type} {tape : Tape π ι}

theorem offsets_group_sublist (grouping : Grouping) (tape : Tape π ι) :
    (tape.group grouping).offsets.Sublist tape.offsets := by
  obtain ⟨readings, final⟩ := tape
  induction hlength : readings.length using Nat.strongRecOn generalizing readings with
  | ind n ih =>
      cases readings with
      | nil =>
          rw [group, Group.ofReadings]
          exact .refl _
      | cons r rs =>
          rw [group_cons]
          let rest := (Tape.mk rs final).drop (Group.front grouping r rs).more.length
          have hshort : rest.readings.length < n := by
            simp only [rest, readings_drop, List.length_drop, ← hlength, List.length_cons]
            omega
          have hrest : (rest.group grouping).offsets.Sublist rest.offsets := ih _ hshort _ rfl
          exact (hrest.trans (offsets_drop_sublist _ _)).cons_cons _

theorem Ascending.group (h : tape.Ascending) (grouping : Grouping) :
    (tape.group grouping).Ascending :=
  h.sublist (offsets_group_sublist grouping tape)

end Tape

/-! ## The grammars of texts -/

namespace Markup

/-- A text of markup is covered, wherever reading starts. Raw text of no element may begin inside a
    character, but then it is a single token. -/
theorem covers_of_tape {form : Form} {source : String} {stop : Nat} {snapshot : Snapshot}
    {tape : Tape Snapshot Nesting} (h : Markup.tape form source stop snapshot = .ok tape) :
    Covers source.toList tape.final.offset snapshot.offset tape.tokens ∨
      tape = rawTextTape snapshot stop ∧ snapshot.offset < stop := by
  rw [Markup.tape] at h
  split at h
  · rename_i hlt
    split at h
    · rename_i text hregion
      cases h
      obtain ⟨hfinal, hcovers⟩ := covers_markup form snapshot.context (region_eq_ok_iff.mp hregion)
      exact .inl (hfinal.symm ▸ hcovers)
    · split at h
      · cases h
        exact .inr ⟨rfl, hlt⟩
      · cases h
    · cases h
  · cases h
    exact .inl .nil

theorem group_rawTextTape (grouping : Grouping) (snapshot : Snapshot) (stop : Nat) :
    (rawTextTape snapshot stop).group grouping = rawTextTape snapshot stop := by
  rw [rawTextTape, Tape.cons, Tape.ended, Tape.group_cons, Group.front_nil, Tape.group]
  simp only [List.length_nil, Tape.drop_zero, Group.ofReadings]
  rfl

theorem ascending_of_tape {form : Form} {source : String} {stop : Nat} {snapshot : Snapshot}
    {tape : Tape Snapshot Nesting} (h : Markup.tape form source stop snapshot = .ok tape) :
    tape.Ascending := by
  rcases covers_of_tape h with hcovers | ⟨rfl, hlt⟩
  · exact Tape.ascending_of_covers hcovers
  · refine Tape.ascending_cons_iff.mpr ⟨?_, Tape.ascending_ended _⟩
    intro offset hoffset
    rw [List.mem_singleton.mp hoffset]
    exact hlt

end Markup

namespace DocumentGrammar

open Markup Document

theorem exists_markup_of_resume {reader : DocumentGrammar} {source : String} {stop : Nat}
    {snapshot : Snapshot} {document : Tape Snapshot Live}
    (h : Reader.resume reader source stop snapshot = .ok document) :
    ∃ markup, Markup.tape reader.form source stop snapshot = .ok markup ∧
      ofMarkup source (markup.group reader.grouping) = .ok document := by
  rw [resume_eq_bind] at h
  cases hmarkup : Markup.tape reader.form source stop snapshot with
  | error error =>
      rw [hmarkup] at h
      cases h
  | ok markup =>
      rw [hmarkup] at h
      exact ⟨markup, rfl, h⟩

theorem final_of_ofMarkup {source : String} {markup : Tape Snapshot Nesting}
    {document : Tape Snapshot Live} (h : ofMarkup source markup = .ok document) :
    document.final = markupPlace markup.final := by
  obtain ⟨parts, -, rfl⟩ := ofMarkup_eq_ok_iff.mp h
  rfl

/-- So the tokens of a document are in order. -/
theorem ascending_of_resume {reader : DocumentGrammar} {source : String} {stop : Nat}
    {snapshot : Snapshot} {document : Tape Snapshot Live}
    (h : Reader.resume reader source stop snapshot = .ok document) : document.Ascending := by
  obtain ⟨markup, hmarkup, hdocument⟩ := exists_markup_of_resume h
  rcases covers_of_tape hmarkup with hcovers | ⟨rfl, hlt⟩
  · obtain ⟨covered, hcovered, -, htokens⟩ := covers_ofMarkup_group hcovers reader.grouping
    rw [hdocument] at hcovered
    cases hcovered
    exact Tape.ascending_of_covers htokens
  · rw [group_rawTextTape] at hdocument
    cases hdocument
    refine Tape.ascending_cons_iff.mpr ⟨?_, Tape.ascending_ended _⟩
    intro offset hoffset
    rw [List.mem_singleton.mp hoffset]
    exact hlt

end DocumentGrammar

end Relex
