import Relex.Proofs.MaximalRuns

/-! # Reading further on in a source

What is read from a context depends on the text in front of it and on nothing else: not on the text
before it, and not on what stands behind the region. So the reading of a region is that of its text
alone, with every offset shifted by where the region begins (`DocumentGrammar.resume_shift`). Each
layer commutes with the shift: the tokens of a text (`Markup.tapeOf_shift`), their groups
(`Tape.group_shift`), and the script that stands for the frontmatter (`Document.ofMarkup_shift`).
-/

namespace Relex

open Text Markup

/-! ## Shifted tapes -/

def Misuse.shift (n : Nat) : Misuse → Misuse
  | .refusedState state => .refusedState state
  | .noSnapshot offset => .noSnapshot (offset + n)

def Markup.Snapshot.shift (n : Nat) (snapshot : Snapshot) : Snapshot :=
  { snapshot with offset := snapshot.offset + n }

section Shift

variable {ι : Type}

/-- The same place of a text that begins `n` bytes further on. -/
def Place.shift (n : Nat) (place : Place Snapshot ι) : Place Snapshot ι :=
  { place with
    offset := place.offset + n
    snapshot :=
      match place.snapshot with
      | .ok snapshot => .ok (snapshot.shift n)
      | .error misuse => .error (misuse.shift n) }

def Reading.shift (n : Nat) (r : Reading Snapshot ι) : Reading Snapshot ι where
  kind := r.kind
  stop := r.stop + n
  place := r.place.shift n

def Group.shift (n : Nat) (group : Group Snapshot ι) : Group Snapshot ι where
  kind := group.kind
  first := group.first.shift n
  more := group.more.map (Reading.shift n)

/-- The same tape for a text that begins `n` bytes further on: the offsets of the tokens, of their
    snapshots and of what is said about missing snapshots move, and nothing else does. -/
def Tape.shift (n : Nat) (tape : Tape Snapshot ι) : Tape Snapshot ι where
  readings := tape.readings.map (Reading.shift n)
  final := tape.final.shift n

namespace Tape

theorem shift_cons (n : Nat) (r : Reading Snapshot ι) (tape : Tape Snapshot ι) :
    (tape.cons r).shift n = (tape.shift n).cons (r.shift n) :=
  rfl

theorem shift_shift (m n : Nat) (tape : Tape Snapshot ι) :
    (tape.shift m).shift n = tape.shift (m + n) := by
  have hplace : ∀ place : Place Snapshot ι, (place.shift m).shift n = place.shift (m + n) := by
    rintro ⟨offset, state, snapshot, live⟩
    cases snapshot with
    | ok snapshot => simp only [Place.shift, Markup.Snapshot.shift, Nat.add_assoc]
    | error misuse =>
        cases misuse with
        | refusedState state => simp only [Place.shift, Misuse.shift, Nat.add_assoc]
        | noSnapshot offset => simp only [Place.shift, Misuse.shift, Nat.add_assoc]
  simp only [shift, List.map_map, hplace]
  congr 2
  funext r
  simp only [Function.comp_apply, Reading.shift, hplace, Nat.add_assoc]

end Tape

end Shift

/-! ## Texts of markup -/

namespace Markup

theorem placeAt_shift (offset n : Nat) (context : Context) :
    placeAt (offset + n) context = (placeAt offset context).shift n :=
  rfl

theorem tapeOf_shift (form : Form) (n offset : Nat) (context : Context) (cs : List Char) :
    tapeOf form (offset + n) context cs = (tapeOf form offset context cs).shift n := by
  fun_induction tapeOf form offset context cs with
  | case1 offset context =>
      rw [tapeOf, placeAt_shift]
      rfl
  | case2 offset context c cs transition stop ih =>
      have hstop : offset + n + byteLength (c :: cs.take transition.more) = stop + n :=
        Nat.add_right_comm _ _ _
      rw [tapeOf, Tape.shift_cons, ← ih]
      change Tape.cons ⟨transition.kind, _, _⟩ (tapeOf form (offset + n + _) _ _) = _
      rw [hstop]
      rfl

end Markup

/-! ## Groups -/

namespace Group

variable {ι : Type} (grouping : Grouping) (n : Nat)

theorem atStart_shift (r : Reading Snapshot ι) (rs : List (Reading Snapshot ι)) :
    atStart (r.shift n) (rs.map (Reading.shift n)) = (atStart r rs).map (Reading.shift n) := by
  rw [atStart, atStart, List.takeWhile_map]
  congr 2
  funext s
  simp [Reading.shift, Place.shift]

theorem kind_leader_shift (r : Reading Snapshot ι) (rs : List (Reading Snapshot ι)) :
    (leader (r.shift n) (rs.map (Reading.shift n))).kind = (leader r rs).kind := by
  rw [leader, leader, atStart_shift, List.getLast?_map]
  cases (atStart r rs).getLast? with
  | none => rfl
  | some s => rfl

theorem run_shift (r : Reading Snapshot ι) (rs : List (Reading Snapshot ι)) :
    run grouping (r.shift n) (rs.map (Reading.shift n)) =
      (run grouping r rs).map (Reading.shift n) := by
  rw [run, run, atStart_shift, kind_leader_shift, List.length_map, ← List.map_drop,
    List.takeWhile_map]
  rfl

theorem kindOf_shift (kind : Kind) (rs : List (Reading Snapshot ι)) :
    kindOf kind (rs.map (Reading.shift n)) = kindOf kind rs := by
  rw [kindOf, kindOf, List.any_map]
  rfl

theorem front_shift (r : Reading Snapshot ι) (rs : List (Reading Snapshot ι)) :
    front grouping (r.shift n) (rs.map (Reading.shift n)) = (front grouping r rs).shift n := by
  rw [front_eq, front_eq, run_shift, atStart_shift, kind_leader_shift, kindOf_shift, shift,
    List.map_append]

theorem ofReadings_shift (rs : List (Reading Snapshot ι)) :
    ofReadings grouping (rs.map (Reading.shift n)) = (ofReadings grouping rs).map (shift n) := by
  fun_induction ofReadings grouping rs with
  | case1 =>
      rw [List.map_nil, ofReadings]
      rfl
  | case2 r rs group ih =>
      rw [List.map_cons, ofReadings]
      simp only [front_shift, shift, List.length_map, ← List.map_drop]
      rw [ih]
      rfl

theorem startPlace_shift (final : Place Snapshot ι) (groups : List (Group Snapshot ι)) :
    startPlace (final.shift n) (groups.map (shift n)) = (startPlace final groups).shift n := by
  cases groups with
  | nil => rfl
  | cons group groups => rfl

theorem reading_shift (group : Group Snapshot ι) (next : Place Snapshot ι) :
    (group.shift n).reading (next.shift n) = (group.reading next).shift n := by
  obtain ⟨kind, ⟨firstKind, stop, offset, state, snapshot, live⟩, more⟩ := group
  cases snapshot with
  | ok snapshot => rfl
  | error misuse => rfl

theorem readings_shift (final : Place Snapshot ι) (groups : List (Group Snapshot ι)) :
    readings (final.shift n) (groups.map (shift n)) =
      (readings final groups).map (Reading.shift n) := by
  induction groups with
  | nil => rfl
  | cons group groups ih =>
      simp only [List.map_cons, readings, ih, startPlace_shift, reading_shift]

end Group

theorem Tape.group_shift {ι : Type} (grouping : Grouping) (n : Nat) (tape : Tape Snapshot ι) :
    (tape.shift n).group grouping = (tape.group grouping).shift n := by
  simp only [group, shift, Group.ofReadings_shift, Group.readings_shift]

/-! ## Documents -/

/-- A part of a part of a text. -/
theorem Text.Spans.trans {text middle part : List Char} {first last start stop : Nat}
    (h : Spans text middle first last) (hpart : Spans middle part start stop) :
    Spans text part (start + first) (stop + first) := by
  obtain ⟨before, after, rfl, rfl, rfl⟩ := h
  obtain ⟨front, behind, rfl, rfl, rfl⟩ := hpart
  refine ⟨before ++ front, behind ++ after, by simp, by simp [Nat.add_comm], ?_⟩
  simp only [byteLength_append]
  omega

namespace Document

theorem script_shift (n offset : Nat) (place : Place Snapshot Nesting) (cs : List Char) :
    (Script.readings (offset + n) cs).map (scriptReading (place.shift n)) =
      ((Script.readings offset cs).map (scriptReading place)).map (Reading.shift n) := by
  fun_induction Script.readings offset cs with
  | case1 =>
      rw [Script.readings]
      rfl
  | case2 offset c cs lexeme stop ih =>
      have hstop : offset + n + byteLength (c :: cs.take lexeme.more) = stop + n :=
        Nat.add_right_comm _ _ _
      rw [Script.readings, List.map_cons, List.map_cons, List.map_cons, ← ih]
      change scriptReading _ ⟨_, offset + n + _, _⟩ ::
        List.map _ (Script.readings (offset + n + _) _) = _
      rw [hstop]
      rfl

variable {source : String} {text : List Char} {n stop : Nat}

/-- The script of a frontmatter token that is not empty. -/
theorem expand_script {r : Reading Snapshot Nesting} {cs : List Char}
    (hkind : r.kind.opensEmbedment = true) (hlt : r.place.offset < r.stop)
    (hcs : Spans source.toList cs r.place.offset r.stop) :
    expand source r = .ok ((Script.readings r.place.offset cs).map (scriptReading r.place)) := by
  have htape : Script.tape source r.place.offset r.stop =
      .ok ⟨Script.readings r.place.offset cs, Script.placeAt r.stop⟩ := by
    simp only [Script.tape, hlt, if_true, region_eq_ok_iff.mpr hcs]
    rfl
  have hlexemes := (Script.tape_of_lt hlt htape).1
  simp only [expand, hkind, if_true, htape, Except.map, List.isEmpty_iff, hlexemes, if_false]

theorem expand_shift {r : Reading Snapshot Nesting} (htext : Spans source.toList text n stop)
    (hlt : r.place.offset < r.stop) (hstart : Boundary text r.place.offset)
    (hstop : Boundary text r.stop) :
    ∃ part, expand (String.ofList text) r = .ok part ∧
      expand source (r.shift n) = .ok (part.map (Reading.shift n)) := by
  cases hkind : r.kind.opensEmbedment with
  | false =>
      have hshifted : (r.shift n).kind.opensEmbedment = false := hkind
      simp only [expand, hkind, hshifted]
      exact ⟨_, rfl, rfl⟩
  | true =>
      obtain ⟨cs, hcs⟩ := spans_between hstart hstop (Nat.le_of_lt hlt)
      have halone : Spans (String.ofList text).toList cs r.place.offset r.stop := by
        rw [String.toList_ofList]
        exact hcs
      refine ⟨_, expand_script hkind hlt halone, ?_⟩
      rw [← script_shift]
      exact expand_script (r := r.shift n) hkind (Nat.add_lt_add_right hlt n) (htext.trans hcs)

theorem parts_shift {start size : Nat} {rs : List (Reading Snapshot Nesting)}
    (htext : Spans source.toList text n stop) (h : Covers text size start (rs.map Reading.token)) :
    ∃ parts, rs.mapM (expand (String.ofList text)) = .ok parts ∧
      (rs.map (Reading.shift n)).mapM (expand source) =
        .ok (parts.map (List.map (Reading.shift n))) := by
  induction rs generalizing start with
  | nil => exact ⟨[], rfl, rfl⟩
  | cons r rs ih =>
      cases h with
      | cons _ hlt hb hb' hrest =>
          obtain ⟨part, hpart, hshifted⟩ := expand_shift htext hlt hb hb'
          obtain ⟨parts, hparts, hlater⟩ := ih hrest
          refine ⟨part :: parts, ?_, ?_⟩
          · simp only [List.mapM_cons, hpart, hparts]
            rfl
          · simp only [List.map_cons, List.mapM_cons, hshifted, hlater]
            rfl

theorem ofMarkup_shift {start : Nat} {markup : Tape Snapshot Nesting}
    (htext : Spans source.toList text n stop)
    (h : Covers text markup.final.offset start markup.tokens) :
    ∃ document, ofMarkup (String.ofList text) markup = .ok document ∧
      ofMarkup source (markup.shift n) = .ok (document.shift n) := by
  obtain ⟨parts, hparts, hshifted⟩ := parts_shift htext h
  refine ⟨_, ofMarkup_eq_ok_iff.mpr ⟨parts, hparts, rfl⟩,
    ofMarkup_eq_ok_iff.mpr ⟨_, hshifted, ?_⟩⟩
  simp only [Tape.shift, List.map_flatten]
  rfl

end Document

namespace DocumentGrammar

/-- Reading a region is reading its text alone, shifted by where the region begins. -/
theorem resume_shift (reader : DocumentGrammar) {source : String} {text : List Char}
    {start stop : Nat} (context : Context) (htext : Spans source.toList text start stop) :
    ∃ document, Reader.resume reader (String.ofList text) (byteLength text) ⟨0, context⟩ =
        .ok document ∧
      Reader.resume reader source stop ⟨start, context⟩ = .ok (document.shift start) := by
  let alone : Cursor := ⟨0, context, text⟩
  let cursor : Cursor := ⟨start, context, text⟩
  have halone : alone.Within (String.ofList text).toList (byteLength text) :=
    ⟨[], [], by simp [alone], rfl, rfl⟩
  have hcursor : cursor.Within source.toList stop := htext
  have hshift : cursor.tape reader.form = (alone.tape reader.form).shift start := by
    simp only [Cursor.tape, cursor, alone, ← tapeOf_shift, Nat.zero_add]
  have hspans : Spans text text 0 (byteLength text) := ⟨[], [], by simp, rfl, rfl⟩
  obtain ⟨hfinal, hcovers⟩ := covers_markup reader.form context hspans
  rw [← hfinal] at hcovers
  have hgrouped : Covers text ((alone.tape reader.form).group reader.grouping).final.offset 0
      ((alone.tape reader.form).group reader.grouping).tokens :=
    Group.covers reader.grouping _ _ hcovers
  obtain ⟨document, hdocument, hshifted⟩ := Document.ofMarkup_shift htext hgrouped
  refine ⟨document, (reader.resume_eq halone).trans hdocument, (reader.resume_eq hcursor).trans ?_⟩
  rw [hshift, Tape.group_shift]
  exact hshifted

end DocumentGrammar

end Relex
