import Mathlib.Data.List.SplitBy
import Mathlib.Data.List.TakeWhile
import Relex.Proofs.GroupSnapshot
import Relex.Stream.Replay

/-! # Maximal runs

Two neighbouring kinds either join or they do not, and `Grouping.joins` says which. A group is led by
the last of the tokens that begin where it begins, and goes on as far as the kinds join that of its
leading token (`Group.more_front`). In an ascending tape every token begins at an offset of its own,
so its groups are the maximal runs of kinds that join (`Group.members_ofReadings_eq_splitBy`). Two
neighbouring groups never join then, which is why grouping once more changes nothing
(`Tape.Ascending.shown_group_group`).
-/

namespace Relex

open Text

namespace Grouping

/-- Whether neighbouring tokens of two kinds belong together. -/
def joins (grouping : Grouping) (a b : Kind) : Bool :=
  (a == b && a.joinsNeighbours) || (grouping == .values && a.isValuePiece && b.isValuePiece)

variable {grouping : Grouping} {a b c : Kind}

theorem joins_iff : grouping.joins a b = true ↔ a = b ∧ a.joinsNeighbours = true ∨
    grouping = .values ∧ a.isValuePiece = true ∧ b.isValuePiece = true := by
  simp only [joins, Bool.or_eq_true, Bool.and_eq_true, beq_iff_eq, and_assoc]

theorem joins_symm (h : grouping.joins a b = true) : grouping.joins b a = true := by
  rw [joins_iff] at h ⊢
  rcases h with ⟨rfl, hjoins⟩ | ⟨hvalues, ha, hb⟩
  · exact .inl ⟨rfl, hjoins⟩
  · exact .inr ⟨hvalues, hb, ha⟩

theorem joins_comm (grouping : Grouping) (a b : Kind) :
    grouping.joins a b = grouping.joins b a :=
  Bool.eq_iff_iff.mpr ⟨joins_symm, joins_symm⟩

theorem joins_trans (h : grouping.joins a b = true) (hnext : grouping.joins b c = true) :
    grouping.joins a c = true := by
  rw [joins_iff] at h hnext ⊢
  rcases h with ⟨rfl, hjoins⟩ | ⟨hvalues, ha, hb⟩
  · exact hnext
  · rcases hnext with ⟨rfl, -⟩ | ⟨-, -, hc⟩
    · exact .inr ⟨hvalues, ha, hb⟩
    · exact .inr ⟨hvalues, ha, hc⟩

end Grouping

namespace Group

variable {π ι : Type} {grouping : Grouping} {r : Reading π ι} {rs ss : List (Reading π ι)}

/-! ## What a group is made of -/

/-- The tokens behind `r` that begin where `r` begins. -/
def atStart (r : Reading π ι) (rs : List (Reading π ι)) : List (Reading π ι) :=
  rs.takeWhile fun s => s.place.offset == r.place.offset

/-- The last token that begins where `r` begins. It decides what joins the group. -/
def leader (r : Reading π ι) (rs : List (Reading π ι)) : Reading π ι :=
  (atStart r rs).getLast?.getD r

/-- The tokens behind the leader that join it. -/
def run (grouping : Grouping) (r : Reading π ι) (rs : List (Reading π ι)) : List (Reading π ι) :=
  (rs.drop (atStart r rs).length).takeWhile fun s => grouping.joins (leader r rs).kind s.kind

/-- The kind under which some tokens are shown: value text makes all of them a value. -/
def kindOf (kind : Kind) (rs : List (Reading π ι)) : Kind :=
  if rs.any fun s => s.kind == .attributeValue then .attributeValue else kind

theorem takeWhile_append_takeWhile {α : Type} {p q : α → Bool} (h : ∀ a, q a = true → p a = true)
    (as : List α) : as.takeWhile q ++ (as.drop (as.takeWhile q).length).takeWhile p =
      as.takeWhile p := by
  conv_rhs => rw [← List.prefix_iff_eq_append.mp (List.takeWhile_prefix (l := as) q)]
  rw [List.takeWhile_append_of_pos]
  intro a ha
  exact h a (List.mem_takeWhile_imp ha)

/-- The tokens in front that are of one kind, if tokens of this kind join. -/
def alike (kind : Kind) (rs : List (Reading π ι)) : List (Reading π ι) :=
  if kind.joinsNeighbours then rs.takeWhile fun s => s.kind == kind else []

/-- The pieces of a value in front, if they join one more of the kind. -/
def pieces (grouping : Grouping) (kind : Kind) (rs : List (Reading π ι)) : List (Reading π ι) :=
  if grouping = .values ∧ kind.isValuePiece then rs.takeWhile fun s => s.kind.isValuePiece else []

/-- Both together are all that joins. -/
theorem alike_append_pieces (grouping : Grouping) (kind : Kind) (rs : List (Reading π ι)) :
    alike kind rs ++ pieces grouping kind (rs.drop (alike kind rs).length) =
      rs.takeWhile fun s => grouping.joins kind s.kind := by
  by_cases hvalue : grouping = .values ∧ kind.isValuePiece = true
  · -- Whatever joins a piece of a value is such a piece.
    have hjoins : ∀ other, grouping.joins kind other = other.isValuePiece := by
      intro other
      rw [Bool.eq_iff_iff, Grouping.joins_iff]
      constructor
      · rintro (⟨rfl, -⟩ | ⟨-, -, hother⟩)
        · exact hvalue.2
        · exact hother
      · exact fun hother => .inr ⟨hvalue.1, hvalue.2, hother⟩
    simp only [pieces, if_pos hvalue, hjoins, alike]
    split
    · apply takeWhile_append_takeWhile
      intro s hs
      rw [beq_iff_eq.mp hs]
      exact hvalue.2
    · rfl
  · have hjoins : ∀ other, grouping.joins kind other = (other == kind && kind.joinsNeighbours) := by
      intro other
      rw [Bool.eq_iff_iff, Grouping.joins_iff, Bool.and_eq_true, beq_iff_eq]
      constructor
      · rintro (⟨rfl, hkind⟩ | ⟨hvalues, hpiece, -⟩)
        · exact ⟨rfl, hkind⟩
        · exact absurd ⟨hvalues, hpiece⟩ hvalue
      · rintro ⟨rfl, hkind⟩
        exact .inl ⟨rfl, hkind⟩
    simp only [pieces, if_neg hvalue, List.append_nil, hjoins, alike]
    cases hkind : kind.joinsNeighbours with
    | true => simp only [Bool.and_true, if_true]
    | false =>
        simp only [Bool.and_false, Bool.false_eq_true, if_false]
        cases rs with
        | nil => rfl
        | cons s rs => rfl

/-- Among tokens of one kind there is value text only if the kind is that of value text. -/
theorem kindOf_of_forall {kind : Kind} (h : ∀ s ∈ rs, s.kind = kind) : kindOf kind rs = kind := by
  rw [kindOf]
  split
  · rename_i htext
    obtain ⟨s, hs, hvalue⟩ := List.any_eq_true.mp htext
    rw [← h s hs]
    exact (beq_iff_eq.mp hvalue).symm
  · rfl

theorem kindOf_congr {ss ss' : List (Reading π ι)} (kind : Kind)
    (h : ss'.map Reading.kind = ss.map Reading.kind) : kindOf kind ss' = kindOf kind ss := by
  have hany (ss : List (Reading π ι)) : (ss.any fun s => s.kind == .attributeValue) =
      (ss.map Reading.kind).any (· == .attributeValue) := by
    rw [List.any_map]
    rfl
  rw [kindOf, kindOf, hany, hany, h]

theorem kindOf_alike (kind : Kind) (rs : List (Reading π ι)) : kindOf kind (alike kind rs) = kind := by
  apply kindOf_of_forall
  intro s hs
  rw [alike] at hs
  split at hs
  · exact beq_iff_eq.mp (List.mem_takeWhile_imp (p := fun s : Reading π ι => s.kind == kind) hs)
  · cases hs

theorem kindOf_append (kind : Kind) (as bs : List (Reading π ι)) :
    kindOf kind (as ++ bs) = kindOf (kindOf kind as) bs := by
  simp only [kindOf, List.any_append]
  cases as.any fun s => s.kind == .attributeValue with
  | true => simp
  | false => simp

/-- A group consists of the tokens at its start and those that join their leader. It has the kind of
    the leader, unless value text joins a reference. -/
theorem front_eq (grouping : Grouping) (r : Reading π ι) (rs : List (Reading π ι)) :
    front grouping r rs =
      ⟨kindOf (leader r rs).kind (run grouping r rs), r, atStart r rs ++ run grouping r rs⟩ := by
  let behind := rs.drop (atStart r rs).length
  have hrun := alike_append_pieces grouping (leader r rs).kind behind
  have hkind := kindOf_alike (leader r rs).kind behind
  rw [run, ← hrun, kindOf_append, hkind, ← List.append_assoc]
  rfl

/-! ## Groups in an ascending tape -/

/-- No two tokens begin at one offset. -/
def Apart (rs : List (Reading π ι)) : Prop :=
  (rs.map (·.place.offset)).Pairwise (· < ·)

theorem atStart_of_apart (h : Apart (r :: rs)) : atStart r rs = [] := by
  cases rs with
  | nil => rfl
  | cons s rs =>
      rw [Apart, List.map_cons, List.pairwise_cons] at h
      have hlt : r.place.offset < s.place.offset := h.1 _ List.mem_cons_self
      have hs : (s.place.offset == r.place.offset) = false := beq_false_of_ne (by omega)
      simp only [atStart, List.takeWhile_cons, hs, Bool.false_eq_true, if_false]

theorem front_of_apart (grouping : Grouping) (h : Apart (r :: rs)) :
    let joined := rs.takeWhile fun s => grouping.joins r.kind s.kind
    front grouping r rs = ⟨kindOf r.kind joined, r, joined⟩ := by
  simp only [front_eq, run, leader, atStart_of_apart h, List.getLast?_nil, Option.getD_none,
    List.length_nil, List.drop_zero, List.nil_append]

theorem Apart.sublist (h : Apart rs) (hsub : ss.Sublist rs) : Apart ss :=
  List.Pairwise.sublist (hsub.map _) h

theorem Apart.drop {n : Nat} (h : Apart rs) : Apart (rs.drop n) :=
  h.sublist (List.drop_sublist n rs)

/-- All that joins one kind joins among itself. -/
theorem isChain_of_joins {kind : Kind} (hr : grouping.joins kind r.kind = true ∨ r.kind = kind)
    (h : ∀ s ∈ rs, grouping.joins kind s.kind = true) :
    (r :: rs).IsChain fun s t => grouping.joins s.kind t.kind = true := by
  induction rs generalizing r with
  | nil => exact List.isChain_singleton _
  | cons s rs ih =>
      obtain ⟨hs, hrs⟩ := List.forall_mem_cons.mp h
      refine List.isChain_cons_cons.mpr ⟨?_, ih (.inl hs) hrs⟩
      rcases hr with hr | rfl
      · exact Grouping.joins_trans (Grouping.joins_symm hr) hs
      · exact hs

/-- What stands behind a run does not belong to it. -/
theorem head_drop_takeWhile {α : Type} (p : α → Bool) (as : List α) :
    ∀ a ∈ (as.drop (as.takeWhile p).length).head?, p a = false := by
  intro a ha
  have hdrop : as.drop (as.takeWhile p).length = as.dropWhile p := by
    have hsplit := List.prefix_iff_eq_append.mp (List.takeWhile_prefix p (l := as))
    exact List.append_cancel_left (hsplit.trans List.takeWhile_append_dropWhile.symm)
  rw [hdrop] at ha
  have h := List.head?_dropWhile_not p as
  rw [Option.mem_def.mp ha] at h
  exact h

/-- The groups are the maximal runs of kinds that join. -/
theorem members_ofReadings_eq_splitBy (grouping : Grouping) (h : Apart rs) :
    (ofReadings grouping rs).map members = rs.splitBy fun s t => grouping.joins s.kind t.kind := by
  fun_induction ofReadings grouping rs with
  | case1 => rfl
  | case2 r rs group ih =>
      let joins : Reading π ι → Bool := fun s => grouping.joins r.kind s.kind
      let joined := rs.takeWhile joins
      have hjoined : ∀ s ∈ joined, joins s = true := fun s hs => List.mem_takeWhile_imp hs
      have hgroup : group = ⟨kindOf r.kind joined, r, joined⟩ := front_of_apart grouping h
      have hrest : Apart (rs.drop joined.length) := Apart.drop (n := joined.length + 1) h
      have hsplit : r :: rs = (r :: joined) ++ rs.drop joined.length :=
        congrArg (r :: ·) (List.prefix_iff_eq_append.mp (List.takeWhile_prefix _)).symm
      rw [hgroup] at ih ⊢
      rw [List.map_cons, ih hrest, members, hsplit, List.splitBy_append,
        List.splitBy_of_isChain (List.cons_ne_nil _ _) (isChain_of_joins (.inr rfl) hjoined)]
      · rfl
      · intro s hs t ht
        have hbehind : grouping.joins r.kind t.kind = false := head_drop_takeWhile _ _ t ht
        rw [Bool.eq_false_iff] at hbehind ⊢
        intro hst
        apply hbehind
        rcases List.mem_cons.mp (List.mem_of_getLast? hs) with rfl | hs
        · exact hst
        · exact Grouping.joins_trans (hjoined s hs) hst

/-! ## Neighbouring groups -/

/-- The kind of a group joins whatever its leader joins. -/
theorem joins_kindOf {kind other : Kind} (h : ∀ s ∈ rs, grouping.joins kind s.kind = true) :
    grouping.joins (kindOf kind rs) other = grouping.joins kind other := by
  rw [kindOf]
  split
  · rename_i htext
    obtain ⟨s, hs, hvalue⟩ := List.any_eq_true.mp htext
    have hjoins : grouping.joins kind .attributeValue = true := by
      rw [← beq_iff_eq.mp hvalue]
      exact h s hs
    rw [Bool.eq_iff_iff]
    exact ⟨Grouping.joins_trans hjoins, Grouping.joins_trans (Grouping.joins_symm hjoins)⟩
  · rfl

theorem joins_of_mem_run {s : Reading π ι} (h : s ∈ run grouping r rs) :
    grouping.joins (leader r rs).kind s.kind = true :=
  List.mem_takeWhile_imp (p := fun s : Reading π ι => grouping.joins (leader r rs).kind s.kind) h

/-- So two groups join if and only if their leaders do. -/
theorem joins_front (grouping : Grouping) (r s : Reading π ι) (rs ss : List (Reading π ι)) :
    grouping.joins (front grouping r rs).kind (front grouping s ss).kind =
      grouping.joins (leader r rs).kind (leader s ss).kind := by
  rw [front_eq, front_eq]
  simp only
  rw [joins_kindOf fun _ => joins_of_mem_run, Grouping.joins_comm,
    joins_kindOf fun _ => joins_of_mem_run, Grouping.joins_comm]

/-- No two neighbours join. -/
def Settled (grouping : Grouping) (rs : List (Reading π ι)) : Prop :=
  rs.IsChain fun s t => grouping.joins s.kind t.kind = false

theorem settled_of_apart (grouping : Grouping) (final : Place π ι) (h : Apart rs) :
    Settled grouping (readings final (ofReadings grouping rs)) := by
  fun_induction ofReadings grouping rs with
  | case1 => exact List.isChain_nil
  | case2 r rs group ih =>
      have hgroup : group = ⟨_, r, rs.takeWhile fun s => grouping.joins r.kind s.kind⟩ :=
        front_of_apart grouping h
      have hrest : Apart (rs.drop group.more.length) := Apart.drop (n := group.more.length + 1) h
      have hbehind : ∀ s ∈ (rs.drop group.more.length).head?, grouping.joins r.kind s.kind = false := by
        rw [hgroup]
        exact head_drop_takeWhile (fun s : Reading π ι => grouping.joins r.kind s.kind) rs
      have hlater := ih hrest
      cases hdrop : rs.drop group.more.length with
      | nil =>
          rw [ofReadings]
          exact List.isChain_singleton _
      | cons s ss =>
          rw [hdrop] at hlater hrest hbehind
          rw [ofReadings] at hlater ⊢
          refine List.isChain_cons_cons.mpr ⟨?_, hlater⟩
          have hjoins := joins_front grouping r s rs ss
          rw [leader, leader, atStart_of_apart h, atStart_of_apart hrest] at hjoins
          exact hjoins.trans (hbehind s rfl)

/-! ## What is shown for the groups -/

/-- The parts of a stream, and what is shown for them: each token begins where its part begins, with
    the state word there, and ends where the next part begins. -/
inductive Displays (final : Place π ι) : List (List (Reading π ι)) → List (Reading π ι) → Prop
  | nil : Displays final [] []
  | cons {first s : Reading π ι} {more later : List (Reading π ι)}
      {parts : List (List (Reading π ι))} (hkind : s.kind = kindOf first.kind (first :: more))
      (hoffset : s.place.offset = first.place.offset) (hstate : s.place.state = first.place.state)
      (hstop : s.stop = (Tape.mk parts.flatten final).place.offset)
      (hlater : Displays final parts later) :
      Displays final ((first :: more) :: parts) (s :: later)

/-- The parts are the longest stretches of a stream in which neighbours join, one after the other. -/
structure Runs (grouping : Grouping) (rs : List (Reading π ι)) (parts : List (List (Reading π ι))) :
    Prop where
  flatten : parts.flatten = rs
  nonempty : [] ∉ parts
  joined : ∀ part ∈ parts, part.IsChain fun s t => grouping.joins s.kind t.kind = true
  maximal : parts.IsChain fun part next => ∃ hpart hnext,
    grouping.joins (part.getLast hpart).kind (next.head hnext).kind = false

theorem runs_of_apart (grouping : Grouping) (h : Apart rs) :
    Runs grouping rs ((ofReadings grouping rs).map members) := by
  obtain ⟨hflatten, hnonempty, hjoined, hmaximal⟩ :=
    List.splitBy_eq_iff.mp (members_ofReadings_eq_splitBy grouping h).symm
  exact ⟨hflatten.symm, hnonempty, hjoined, hmaximal⟩

theorem kindOf_cons_self (r : Reading π ι) (rs : List (Reading π ι)) :
    kindOf r.kind (r :: rs) = kindOf r.kind rs := by
  by_cases hvalue : r.kind = .attributeValue
  · simp only [kindOf, hvalue, ite_self]
  · have hother : (r.kind == .attributeValue) = false := beq_false_of_ne hvalue
    simp only [kindOf, List.any_cons, hother, Bool.false_or]

theorem displays_of_apart (grouping : Grouping) (final : Place π ι) (h : Apart rs) :
    Displays final ((ofReadings grouping rs).map members)
      (readings final (ofReadings grouping rs)) := by
  fun_induction ofReadings grouping rs with
  | case1 => exact .nil
  | case2 r rs group ih =>
      have hgroup : group = ⟨kindOf r.kind _, r, rs.takeWhile fun s => grouping.joins r.kind s.kind⟩ :=
        front_of_apart grouping h
      have hrest : Apart (rs.drop group.more.length) := Apart.drop (n := group.more.length + 1) h
      refine .cons ?_ rfl rfl ?_ (ih hrest)
      · rw [hgroup, kindOf_cons_self]
        rfl
      · rw [← List.flatMap_def, members_ofReadings, ← startPlace_ofReadings grouping]
        rfl

/-- The tokens of a stream with the state words at them. -/
def shown (rs : List (Reading π ι)) : List (Token × UInt32) :=
  rs.map fun r => (r.token, r.place.state)

theorem offset_place_readings (final : Place π ι) (groups : List (Group π ι)) :
    (Tape.mk (readings final groups) final).place.offset = (startPlace final groups).offset := by
  cases groups with
  | nil => rfl
  | cons group groups => rfl

/-- Where no two groups join, grouping what is shown for them shows the same again. -/
theorem shown_of_settled {grouping : Grouping} {final : Place π ι} {groups : List (Group π ι)}
    (hapart : Apart (readings final groups)) (hsettled : Settled grouping (readings final groups)) :
    shown (readings final (ofReadings grouping (readings final groups))) =
      shown (readings final groups) := by
  induction groups with
  | nil => rw [readings, ofReadings]; rfl
  | cons group groups ih =>
      rw [readings] at hapart hsettled ⊢
      let r := group.reading (startPlace final groups)
      let rs := readings final groups
      have halone : rs.takeWhile (fun s => grouping.joins r.kind s.kind) = [] := by
        cases hrs : rs with
        | nil => rfl
        | cons s ss =>
            simp only [rs] at hrs
            rw [hrs] at hsettled
            exact List.takeWhile_cons_of_neg (Bool.eq_false_iff.mp (List.isChain_cons_cons.mp hsettled).1)
      have hfront : front grouping r rs = ⟨r.kind, r, []⟩ := by
        rw [front_of_apart grouping hapart, halone]
        rfl
      have hstop : (startPlace final (ofReadings grouping rs)).offset = r.stop := by
        rw [startPlace_ofReadings]
        exact offset_place_readings final groups
      have hlater := ih (Apart.drop (n := 1) hapart) hsettled.tail
      rw [ofReadings]
      simp only [r, rs] at hfront hstop hlater
      simp only [hfront, List.length_nil, List.drop_zero, readings, shown, List.map_cons]
      refine congrArg₂ _ ?_ hlater
      simp only [Reading.token, Group.reading, hstop]

end Group

namespace Tape

variable {π ι : Type} {tape : Tape π ι}

theorem Ascending.apart (h : tape.Ascending) : Group.Apart tape.readings :=
  h.sublist (List.sublist_append_left _ _)

/-- Grouping an ascending tape once more shows the same tokens and state words. -/
theorem Ascending.shown_group_group (h : tape.Ascending) (grouping : Grouping) :
    Group.shown ((tape.group grouping).group grouping).readings =
      Group.shown (tape.group grouping).readings :=
  Group.shown_of_settled (h.group grouping).apart (Group.settled_of_apart grouping tape.final h.apart)

end Tape

/-! ## Lexers -/

section Entry

variable {ρ π ι : Type} [Reader ρ π ι]

/-- A call that puts a lexer in front of a stream. -/
inductive Entry (π : Type) where
  | start (source : String) (start stop : Nat) (state : UInt32)
  | restore (snapshot : π)

def Entry.onLexer (lexer : Lexer ρ π ι) : Entry π → Except RangeError (Lexer ρ π ι)
  | .start source offset stop state => lexer.start source offset stop state
  | .restore snapshot => lexer.restore snapshot

/-- The grouped lexer is one over a reader, and holds the same region as a lexer of that reader. -/
structure Lexer.Over (merged : Lexer (Grouped ρ) π ι) (below : Lexer ρ π ι) : Prop where
  reader : merged.reader.inner = below.reader
  source : merged.source = below.source
  stop : merged.stop = below.stop

theorem Lexer.Over.exists_entry {merged : Lexer (Grouped ρ) π ι} {below begun : Lexer ρ π ι}
    (h : merged.Over below) (entry : Entry π) (hbegun : entry.onLexer below = .ok begun) :
    ∃ started, entry.onLexer merged = .ok started ∧
      started.tape = begun.tape.group merged.reader.grouping := by
  cases entry with
  | start source start stop state =>
      have hread := Lexer.read_of_start hbegun
      have hmerged : Reader.start merged.reader source start stop state =
          .ok (begun.tape.group merged.reader.grouping) := by
        simp only [Reader.start, h.reader, hread]
        rfl
      obtain ⟨started, hstarted, htape, -⟩ := Lexer.start_of_read hmerged
      exact ⟨started, hstarted, htape⟩
  | restore snapshot =>
      obtain ⟨hread, -⟩ := Lexer.read_of_restore hbegun
      have hmerged : Reader.resume merged.reader merged.source merged.stop snapshot =
          .ok (begun.tape.group merged.reader.grouping) := by
        simp only [Reader.resume, h.reader, h.source, h.stop, hread]
        rfl
      obtain ⟨started, hstarted, htape⟩ := Lexer.restore_of_read hmerged
      exact ⟨started, hstarted, htape⟩

end Entry

/-! ## Streams in order -/

open Markup Document

theorem Script.ascending_of_tape {source : String} {start stop : Nat} {tape : Tape Nat Unit}
    (h : Script.tape source start stop = .ok tape) : tape.Ascending := by
  rw [Script.tape] at h
  split at h
  · obtain ⟨text, hregion, rfl⟩ := Except.map_eq_ok_iff.mp h
    let tape : Tape Nat Unit := ⟨Script.readings start text, Script.placeAt stop⟩
    have hcovers : Covers source.toList tape.final.offset start tape.tokens :=
      covers_script (region_eq_ok_iff.mp hregion)
    exact Tape.ascending_of_covers hcovers
  · cases h
    exact Tape.ascending_ended _

theorem MarkupGrammar.always_ascending :
    Reader.Always MarkupGrammar (Tape.Ascending : Tape Snapshot Nesting → Prop) where
  idle _ := Tape.ascending_ended _
  start _ _ _ _ _ _ h := ascending_of_tape h
  resume _ _ _ _ _ h := ascending_of_tape h
  drop _ n h := h.drop n

theorem ScriptGrammar.always_ascending :
    Reader.Always ScriptGrammar (Tape.Ascending : Tape Nat Unit → Prop) where
  idle _ := Tape.ascending_ended _
  start _ _ _ _ _ _ h := Script.ascending_of_tape h
  resume _ _ _ _ _ h := Script.ascending_of_tape h
  drop _ n h := h.drop n

theorem DocumentGrammar.always_ascending :
    Reader.Always DocumentGrammar (Tape.Ascending : Tape Snapshot Live → Prop) where
  idle _ := Tape.ascending_ended _
  start reader source start stop state tape h := by
    rw [start_eq_resume] at h
    exact ascending_of_resume h
  resume _ _ _ _ _ h := ascending_of_resume h
  drop _ n h := h.drop n

namespace Replay

theorem tokens_tape (replay : Replay) (source : String) :
    (replay.tape source 0).tokens = replay.tokens := by
  simp only [Tape.tokens, tape, List.map_map]
  exact List.zipIdx_map_fst 0 replay.tokens

theorem offsets_tape (replay : Replay) (source : String) :
    (replay.tape source 0).offsets = replay.tokens.map Token.start ++ [source.utf8ByteSize] := by
  rw [← replay.tokens_tape source]
  simp only [Tape.offsets, Tape.tokens, List.map_map]
  rfl

theorem ascending_iff (replay : Replay) (source : String) : (replay.tape source 0).Ascending ↔
    (replay.tokens.map Token.start ++ [source.utf8ByteSize]).Pairwise (· < ·) := by
  rw [Tape.Ascending, offsets_tape]

end Replay

namespace Group

/-- Where the tokens of a stream begin further and further on, up to its end, they are grouped into
    the maximal runs of kinds that join, and grouping once more changes neither the tokens nor the
    state words. All texts are such streams, whatever grammar reads them, and replayed tokens are if
    they stand in order. -/
theorem grouped_into_maximal_runs :
    (∀ {ρ π ι : Type} [Reader ρ π ι] (merged : Lexer (Grouped ρ) π ι) (below begun : Lexer ρ π ι)
      (entry : Entry π), merged.Over below → entry.onLexer below = .ok begun →
      begun.tape.Ascending →
      ∃ started, entry.onLexer merged = .ok started ∧ started.tape.final = begun.tape.final ∧
        (∃ parts, Runs merged.reader.grouping begun.tape.readings parts ∧
          Displays begun.tape.final parts started.tape.readings) ∧
        ∀ twice : Lexer (Grouped (Grouped ρ)) π ι, twice.Over merged →
          twice.reader.grouping = merged.reader.grouping →
          ∃ again, entry.onLexer twice = .ok again ∧ again.tape.final = started.tape.final ∧
            shown again.tape.readings = shown started.tape.readings) ∧
    Reader.Always MarkupGrammar (Tape.Ascending : Tape Snapshot Nesting → Prop) ∧
    Reader.Always ScriptGrammar (Tape.Ascending : Tape Nat Unit → Prop) ∧
    Reader.Always DocumentGrammar (Tape.Ascending : Tape Snapshot Live → Prop) ∧
    ∀ (tokens : List Token) (source : String), ((Replay.mk tokens).tape source 0).Ascending ↔
      (tokens.map Token.start ++ [source.utf8ByteSize]).Pairwise (· < ·) := by
  refine ⟨?_, MarkupGrammar.always_ascending, ScriptGrammar.always_ascending,
    DocumentGrammar.always_ascending, fun tokens => Replay.ascending_iff ⟨tokens⟩⟩
  intro ρ π ι _ merged below begun entry hover hbegun hascending
  obtain ⟨started, hstarted, htape⟩ := hover.exists_entry entry hbegun
  refine ⟨started, hstarted, by rw [htape]; rfl, ?_, ?_⟩
  · rw [htape]
    exact ⟨_, runs_of_apart _ hascending.apart, displays_of_apart _ _ hascending.apart⟩
  · intro twice htwice hgrouping
    obtain ⟨again, hagain, hregrouped⟩ := htwice.exists_entry entry hstarted
    refine ⟨again, hagain, by rw [hregrouped]; rfl, ?_⟩
    rw [hregrouped, htape, hgrouping]
    exact hascending.shown_group_group _

/-- An attribute value with references at both ends. -/
theorem grouped_into_maximal_runs_in_value :
    let reader : Grouped MarkupGrammar := ⟨.values, ⟨.document⟩⟩
    let twice : Grouped (Grouped MarkupGrammar) := ⟨.values, reader⟩
    ∃ begun started again,
      (Lexer.idle reader.inner).start "<a t=\x22&lt;b&gt; &amp;\x22>" 0 23 0 = .ok begun ∧
      begun.tape.Ascending ∧
      (Lexer.idle reader).start "<a t=\x22&lt;b&gt; &amp;\x22>" 0 23 0 = .ok started ∧
      (∃ parts, Runs .values begun.tape.readings parts ∧
        Displays begun.tape.final parts started.tape.readings) ∧
      started.tape.tokens[6]? = some ⟨.attributeValue, 6, 21⟩ ∧
      (Lexer.idle twice).start "<a t=\x22&lt;b&gt; &amp;\x22>" 0 23 0 = .ok again ∧
      shown again.tape.readings = shown started.tape.readings := by
  intro reader twice
  let source := "<a t=\x22&lt;b&gt; &amp;\x22>"
  have hrun : ((Lexer.idle reader).start source 0 23 0).toOption.any (fun started =>
      decide (started.tape.tokens[6]? = some ⟨.attributeValue, 6, 21⟩)) = true := by
    decide +kernel
  have hbelow : ((Lexer.idle reader.inner).start source 0 23 0).toOption.isSome = true := by
    decide +kernel
  cases hbegun : (Lexer.idle reader.inner).start source 0 23 0 with
  | error error => simp [Except.toOption, hbegun] at hbelow
  | ok begun =>
      have hordered : begun.tape.Ascending :=
        grouped_into_maximal_runs.2.1.start _ _ _ _ _ _ (Lexer.read_of_start hbegun)
      obtain ⟨started, hstarted, -, hparts, htwice⟩ := grouped_into_maximal_runs.1
        (Lexer.idle reader) (Lexer.idle reader.inner) begun (.start source 0 23 0) ⟨rfl, rfl, rfl⟩
        hbegun hordered
      obtain ⟨again, hagain, -, hsame⟩ := htwice (Lexer.idle twice) ⟨rfl, rfl, rfl⟩ rfl
      have hstarted : (Lexer.idle reader).start source 0 23 0 = .ok started := hstarted
      rw [hstarted] at hrun
      exact ⟨begun, started, again, rfl, hordered, hstarted, hparts, of_decide_eq_true hrun, hagain,
        hsame⟩

end Group

end Relex
