import Relex.Proofs.EntryPoint

/-! # Folding runs of a stream

Grouping is one way to make single tokens of runs, and there are others: only some kinds may join, or
only where something holds of the places too. `Folds` says of any way to join neighbours that a stream
is another one with its runs made single tokens. A fold is known from what joins next to each other
(`Folds.congr`), it changes nothing exactly where nothing joins (`Folds.tokens_eq_iff`), and grouping
does not see whether some of what it joins has been folded before (`Folds.shown_group`).
-/

namespace Relex

open Text

namespace Group

variable {π ι : Type}

/-- The second stream is the first one with every run of neighbours that join made one token. -/
inductive Folds (Joins : Reading π ι → Reading π ι → Prop) (final : Place π ι) :
    List (Reading π ι) → List (Reading π ι) → Prop
  | nil : Folds Joins final [] []
  | run {first t : Reading π ι} {more rs ts : List (Reading π ι)}
      (hjoined : (first :: more).IsChain Joins)
      (hbehind : ∀ last ∈ (first :: more).getLast?, ∀ s ∈ rs.head?, ¬Joins last s)
      (hkind : t.kind = kindOf first.kind (first :: more))
      (hoffset : t.place.offset = first.place.offset) (hstate : t.place.state = first.place.state)
      (hstop : t.stop = (Tape.mk rs final).place.offset) (hlater : Folds Joins final rs ts) :
      Folds Joins final (first :: more ++ rs) (t :: ts)

variable {Joins Joins' : Reading π ι → Reading π ι → Prop} {grouping : Grouping} {final : Place π ι}
  {r : Reading π ι} {rs ss ts : List (Reading π ι)}

theorem exists_mem_kindOf (r : Reading π ι) (rs : List (Reading π ι)) :
    ∃ s ∈ r :: rs, kindOf r.kind (r :: rs) = s.kind := by
  rw [kindOf]
  split
  · rename_i htext
    obtain ⟨s, hs, hvalue⟩ := List.any_eq_true.mp htext
    exact ⟨s, hs, (beq_iff_eq.mp hvalue).symm⟩
  · exact ⟨r, List.mem_cons_self, rfl⟩

/-- Grouping folds what joins. -/
theorem folds_readings (grouping : Grouping) (final : Place π ι) (h : Apart rs) :
    Folds (fun r s => grouping.joins r.kind s.kind = true) final rs
      (readings final (ofReadings grouping rs)) := by
  fun_induction ofReadings grouping rs with
  | case1 => exact .nil
  | case2 r rs group ih =>
      let joined := rs.takeWhile fun s => grouping.joins r.kind s.kind
      have hjoined : ∀ s ∈ joined, grouping.joins r.kind s.kind = true := fun s hs =>
        List.mem_takeWhile_imp (p := fun s : Reading π ι => grouping.joins r.kind s.kind) hs
      have hgroup : group = ⟨kindOf r.kind joined, r, joined⟩ := front_of_apart grouping h
      have hsplit : r :: rs = r :: joined ++ rs.drop joined.length :=
        congrArg (r :: ·) (List.prefix_iff_eq_append.mp (List.takeWhile_prefix _)).symm
      have hlater := ih (Apart.drop (n := group.more.length + 1) h)
      rw [hgroup] at hlater
      rw [hgroup, hsplit]
      refine .run (isChain_of_joins (.inr rfl) hjoined) ?_ ?_ rfl rfl ?_ hlater
      · intro last hlast s hs hjoins
        have hbehind : grouping.joins r.kind s.kind = false :=
          head_drop_takeWhile (fun s : Reading π ι => grouping.joins r.kind s.kind) rs s hs
        rcases List.mem_cons.mp (List.mem_of_getLast? hlast) with rfl | hlast
        · simp [hjoins] at hbehind
        · simp [Grouping.joins_trans (hjoined last hlast) hjoins] at hbehind
      · rw [kindOf_cons_self]
        rfl
      · rw [← startPlace_ofReadings grouping]
        rfl

namespace Folds

theorem offset_place (h : Folds Joins final rs ts) :
    (Tape.mk ts final).place.offset = (Tape.mk rs final).place.offset := by
  cases h with
  | nil => rfl
  | run hjoined hbehind hkind hoffset hstate hstop hlater => exact hoffset

theorem sublist_offset (h : Folds Joins final rs ts) :
    (ts.map (·.place.offset)).Sublist (rs.map (·.place.offset)) := by
  induction h with
  | nil => exact .refl _
  | run hjoined hbehind hkind hoffset hstate hstop hlater ih =>
      rw [List.map_cons, hoffset, List.cons_append, List.map_cons, List.map_append]
      exact (ih.trans (List.sublist_append_right _ _)).cons_cons _

theorem apart (h : Folds Joins final rs ts) (hapart : Apart rs) : Apart ts :=
  List.Pairwise.sublist h.sublist_offset hapart

theorem length_le (h : Folds Joins final rs ts) : ts.length ≤ rs.length := by
  induction h with
  | nil => exact Nat.le_refl _
  | run hjoined hbehind hkind hoffset hstate hstop hlater ih =>
      simp only [List.length_cons, List.length_append]
      omega

/-- Only what is said of neighbours matters. -/
theorem congr (h : Folds Joins final rs ts) (hjoins : rs.IsChain fun r s => Joins r s ↔ Joins' r s) :
    Folds Joins' final rs ts := by
  induction h with
  | nil => exact .nil
  | @run first t more rs ts hjoined hbehind hkind hoffset hstate hstop hlater ih =>
      obtain ⟨hrun, hrest, hseam⟩ := List.isChain_append.mp hjoins
      refine .run ?_ ?_ hkind hoffset hstate hstop (ih hrest)
      · rw [List.isChain_iff_forall_rel_of_append_cons_cons] at hjoined hrun ⊢
        exact fun r s before after hsplit => (hrun hsplit).mp (hjoined hsplit)
      · intro last hlast s hs hjoins
        exact hbehind last hlast s hs ((hseam last hlast s hs).mpr hjoins)

/-- A token that does not join the next one stays. -/
theorem alone (hbehind : ∀ s ∈ rs.head?, ¬Joins r s) (hstop : r.stop = (Tape.mk rs final).place.offset)
    (h : Folds Joins final rs ts) : Folds Joins final (r :: rs) (r :: ts) := by
  have hkind : r.kind = kindOf r.kind [r] := by
    rw [kindOf_cons_self]
    rfl
  have hrun : ∀ last ∈ [r].getLast?, ∀ s ∈ rs.head?, ¬Joins last s := by
    intro last hlast
    obtain rfl := Option.some.inj hlast
    exact hbehind
  exact .run (List.isChain_singleton r) hrun hkind rfl rfl hstop h

/-- Where nothing joins, a stream is a fold of itself. -/
theorem refl {text : List Char} {start : Nat}
    (hcovers : Covers text final.offset start (rs.map Reading.token))
    (hnone : rs.IsChain fun r s => ¬Joins r s) : Folds Joins final rs rs := by
  induction rs generalizing start with
  | nil => exact .nil
  | cons r rs ih =>
      cases hcovers with
      | cons _ _ _ _ hrest =>
          let rest : Tape π ι := ⟨rs, final⟩
          have hcovers : Covers text rest.final.offset r.stop rest.tokens := hrest
          obtain ⟨hbehind, hnone⟩ := List.isChain_cons.mp hnone
          exact (ih hrest hnone).alone hbehind hcovers.place_offset.symm

theorem append {rs' ts' : List (Reading π ι)} (h : Folds Joins (Tape.mk rs' final).place rs ts)
    (hseam : ∀ last ∈ rs.getLast?, ∀ s ∈ rs'.head?, ¬Joins last s)
    (hlater : Folds Joins final rs' ts') : Folds Joins final (rs ++ rs') (ts ++ ts') := by
  induction h with
  | nil => exact hlater
  | @run first t more rs ts hjoined hbehind hkind hoffset hstate hstop hrest ih =>
      rw [List.append_assoc]
      refine .run hjoined ?_ hkind hoffset hstate ?_ (ih fun last hlast => ?_)
      · cases rs with
        | nil => rwa [List.append_nil] at hseam
        | cons r rs => exact hbehind
      · cases rs with
        | nil => exact hstop
        | cons r rs => exact hstop
      · refine hseam last ?_
        rw [List.getLast?_append, Option.mem_def.mp hlast]
        rfl

theorem of_shown_eq (h : Folds Joins final rs ts) (hshown : shown ss = shown ts) :
    Folds Joins final rs ss := by
  induction h generalizing ss with
  | nil =>
      rw [List.map_eq_nil_iff.mp hshown]
      exact .nil
  | @run first t more rs ts hjoined hbehind hkind hoffset hstate hstop hlater ih =>
      cases ss with
      | nil => cases hshown
      | cons s ss =>
          obtain ⟨hfirst, hrest⟩ := List.cons.inj hshown
          obtain ⟨htoken, hword⟩ := Prod.mk.inj hfirst
          obtain ⟨hk, ho, hs⟩ := Token.mk.inj htoken
          exact .run hjoined hbehind (hk.trans hkind) (ho.trans hoffset) (hword.trans hstate)
            (hs.trans hstop) (ih hrest)

/-- A fold has as many tokens as before exactly where nothing joins. -/
theorem length_eq_iff (h : Folds Joins final rs ts) :
    ts.length = rs.length ↔ rs.IsChain fun r s => ¬Joins r s := by
  induction h with
  | nil => simp
  | @run first t more rs ts hjoined hbehind hkind hoffset hstate hstop hlater ih =>
      cases more with
      | nil =>
          have hseam : ∀ s ∈ rs.head?, ¬Joins first s := hbehind first rfl
          simp only [List.length_cons, List.singleton_append, Nat.add_right_cancel_iff]
          rw [List.isChain_cons, ← ih]
          exact (and_iff_right hseam).symm
      | cons second more =>
          refine iff_of_false ?_ ?_
          · have hle := hlater.length_le
            simp only [List.length_cons, List.length_append]
            omega
          · intro hnone
            exact (List.isChain_cons_cons.mp hnone).1 (List.isChain_cons_cons.mp hjoined).1

/-- A run of one token is shown as that token. -/
theorem token_eq {text : List Char} {start : Nat} {first t : Reading π ι}
    (hcovers : Covers text final.offset start ((first :: rs).map Reading.token))
    (hkind : t.kind = kindOf first.kind [first]) (hoffset : t.place.offset = first.place.offset)
    (hstop : t.stop = (Tape.mk rs final).place.offset) : t.token = first.token := by
  cases hcovers with
  | cons _ _ _ _ hrest =>
      let rest : Tape π ι := ⟨rs, final⟩
      have hcovers : Covers text rest.final.offset first.stop rest.tokens := hrest
      simp only [Reading.token, hkind, hoffset, hstop]
      rw [hcovers.place_offset, kindOf_cons_self]
      rfl

theorem shown_eq {text : List Char} {start : Nat} (h : Folds Joins final rs ts)
    (hcovers : Covers text final.offset start (rs.map Reading.token))
    (hnone : rs.IsChain fun r s => ¬Joins r s) : shown ts = shown rs := by
  induction h generalizing start with
  | nil => rfl
  | @run first t more rs ts hjoined hbehind hkind hoffset hstate hstop hlater ih =>
      cases more with
      | nil =>
          have htoken : t.token = first.token := token_eq hcovers hkind hoffset hstop
          cases hcovers with
          | cons _ _ _ _ hrest =>
              change (t.token, t.place.state) :: shown ts = (first.token, first.place.state) :: shown rs
              rw [htoken, hstate, ih hrest hnone.tail]
      | cons second more =>
          exact absurd (List.isChain_cons_cons.mp hjoined).1 (List.isChain_cons_cons.mp hnone).1

/-- A fold has the same tokens as before exactly where nothing joins. -/
theorem tokens_eq_iff {text : List Char} {start : Nat} (h : Folds Joins final rs ts)
    (hcovers : Covers text final.offset start (rs.map Reading.token)) :
    ts.map Reading.token = rs.map Reading.token ↔ rs.IsChain fun r s => ¬Joins r s := by
  constructor
  · intro htokens
    have hlength := congrArg List.length htokens
    rw [List.length_map, List.length_map] at hlength
    exact h.length_eq_iff.mp hlength
  · intro hnone
    have hfirst := congrArg (List.map Prod.fst) (h.shown_eq hcovers hnone)
    rwa [shown, shown, List.map_map, List.map_map] at hfirst

/-- In a run of several tokens there is none of a kind that does not join. -/
theorem kind_ne_of_isChain {kind : Kind} (halone : ∀ r s, Joins r s → r.kind ≠ kind ∧ s.kind ≠ kind)
    {first second : Reading π ι} {more : List (Reading π ι)}
    (h : (first :: second :: more).IsChain Joins) : ∀ s ∈ first :: second :: more, s.kind ≠ kind := by
  induction more generalizing first second with
  | nil =>
      obtain ⟨hjoins, -⟩ := List.isChain_cons_cons.mp h
      obtain ⟨hfirst, hsecond⟩ := halone _ _ hjoins
      exact List.forall_mem_cons.mpr ⟨hfirst, List.forall_mem_singleton.mpr hsecond⟩
  | cons third more ih =>
      obtain ⟨hjoins, hmore⟩ := List.isChain_cons_cons.mp h
      exact List.forall_mem_cons.mpr ⟨(halone _ _ hjoins).1, ih hmore⟩

/-- Tokens of a kind that does not join stay. -/
theorem mem_tokens_iff {kind : Kind} {text : List Char} {start : Nat}
    (halone : ∀ r s, Joins r s → r.kind ≠ kind ∧ s.kind ≠ kind) (h : Folds Joins final rs ts)
    (hcovers : Covers text final.offset start (rs.map Reading.token)) {token : Token}
    (htoken : token.kind = kind) : token ∈ ts.map Reading.token ↔ token ∈ rs.map Reading.token := by
  induction h generalizing start with
  | nil => exact Iff.rfl
  | @run first t more rs ts hjoined hbehind hkind hoffset hstate hstop hlater ih =>
      obtain ⟨middle, -, -, hrest⟩ := (List.map_append ▸ hcovers : Covers text final.offset start
        (first.token :: (more.map Reading.token ++ rs.map Reading.token))).behind
      have hrest := ih hrest
      cases more with
      | nil =>
          rw [List.map_cons, token_eq hcovers hkind hoffset hstop, List.mem_cons, hrest]
          exact List.mem_cons.symm
      | cons second more =>
          have hkinds := kind_ne_of_isChain halone hjoined
          obtain ⟨s, hs, hsame⟩ := exists_mem_kindOf first (second :: more)
          have ht : token ≠ t.token := by
            rintro rfl
            exact hkinds s hs (hsame.symm.trans (hkind.symm.trans htoken))
          have hnone : token ∉ (first :: second :: more).map Reading.token := by
            intro hmem
            obtain ⟨r, hr, rfl⟩ := List.mem_map.mp hmem
            exact hkinds r hr htoken
          rw [List.map_cons, List.mem_cons, or_iff_right ht, hrest, List.map_append, List.mem_append,
            or_iff_right hnone]

/-- What is said of neighbours is said of neighbours in the fold, if a run stands in for its ends. -/
theorem isChain {Next : Reading π ι → Reading π ι → Prop} (h : Folds Joins final rs ts)
    (hchain : rs.IsChain Next)
    (hrun : ∀ first more t, (first :: more).IsChain Joins → (first :: more).IsChain Next →
      t.kind = kindOf first.kind (first :: more) → t.place.state = first.place.state →
      (∀ last ∈ (first :: more).getLast?, ∀ s, Next last s → Next t s) ∧
        ∀ s, Next s first → Next s t) : ts.IsChain Next := by
  induction h with
  | nil => exact List.isChain_nil
  | @run first t more rs ts hjoined hbehind hkind hoffset hstate hstop hlater ih =>
      obtain ⟨hfront, hrest, hseam⟩ := List.isChain_append.mp hchain
      refine List.isChain_cons.mpr ⟨?_, ih hrest⟩
      intro s hs
      obtain ⟨hleft, -⟩ := hrun first more t hjoined hfront hkind hstate
      obtain ⟨last, hlast⟩ : ∃ last, (first :: more).getLast? = some last :=
        ⟨_, List.getLast?_eq_some_getLast (List.cons_ne_nil _ _)⟩
      refine hleft last hlast s ?_
      cases hlater with
      | nil => cases hs
      | @run next u others later _ hnext _ hkind _ hstate _ _ =>
          obtain rfl : u = s := Option.some.inj hs
          obtain ⟨-, hright⟩ := hrun next others u hnext hrest.left_of_append hkind hstate
          exact hright last (hseam last hlast next rfl)

end Folds

/-! ## Grouping a fold -/

/-- A group is shown for the first token and all that joins it. -/
theorem shown_group_cons (grouping : Grouping) (final : Place π ι) (h : Apart (r :: rs)) :
    let joins : Reading π ι → Bool := fun s => grouping.joins r.kind s.kind
    let behind : Tape π ι := ⟨rs.dropWhile joins, final⟩
    shown ((Tape.mk (r :: rs) final).group grouping).readings =
      (⟨kindOf r.kind (rs.takeWhile joins), r.place.offset, behind.place.offset⟩, r.place.state) ::
        shown (behind.group grouping).readings := by
  intro joins behind
  have hdrop : (Tape.mk rs final).drop (rs.takeWhile joins).length = behind := by
    apply Tape.ext_readings
    · exact List.append_cancel_left ((List.prefix_iff_eq_append.mp (List.takeWhile_prefix joins)).trans
        List.takeWhile_append_dropWhile.symm)
    · rfl
  rw [Tape.group_cons, front_of_apart grouping h, hdrop]
  rfl

/-- Value text in a run makes it a value, and nothing else does. -/
theorem kindOf_eq_value (r : Reading π ι) (rs : List (Reading π ι)) :
    (kindOf r.kind (r :: rs) == .attributeValue) = (r :: rs).any fun s => s.kind == .attributeValue := by
  rw [kindOf]
  split
  · rename_i htext
    rw [htext]
    rfl
  · rename_i hnone
    have hnone := Bool.eq_false_iff.mpr hnone
    rw [hnone]
    exact (Bool.or_eq_false_iff.mp hnone).1

namespace Folds

variable (hjoins : ∀ r s, Joins r s → grouping.joins r.kind s.kind = true)
include hjoins

theorem joins_of_isChain {more : List (Reading π ι)} (h : (r :: more).IsChain Joins) :
    ∀ s ∈ more, grouping.joins r.kind s.kind = true :=
  (List.pairwise_cons.mp (pairwise_of_isChain (h.imp hjoins))).1

theorem dropWhile_joins (h : Folds Joins final rs ts) (kind : Kind) :
    let joins : Reading π ι → Bool := fun s => grouping.joins kind s.kind
    Folds Joins final (rs.dropWhile joins) (ts.dropWhile joins) ∧
      (ts.takeWhile joins).any (fun s => s.kind == .attributeValue) =
        (rs.takeWhile joins).any fun s => s.kind == .attributeValue := by
  intro joins
  induction h with
  | nil => exact ⟨.nil, rfl⟩
  | @run first t more rs ts hjoined hbehind hkind hoffset hstate hstop hlater ih =>
      have hmore := joins_of_isChain hjoins hjoined
      have hsame : joins t = joins first := by
        simp only [joins, hkind]
        rw [kindOf_cons_self, Grouping.joins_comm, joins_kindOf hmore, Grouping.joins_comm]
      cases hfirst : joins first with
      | true =>
          have hall : ∀ s ∈ first :: more, joins s = true :=
            List.forall_mem_cons.mpr ⟨hfirst, fun s hs => Grouping.joins_trans hfirst (hmore s hs)⟩
          rw [List.dropWhile_append_of_pos hall, List.takeWhile_append_of_pos hall,
            List.dropWhile_cons_of_pos (hsame.trans hfirst),
            List.takeWhile_cons_of_pos (hsame.trans hfirst), List.any_cons, List.any_append, ← ih.2,
            hkind, kindOf_eq_value]
          exact ⟨ih.1, rfl⟩
      | false =>
          have hfirst : ¬joins first = true := by simp [hfirst]
          rw [List.cons_append, List.dropWhile_cons_of_neg hfirst, List.takeWhile_cons_of_neg hfirst,
            List.dropWhile_cons_of_neg (hsame ▸ hfirst), List.takeWhile_cons_of_neg (hsame ▸ hfirst)]
          exact ⟨.run hjoined hbehind hkind hoffset hstate hstop hlater, rfl⟩

/-- Grouping shows the same whether or not some of what it joins is folded before. -/
theorem shown_group (h : Folds Joins final rs ts) (hapart : Apart rs) :
    shown ((Tape.mk ts final).group grouping).readings =
      shown ((Tape.mk rs final).group grouping).readings := by
  induction hlength : ts.length using Nat.strongRecOn generalizing rs ts with
  | ind n ih =>
      have hfolded := h.apart hapart
      cases h with
      | nil => rfl
      | @run first t more rs ts hjoined hbehind hkind hoffset hstate hstop hlater =>
          let joins : Reading π ι → Bool := fun s => grouping.joins first.kind s.kind
          have hmore := joins_of_isChain hjoins hjoined
          have hsame : (fun s : Reading π ι => grouping.joins t.kind s.kind) = joins := by
            funext s
            simp only [joins, hkind]
            rw [kindOf_cons_self, joins_kindOf hmore]
          obtain ⟨hrest, hvalue⟩ := hlater.dropWhile_joins hjoins first.kind
          have hkinds : kindOf t.kind (ts.takeWhile joins) =
              kindOf first.kind (more ++ rs.takeWhile joins) := by
            rw [hkind, kindOf_cons_self, kindOf_append]
            simp only [kindOf, joins, hvalue]
          have hshort : (ts.dropWhile joins).length < n := by
            have hle := (List.dropWhile_suffix joins (l := ts)).length_le
            simp only [List.length_cons] at hlength
            omega
          have hbehind : Apart (rs.dropWhile joins) :=
            hapart.sublist ((List.dropWhile_sublist joins).trans
              (List.sublist_append_right (first :: more) rs))
          have hgroups := ih _ hshort hrest hbehind rfl
          rw [List.cons_append] at hapart ⊢
          rw [shown_group_cons grouping final hfolded, shown_group_cons grouping final hapart, hsame,
            List.dropWhile_append_of_pos hmore, List.takeWhile_append_of_pos hmore, hkinds, hoffset,
            hstate, hrest.offset_place, hgroups]

end Folds

end Group

end Relex
