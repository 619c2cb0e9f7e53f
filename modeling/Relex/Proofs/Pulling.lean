import Relex.Proofs.Turns

/-! # Reading on demand

A lexer need not know the tokens still to come: it can find each token when it moves on to it, and
then it can fail there. What such a lexer shows from a state on is a tape once every move is known to
succeed, and `Tracks` says so. Grouping on demand keeps this (`Merging.exists_locate`): it moves the
lexer below past one group, and keeps of the first member what it has to show later.
-/

namespace Relex

open Text

/-- Lexers that find one token at a time. -/
class Pulling (σ : Type) (κ π ι : outParam Type) where
  /-- What no move changes: the modes, the source and the region. -/
  setting : σ → κ
  kind? : σ → Option Kind
  /-- The offset behind the current token. -/
  stop : σ → Nat
  place : σ → Place π ι
  /-- Moves on to the next token and finds it. -/
  advance : σ → Except RangeError σ

/-- How many moves such a lexer can make is bounded: each uses up something of what is left. -/
class Draining (σ : Type) (κ π ι : outParam Type) extends Pulling σ κ π ι where
  left : σ → Nat
  left_lt : ∀ {s t : σ}, (kind? s).isSome → advance s = .ok t → left t < left s

open Pulling

section Tracks

variable {σ κ π ι : Type} [Pulling σ κ π ι] {setting : κ} {s : σ} {tape : Tape π ι}

/-- Moves on several times. -/
def advances : (times : Nat) → σ → Except RangeError σ
  | 0, s => .ok s
  | times + 1, s => advance s >>= advances times

/-- What a lexer shows in a setting is what a tape shows. -/
structure Shows (setting : κ) (s : σ) (tape : Tape π ι) : Prop where
  setting : Pulling.setting s = setting
  kind? : Pulling.kind? s = tape.kind?
  stop : Pulling.stop s = tape.stop
  place : Pulling.place s = tape.place

/-- A lexer shows a tape, and so it does after every move: no move fails, and at the end it stays. -/
inductive Tracks (setting : κ) : σ → Tape π ι → Prop
  | ended {s : σ} {final : Place π ι} (hshows : Shows setting s (.ended final))
      (hstays : advance s = .ok s) : Tracks setting s (.ended final)
  | cons {s next : σ} {r : Reading π ι} {tape : Tape π ι}
      (hshows : Shows setting s (tape.cons r)) (hnext : advance s = .ok next)
      (hlater : Tracks setting next tape) : Tracks setting s (tape.cons r)

namespace Tracks

theorem shows (h : Tracks setting s tape) : Shows setting s tape := by
  cases h with
  | ended hshows hstays => exact hshows
  | cons hshows hnext hlater => exact hshows

theorem exists_advance (h : Tracks setting s tape) :
    ∃ next, advance s = .ok next ∧ Tracks setting next tape.advance := by
  cases h with
  | ended hshows hstays => exact ⟨s, hstays, .ended hshows hstays⟩
  | cons hshows hnext hlater => exact ⟨_, hnext, hlater⟩

theorem exists_advances (h : Tracks setting s tape) (times : Nat) :
    ∃ later, advances times s = .ok later ∧ Tracks setting later (tape.drop times) := by
  induction times generalizing s tape with
  | zero => exact ⟨s, rfl, h⟩
  | succ times ih =>
      obtain ⟨next, hnext, hlater⟩ := h.exists_advance
      obtain ⟨later, hmoves, htracks⟩ := ih hlater
      rw [Tape.drop_succ]
      refine ⟨later, ?_, htracks⟩
      rw [advances, hnext]
      exact hmoves

end Tracks

end Tracks

/-! ## Grouping on demand -/

section Absorb

variable {σ κ π ι : Type} [Draining σ κ π ι] {setting : κ} {s : σ} {rs : List (Reading π ι)}
  {final : Place π ι}

/-- Passes over the tokens that satisfy a predicate of their kind and the offset where they start. -/
def absorb (p : Kind → Nat → Bool) (s : σ) : Except RangeError (List Kind × σ) :=
  match _hkind : kind? s with
  | none => .ok ([], s)
  | some kind =>
    if p kind (place s).offset then
      match _hnext : advance s with
      | .error error => .error error
      | .ok next => (absorb p next).map fun (kinds, behind) => (kind :: kinds, behind)
    else
      .ok ([], s)
termination_by Draining.left s
decreasing_by exact Draining.left_lt (by simp [_hkind]) _hnext

/-- Passes over tokens of some kinds under a condition, and over none otherwise. -/
def absorbIf (condition : Prop) [Decidable condition] (p : Kind → Bool) (s : σ) :
    Except RangeError (List Kind × σ) :=
  if condition then absorb (fun kind _ => p kind) s else .ok ([], s)

theorem absorb_of_none (p : Kind → Nat → Bool) (hkind : kind? s = none) :
    absorb p s = .ok ([], s) := by
  unfold absorb
  split <;> simp_all

theorem absorb_of_some (p : Kind → Nat → Bool) {kind : Kind} {next : σ}
    (hkind : kind? s = some kind) (hnext : advance s = .ok next) :
    absorb p s = if p kind (place s).offset then
      (absorb p next).map fun (kinds, behind) => (kind :: kinds, behind) else .ok ([], s) := by
  conv => lhs; unfold absorb
  split
  · simp_all
  · rename_i other hother
    obtain rfl := Option.some.inj (hkind.symm.trans hother)
    split
    · split
      · simp_all
      · rename_i other hother
        obtain rfl := Except.ok.inj (hnext.symm.trans hother)
        rfl
    · rfl

/-- The tokens that are passed over are the first ones of the tape. -/
theorem Tracks.exists_absorb (p : Kind → Nat → Bool) (h : Tracks setting s ⟨rs, final⟩) :
    let passed := rs.takeWhile fun r => p r.kind r.place.offset
    ∃ behind, absorb p s = .ok (passed.map (·.kind), behind) ∧
      Tracks setting behind ⟨rs.drop passed.length, final⟩ := by
  induction rs generalizing s with
  | nil => exact ⟨s, absorb_of_none p h.shows.kind?, h⟩
  | cons r rs ih =>
      have hplace : Pulling.place s = r.place := h.shows.place
      obtain ⟨next, hnext, hlater⟩ := h.exists_advance
      obtain ⟨behind, habsorb, hbehind⟩ := ih hlater
      rw [absorb_of_some p h.shows.kind? hnext, hplace]
      cases hp : p r.kind r.place.offset with
      | false => exact ⟨s, by simp [hp], by simpa [hp] using h⟩
      | true => exact ⟨behind, by simp [hp, habsorb, Except.map], by simpa [hp] using hbehind⟩

theorem Tracks.exists_absorbIf (condition : Prop) [Decidable condition] (p : Kind → Bool)
    (h : Tracks setting s ⟨rs, final⟩) :
    let passed := if condition then rs.takeWhile fun r => p r.kind else []
    ∃ behind, absorbIf condition p s = .ok (passed.map (·.kind), behind) ∧
      Tracks setting behind ⟨rs.drop passed.length, final⟩ := by
  unfold absorbIf
  by_cases hcondition : condition
  · simpa only [if_pos hcondition] using h.exists_absorb fun kind _ => p kind
  · simp only [if_neg hcondition]
    exact ⟨s, rfl, h⟩

end Absorb

/-- A lexer that groups the tokens of another one. It shows a group once the other one has moved past
    it, and keeps what the first member showed. -/
structure Merging (σ π : Type) where
  grouping : Grouping
  original : σ
  token? : Option Kind
  offset : Nat
  state : UInt32
  snapshot? : Option π

namespace Merging

variable {σ κ π ι : Type} [Draining σ κ π ι]

/-- A lexer before its first start. -/
def idle (grouping : Grouping) (original : σ) : Merging σ π where
  grouping := grouping
  original := original
  token? := none
  offset := 0
  state := 0
  snapshot? := none

/-- Passes over what is joined with a first token of some kind and offset, and answers the kind of the
    group. -/
def merge (grouping : Grouping) (kind : Kind) (offset : Nat) (s : σ) :
    Except RangeError (Kind × σ) := do
  -- Empty tokens share their start with the token behind them.
  let (kinds, s) ← absorb (fun _ start => start == offset) s
  let kind := kinds.getLast?.getD kind
  let (_, s) ← absorbIf (kind.joinsNeighbours = true) (· == kind) s
  let (kinds, s) ← absorbIf (grouping = .values ∧ kind.isValuePiece = true) Kind.isValuePiece s
  return (if kinds.any (· == .attributeValue) then .attributeValue else kind, s)

/-- Takes the group in front of which the lexer below stands. -/
def locate (m : Merging σ π) : Except RangeError (Merging σ π) :=
  let place := Pulling.place m.original
  let m := { m with
    offset := place.offset
    state := place.state
    snapshot? := place.snapshot.toOption }
  match Pulling.kind? m.original with
  | none => .ok { m with token? := none }
  | some kind => do
    let behind ← Pulling.advance m.original
    let (kind, behind) ← merge m.grouping kind place.offset behind
    return { m with original := behind, token? := some kind }

/-- Where the first member had no snapshot, the lexer below is asked again. -/
instance : Pulling (Merging σ π) (Grouping × κ) π ι where
  setting m := (m.grouping, Pulling.setting m.original)
  kind? m := m.token?
  stop m := if m.token?.isSome then (Pulling.place m.original).offset else m.offset
  place m :=
    { offset := m.offset
      state := m.state
      snapshot :=
        match m.snapshot? with
        | some snapshot => .ok snapshot
        | none => (Pulling.place m.original).snapshot
      live := (Pulling.place m.original).live }
  advance m := if m.token?.isSome then m.locate else .ok m

variable {setting : κ} {s : σ} {final : Place π ι} {rs : List (Reading π ι)} {tape : Tape π ι}

theorem exists_merge (grouping : Grouping) (r : Reading π ι)
    (h : Tracks setting s ⟨rs, final⟩) :
    let group := Group.front grouping r rs
    ∃ behind, merge grouping r.kind r.place.offset s = .ok (group.kind, behind) ∧
      Tracks setting behind ⟨rs.drop group.more.length, final⟩ := by
  obtain ⟨s₁, hstart, h₁⟩ := h.exists_absorb fun _ start => start == r.place.offset
  let kind := ((rs.takeWhile fun t => t.place.offset == r.place.offset).getLast?.getD r).kind
  obtain ⟨s₂, halike, h₂⟩ := h₁.exists_absorbIf (kind.joinsNeighbours = true) (· == kind)
  obtain ⟨s₃, hpieces, h₃⟩ :=
    h₂.exists_absorbIf (grouping = .values ∧ kind.isValuePiece = true) Kind.isValuePiece
  have hkind : (((rs.takeWhile fun t => t.place.offset == r.place.offset).map
      (·.kind)).getLast?.getD r.kind) = kind := by
    simp only [kind, List.getLast?_map]
    cases (rs.takeWhile fun t => t.place.offset == r.place.offset).getLast? <;> rfl
  refine ⟨s₃, ?_, ?_⟩
  · simp only [merge, hstart, bind, Except.bind, hkind, halike, hpieces, List.any_map]
    rfl
  · rw [List.drop_drop, List.drop_drop] at h₃
    simpa only [Group.front, List.length_append, Nat.add_assoc] using h₃

/-- Without a token below there is no group. -/
theorem exists_locate_ended (m : Merging σ π) (h : Tracks setting m.original (.ended final)) :
    ∃ located, m.locate = .ok located ∧
      Tracks (m.grouping, setting) located (.ended final) := by
  have hkind : Pulling.kind? m.original = none := h.shows.kind?
  have hplace : Pulling.place m.original = final := h.shows.place
  unfold locate
  simp only [hkind, hplace]
  refine ⟨_, rfl, .ended ⟨?_, rfl, rfl, ?_⟩ rfl⟩
  · exact congrArg (m.grouping, ·) h.shows.setting
  · obtain ⟨offset, state, snapshot, live⟩ := final
    simp only [Pulling.place, hplace, Tape.place, Tape.ended]
    cases snapshot <;> rfl

/-- The groups are those of the tape. -/
theorem exists_locate (m : Merging σ π) (h : Tracks setting m.original tape) :
    ∃ located, m.locate = .ok located ∧
      Tracks (m.grouping, setting) located (tape.group m.grouping) := by
  obtain ⟨rs, final⟩ := tape
  induction hlength : rs.length using Nat.strongRecOn generalizing m rs with
  | _ length ih =>
  cases rs with
  | nil =>
      have hgroup : Tape.group m.grouping ⟨[], final⟩ = .ended final := by
        simp only [Tape.group, Tape.ended, Group.ofReadings, Group.readings]
      rw [hgroup]
      exact m.exists_locate_ended h
  | cons r rs =>
      have hkind : Pulling.kind? m.original = some r.kind := h.shows.kind?
      have hplace : Pulling.place m.original = r.place := h.shows.place
      obtain ⟨next, hnext, hlater⟩ := h.exists_advance
      obtain ⟨behind, hmerge, hbehind⟩ := exists_merge m.grouping r hlater
      let rest := (Tape.mk rs final).drop (Group.front m.grouping r rs).more.length
      have hrest : Pulling.place behind = rest.place := hbehind.shows.place
      let located : Merging σ π :=
        { grouping := m.grouping
          original := behind
          token? := some (Group.front m.grouping r rs).kind
          offset := r.place.offset
          state := r.place.state
          snapshot? := r.place.snapshot.toOption }
      have hlocate : m.locate = .ok located := by
        simp only [locate, hkind, hplace, hnext, hmerge, bind, Except.bind]
        rfl
      have hshorter : (rs.drop (Group.front m.grouping r rs).more.length).length < length := by
        simp only [← hlength, List.length_drop, List.length_cons]
        omega
      obtain ⟨later, hnextGroup, hgroups⟩ := ih _ hshorter located _ hbehind rfl
      refine ⟨located, hlocate, ?_⟩
      rw [Tape.group_cons]
      refine .cons ⟨?_, rfl, ?_, ?_⟩ hnextGroup hgroups
      · exact congrArg (m.grouping, ·) hbehind.shows.setting
      · exact congrArg Place.offset hrest
      · change Pulling.place located = ((Group.front m.grouping r rs).reading rest.place).place
        have hfirst : (Group.front m.grouping r rs).first = r := rfl
        simp only [Pulling.place, located, hrest, Group.reading, hfirst]
        cases r.place.snapshot <;> rfl

end Merging

end Relex
