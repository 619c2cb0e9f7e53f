import Relex.Stream.Reader

/-! # Grouping tokens

Grammars report text in small pieces: a comment line by line, an attribute value word by word.
Grouping joins the pieces of one run into a single token. The readings of a tape are cut into
consecutive groups, of which none is lost or repeated (`members_ofReadings`), and each group is
shown as one reading, which starts where its first member starts and ends where the next group
starts.
-/

namespace Relex

/-- What is joined. -/
inductive Grouping where
  /-- Runs of one kind that joins its neighbours. -/
  | runs
  /-- Such runs, and whole attribute values with the character references in them. -/
  | values
  deriving Repr, DecidableEq

/-- Consecutive readings that are shown as one token of some kind. -/
structure Group (π ι : Type) where
  kind : Kind
  first : Reading π ι
  /-- The members behind the first. -/
  more : List (Reading π ι)

namespace Group

variable {π ι : Type}

def members (group : Group π ι) : List (Reading π ι) :=
  group.first :: group.more

/-- The group that begins with `r`, when `rs` follows. -/
def front (grouping : Grouping) (r : Reading π ι) (rs : List (Reading π ι)) : Group π ι :=
  -- Empty tokens share their start with the token behind them, which decides the kind.
  let atStart := rs.takeWhile fun s => s.place.offset == r.place.offset
  let kind := (atStart.getLast?.getD r).kind
  let afterStart := rs.drop atStart.length
  let alike := if kind.joinsNeighbours then afterStart.takeWhile fun s => s.kind == kind else []
  let afterAlike := afterStart.drop alike.length
  let pieces :=
    if grouping = .values ∧ kind.isValuePiece then
      afterAlike.takeWhile fun s => s.kind.isValuePiece
    else
      []
  -- References by themselves stay references; one piece of value text makes all of it a value.
  { kind := if pieces.any fun s => s.kind == .attributeValue then .attributeValue else kind
    first := r
    more := atStart ++ alike ++ pieces }

/-- Cuts readings into groups. -/
def ofReadings (grouping : Grouping) : List (Reading π ι) → List (Group π ι)
  | [] => []
  | r :: rs =>
    let group := front grouping r rs
    group :: ofReadings grouping (rs.drop group.more.length)
termination_by readings => readings.length
decreasing_by simp only [List.length_cons, List.length_drop]; omega

/-- Where the first of some groups starts, or where all of them end. -/
def startPlace (final : Place π ι) : List (Group π ι) → Place π ι
  | [] => final
  | group :: _ => group.first.place

/-- A group as one reading, when the next group starts at `next`. By the time it is shown, reading
    has got as far as `next`: the live view is that of `next`, and so is the answer about a
    snapshot where the first member has none. -/
def reading (group : Group π ι) (next : Place π ι) : Reading π ι where
  kind := group.kind
  stop := next.offset
  place :=
    { offset := group.first.place.offset
      state := group.first.place.state
      snapshot :=
        match group.first.place.snapshot with
        | .ok snapshot => .ok snapshot
        | .error _ => next.snapshot
      live := next.live }

/-- One reading for each group. -/
def readings (final : Place π ι) : List (Group π ι) → List (Reading π ι)
  | [] => []
  | group :: groups => group.reading (startPlace final groups) :: readings final groups

/-- The members behind the first are the readings that follow it. -/
theorem more_front_isPrefix (grouping : Grouping) (r : Reading π ι) (rs : List (Reading π ι)) :
    (front grouping r rs).more <+: rs := by
  -- Each of the three parts is a prefix of what the parts before it leave.
  have append_isPrefix {as bs cs : List (Reading π ι)} (ha : as <+: cs)
      (hb : bs <+: cs.drop as.length) : as ++ bs <+: cs := by
    obtain ⟨rest, rfl⟩ := ha
    simpa using hb
  have ifPrefix (p : Prop) [Decidable p] (q : Reading π ι → Bool) (cs : List (Reading π ι)) :
      (if p then cs.takeWhile q else []) <+: cs := by
    split
    · exact List.takeWhile_prefix q
    · exact List.nil_prefix
  simp only [front]
  refine append_isPrefix (append_isPrefix (List.takeWhile_prefix _) (ifPrefix ..)) ?_
  rw [List.length_append, ← List.drop_drop]
  exact ifPrefix ..

/-- Grouping neither loses nor repeats a reading. -/
theorem members_ofReadings (grouping : Grouping) (rs : List (Reading π ι)) :
    (ofReadings grouping rs).flatMap members = rs := by
  have append_drop {as bs : List (Reading π ι)} (h : as <+: bs) :
      as ++ bs.drop as.length = bs := by
    obtain ⟨rest, rfl⟩ := h
    simp
  fun_induction ofReadings grouping rs with
  | case1 => rfl
  | case2 r rs group ih =>
    simp only [List.flatMap_cons, ih, members, List.cons_append]
    exact congrArg (r :: ·) (append_drop (more_front_isPrefix grouping r rs))

end Group

/-- Joins the pieces on a tape. -/
def Tape.group {π ι : Type} (grouping : Grouping) (tape : Tape π ι) : Tape π ι where
  readings := Group.readings tape.final (Group.ofReadings grouping tape.readings)
  final := tape.final

/-- A reader with its tokens grouped. -/
structure Grouped (ρ : Type) where
  grouping : Grouping
  inner : ρ

/-- Before any start a grouped stream stands at the beginning without a token, whatever the reader
    below would show. -/
instance {ρ π ι : Type} [Reader ρ π ι] : Reader (Grouped ρ) π ι where
  idle reader :=
    let inner := (Reader.idle reader.inner).place
    .ended { offset := 0, state := 0, snapshot := inner.snapshot, live := inner.live }
  start reader source start stop state :=
    (Reader.start reader.inner source start stop state).map (Tape.group reader.grouping)
  resume reader source stop snapshot :=
    (Reader.resume reader.inner source stop snapshot).map (Tape.group reader.grouping)
  regionEnd reader := Reader.regionEnd reader.inner

end Relex
