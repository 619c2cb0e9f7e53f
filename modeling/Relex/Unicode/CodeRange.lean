/-! # Sets of code points as range tables

Unicode character properties are given by tables: lists of closed ranges of code points in ascending
order, which neither touch nor overlap. The order is part of a table, so a look-up may stop early and
still misses no range (`CodeRanges.covers_iff`). All tables of this library are those of Unicode 17.0.
-/

namespace Relex.Unicode

/-- Whether ranges, given by their first and last members, stand in order from a code point on: none is
    empty, and between each one and the next at least one code point is left out. -/
def ascendFrom (bound : Nat) : List (Nat × Nat) → Bool
  | [] => true
  | (first, last) :: ranges => bound ≤ first && first ≤ last && ascendFrom (last + 2) ranges

/-- A table of code points: first and last member of each range, in ascending order. -/
structure CodeRanges where
  ranges : List (Nat × Nat)
  ascend : ascendFrom 0 ranges = true := by decide +kernel

namespace CodeRanges

/-- Whether a code point lies in one of the ranges. The search ends at the first range that reaches
    as far as the code point, since all later ranges begin behind it. -/
def search (code : Nat) : List (Nat × Nat) → Bool
  | [] => false
  | (first, last) :: ranges => if code ≤ last then decide (first ≤ code) else search code ranges

/-- Whether a code point is in the table. -/
def covers (table : CodeRanges) (code : Nat) : Bool := search code table.ranges

theorem le_first_of_ascendFrom {bound : Nat} {ranges : List (Nat × Nat)}
    (h : ascendFrom bound ranges = true) : ∀ range ∈ ranges, bound ≤ range.1 := by
  induction ranges generalizing bound with
  | nil => simp
  | cons range ranges ih =>
      simp only [ascendFrom, Bool.and_eq_true, decide_eq_true_eq] at h
      obtain ⟨⟨hfirst, hlast⟩, hlater⟩ := h
      intro other hother
      cases hother with
      | head => exact hfirst
      | tail _ hother =>
          have := ih hlater other hother
          omega

theorem search_iff {bound : Nat} {ranges : List (Nat × Nat)} (h : ascendFrom bound ranges = true)
    (code : Nat) : search code ranges = true ↔ ∃ range ∈ ranges, range.1 ≤ code ∧ code ≤ range.2 := by
  induction ranges generalizing bound with
  | nil => simp [search]
  | cons range ranges ih =>
      obtain ⟨first, last⟩ := range
      simp only [ascendFrom, Bool.and_eq_true] at h
      have hlater := h.2
      simp only [search, List.mem_cons, or_and_right, exists_or, exists_eq_left]
      split
      · -- The search stops here: the ranges that are not looked at begin too late.
        have hnone : ¬∃ range ∈ ranges, range.1 ≤ code ∧ code ≤ range.2 := by
          rintro ⟨range, hmem, hle, _⟩
          have := le_first_of_ascendFrom hlater range hmem
          omega
        simp only [decide_eq_true_eq, hnone, or_false]
        omega
      · rw [ih hlater]
        have hfirst : ¬(first ≤ code ∧ code ≤ last) := by omega
        simp [hfirst]

/-- Stopping early misses no range. -/
theorem covers_iff (table : CodeRanges) (code : Nat) :
    table.covers code = true ↔ ∃ range ∈ table.ranges, range.1 ≤ code ∧ code ≤ range.2 :=
  search_iff table.ascend code

end CodeRanges

end Relex.Unicode
