import Relex.Unicode.CharClass

/-! # Classes of characters that have no member in common

A character is told by its class only if the classes that are asked for first leave it alone. Two
tables have no code point in common when no range of one meets a range of the other
(`CodeRanges.covers_eq_false_of_apart`), which is decided for the tables at hand. Among the letters of
ASCII the capital letters of Unicode are those of ASCII.
-/

namespace Relex.Unicode

namespace CodeRanges

/-- No range of one table meets a range of the other. -/
def apart (table other : CodeRanges) : Bool :=
  table.ranges.all fun range => other.ranges.all fun range' => range.2 < range'.1 || range'.2 < range.1

theorem covers_eq_false_of_apart {table other : CodeRanges} (h : table.apart other = true) {code : Nat}
    (hcode : table.covers code = true) : other.covers code = false := by
  rw [Bool.eq_false_iff]
  intro hother
  obtain ⟨range, hrange, hrangeCode⟩ := (table.covers_iff code).mp hcode
  obtain ⟨range', hrange', hrangeCode'⟩ := (other.covers_iff code).mp hother
  have hapart := List.all_eq_true.mp (List.all_eq_true.mp h range hrange) range' hrange'
  simp only [Bool.or_eq_true, decide_eq_true_eq] at hapart
  omega

end CodeRanges

/-- The code points of the control characters. -/
def controlRanges : CodeRanges where
  ranges := [(0x0, 0x1F), (0x7F, 0x9F)]

theorem covers_controlRanges {c : Char} (h : isControl c = true) :
    controlRanges.covers c.toNat = true := by
  simp only [isControl, Bool.or_eq_true, Bool.and_eq_true, decide_eq_true_eq] at h
  simp only [CodeRanges.covers_iff, controlRanges, List.mem_cons, List.not_mem_nil, or_false,
    exists_eq_or_imp, exists_eq_left]
  omega

theorem isAlphanumeric_of_isWhiteSpace {c : Char} (h : isWhiteSpace c = true) :
    isAlphanumeric c = false := by
  have hletters : whiteSpaceRanges.apart alphabeticRanges = true := by decide +kernel
  have hnumbers : whiteSpaceRanges.apart numericRanges = true := by decide +kernel
  simp only [isAlphanumeric, isAlphabetic, CodeRanges.covers_eq_false_of_apart hletters h,
    CodeRanges.covers_eq_false_of_apart hnumbers h, Bool.or_false]

theorem isAlphanumeric_of_isControl {c : Char} (h : isControl c = true) :
    isAlphanumeric c = false := by
  have hletters : controlRanges.apart alphabeticRanges = true := by decide +kernel
  have hnumbers : controlRanges.apart numericRanges = true := by decide +kernel
  have hcovers := covers_controlRanges h
  simp only [isAlphanumeric, isAlphabetic, CodeRanges.covers_eq_false_of_apart hletters hcovers,
    CodeRanges.covers_eq_false_of_apart hnumbers hcovers, Bool.or_false]

/-- The code points of the digits of ASCII. -/
def digitRanges : CodeRanges where
  ranges := [(0x30, 0x39)]

theorem covers_digitRanges {c : Char} (h : c.isDigit = true) :
    digitRanges.covers c.toNat = true := by
  obtain ⟨hfirst, hlast⟩ := Bool.and_eq_true_iff.mp h
  have hfirst : 48 ≤ c.toNat := of_decide_eq_true hfirst
  have hlast : c.toNat ≤ 57 := of_decide_eq_true hlast
  exact (digitRanges.covers_iff c.toNat).mpr ⟨_, List.mem_singleton_self _, hfirst, hlast⟩

theorem isAlphabetic_of_isDigit {c : Char} (h : c.isDigit = true) : isAlphabetic c = false := by
  have hapart : digitRanges.apart alphabeticRanges = true := by decide +kernel
  exact CodeRanges.covers_eq_false_of_apart hapart (covers_digitRanges h)

theorem isWhiteSpace_of_isDigit {c : Char} (h : c.isDigit = true) : isWhiteSpace c = false := by
  have hapart : digitRanges.apart whiteSpaceRanges = true := by decide
  exact CodeRanges.covers_eq_false_of_apart hapart (covers_digitRanges h)

theorem toNat_of_isAlpha {c : Char} (h : c.isAlpha = true) :
    (65 ≤ c.toNat ∧ c.toNat ≤ 90) ∨ (97 ≤ c.toNat ∧ c.toNat ≤ 122) := by
  rcases Bool.or_eq_true_iff.mp h with hupper | hlower
  · exact .inl (of_decide_eq_true hupper)
  · obtain ⟨hfirst, hlast⟩ := Bool.and_eq_true_iff.mp hlower
    exact .inr ⟨of_decide_eq_true hfirst, of_decide_eq_true hlast⟩

theorem isUppercase_of_isAlpha {c : Char} (h : c.isAlpha = true) : isUppercase c = c.isUpper := by
  change CodeRanges.search c.toNat ((65, 90) :: (192, 214) :: uppercaseRanges.ranges.drop 2) = c.isUpper
  rcases toNat_of_isAlpha h with ⟨hfirst, hlast⟩ | ⟨hfirst, hlast⟩
  · have hupper : c.isUpper = true := decide_eq_true ⟨hfirst, hlast⟩
    simp [CodeRanges.search, hfirst, hlast, hupper]
  · have hbehind : ¬c.toNat ≤ 90 := by omega
    have hbefore : ¬192 ≤ c.toNat := by omega
    have hreach : c.toNat ≤ 214 := by omega
    have hupper : c.isUpper = false := decide_eq_false fun h => hbehind h.2
    simp [CodeRanges.search, hbehind, hreach, hbefore, hupper]

end Relex.Unicode
