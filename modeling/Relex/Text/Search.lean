/-! # Searching forward in a text

Lexers look ahead in two ways: how far a class of characters runs, and where a pattern first
begins. Both are answered by a number of characters to pass over, which never exceeds the length
of the text.
-/

namespace Relex.Text

/-- How many characters at the front of a text belong to a class. -/
def runLength (p : Char → Bool) (cs : List Char) : Nat :=
  (cs.takeWhile p).length

/-- How many characters precede the first place where `here` holds of the text that follows,
    provided there is such a place before the end. -/
def seek? (here : List Char → Bool) : List Char → Option Nat
  | [] => none
  | c :: cs => if here (c :: cs) then some 0 else (seek? here cs).map (· + 1)

/-- How many characters precede the first place where `here` holds of the text that follows; all of
    them where there is no such place. -/
def seek (here : List Char → Bool) (cs : List Char) : Nat :=
  (seek? here cs).getD cs.length

/-- Whether a text begins with the given characters. -/
def begins (pattern : List Char) (cs : List Char) : Bool :=
  pattern.isPrefixOf cs

/-- Whether a text begins with a character of a class. -/
def headIs (p : Char → Bool) (cs : List Char) : Bool :=
  cs.head?.any p

/-- Whether two texts differ at most in the case of ASCII letters. -/
def equalIgnoringCase (as bs : List Char) : Bool :=
  as.map Char.toLower == bs.map Char.toLower

theorem runLength_le (p : Char → Bool) (cs : List Char) : runLength p cs ≤ cs.length :=
  (List.takeWhile_prefix p).length_le

theorem seek?_lt {here : List Char → Bool} {cs : List Char} {n : Nat}
    (h : seek? here cs = some n) : n < cs.length := by
  induction cs generalizing n with
  | nil => simp [seek?] at h
  | cons c cs ih =>
    simp only [seek?] at h
    split at h
    · simp at h
      simp [← h]
    · obtain ⟨m, hm, rfl⟩ := Option.map_eq_some_iff.1 h
      simpa using ih hm

theorem seek_le (here : List Char → Bool) (cs : List Char) : seek here cs ≤ cs.length := by
  unfold seek
  cases h : seek? here cs with
  | none => simp
  | some n => simpa using Nat.le_of_lt (seek?_lt h)

end Relex.Text
