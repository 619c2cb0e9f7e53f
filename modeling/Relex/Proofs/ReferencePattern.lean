import Mathlib.Computability.RegularExpressions
import Relex.Proofs.QuotedValues
import Relex.Proofs.SlicedLookahead

/-! # The pattern of character references

References are written by a regular expression, `referencePattern`, with every sign listed. A reference
is looked for with three questions about what follows the ampersand, of which the first that holds
decides, and with a run of digits or letters that is as long as it can be. Neither loses a text of the
pattern, since the semicolon is in none of the runs. So the search answers the end of the one text of the
pattern that starts at the ampersand, if there is one (`MarkupGrammar.reference_found_iff_matches`).
-/

namespace Relex

namespace Text

/-! ## Runs of signs -/

/-- One of some signs. -/
def oneOf (signs : List Char) : RegularExpression Char :=
  (signs.map .char).sum

/-- Some of the signs one after the other, at least one. -/
def someOf (signs : List Char) : RegularExpression Char :=
  oneOf signs * .star (oneOf signs)

variable {signs text : List Char} {p : Char → Bool}

theorem mem_oneOf : text ∈ (oneOf signs).matches' ↔ ∃ c ∈ signs, text = [c] := by
  induction signs with
  | nil => simp [oneOf]
  | cons c signs ih =>
      have hsum : (oneOf (c :: signs)).matches' = {[c]} + (oneOf signs).matches' := rfl
      have hfirst : text ∈ ({[c]} : Language Char) ↔ text = [c] := Iff.rfl
      rw [hsum, Language.mem_add, ih, hfirst, List.exists_mem_cons_iff]

theorem mem_star_oneOf :
    text ∈ (RegularExpression.star (oneOf signs)).matches' ↔ ∀ c ∈ text, c ∈ signs := by
  rw [RegularExpression.matches'_star, Language.mem_kstar]
  constructor
  · rintro ⟨parts, rfl, hparts⟩ c hc
    obtain ⟨part, hpart, hc⟩ := List.mem_flatten.mp hc
    obtain ⟨d, hd, rfl⟩ := mem_oneOf.mp (hparts part hpart)
    rw [List.mem_singleton.mp hc]
    exact hd
  · intro h
    refine ⟨text.map fun c => [c], (List.flatMap_singleton' text).symm, fun part hpart => ?_⟩
    obtain ⟨c, hc, rfl⟩ := List.mem_map.mp hpart
    exact mem_oneOf.mpr ⟨c, h c hc, rfl⟩

theorem mem_oneOf_mul {pattern : RegularExpression Char} :
    text ∈ (oneOf signs * pattern).matches' ↔
      ∃ c cs, text = c :: cs ∧ c ∈ signs ∧ cs ∈ pattern.matches' := by
  rw [RegularExpression.matches'_mul, Language.mem_mul]
  constructor
  · rintro ⟨first, hfirst, cs, hcs, rfl⟩
    obtain ⟨c, hc, rfl⟩ := mem_oneOf.mp hfirst
    exact ⟨c, cs, rfl, hc, hcs⟩
  · rintro ⟨c, cs, rfl, hc, hcs⟩
    exact ⟨[c], mem_oneOf.mpr ⟨c, hc, rfl⟩, cs, hcs, rfl⟩

theorem mem_mul_oneOf {pattern : RegularExpression Char} {sign : Char} :
    text ∈ (pattern * oneOf [sign]).matches' ↔
      ∃ cs, text = cs ++ [sign] ∧ cs ∈ pattern.matches' := by
  rw [RegularExpression.matches'_mul, Language.mem_mul]
  constructor
  · rintro ⟨cs, hcs, last, hlast, rfl⟩
    obtain ⟨c, hc, rfl⟩ := mem_oneOf.mp hlast
    rw [List.mem_singleton.mp hc]
    exact ⟨cs, rfl, hcs⟩
  · rintro ⟨cs, rfl, hcs⟩
    exact ⟨cs, hcs, [sign], mem_oneOf.mpr ⟨sign, List.mem_singleton_self sign, rfl⟩, rfl⟩

theorem mem_someOf : text ∈ (someOf signs).matches' ↔ text ≠ [] ∧ ∀ c ∈ text, c ∈ signs := by
  rw [someOf, mem_oneOf_mul]
  constructor
  · rintro ⟨c, cs, rfl, hc, hcs⟩
    exact ⟨List.cons_ne_nil c cs, List.forall_mem_cons.mpr ⟨hc, mem_star_oneOf.mp hcs⟩⟩
  · rintro ⟨hne, htext⟩
    obtain ⟨c, cs, rfl⟩ := List.exists_cons_of_ne_nil hne
    obtain ⟨hc, hcs⟩ := List.forall_mem_cons.mp htext
    exact ⟨c, cs, rfl, hc, mem_star_oneOf.mpr hcs⟩

/-- A class of characters of ASCII is a list of signs if it is one below the limit. -/
theorem class_iff_mem (hp : ∀ c, p c = true → c.toNat < 128)
    (hsigns : ∀ n < 128, p (Char.ofNat n) = true ↔ Char.ofNat n ∈ signs)
    (hascii : signs.all (fun c => c.toNat < 128) = true) (c : Char) : p c = true ↔ c ∈ signs := by
  rw [← Char.ofNat_toNat c]
  constructor
  · intro h
    have hlt : c.toNat < 128 := by
      rw [Char.ofNat_toNat] at h
      exact hp c h
    exact (hsigns _ hlt).mp h
  · intro h
    have hlt : c.toNat < 128 := by
      rw [Char.ofNat_toNat] at h
      simpa using List.all_eq_true.mp hascii c h
    exact (hsigns _ hlt).mpr h

end Text

namespace Markup

open Text Unicode

/-! ## The pattern -/

def decimalDigits : List Char :=
  ['0', '1', '2', '3', '4', '5', '6', '7', '8', '9']

def hexDigits : List Char :=
  decimalDigits ++ ['a', 'b', 'c', 'd', 'e', 'f', 'A', 'B', 'C', 'D', 'E', 'F']

def asciiLetters : List Char :=
  ['A', 'B', 'C', 'D', 'E', 'F', 'G', 'H', 'I', 'J', 'K', 'L', 'M', 'N', 'O', 'P', 'Q', 'R', 'S', 'T',
   'U', 'V', 'W', 'X', 'Y', 'Z', 'a', 'b', 'c', 'd', 'e', 'f', 'g', 'h', 'i', 'j', 'k', 'l', 'm', 'n',
   'o', 'p', 'q', 'r', 's', 't', 'u', 'v', 'w', 'x', 'y', 'z']

def hexNumber : RegularExpression Char :=
  oneOf ['#'] * (oneOf ['x', 'X'] * someOf hexDigits)

def decimalNumber : RegularExpression Char :=
  oneOf ['#'] * someOf decimalDigits

def referenceName : RegularExpression Char :=
  oneOf asciiLetters * .star (oneOf (asciiLetters ++ decimalDigits))

/-- An ampersand, a number or a name, and a semicolon. -/
def referencePattern : RegularExpression Char :=
  oneOf ['&'] * ((hexNumber + decimalNumber + referenceName) * oneOf [';'])

theorem isDigit_iff (c : Char) : c.isDigit = true ↔ c ∈ decimalDigits :=
  class_iff_mem (fun _ => Sliced.ascii_of_isDigit) (by decide) (by decide) c

theorem isHexDigit_iff (c : Char) : isHexDigit c = true ↔ c ∈ hexDigits :=
  class_iff_mem (fun _ => Sliced.ascii_of_isHexDigit) (by decide +kernel) (by decide) c

theorem isAlpha_iff (c : Char) : c.isAlpha = true ↔ c ∈ asciiLetters :=
  class_iff_mem (fun _ h => Sliced.ascii_of_isAlphanum (by simp [Char.isAlphanum, h]))
    (by decide +kernel) (by decide) c

theorem isAlphanum_iff (c : Char) : c.isAlphanum = true ↔ c ∈ asciiLetters ++ decimalDigits := by
  rw [Char.isAlphanum, Bool.or_eq_true, isAlpha_iff, isDigit_iff, List.mem_append]

section Pattern

variable {text : List Char}

theorem mem_hexNumber : text ∈ hexNumber.matches' ↔ ∃ x digits, text = '#' :: x :: digits ∧
    (x = 'x' ∨ x = 'X') ∧ digits ≠ [] ∧ ∀ d ∈ digits, isHexDigit d = true := by
  simp only [hexNumber, mem_oneOf_mul, mem_someOf, isHexDigit_iff]
  constructor
  · rintro ⟨sign, _, rfl, hsign, x, digits, rfl, hx, hdigits⟩
    rw [List.mem_singleton.mp hsign]
    exact ⟨x, digits, rfl, by simpa using hx, hdigits⟩
  · rintro ⟨x, digits, rfl, hx, hdigits⟩
    exact ⟨'#', _, rfl, List.mem_singleton_self _, x, digits, rfl, by simpa using hx, hdigits⟩

theorem mem_decimalNumber : text ∈ decimalNumber.matches' ↔ ∃ digits, text = '#' :: digits ∧
    digits ≠ [] ∧ ∀ d ∈ digits, d.isDigit = true := by
  simp only [decimalNumber, mem_oneOf_mul, mem_someOf, isDigit_iff]
  constructor
  · rintro ⟨sign, digits, rfl, hsign, hdigits⟩
    rw [List.mem_singleton.mp hsign]
    exact ⟨digits, rfl, hdigits⟩
  · rintro ⟨digits, rfl, hdigits⟩
    exact ⟨'#', digits, rfl, List.mem_singleton_self _, hdigits⟩

theorem mem_referenceName : text ∈ referenceName.matches' ↔ ∃ c cs, text = c :: cs ∧
    c.isAlpha = true ∧ ∀ d ∈ cs, d.isAlphanum = true := by
  simp only [referenceName, mem_oneOf_mul, mem_star_oneOf, isAlpha_iff, isAlphanum_iff]

theorem mem_referencePattern : text ∈ referencePattern.matches' ↔ ∃ body, text = '&' :: (body ++ [';']) ∧
    (body ∈ hexNumber.matches' ∨ body ∈ decimalNumber.matches' ∨ body ∈ referenceName.matches') := by
  simp only [referencePattern, mem_oneOf_mul, mem_mul_oneOf, RegularExpression.matches'_add,
    Language.mem_add, or_assoc]
  constructor
  · rintro ⟨sign, _, rfl, hsign, body, rfl, hbody⟩
    rw [List.mem_singleton.mp hsign]
    exact ⟨body, rfl, hbody⟩
  · rintro ⟨body, rfl, hbody⟩
    exact ⟨'&', _, rfl, List.mem_singleton_self _, body, rfl, hbody⟩

theorem reference_iff_matches : Reference text ↔ text ∈ referencePattern.matches' := by
  rw [mem_referencePattern]
  constructor
  · intro h
    cases h with
    | hex hx hne hdigits =>
        exact ⟨_, rfl, .inl (mem_hexNumber.mpr ⟨_, _, rfl, hx, hne, hdigits⟩)⟩
    | decimal hne hdigits =>
        exact ⟨_, rfl, .inr (.inl (mem_decimalNumber.mpr ⟨_, rfl, hne, hdigits⟩))⟩
    | named hc hcs =>
        exact ⟨_, rfl, .inr (.inr (mem_referenceName.mpr ⟨_, _, rfl, hc, hcs⟩))⟩
  · rintro ⟨body, rfl, hbody | hbody | hbody⟩
    · obtain ⟨x, digits, rfl, hx, hne, hdigits⟩ := mem_hexNumber.mp hbody
      exact .hex hx hne hdigits
    · obtain ⟨digits, rfl, hne, hdigits⟩ := mem_decimalNumber.mp hbody
      exact .decimal hne hdigits
    · obtain ⟨c, cs, rfl, hc, hcs⟩ := mem_referenceName.mp hbody
      exact .named hc hcs

end Pattern

/-! ## The search -/

/-- A text of the pattern stands in the text from the first offset to the second. -/
def ReferenceAt (text : List Char) (offset stop : Nat) : Prop :=
  ∃ part, Spans text part offset stop ∧ part ∈ referencePattern.matches'

section Search

variable {text behind : List Char} {offset stop : Nat}

theorem exists_of_referenceAt (hahead : Ahead text offset ('&' :: behind))
    (h : ReferenceAt text offset stop) : ∃ cs rest, behind = cs ++ rest ∧ Reference ('&' :: cs) ∧
      stop = offset + byteLength ('&' :: cs) := by
  obtain ⟨part, hpart, hmatches⟩ := h
  have hstop := hpart.stop_eq
  obtain ⟨before, rest, htext, hbefore, -⟩ := hpart
  have hsame : Ahead text offset (part ++ rest) :=
    ⟨before, htext.trans (List.append_assoc before part rest), hbefore⟩
  have heq : '&' :: behind = part ++ rest := Except.ok.inj (hahead.slice.symm.trans hsame.slice)
  have hreference := reference_iff_matches.mpr hmatches
  obtain ⟨c, cs, rfl⟩ := List.exists_cons_of_ne_nil hreference.ne_nil
  obtain ⟨rfl, rfl⟩ := List.cons.inj heq
  exact ⟨cs, rest, rfl, hreference, hstop⟩

/-- A text of the pattern stands at an ampersand just when the search finds it: what follows the text
    does not change what is found, and what is found is of the pattern. -/
theorem referenceAt_iff (hahead : Ahead text offset ('&' :: behind)) :
    ReferenceAt text offset stop ↔ ∃ more, characterReference? behind = some more ∧
      offset + byteLength ('&' :: behind.take more) = stop := by
  constructor
  · intro h
    obtain ⟨cs, rest, rfl, hreference, rfl⟩ := exists_of_referenceAt hahead h
    exact ⟨cs.length, characterReference_of_reference hreference rest, by rw [List.take_left]⟩
  · rintro ⟨more, hfound, rfl⟩
    have hsplit : '&' :: behind = ('&' :: behind.take more) ++ behind.drop more := by
      rw [List.cons_append, List.take_append_drop]
    rw [hsplit] at hahead
    exact ⟨_, region_eq_ok_iff.mp hahead.region,
      reference_iff_matches.mp (reference_of_characterReference hfound)⟩

theorem referenceStop?_eq_some_iff (hahead : Ahead text offset ('&' :: behind)) :
    Sliced.referenceStop? text offset = .ok (some stop) ↔ ReferenceAt text offset stop := by
  rw [Sliced.referenceStop?_eq hahead, referenceAt_iff hahead, Except.ok.injEq, Option.map_eq_some_iff]

theorem referenceStop?_eq_none_iff (hahead : Ahead text offset ('&' :: behind)) :
    Sliced.referenceStop? text offset = .ok none ↔ ¬∃ stop, ReferenceAt text offset stop := by
  rw [Sliced.referenceStop?_eq hahead, Except.ok.injEq, Option.map_eq_none_iff,
    Option.eq_none_iff_forall_ne_some]
  constructor
  · rintro hnone ⟨stop, hstop⟩
    obtain ⟨more, hmore, -⟩ := (referenceAt_iff hahead).mp hstop
    exact hnone more hmore
  · intro hnone more hmore
    exact hnone ⟨_, (referenceAt_iff hahead).mpr ⟨more, hmore, rfl⟩⟩

end Search

end Markup

namespace MarkupGrammar

open Text Markup

/-- At every ampersand of every text, the search for a reference answers the offset at which a text of
    the pattern ends, and answers none just when there is no such offset. No two texts of the pattern
    stand at one ampersand. What the rules of markup ask of the characters is the same answer. -/
theorem reference_found_iff_matches (before behind : List Char) :
    let text := before ++ '&' :: behind
    let offset := byteLength before
    (∀ stop, Sliced.referenceStop? text offset = .ok (some stop) ↔ ReferenceAt text offset stop) ∧
      (Sliced.referenceStop? text offset = .ok none ↔ ¬∃ stop, ReferenceAt text offset stop) ∧
      (∀ stop stop', ReferenceAt text offset stop → ReferenceAt text offset stop' → stop = stop') ∧
      Sliced.referenceStop? text offset = .ok ((characterReference? behind).map fun more =>
        offset + byteLength ('&' :: behind.take more)) := by
  intro text offset
  have hahead : Ahead text offset ('&' :: behind) := ⟨before, rfl, rfl⟩
  refine ⟨fun stop => referenceStop?_eq_some_iff hahead, referenceStop?_eq_none_iff hahead, ?_,
    Sliced.referenceStop?_eq hahead⟩
  intro stop stop' hstop hstop'
  have hfound := (referenceStop?_eq_some_iff hahead).mpr hstop
  have hfound' := (referenceStop?_eq_some_iff hahead).mpr hstop'
  exact Option.some.inj (Except.ok.inj (hfound.symm.trans hfound'))

-- No digit: `x` cannot be read as a name behind `#` either.
example : Sliced.referenceStop? "a&#x;".toList 1 = .ok none := by decide

example : Sliced.referenceStop? "\u00e9&#XfF;b".toList 2 = .ok (some 8) := by decide

end MarkupGrammar

end Relex
