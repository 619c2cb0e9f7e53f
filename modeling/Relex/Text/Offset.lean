/-! # Byte offsets into a text

Texts are lists of characters, but every offset a token carries counts the bytes of the UTF-8
encoding. This file measures texts in bytes and cuts them at byte offsets. A cut succeeds exactly
at the offsets that lie between two characters (`splitAt?_eq_some_iff`).
-/

namespace Relex.Text

/-- The number of bytes that a text takes in UTF-8. -/
def byteLength : List Char → Nat
  | [] => 0
  | c :: cs => c.utf8Size + byteLength cs

@[simp, grind =] theorem byteLength_nil : byteLength [] = 0 := rfl

@[simp, grind =] theorem byteLength_cons (c : Char) (cs : List Char) :
    byteLength (c :: cs) = c.utf8Size + byteLength cs := rfl

@[simp, grind =] theorem byteLength_append (as bs : List Char) :
    byteLength (as ++ bs) = byteLength as + byteLength bs := by
  induction as with
  | nil => simp
  | cons c as ih => simp [ih, Nat.add_assoc]

/-- Splits a text at a byte offset. There is no answer past the end of the text or inside a
    character. -/
def splitAt? : Nat → List Char → Option (List Char × List Char)
  | 0, cs => some ([], cs)
  | _ + 1, [] => none
  | n + 1, c :: cs =>
    if c.utf8Size ≤ n + 1 then
      (splitAt? (n + 1 - c.utf8Size) cs).map fun (before, after) => (c :: before, after)
    else
      none

theorem splitAt?_byteLength (before after : List Char) :
    splitAt? (byteLength before) (before ++ after) = some (before, after) := by
  induction before with
  | nil => simp [splitAt?]
  | cons c before ih =>
    -- A character takes at least one byte, so the offset is a successor.
    obtain ⟨n, hn⟩ : ∃ n, byteLength (c :: before) = n + 1 :=
      ⟨c.utf8Size - 1 + byteLength before, by have := c.utf8Size_pos; simp; omega⟩
    have hc : c.utf8Size ≤ n + 1 := by simp at hn; omega
    have hrest : n + 1 - c.utf8Size = byteLength before := by simp at hn; omega
    rw [hn, List.cons_append, splitAt?]
    simp only [hc, if_true, hrest, ih, Option.map_some]

/-- A split loses nothing and puts the asked number of bytes in front. -/
theorem splitAt?_eq_some_iff {n : Nat} {cs before after : List Char} :
    splitAt? n cs = some (before, after) ↔ cs = before ++ after ∧ byteLength before = n := by
  constructor
  · intro h
    fun_induction splitAt? n cs generalizing before after with
    | case1 cs => simp_all
    | case2 => simp at h
    | case3 n c cs hc ih =>
      simp only [Option.map_eq_some_iff] at h
      obtain ⟨⟨front, back⟩, hsplit, heq⟩ := h
      obtain ⟨rfl, rfl⟩ := Prod.mk.inj heq
      obtain ⟨rfl, hlen⟩ := ih hsplit
      exact ⟨rfl, by simp [hlen]; omega⟩
    | case4 => simp at h
  · rintro ⟨rfl, rfl⟩
    exact splitAt?_byteLength before after

/-- Why a range of offsets does not delimit a part of a text. -/
inductive RangeError where
  /-- The end lies past the text or inside a character. -/
  | badStop (offset : Nat)
  /-- The start lies past the end or inside a character. -/
  | badStart (offset : Nat)
  deriving Repr, DecidableEq

/-- The text of a range error. -/
def RangeError.message : RangeError → String
  | .badStop offset => s!"offset {offset} does not end a range of the text"
  | .badStart offset => s!"offset {offset} does not start a range of the text"

/-- The part of a text between two byte offsets. A bad end is reported before a bad start. -/
def region (text : List Char) (start stop : Nat) : Except RangeError (List Char) :=
  match splitAt? stop text with
  | none => .error (.badStop stop)
  | some (upToStop, _) =>
    match splitAt? start upToStop with
    | none => .error (.badStart start)
    | some (_, part) => .ok part

end Relex.Text
