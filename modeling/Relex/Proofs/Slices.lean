import Relex.Proofs.Boundary
import Relex.Text.Search

/-! # Slices

A text can be read with byte offsets for the only memory: what follows an offset is cut out anew each
time, and the cut fails where the offset lies past the text or inside a character. The searches below
answer offsets to cut at. `Ahead` says that a cut succeeds, and with what; each search from an offset
where it holds answers another such offset, the one that counting characters leads to.
-/

namespace Relex.Text

/-! ## Cutting -/

/-- The text up to an offset. -/
def sliceTo (text : List Char) (stop : Nat) : Except RangeError (List Char) :=
  match splitAt? stop text with
  | some (before, _) => .ok before
  | none => .error (.badStop stop)

/-- The text from an offset on. -/
def sliceFrom (text : List Char) (offset : Nat) : Except RangeError (List Char) :=
  match splitAt? offset text with
  | some (_, rest) => .ok rest
  | none => .error (.badStart offset)

/-- What follows the offset is `rest`. -/
def Ahead (text : List Char) (offset : Nat) (rest : List Char) : Prop :=
  ∃ before, text = before ++ rest ∧ byteLength before = offset

theorem sliceTo_eq_ok_iff {text part : List Char} {stop : Nat} :
    sliceTo text stop = .ok part ↔ Spans text part 0 stop := by
  unfold sliceTo
  constructor
  · intro h
    split at h
    · rename_i before after hsplit
      cases h
      obtain ⟨rfl, rfl⟩ := splitAt?_eq_some_iff.mp hsplit
      exact ⟨[], after, rfl, rfl, rfl⟩
    · cases h
  · rintro ⟨before, after, rfl, hbefore, rfl⟩
    rw [byteLength_eq_zero hbefore, List.nil_append, splitAt?_byteLength]

theorem byteLength_of_sliceTo {text part : List Char} {stop : Nat}
    (h : sliceTo text stop = .ok part) : byteLength part = stop := by
  simpa using (sliceTo_eq_ok_iff.mp h).stop_eq.symm

theorem sliceFrom_eq_ok_iff {text rest : List Char} {offset : Nat} :
    sliceFrom text offset = .ok rest ↔ Ahead text offset rest := by
  unfold sliceFrom
  constructor
  · intro h
    split at h
    · rename_i before after hsplit
      cases h
      exact ⟨before, splitAt?_eq_some_iff.mp hsplit⟩
    · cases h
  · rintro ⟨before, rfl, rfl⟩
    rw [splitAt?_byteLength]

theorem eq_badStop_of_sliceTo {text : List Char} {stop : Nat} {error : RangeError}
    (h : sliceTo text stop = .error error) : error = .badStop stop := by
  unfold sliceTo at h
  split at h
  · cases h
  · cases h
    rfl

theorem eq_badStart_of_sliceFrom {text : List Char} {offset : Nat} {error : RangeError}
    (h : sliceFrom text offset = .error error) : error = .badStart offset := by
  unfold sliceFrom at h
  split at h
  · cases h
  · cases h
    rfl

/-- A region is cut out in two cuts. -/
theorem region_eq (text : List Char) (start stop : Nat) :
    region text start stop = sliceTo text stop >>= fun part => sliceFrom part start := by
  unfold region sliceTo
  cases splitAt? stop text with
  | none => rfl
  | some cut =>
      simp only [bind, Except.bind, sliceFrom]
      cases splitAt? start cut.1 <;> rfl

namespace Ahead

variable {text front rest : List Char} {offset : Nat}

theorem slice (h : Ahead text offset rest) : sliceFrom text offset = .ok rest :=
  sliceFrom_eq_ok_iff.mpr h

theorem zero (text : List Char) : Ahead text 0 text := ⟨[], rfl, rfl⟩

theorem boundary (h : Ahead text offset rest) : Boundary text offset := by
  obtain ⟨before, rfl, rfl⟩ := h
  exact ⟨before, rest, rfl, rfl⟩

theorem byteLength_eq (h : Ahead text offset rest) :
    byteLength text = offset + byteLength rest := by
  obtain ⟨before, rfl, rfl⟩ := h
  simp

theorem append (h : Ahead text offset (front ++ rest)) :
    Ahead text (offset + byteLength front) rest := by
  obtain ⟨before, rfl, rfl⟩ := h
  exact ⟨before ++ front, by simp, by simp⟩

theorem tail {c : Char} (h : Ahead text offset (c :: rest)) :
    Ahead text (offset + c.utf8Size) rest := by
  obtain ⟨before, rfl, rfl⟩ := h
  exact ⟨before ++ [c], by simp, by simp⟩

theorem drop (h : Ahead text offset rest) (n : Nat) :
    Ahead text (offset + byteLength (rest.take n)) (rest.drop n) := by
  rw [← List.take_append_drop n rest] at h
  exact h.append

/-- A text further on tells how many bytes lie between. -/
theorem byteLength_take (h : Ahead text offset rest) {n bytes : Nat}
    (hbehind : Ahead text (offset + bytes) (rest.drop n)) : byteLength (rest.take n) = bytes := by
  have hdrop := (h.drop n).byteLength_eq
  rw [hbehind.byteLength_eq] at hdrop
  omega

/-- The part from the offset to one further on. -/
theorem region (h : Ahead text offset (front ++ rest)) :
    region text offset (offset + byteLength front) = .ok front := by
  obtain ⟨before, rfl, rfl⟩ := h
  exact region_eq_ok_iff.mpr ⟨before, rest, by simp, rfl, by simp⟩

end Ahead

/-! ## Searching -/

/-- The offset of the first place where `here` holds of the text that follows. -/
def findWhere (here : List Char → Bool) : (offset : Nat) → List Char → Option Nat
  | _, [] => none
  | offset, c :: cs =>
    if here (c :: cs) then some offset else findWhere here (offset + c.utf8Size) cs

/-- The same with a question that cuts the text at the offset. -/
def findSlice (here : Nat → Char → Except RangeError Bool) :
    (offset : Nat) → List Char → Except RangeError (Option Nat)
  | _, [] => .ok none
  | offset, c :: cs => do
    if ← here offset c then return some offset
    else findSlice here (offset + c.utf8Size) cs

theorem findWhere_eq (here : List Char → Bool) (offset : Nat) (cs : List Char) :
    findWhere here offset cs = (seek? here cs).map fun n => offset + byteLength (cs.take n) := by
  induction cs generalizing offset with
  | nil => rfl
  | cons c cs ih =>
      unfold findWhere seek?
      split
      · simp
      · rw [ih]
        cases seek? here cs <;> simp [Nat.add_assoc]

/-- A search passes over where nothing is found. -/
theorem seek?_eq_map_add {here : List Char → Bool} {n : Nat} {cs : List Char}
    (hnone : ∀ k < n, here (cs.drop k) = false) :
    seek? here cs = (seek? here (cs.drop n)).map (· + n) := by
  induction n generalizing cs with
  | zero => simp
  | succ n ih =>
      cases cs with
      | nil => rfl
      | cons c cs =>
          have hfirst : here (c :: cs) = false := hnone 0 (Nat.zero_lt_succ n)
          rw [seek?, hfirst, if_neg Bool.false_ne_true,
            ih fun k hk => hnone (k + 1) (Nat.succ_lt_succ hk), List.drop_succ_cons, Option.map_map]
          rfl

theorem findWhere_lt {here : List Char → Bool} {offset i : Nat} {cs : List Char}
    (h : findWhere here offset cs = some i) : i < offset + byteLength cs := by
  rw [findWhere_eq] at h
  obtain ⟨n, hn, rfl⟩ := Option.map_eq_some_iff.mp h
  have hlt : n < cs.length := seek?_lt hn
  have hsplit := congrArg byteLength (List.take_append_drop n cs)
  rw [byteLength_append, List.drop_eq_getElem_cons hlt] at hsplit
  have hpos := byteLength_pos cs[n] (cs.drop (n + 1))
  omega

theorem findSlice_eq {text rest : List Char} {offset : Nat} (h : Ahead text offset rest)
    {question : Nat → Char → Except RangeError Bool} {here : List Char → Bool}
    (hquestion : ∀ offset c cs, Ahead text offset (c :: cs) →
      question offset c = .ok (here (c :: cs))) :
    findSlice question offset rest =
      .ok ((seek? here rest).map fun n => offset + byteLength (rest.take n)) := by
  induction rest generalizing offset with
  | nil => rfl
  | cons c cs ih =>
      unfold findSlice seek?
      rw [hquestion offset c cs h, ih h.tail]
      simp only [bind, Except.bind]
      split
      · simp [pure, Except.pure]
      · cases seek? here cs <;> simp [Nat.add_assoc]

/-- The offset behind the characters of a class. -/
def passWhile (text : List Char) (offset : Nat) (p : Char → Bool) : Except RangeError Nat := do
  let rest ← sliceFrom text offset
  return ((findWhere (headIs fun c => !p c) 0 rest).map (offset + ·)).getD (byteLength text)

theorem seek?_headIs_not (p : Char → Bool) (cs : List Char) :
    seek? (headIs fun c => !p c) cs =
      if runLength p cs < cs.length then some (runLength p cs) else none := by
  induction cs with
  | nil => rfl
  | cons c cs ih =>
      unfold seek?
      rw [ih]
      cases hc : p c with
      | false => simp [headIs, runLength, hc]
      | true =>
          have hrun : runLength p (c :: cs) = runLength p cs + 1 := by simp [runLength, hc]
          by_cases hlt : runLength p cs < cs.length <;> simp [headIs, hc, hrun, hlt]

theorem passWhile_eq {text rest : List Char} {offset : Nat} (h : Ahead text offset rest)
    (p : Char → Bool) :
    passWhile text offset p = .ok (offset + byteLength (rest.take (runLength p rest))) := by
  rw [passWhile, h.slice]
  simp only [bind, Except.bind, findWhere_eq, seek?_headIs_not]
  split
  · simp [pure, Except.pure]
  · have hall : rest.take (runLength p rest) = rest :=
      List.take_of_length_le (by omega)
    simp [pure, Except.pure, hall, h.byteLength_eq]

/-- The offset behind a pattern that is found behind `n` characters. -/
theorem byteLength_take_add {pattern cs : List Char} {n : Nat} (h : pattern <+: cs.drop n) :
    byteLength (cs.take (n + pattern.length)) = byteLength (cs.take n) + byteLength pattern := by
  rw [List.take_add, byteLength_append, ← List.prefix_iff_eq_take.mp h]

end Relex.Text
