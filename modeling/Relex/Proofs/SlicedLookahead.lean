import Relex.Markup.Grammar
import Relex.Proofs.SlicedScript

/-! # Looking ahead by offsets

What the rules of markup look for can be found with slices alone: the signs that open tags, the end of
white space, references to characters and the end tags of raw text. References and end tags are searched
for among the bytes. Where the text can be cut at the offset, no cut behind it fails, and each search
answers what the characters say.
-/

namespace Relex.Markup

open Text Unicode

namespace Sliced

/-- The name of a tag can begin some bytes behind an opening angle bracket. -/
def opensTag (rest : List Char) (nameStart : Nat) : Except RangeError Bool := do
  if begins ['<'] rest then
    let name ← sliceFrom rest nameStart
    return opensName name
  else
    return false

def opensStartTag (rest : List Char) : Except RangeError Bool :=
  opensTag rest 1

def opensEndTag (rest : List Char) : Except RangeError Bool :=
  if begins ['<', '/'] rest then opensTag rest 2 else .ok false

/-- The offset behind white space up to and including the first line break, counted along the
    characters. -/
def lineSpaceStop? (offset : Nat) : List Char → Nat
  | [] => offset
  | c :: cs =>
    if !isWhiteSpace c then offset
    else if c = '\n' then offset + c.utf8Size
    else lineSpaceStop? (offset + c.utf8Size) cs

def lineSpaceStop (text : List Char) (offset : Nat) : Except RangeError Nat := do
  let rest ← sliceFrom text offset
  return lineSpaceStop? offset rest

/-- The number of bytes up to the semicolon of a reference, with it, if there is one: `front` bytes, a
    run of `digits` bytes that is not empty, and the semicolon. -/
def referenceLength? (body : List Char) (front digits : Nat) : Except RangeError (Option Nat) := do
  if 0 < digits then
    let rest ← sliceFrom body (front + digits)
    return if begins [';'] rest then some (front + digits + 1) else none
  else
    return none

/-- The offset behind the reference that begins with the ampersand at an offset, if there is one. -/
def referenceStop? (text : List Char) (offset : Nat) : Except RangeError (Option Nat) := do
  let body ← sliceFrom text (offset + 1)
  let length? ←
    if begins ['#', 'x'] body || begins ['#', 'X'] body then
      referenceLength? body 2 (byteRun isHexDigit (body.drop 2))
    else if begins ['#'] body then
      referenceLength? body 1 (byteRun Char.isDigit (body.drop 1))
    else if headIs Char.isAlpha body then
      referenceLength? body 0 (byteRun Char.isAlphanum body)
    else
      .ok none
  return length?.map (offset + 1 + ·)

/-- Whether the bytes at `i` close the element: its name but for the case of ASCII letters, and behind
    it the end or a byte that ends a name. -/
def closesName (text : List UInt8) (i : Nat) (name : String) : Bool :=
  let nameBytes := bytes name.toList
  let nameEnd := i + nameBytes.length
  nameEnd ≤ text.length &&
    ((text.drop i).take nameBytes.length).map lowerByte == nameBytes.map lowerByte &&
    text[nameEnd]?.all (isAsciiByte fun c => c == '>' || c == '/' || isMarkupSpace c)

/-- The offset of the first end tag for an element. -/
def closeTagStart? (text : List Char) (offset : Nat) (name : String) :
    Except RangeError (Option Nat) :=
  match _hrest : sliceFrom text offset with
  | .error error => .error error
  | .ok rest =>
    match _hfound : findWhere (begins ['<', '/']) 0 rest with
    | none => .ok none
    | some i =>
      if closesName (bytes text) (offset + i + 2) name then .ok (some (offset + i))
      else closeTagStart? text (offset + i + 2) name
termination_by byteLength text - offset
decreasing_by
  have hlength := (sliceFrom_eq_ok_iff.mp _hrest).byteLength_eq
  have hlt := findWhere_lt _hfound
  omega

/-! ## Looking ahead answers what the characters say -/

section Lookahead

variable {text cs rest : List Char} {c : Char} {offset : Nat}

theorem opensStartTag_eq (rest : List Char) :
    opensStartTag rest = .ok (Markup.opensStartTag rest) := by
  unfold opensStartTag opensTag Markup.opensStartTag
  by_cases hbegins : begins ['<'] rest = true
  · obtain ⟨cs, rfl⟩ := exists_of_begins_singleton hbegins
    have hname : Ahead ('<' :: cs) 1 cs := ⟨['<'], rfl, by decide⟩
    rw [if_pos hbegins, hname.slice, hbegins]
    rfl
  · simp [hbegins]
    rfl

theorem opensEndTag_eq (rest : List Char) :
    opensEndTag rest = .ok (Markup.opensEndTag rest) := by
  unfold opensEndTag opensTag Markup.opensEndTag
  by_cases hbegins : begins ['<', '/'] rest = true
  · obtain ⟨cs, rfl⟩ := begins_iff.mp hbegins
    have hname : Ahead (['<', '/'] ++ cs) 2 cs := ⟨['<', '/'], rfl, by decide⟩
    have hfirst : begins ['<'] (['<', '/'] ++ cs) = true := begins_iff.mpr ⟨'/' :: cs, rfl⟩
    rw [if_pos hbegins, if_pos hfirst, hname.slice, hbegins]
    rfl
  · simp [hbegins]

theorem lineSpaceStop?_eq (offset : Nat) (cs : List Char) :
    lineSpaceStop? offset cs = offset + byteLength (cs.take (lineSpaceLength cs)) := by
  fun_induction lineSpaceStop? offset cs with
  | case1 => rfl
  | case2 offset c cs hspace => simp [lineSpaceLength, hspace]
  | case3 offset cs hspace => simp [lineSpaceLength, hspace]
  | case4 offset c cs hspace hbreak ih =>
      rw [ih]
      simp [lineSpaceLength, hspace, hbreak, Nat.add_assoc]

theorem lineSpaceStop_eq (h : Ahead text offset (c :: cs)) (hc : isWhiteSpace c = true) :
    lineSpaceStop text offset = .ok (offset + byteLength (c :: cs.take (lineSpaceRest c cs))) := by
  rw [lineSpaceStop, h.slice]
  simp only [bind, Except.bind, pure, Except.pure, lineSpaceStop?_eq, lineSpaceRest]
  rw [lineSpaceLength, hc]
  by_cases hbreak : c = '\n' <;> simp [hbreak]

theorem ascii_of_isDigit (h : c.isDigit = true) : c.toNat < 128 := by
  have hlast : c.toNat ≤ 57 := of_decide_eq_true (Bool.and_eq_true_iff.mp h).2
  omega

theorem ascii_of_isAlphanum (h : c.isAlphanum = true) : c.toNat < 128 := by
  rcases Bool.or_eq_true_iff.mp h with halpha | hdigit
  · rcases toNat_of_isAlpha halpha with ⟨-, hlast⟩ | ⟨-, hlast⟩ <;> omega
  · exact ascii_of_isDigit hdigit

theorem ascii_of_isHexDigit (h : isHexDigit c = true) : c.toNat < 128 := by
  simp only [isHexDigit, Bool.or_eq_true, Bool.and_eq_true, decide_eq_true_eq, Char.le_def,
    UInt32.le_iff_toNat_le] at h
  have hvalue : c.toNat = c.val.toNat := rfl
  have hbounds : 'f'.val.toNat = 102 ∧ 'F'.val.toNat = 70 := by decide
  rcases h with (h | h) | h
  · exact ascii_of_isDigit h
  · omega
  · omega

/-- What ends the name in an end tag of raw text. -/
theorem ascii_of_endsName (h : (c == '>' || c == '/' || isMarkupSpace c) = true) :
    c.toNat < 128 := by
  simp only [isMarkupSpace, Bool.or_eq_true, beq_iff_eq] at h
  rcases h with (rfl | rfl) | ((((rfl | rfl) | rfl) | rfl) | rfl) <;> decide

theorem referenceLength?_eq {p : Char → Bool} (hp : ∀ c, p c = true → c.toNat < 128) {front : Nat}
    (hfront : byteLength (cs.take front) = front) :
    referenceLength? cs front (byteRun p (cs.drop front)) =
      .ok ((terminatedRun? p (cs.drop front)).map fun n => byteLength (cs.take (front + n))) := by
  have hrun := byteLength_take_runLength hp (cs.drop front)
  rw [byteRun_eq hp, referenceLength?, terminatedRun?]
  generalize runLength p (cs.drop front) = run at hrun
  have hlength : byteLength (cs.take (front + run)) = front + run := by
    rw [List.take_add, byteLength_append, hfront, hrun]
  have hrest := (Ahead.zero cs).drop (front + run)
  rw [hlength, Nat.zero_add] at hrest
  rw [hrest.slice, List.drop_drop]
  rcases Nat.eq_zero_or_pos run with hzero | hpos
  · simp [hzero]
    rfl
  · have hne : (run != 0) = true := by simp; omega
    simp only [hpos, if_true, bind, Except.bind, pure, Except.pure, hne, Bool.true_and]
    by_cases hsemicolon : begins [';'] (cs.drop (front + run)) = true
    · have hbehind := byteLength_take_add (begins_iff.mp hsemicolon)
      have hone : byteLength [';'] = 1 := by decide
      simp only [List.length_singleton, hone, hlength, Nat.add_assoc] at hbehind
      simp [hsemicolon, hbehind, Nat.add_assoc]
    · simp [hsemicolon]

theorem referenceStop?_eq (h : Ahead text offset ('&' :: cs)) : referenceStop? text offset =
    .ok ((characterReference? cs).map fun more => offset + byteLength ('&' :: cs.take more)) := by
  have hone : ('&' : Char).utf8Size = 1 := by decide
  have hbody := h.tail
  rw [hone] at hbody
  rw [referenceStop?, hbody.slice, characterReference?]
  simp only [bind, Except.bind]
  by_cases hhex : (begins ['#', 'x'] cs || begins ['#', 'X'] cs) = true
  · have hfront : byteLength (cs.take 2) = 2 := by
      simp only [Bool.or_eq_true, begins_iff] at hhex
      rcases hhex with ⟨rest, rfl⟩ | ⟨rest, rfl⟩ <;> rfl
    rw [if_pos hhex, if_pos hhex, referenceLength?_eq (fun c => ascii_of_isHexDigit) hfront]
    cases terminatedRun? isHexDigit (cs.drop 2) <;>
      simp [pure, Except.pure, hone, Nat.add_assoc, Nat.add_comm 2]
  by_cases hdecimal : begins ['#'] cs = true
  · have hfront : byteLength (cs.take 1) = 1 := by
      obtain ⟨rest, rfl⟩ := begins_iff.mp hdecimal
      rfl
    rw [if_neg hhex, if_neg hhex, if_pos hdecimal, if_pos hdecimal,
      referenceLength?_eq (fun c => ascii_of_isDigit) hfront]
    cases terminatedRun? Char.isDigit (cs.drop 1) <;>
      simp [pure, Except.pure, hone, Nat.add_assoc, Nat.add_comm 1]
  rw [if_neg hhex, if_neg hhex, if_neg hdecimal, if_neg hdecimal]
  by_cases hname : headIs Char.isAlpha cs = true
  · have hfront : byteLength (cs.take 0) = 0 := rfl
    have hlength := referenceLength?_eq (fun c => ascii_of_isAlphanum) hfront
    rw [List.drop_zero] at hlength
    rw [if_pos hname, if_pos hname, hlength]
    cases terminatedRun? Char.isAlphanum cs <;>
      simp [pure, Except.pure, hone, Nat.add_assoc]
  · simp [hname, pure, Except.pure]

theorem closesName_eq (h : Ahead text offset rest) (name : String) :
    closesName (bytes text) offset name =
      (equalIgnoringCase name.toList (rest.take name.toList.length) &&
        ((rest.drop name.toList.length).isEmpty ||
          headIs (fun c => c == '>' || c == '/' || isMarkupSpace c)
            (rest.drop name.toList.length))) := by
  have hlength := h.byteLength_eq
  have hdrop := drop_bytes h
  have hcompare := lowerBytes_take_eq_iff name.toList rest
  by_cases hequal : equalIgnoringCase name.toList (rest.take name.toList.length) = true
  · have hbytes := hcompare.mpr hequal
    have hsame := congrArg List.length hbytes
    simp only [List.length_map, List.length_take] at hsame
    have hpart : byteLength (rest.take name.toList.length) = (bytes name.toList).length := by
      have hlower := congrArg (fun cs => (bytes cs).length) (beq_iff_eq.mp hequal)
      simp only [bytes_map_toLower, List.length_map] at hlower
      rw [hlower, length_bytes]
    have hnext : (bytes text)[offset + (bytes name.toList).length]? =
        (bytes (rest.drop name.toList.length)).head? := by
      have hbehind := drop_bytes (h.drop name.toList.length)
      rw [hpart] at hbehind
      rw [← List.head?_drop, hbehind]
    have hle : offset + (bytes name.toList).length ≤ (bytes text).length := by
      rw [length_bytes text, hlength, ← length_bytes rest]
      omega
    simp only [closesName, hdrop, hbytes, hequal, hnext, hle, decide_true, beq_self_eq_true,
      Bool.true_and, all_head?_bytes fun c => ascii_of_endsName]
  · have hbytes : ¬ ((bytes rest).take (bytes name.toList).length).map lowerByte =
        (bytes name.toList).map lowerByte := fun hbytes => hequal (hcompare.mp hbytes)
    simp only [closesName, hdrop, hequal, beq_eq_false_iff_ne.mpr hbytes, Bool.and_false,
      Bool.false_and]

theorem endsRawText_cons (name : String) (tag : List Char) : endsRawText name ('<' :: '/' :: tag) =
    (equalIgnoringCase name.toList (tag.take name.toList.length) &&
      ((tag.drop name.toList.length).isEmpty ||
        headIs (fun c => c == '>' || c == '/' || isMarkupSpace c)
          (tag.drop name.toList.length))) := by
  simp [endsRawText, begins, List.isPrefixOf, Nat.add_comm 2]

theorem begins_of_endsRawText {name : String} (h : endsRawText name cs = true) :
    begins ['<', '/'] cs = true := by
  rw [endsRawText, Bool.and_assoc] at h
  exact (Bool.and_eq_true_iff.mp h).1

/-- The first end tag of any name stands at or in front of the one that is looked for. -/
theorem exists_endTag {i : Nat} (h : Ahead text offset rest)
    (hfound : findWhere (begins ['<', '/']) 0 rest = some i) (name : String) :
    ∃ n tag, i = byteLength (rest.take n) ∧
      (∀ k < n, endsRawText name (rest.drop k) = false) ∧ rest.drop n = '<' :: '/' :: tag ∧
      Ahead text (offset + i) ('<' :: '/' :: tag) := by
  rw [findWhere_eq] at hfound
  obtain ⟨n, hn, rfl⟩ := Option.map_eq_some_iff.mp hfound
  obtain ⟨tag, htag⟩ := begins_iff.mp (seek?_spec hn)
  refine ⟨n, tag, Nat.zero_add _, fun k hk => ?_, htag.symm, ?_⟩
  · refine Bool.eq_false_iff.mpr fun hhere => ?_
    exact Bool.false_ne_true ((seek?_first hn k hk).symm.trans (begins_of_endsRawText hhere))
  · have hdrop := h.drop n
    rw [← htag] at hdrop
    rwa [Nat.zero_add]

theorem closeTagStart?_eq (h : Ahead text offset rest) (name : String) :
    closeTagStart? text offset name =
      .ok ((seek? (endsRawText name) rest).map fun n => offset + byteLength (rest.take n)) := by
  fun_induction closeTagStart? text offset name generalizing rest with
  | case1 offset error hslice => cases h.slice.symm.trans hslice
  | case2 offset part hslice hfound =>
      obtain rfl : rest = part := Except.ok.inj (h.slice.symm.trans hslice)
      rw [findWhere_eq, Option.map_eq_none_iff] at hfound
      have hnone : ∀ k < rest.length, endsRawText name (rest.drop k) = false := by
        intro k hk
        refine Bool.eq_false_iff.mpr fun hhere => ?_
        exact Bool.false_ne_true ((seek?_none hfound k hk).symm.trans (begins_of_endsRawText hhere))
      rw [seek?_eq_map_add hnone, List.drop_length]
      rfl
  | case3 offset part hslice i hfound hcloses =>
      obtain rfl : rest = part := Except.ok.inj (h.slice.symm.trans hslice)
      obtain ⟨n, tag, rfl, hnone, htag, hahead⟩ := exists_endTag h hfound name
      have hhere : endsRawText name (rest.drop n) = true := by
        rw [htag, endsRawText_cons, ← closesName_eq hahead.tail.tail]
        exact hcloses
      have hfirst : seek? (endsRawText name) (rest.drop n) = some 0 := by
        rw [htag] at hhere ⊢
        rw [seek?, if_pos hhere]
      rw [seek?_eq_map_add hnone, hfirst]
      simp
  | case4 offset part hslice i hfound hcloses ih =>
      obtain rfl : rest = part := Except.ok.inj (h.slice.symm.trans hslice)
      obtain ⟨n, tag, rfl, hnone, htag, hahead⟩ := exists_endTag h hfound name
      have hhere : endsRawText name ('<' :: '/' :: tag) = false := by
        rw [endsRawText_cons, ← closesName_eq hahead.tail.tail]
        exact Bool.eq_false_iff.mpr hcloses
      have hslash : endsRawText name ('/' :: tag) = false := rfl
      have hskip : seek? (endsRawText name) ('<' :: '/' :: tag) =
          (seek? (endsRawText name) tag).map (· + 2) := by
        rw [seek?, hhere, if_neg Bool.false_ne_true, seek?, hslash, if_neg Bool.false_ne_true,
          Option.map_map]
        rfl
      have hone : ('<' : Char).utf8Size = 1 ∧ ('/' : Char).utf8Size = 1 := by decide
      have hlength (k : Nat) : byteLength (rest.take (k + 2 + n)) =
          byteLength (rest.take n) + (2 + byteLength (tag.take k)) := by
        rw [Nat.add_comm, List.take_add, htag, byteLength_append, List.take_succ_cons,
          List.take_succ_cons, byteLength_cons, byteLength_cons, hone.1, hone.2]
        omega
      rw [ih hahead.tail.tail, seek?_eq_map_add hnone, htag, hskip]
      cases seek? (endsRawText name) tag with
      | none => rfl
      | some k =>
          simp [hlength]
          omega

end Lookahead

end Sliced

end Relex.Markup
