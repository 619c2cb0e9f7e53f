import Relex.Proofs.Bytes
import Relex.Proofs.LineEnds
import Relex.Script.Grammar

/-! # Script read by offsets

The lexeme at an offset of a source can be found with slices alone: the source is cut at the end of
the region, the rest is cut out at the offset, and each rule cuts again wherever it goes on. Templates
are read byte by byte. None of these cuts fails once the first two have succeeded, and the lexeme is
the one that `Lexeme.front` answers for the characters (`Sliced.lexemeAt_eq`).
-/

namespace Relex.Script

open Text Unicode

namespace Sliced

/-- The offset behind a string, counted along the characters behind its opening quote. -/
def stringStop? (quote : Char) (offset : Nat) (escaped : Bool) : List Char → Option Nat
  | [] => none
  | c :: cs =>
    if escaped then stringStop? quote (offset + c.utf8Size) false cs
    else if c = '\\' then stringStop? quote (offset + c.utf8Size) true cs
    else if isLineBreak c then some offset
    else if c = quote then some (offset + 1)
    else stringStop? quote (offset + c.utf8Size) false cs

def stringStop (text : List Char) (offset : Nat) (quote : Char) : Except RangeError Nat := do
  let rest ← sliceFrom text (offset + 1)
  return (stringStop? quote (offset + 1) false rest).getD (byteLength text)

/-- The offset behind a template, from the byte at `i` on, inside as many open braces as `depth`. A
    backslash takes a byte with it, even one inside a character. -/
def templateStop (text : List UInt8) (i depth : Nat) : Nat :=
  if h : i < text.length then
    if text[i] = '\\'.toUInt8 then templateStop text (i + 2) depth
    else if text[i] = '$'.toUInt8 ∧ depth = 0 ∧ text[i + 1]? = some '\x7b'.toUInt8 then
      templateStop text (i + 2) 1
    else if text[i] = '\x7b'.toUInt8 ∧ 0 < depth then templateStop text (i + 1) (depth + 1)
    else if text[i] = '\x7d'.toUInt8 ∧ 0 < depth then templateStop text (i + 1) (depth - 1)
    else if text[i] = '\x60'.toUInt8 ∧ depth = 0 then i + 1
    else templateStop text (i + 1) depth
  else
    text.length
termination_by text.length - i

/-- The offset behind an exponent, or the offset where there is none. -/
def exponentStop (text : List Char) (offset : Nat) : Except RangeError Nat := do
  let rest ← sliceFrom text offset
  if headIs (fun c => c == 'e' || c == 'E') rest then
    let behind ← sliceFrom rest 1
    let sign := if headIs (fun c => c == '+' || c == '-') behind then 1 else 0
    let digits ← sliceFrom rest (1 + sign)
    if headIs Char.isDigit digits then passWhile text (offset + 1 + sign) Char.isDigit
    else return offset
  else
    return offset

def numberStop (text : List Char) (offset : Nat) : Except RangeError Nat := do
  let rest ← sliceFrom text offset
  if begins ['0', 'x'] rest || begins ['0', 'X'] rest then
    passWhile text (offset + 2) fun c => isHexDigit c || c == '_'
  else
    let stop ← passWhile text offset fun c => c.isDigit || c == '_' || c == '.'
    exponentStop text stop

/-- The kind of the lexeme that begins at the offset with `c`, when `cs` follows, and the offset behind
    it. The text ends at `stop`. -/
def lexeme (text : List Char) (stop offset : Nat) (c : Char) (cs : List Char) :
    Except RangeError (ScriptKind × Nat) := do
  if isWhiteSpace c then
    return (.whiteSpace, ← passWhile text offset isWhiteSpace)
  else if c = '/' && begins ['/'] cs then
    let found := findWhere (headIs isLineBreak) 0 (c :: cs)
    return (.lineComment, (found.map (offset + ·)).getD stop)
  else if c = '/' && begins ['*'] cs then
    let body ← sliceFrom (c :: cs) 2
    let found := findWhere (begins ['*', '/']) 0 body
    return (.blockComment, (found.map fun i => offset + 2 + i + 2).getD stop)
  else if c = '\x22' || c = '\x27' then
    return (.string, ← stringStop text offset c)
  else if c = '\x60' then
    return (.templateString, templateStop (bytes text) (offset + 1) 0)
  else if c.isDigit || (c = '.' && headIs Char.isDigit cs) then
    return (.number, ← numberStop text offset)
  else if startsName c then
    let nameStop ← passWhile text offset continuesName
    let name ← region text offset nameStop
    return (nameKind name, nameStop)
  else if let some kind := delimiter? c then
    return (kind, offset + 1)
  else if c = '.' && begins ['.', '.'] cs then
    return (.operator, offset + 3)
  else if c = '.' then
    return (.dot, offset + 1)
  else if c = '=' && !headIs (fun d => d == '=' || d == '>') cs then
    return (.eq, offset + 1)
  else if isOperatorSign c then
    return (.operator, ← passWhile text offset isOperatorSign)
  else
    return (.badCharacter, offset + c.utf8Size)

/-- The lexeme at an offset, and the offset behind it. -/
def lexemeAt (source : List Char) (offset stop : Nat) : Except RangeError (ScriptKind × Nat) := do
  let text ← sliceTo source stop
  match ← sliceFrom text offset with
  | [] => return (.badCharacter, offset)
  | c :: cs => lexeme text stop offset c cs

/-! ## Strings -/

theorem stringStop?_eq {quote : Char} (hquote : quote.utf8Size = 1) (offset : Nat) (cs : List Char) :
    (stringStop? quote offset false cs).getD (offset + byteLength cs) =
      offset + byteLength (cs.take (stringRest quote cs)) := by
  fun_induction stringRest quote cs generalizing offset with
  | case1 => rfl
  | case2 => rfl
  | case3 d cs ih =>
      have hrest := ih (offset + ('\\' : Char).utf8Size + d.utf8Size)
      simp_all [stringStop?, Nat.add_assoc]
  | case4 c cs hlone hescape hbreak =>
      have hne : c ≠ '\\' := by
        rintro rfl
        exact absurd hbreak (by decide)
      simp [stringStop?, hne, hbreak]
  | case5 cs hlone hescape hbreak =>
      have hne : quote ≠ '\\' := by
        rintro rfl
        cases cs <;> simp_all
      simp [stringStop?, hne, hbreak, hquote]
  | case6 c cs hlone hescape hbreak hclose ih =>
      have hne : c ≠ '\\' := by
        rintro rfl
        cases cs <;> simp_all
      have hrest := ih (offset + c.utf8Size)
      simp_all [stringStop?, Nat.add_assoc]

/-! ## Templates -/

section Template

variable {text : List UInt8} {i : Nat}

theorem templateStop_of_le (h : text.length ≤ i) (depth : Nat) :
    templateStop text i depth = text.length := by
  rw [templateStop, dif_neg (Nat.not_lt.mpr h)]

/-- One turn of the loop, seen from the bytes that are left. -/
theorem templateStop_cons {b : UInt8} {more : List UInt8} (h : text.drop i = b :: more)
    (depth : Nat) : templateStop text i depth =
      if b = '\\'.toUInt8 then templateStop text (i + 2) depth
      else if b = '$'.toUInt8 ∧ depth = 0 ∧ more.head? = some '\x7b'.toUInt8 then
        templateStop text (i + 2) 1
      else if b = '\x7b'.toUInt8 ∧ 0 < depth then templateStop text (i + 1) (depth + 1)
      else if b = '\x7d'.toUInt8 ∧ 0 < depth then templateStop text (i + 1) (depth - 1)
      else if b = '\x60'.toUInt8 ∧ depth = 0 then i + 1
      else templateStop text (i + 1) depth := by
  have hlt : i < text.length := by
    have hlength := congrArg List.length h
    simp only [List.length_drop, List.length_cons] at hlength
    omega
  have hb : text[i] = b := by
    have hhead := congrArg List.head? h
    simpa [List.head?_drop, List.getElem?_eq_getElem hlt] using hhead
  have hnext : text[i + 1]? = more.head? := by
    rw [← List.head?_drop, ← List.drop_drop, h, List.drop_succ_cons, List.drop_zero]
  rw [templateStop, dif_pos hlt, hb, hnext]

theorem drop_append_of_drop {front back : List UInt8} (h : text.drop i = front ++ back) :
    text.drop (i + front.length) = back := by
  rw [← List.drop_drop, h, List.drop_left]

/-- Bytes inside characters are passed over. -/
theorem templateStop_skip {inside back : List UInt8} (h : text.drop i = inside ++ back)
    (hinside : ∀ b ∈ inside, 128 ≤ b.toNat) (depth : Nat) :
    templateStop text i depth = templateStop text (i + inside.length) depth := by
  induction inside generalizing i with
  | nil => rfl
  | cons b inside ih =>
      obtain ⟨hb, hmore⟩ := List.forall_mem_cons.mp hinside
      have hne (d : Char) (hd : d.toUInt8.toNat < 128) : b ≠ d.toUInt8 := by
        rintro rfl
        omega
      have hrest : text.drop (i + 1) = inside ++ back := by
        have hdrop : text.drop i = [b] ++ (inside ++ back) := h
        exact drop_append_of_drop hdrop
      rw [templateStop_cons h, ih hrest hmore]
      simp [hne _ (by decide : ('\\' : Char).toUInt8.toNat < 128),
        hne _ (by decide : ('$' : Char).toUInt8.toNat < 128),
        hne _ (by decide : ('\x7b' : Char).toUInt8.toNat < 128),
        hne _ (by decide : ('\x7d' : Char).toUInt8.toNat < 128),
        hne _ (by decide : ('\x60' : Char).toUInt8.toNat < 128), Nat.add_assoc, Nat.add_comm 1]

/-- A byte that is skipped takes its character with it, for the bytes behind it are passed over. -/
theorem templateStop_skip_byte {c : Char} {cs : List Char}
    (h : text.drop i = String.utf8EncodeChar c ++ bytes cs) (depth : Nat) :
    templateStop text (i + 1) depth = templateStop text (i + c.utf8Size) depth := by
  obtain ⟨b, more, hbytes, hmore, -⟩ := exists_encoding c
  have hlength := String.length_utf8EncodeChar c
  rw [hbytes] at h hlength
  have hrest : text.drop (i + 1) = more ++ bytes cs := by
    have hdrop : text.drop i = [b] ++ (more ++ bytes cs) := h
    exact drop_append_of_drop hdrop
  rw [templateStop_skip hrest hmore, ← hlength, List.length_cons, Nat.add_assoc, Nat.add_comm 1]

/-- One turn of the loop, seen from the characters that are left. -/
theorem templateStop_char {c : Char} {cs : List Char} (h : text.drop i = bytes (c :: cs))
    (depth : Nat) : templateStop text i depth =
      if c = '\\' then templateStop text (i + 2) depth
      else if c = '$' ∧ depth = 0 ∧ begins ['\x7b'] cs then templateStop text (i + 2) 1
      else if c = '\x7b' ∧ 0 < depth then templateStop text (i + 1) (depth + 1)
      else if c = '\x7d' ∧ 0 < depth then templateStop text (i + 1) (depth - 1)
      else if c = '\x60' ∧ depth = 0 then i + 1
      else templateStop text (i + c.utf8Size) depth := by
  rw [← templateStop_skip_byte h]
  obtain ⟨b, more, hbytes, hmore, hascii⟩ := exists_encoding c
  have hnext (hdollar : c = '$') :
      (more ++ bytes cs).head? = some '\x7b'.toUInt8 ↔ begins ['\x7b'] cs = true := by
    have hnil : more = [] := by
      subst hdollar
      exact (List.cons_eq_cons.mp hbytes).2.symm
    rw [hnil, List.nil_append]
    exact head?_bytes_eq_iff (by decide) cs
  rw [bytes_cons, hbytes, List.cons_append] at h
  rw [templateStop_cons h]
  simp only [hascii '\\' (by decide), hascii '$' (by decide), hascii '\x7b' (by decide),
    hascii '\x7d' (by decide), hascii '\x60' (by decide)]
  have hopen : (c = '$' ∧ depth = 0 ∧ (more ++ bytes cs).head? = some '\x7b'.toUInt8) ↔
      c = '$' ∧ depth = 0 ∧ begins ['\x7b'] cs = true :=
    and_congr_right fun hdollar => and_congr_right fun _ => hnext hdollar
  simp only [hopen]

theorem drop_char {c : Char} {cs : List Char} (h : text.drop i = bytes (c :: cs)) :
    text.drop (i + c.utf8Size) = bytes cs := by
  rw [← String.length_utf8EncodeChar c]
  exact drop_append_of_drop h

theorem templateStop_eq {cs : List Char} (h : text.drop i = bytes cs)
    (hlength : text.length = i + byteLength cs) (depth : Nat) :
    templateStop text i depth = i + byteLength (cs.take (templateRest depth cs)) := by
  have hsize : ∀ c ∈ ['\\', '$', '\x7b', '\x7d', '\x60'], c.utf8Size = 1 := by
    simp only [List.forall_mem_cons, List.not_mem_nil, false_implies, implies_true, and_true]
    decide
  fun_induction templateRest depth cs generalizing i with
  | case1 depth =>
      rw [templateStop_of_le (by simp [hlength])]
      exact hlength
  | case2 depth =>
      have hone : text.length = i + 1 := hlength
      rw [templateStop_char h, if_pos rfl, templateStop_of_le (by omega)]
      exact hlength
  | case3 depth d cs ih =>
      -- The skipped byte may be the first of several; the others are passed over.
      have hd := drop_char h
      rw [hsize '\\' (by decide)] at hd
      have hrest := ih (drop_char hd) (by simp_all; omega)
      rw [templateStop_char h, if_pos rfl, templateStop_skip_byte hd, hrest]
      simp [hsize, Nat.add_assoc]
  | case4 cs ih =>
      have hbrace := drop_char h
      rw [hsize '$' (by decide)] at hbrace
      have hrest := drop_char hbrace
      rw [hsize '\x7b' (by decide)] at hrest
      have hopen : begins ['\x7b'] ('\x7b' :: cs) = true := by simp [begins]
      rw [templateStop_char h, if_neg (by decide), if_pos ⟨rfl, rfl, hopen⟩,
        ih hrest (by simp_all; omega)]
      simp only [List.take_succ_cons, byteLength_cons, hsize '$' (by decide),
        hsize '\x7b' (by decide)]
      omega
  | case5 cs hlone hescape hopen =>
      rw [templateStop_char h]
      simp [hsize]
  | case6 c cs hlone hescape hopen hclose ih =>
      have hne : c ≠ '\\' := by
        rintro rfl
        cases cs <;> simp_all
      have hdollar : ¬ (c = '$' ∧ begins ['\x7b'] cs = true) := by
        rintro ⟨rfl, hbegins⟩
        obtain ⟨rest, rfl⟩ := exists_of_begins_singleton hbegins
        exact hopen rest rfl rfl
      rw [templateStop_char h]
      simp_all [ih (drop_char h), Nat.add_assoc]
  | case7 depth cs hlone hescape ih =>
      have hrest := drop_char h
      rw [hsize '\x7b' (by decide)] at hrest
      rw [templateStop_char h]
      simp_all [ih hrest, Nat.add_assoc]
  | case8 depth cs hlone hescape hopen ih =>
      have hrest := drop_char h
      rw [hsize '\x7d' (by decide)] at hrest
      rw [templateStop_char h]
      simp_all [ih hrest, Nat.add_assoc]
  | case9 depth c cs hlone hescape hopen hclose ih =>
      have hne : c ≠ '\\' := by
        rintro rfl
        cases cs <;> simp_all
      rw [templateStop_char h]
      simp_all [ih (drop_char h), Nat.add_assoc]

end Template

/-! ## The other lexemes -/

section Rules

variable {text cs : List Char} {c : Char} {offset : Nat}

theorem stringStop_eq (h : Ahead text offset (c :: cs)) (hc : c.utf8Size = 1) :
    stringStop text offset c = .ok (offset + byteLength (c :: cs.take (stringRest c cs))) := by
  have htail := h.tail
  rw [hc] at htail
  have hstop := stringStop?_eq hc (offset + 1) cs
  rw [← htail.byteLength_eq] at hstop
  rw [stringStop, htail.slice]
  simp only [bind, Except.bind, pure, Except.pure, hstop, byteLength_cons, hc, Nat.add_assoc]

theorem passWhile_cons (h : Ahead text offset (c :: cs)) {p : Char → Bool} (hc : p c = true) :
    passWhile text offset p = .ok (offset + byteLength (c :: cs.take (runLength p cs))) := by
  rw [passWhile_eq h, runLength_cons hc, List.take_succ_cons]

theorem lineComment_eq (h : Ahead text offset ('/' :: cs)) :
    ((findWhere (headIs isLineBreak) 0 ('/' :: cs)).map (offset + ·)).getD (byteLength text) =
      offset + byteLength ('/' :: cs.take (runLength (fun d => !isLineBreak d) cs)) := by
  have hpass := passWhile_cons h (p := fun d => !isLineBreak d) (by decide)
  rw [passWhile, h.slice] at hpass
  simpa [bind, Except.bind, pure, Except.pure] using hpass

theorem blockComment_eq (h : Ahead text (offset + 2) cs) :
    ((findWhere (begins ['*', '/']) 0 cs).map fun i => offset + 2 + i + 2).getD (byteLength text) =
      offset + 2 + byteLength (cs.take (blockCommentRest cs)) := by
  rw [findWhere_eq, blockCommentRest]
  cases hseek : seek? (begins ['*', '/']) cs with
  | none => simp [h.byteLength_eq]
  | some n =>
      have hclose := byteLength_take_add (begins_iff.mp (seek?_spec hseek))
      have htwo : byteLength ['*', '/'] = 2 := by decide
      simp only [List.length_cons, List.length_nil, htwo] at hclose
      simp [hclose, Nat.add_assoc]

/-- The signs of an exponent take a byte each. -/
theorem ahead_of_headIs {p : Char → Bool} (hp : ∀ c, p c = true → c.toNat < 128)
    (h : Ahead text offset cs) (hhead : headIs p cs = true) : Ahead text (offset + 1) (cs.drop 1) := by
  obtain ⟨c, rest, rfl, hc⟩ := exists_of_headIs hhead
  have htail := h.tail
  rwa [utf8Size_of_ascii (hp c hc)] at htail

theorem exponentStop_eq (h : Ahead text offset cs) :
    exponentStop text offset = .ok (offset + byteLength (cs.take (exponentLength cs))) := by
  have hletter : ∀ c : Char, (c == 'e' || c == 'E') = true → c.toNat < 128 := by
    intro c hc
    simp only [Bool.or_eq_true, beq_iff_eq] at hc
    rcases hc with rfl | rfl <;> decide
  have hsigns : ∀ c : Char, (c == '+' || c == '-') = true → c.toNat < 128 := by
    intro c hc
    simp only [Bool.or_eq_true, beq_iff_eq] at hc
    rcases hc with rfl | rfl <;> decide
  rw [exponentStop, h.slice, exponentLength]
  simp only [bind, Except.bind, pure, Except.pure]
  split
  · rename_i hhead
    have hbehind := ahead_of_headIs hletter (Ahead.zero cs) hhead
    have hafter := ahead_of_headIs hletter h hhead
    rw [Nat.zero_add] at hbehind
    simp only [hbehind.slice]
    -- With or without a sign, the digits begin where both texts say so.
    obtain ⟨sign, hsign, hdigits, hstop⟩ : ∃ sign,
        (if headIs (fun c => c == '+' || c == '-') (cs.drop 1) then 1 else 0) = sign ∧
        Ahead cs (1 + sign) (cs.drop (1 + sign)) ∧
        Ahead text (offset + (1 + sign)) (cs.drop (1 + sign)) := by
      split
      · rename_i hsign
        refine ⟨1, rfl, ?_, ?_⟩
        · simpa using ahead_of_headIs hsigns hbehind hsign
        · simpa using ahead_of_headIs hsigns hafter hsign
      · exact ⟨0, rfl, hbehind, hafter⟩
    have hlength := h.byteLength_take hstop
    rw [hsign, hdigits.slice, Nat.add_assoc offset 1 sign, passWhile_eq hstop]
    cases hrest : cs.drop (1 + sign) with
    | nil => simp [headIs, runLength]
    | cons d ds =>
        cases hd : d.isDigit with
        | false => simp [headIs, runLength, hd]
        | true =>
            have hall : byteLength (cs.take (1 + sign + (runLength Char.isDigit ds + 1))) =
                1 + sign + byteLength ((d :: ds).take (runLength Char.isDigit ds + 1)) := by
              rw [List.take_add, byteLength_append, hlength, hrest]
            simp [headIs, runLength_cons hd, hd, hall]
            omega
  · simp

theorem numberStop_eq (h : Ahead text offset (c :: cs))
    (hc : c.isDigit || (c = '.' && headIs Char.isDigit cs)) :
    numberStop text offset = .ok (offset + byteLength (c :: cs.take (numberRest c cs))) := by
  have hhex : (begins ['0', 'x'] (c :: cs) || begins ['0', 'X'] (c :: cs)) =
      (c = '0' && headIs (fun c => c == 'x' || c == 'X') cs) := by
    cases cs with
    | nil => simp [begins, headIs, List.isPrefixOf]
    | cons d ds =>
        simp only [begins, headIs, List.isPrefixOf, List.head?_cons, Option.any_some]
        grind
  rw [numberStop, h.slice, numberRest]
  simp only [bind, Except.bind, hhex]
  split
  · rename_i hx
    simp only [Bool.and_eq_true, decide_eq_true_eq] at hx
    obtain ⟨rfl, hx⟩ := hx
    have hletter : ∀ c : Char, (c == 'x' || c == 'X') = true → c.toNat < 128 := by
      intro c hc
      simp only [Bool.or_eq_true, beq_iff_eq] at hc
      rcases hc with rfl | rfl <;> decide
    have hdigits := ahead_of_headIs hletter h.tail hx
    have hzero : ('0' : Char).utf8Size = 1 := by decide
    rw [hzero] at hdigits
    have hone : byteLength (cs.take 1) = 1 := by
      have htail := h.tail
      rw [hzero] at htail
      exact htail.byteLength_take hdigits
    rw [passWhile_eq hdigits, byteLength_cons, List.take_add, byteLength_append, hone, hzero]
    simp only [Nat.add_assoc]
  · have hbody : (c.isDigit || c == '_' || c == '.') = true := by
      simp only [Bool.or_eq_true, Bool.and_eq_true, decide_eq_true_eq] at hc
      rcases hc with hc | ⟨rfl, -⟩ <;> simp [*]
    have hstop := h.drop (runLength (fun c => c.isDigit || c == '_' || c == '.') cs + 1)
    rw [List.take_succ_cons, List.drop_succ_cons] at hstop
    rw [passWhile_cons (p := fun c => c.isDigit || c == '_' || c == '.') h hbody]
    simp only [exponentStop_eq hstop]
    rw [List.take_add]
    simp [Nat.add_assoc]

theorem continuesName_of_startsName (h : startsName c = true) : continuesName c = true := by
  simp only [startsName, continuesName, isAlphanumeric, Bool.or_eq_true] at h ⊢
  rcases h with (h | h) | h <;> simp [h]

theorem delimiter?_eq_some {kind : ScriptKind} (h : delimiter? c = some kind) :
    c.utf8Size = 1 ∧ c ≠ '.' ∧ c ≠ '=' ∧ isOperatorSign c = false := by
  unfold delimiter? at h
  split at h
  all_goals cases h
  all_goals decide

/-- A rule answers a lexeme of the right kind that stops where the characters say. -/
theorem lexeme_eq (h : Ahead text offset (c :: cs)) :
    lexeme text (byteLength text) offset c cs = .ok ((Lexeme.front c cs).kind,
      offset + byteLength (c :: cs.take (Lexeme.front c cs).more)) := by
  unfold lexeme Lexeme.front
  by_cases hspace : isWhiteSpace c = true
  · simp only [if_pos hspace, passWhile_cons h hspace]
    rfl
  by_cases hline : (decide (c = '/') && begins ['/'] cs) = true
  · have hslash : c = '/' := by simp_all
    simp only [if_neg hspace, if_pos hline]
    subst hslash
    rw [lineComment_eq h]
    rfl
  by_cases hblock : (decide (c = '/') && begins ['*'] cs) = true
  · simp only [if_neg hspace, if_neg hline, if_pos hblock]
    obtain ⟨rest, rfl⟩ := exists_of_begins_singleton (Bool.and_eq_true_iff.mp hblock).2
    have hslash : c = '/' := by simp_all
    subst hslash
    have hbody : Ahead ('/' :: '*' :: rest) 2 rest := ⟨['/', '*'], rfl, by decide⟩
    have hrest : Ahead text (offset + 2) rest := h.tail.tail
    have hone : ('/' : Char).utf8Size = 1 ∧ ('*' : Char).utf8Size = 1 := by decide
    simp only [hbody.slice, bind, Except.bind, blockComment_eq hrest, pure, Except.pure,
      List.drop_succ_cons, List.drop_zero, Nat.add_comm 1, List.take_succ_cons, byteLength_cons,
      hone.1, hone.2]
    congr 2
    omega
  by_cases hquote : (decide (c = '\x22') || decide (c = '\x27')) = true
  · have hone : c.utf8Size = 1 := by
      simp only [Bool.or_eq_true, decide_eq_true_eq] at hquote
      rcases hquote with rfl | rfl <;> decide
    simp only [if_neg hspace, if_neg hline, if_neg hblock, if_pos hquote, stringStop_eq h hone]
    rfl
  by_cases hbacktick : c = '\x60'
  · simp only [if_neg hspace, if_neg hline, if_neg hblock, if_neg hquote, if_pos hbacktick]
    subst hbacktick
    have hone : ('\x60' : Char).utf8Size = 1 := by decide
    have hrest := h.tail
    rw [hone] at hrest
    have hlength : (bytes text).length = offset + 1 + byteLength cs := by
      rw [length_bytes, hrest.byteLength_eq]
    rw [templateStop_eq (drop_bytes hrest) hlength, byteLength_cons, hone, ← Nat.add_assoc]
    rfl
  by_cases hnumber : (c.isDigit || decide (c = '.') && headIs Char.isDigit cs) = true
  · simp only [if_neg hspace, if_neg hline, if_neg hblock, if_neg hquote, if_neg hbacktick,
      if_pos hnumber, numberStop_eq h hnumber]
    rfl
  by_cases hname : startsName c = true
  · have hsplit : c :: cs = (c :: cs.take (runLength continuesName cs)) ++
        cs.drop (runLength continuesName cs) := by simp
    have hregion := (hsplit ▸ h).region
    simp only [if_neg hspace, if_neg hline, if_neg hblock, if_neg hquote, if_neg hbacktick,
      if_neg hnumber, if_pos hname, passWhile_cons h (continuesName_of_startsName hname), bind,
      Except.bind, hregion]
    rfl
  simp only [if_neg hspace, if_neg hline, if_neg hblock, if_neg hquote, if_neg hbacktick,
    if_neg hnumber, if_neg hname]
  cases hdelimiter : delimiter? c with
  | some kind =>
      obtain ⟨hone, hdot, hequals, hsign⟩ := delimiter?_eq_some hdelimiter
      simp [hdot, hequals, hsign, hone]
      rfl
  | none =>
      have hascii : ('.' : Char).utf8Size = 1 ∧ ('=' : Char).utf8Size = 1 := by decide
      by_cases hdot : c = '.'
      · subst hdot
        by_cases hdots : begins ['.', '.'] cs = true
        · obtain ⟨rest, rfl⟩ := begins_iff.mp hdots
          have hthree : byteLength ('.' :: (['.', '.'] ++ rest).take 2) = 3 := by
            simp [hascii]
          simp only [hdots, decide_true, Bool.and_self, if_true, hthree]
          rfl
        · simp [hdots, hascii]
          rfl
      by_cases hequals : (decide (c = '=') && !headIs (fun d => d == '=' || d == '>') cs) = true
      · have hone : c.utf8Size = 1 := by simp_all
        simp only [hdot, decide_false, Bool.false_and, if_false, if_pos hequals, List.take_zero,
          byteLength_cons, byteLength_nil, hone]
        rfl
      by_cases hsign : isOperatorSign c = true
      · simp only [hdot, decide_false, Bool.false_and, if_false, if_neg hequals, if_pos hsign,
          passWhile_cons h hsign]
        rfl
      · simp only [hdot, decide_false, Bool.false_and, if_false, if_neg hequals, if_neg hsign]
        simp
        rfl

end Rules

/-- What is cut and searched for by offsets is what the characters say, errors included. -/
theorem lexemeAt_eq (source : String) (offset stop : Nat) :
    lexemeAt source.toList offset stop = Script.lexemeAt source offset stop := by
  rw [lexemeAt, Script.lexemeAt, region_eq]
  cases htext : sliceTo source.toList stop with
  | error error => rfl
  | ok text =>
      simp only [bind, Except.bind]
      cases hrest : sliceFrom text offset with
      | error error => rfl
      | ok rest =>
          have hstop := byteLength_of_sliceTo htext
          have hahead := sliceFrom_eq_ok_iff.mp hrest
          cases rest with
          | nil => rfl
          | cons c cs =>
              obtain rfl := hstop
              exact lexeme_eq hahead

end Sliced

end Relex.Script
