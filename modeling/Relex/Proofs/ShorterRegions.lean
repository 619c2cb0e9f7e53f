import Relex.Proofs.Coverage
import Relex.Proofs.LineEnds

/-! # Lexemes in shorter regions

A lexeme is found by looking ahead, and often further than it reaches: for the digits of an exponent, the
second sign of a comment, the brace behind a dollar sign. What is looked at and not taken makes no
difference. Where the text is cut off anywhere behind the lexeme, the same lexeme is found
(`Lexeme.front_take`), and its own text is one lexeme of its kind.
-/

namespace Relex

namespace Text

variable {p : Char → Bool} {pattern cs : List Char} {k n : Nat}

/-! ## Looking ahead in a cut text -/

theorem begins_of_take (h : begins pattern (cs.take n) = true) : begins pattern cs = true :=
  begins_iff.mpr ((begins_iff.mp h).trans (List.take_prefix n cs))

theorem begins_take (hle : pattern.length ≤ n) (h : begins pattern cs = true) :
    begins pattern (cs.take n) = true := by
  obtain ⟨rest, rfl⟩ := begins_iff.mp h
  rw [List.take_append, List.take_of_length_le hle]
  exact begins_iff.mpr (List.prefix_append _ _)

theorem headIs_of_take (h : headIs p (cs.take n) = true) : headIs p cs = true := by
  cases cs with
  | nil => rwa [List.take_nil] at h
  | cons c cs =>
      cases n with
      | zero => cases h
      | succ n => exact h

theorem headIs_take (hpos : 0 < n) (cs : List Char) : headIs p (cs.take n) = headIs p cs := by
  obtain ⟨n, rfl⟩ := Nat.exists_eq_add_one.mpr hpos
  cases cs <;> rfl

theorem runLength_take (h : runLength p cs ≤ n) : runLength p (cs.take n) = runLength p cs := by
  rw [runLength, ← List.take_takeWhile, List.length_take, ← runLength, Nat.min_eq_right h]

/-- A search finds the same place if what is found there is not cut. -/
theorem seek?_take (hne : pattern ≠ []) (h : seek? (begins pattern) cs = some k)
    (hle : k + pattern.length ≤ n) : seek? (begins pattern) (cs.take n) = some k := by
  have hlength : (cs.take k).length = k := List.length_take_of_le (Nat.le_of_lt (seek?_lt h))
  have hsplit : cs.take n = cs.take k ++ (cs.drop k).take (n - k) := by
    rw [← List.take_add, Nat.add_sub_cancel' (by omega)]
  have hhere : begins pattern ((cs.drop k).take (n - k)) = true :=
    begins_take (by omega) (seek?_spec h)
  have hsome : (cs.drop k).take (n - k) ≠ [] := by
    intro hnil
    rw [hnil] at hhere
    exact hne (List.prefix_nil.mp (begins_iff.mp hhere))
  have hfirst : ∀ j < (cs.take k).length,
      begins pattern ((cs.take k ++ (cs.drop k).take (n - k)).drop j) = false := by
    intro j hj
    rw [hlength] at hj
    rw [← hsplit, List.drop_take]
    exact Bool.eq_false_iff.mpr fun hj' =>
      Bool.eq_false_iff.mp (seek?_first h j hj) (begins_of_take hj')
  rw [hsplit, seek?_of_first hsome hhere hfirst, hlength]

end Text

namespace Script

open Text Unicode

variable {quote c : Char} {cs : List Char} {n : Nat}

/-! ## The rest of a lexeme in a cut text -/

theorem stringRest_take (h : stringRest quote cs ≤ n) :
    stringRest quote (cs.take n) = stringRest quote cs := by
  fun_induction stringRest quote cs generalizing n with
  | case1 => rw [List.take_nil, stringRest]
  | case2 => rw [List.take_of_length_le h, stringRest]
  | case3 d cs ih =>
      obtain ⟨n, rfl⟩ := Nat.exists_eq_add_of_le' (show 2 ≤ n by omega)
      rw [List.take_succ_cons, List.take_succ_cons, stringRest, ih (by omega)]
  | case4 c cs hend hescape hbreak =>
      cases n with
      | zero => rw [List.take_zero, stringRest]
      | succ n => rw [List.take_succ_cons, stringRest_cons (ne_backslash hend hescape), if_pos hbreak]
  | case5 cs hend hescape hbreak =>
      obtain ⟨n, rfl⟩ := Nat.exists_eq_add_of_le' h
      rw [List.take_succ_cons, stringRest_cons (ne_backslash hend hescape), if_neg hbreak, if_pos rfl]
  | case6 c cs hend hescape hbreak hquote ih =>
      obtain ⟨n, rfl⟩ := Nat.exists_eq_add_of_le' (show 1 ≤ n by omega)
      rw [List.take_succ_cons, stringRest_cons (ne_backslash hend hescape), if_neg hbreak,
        if_neg hquote, ih (by omega)]

theorem templateRest_take {depth : Nat} (h : templateRest depth cs ≤ n) :
    templateRest depth (cs.take n) = templateRest depth cs := by
  fun_induction templateRest depth cs generalizing n with
  | case1 depth => rw [List.take_nil, templateRest]
  | case2 depth => rw [List.take_of_length_le h, templateRest]
  | case3 depth d cs ih =>
      obtain ⟨n, rfl⟩ := Nat.exists_eq_add_of_le' (show 2 ≤ n by omega)
      rw [List.take_succ_cons, List.take_succ_cons, templateRest_escape, ih (by omega)]
  | case4 cs ih =>
      obtain ⟨n, rfl⟩ := Nat.exists_eq_add_of_le' (show 2 ≤ n by omega)
      rw [List.take_succ_cons, List.take_succ_cons, templateRest, ih (by omega)]
  | case5 cs =>
      obtain ⟨n, rfl⟩ := Nat.exists_eq_add_of_le' h
      rw [List.take_succ_cons]
      rfl
  | case6 c cs hend hescape hdollar hquote ih =>
      obtain ⟨n, rfl⟩ := Nat.exists_eq_add_of_le' (show 1 ≤ n by omega)
      have hopens : c = '$' → (cs.take n).head? ≠ some '\x7b' := by
        intro hc hhead
        obtain ⟨behind, hbehind⟩ := List.head?_eq_some_iff.mp hhead
        have hbrace : begins ['\x7b'] (cs.take n) = true := begins_iff.mpr ⟨behind, hbehind.symm⟩
        obtain ⟨ds, hds⟩ := exists_of_begins_singleton (begins_of_take hbrace)
        exact hdollar ds hc hds
      rw [List.take_succ_cons, templateRest_plain hquote (ne_backslash hend hescape) hopens,
        ih (by omega)]
  | case7 depth cs hend hescape ih =>
      obtain ⟨n, rfl⟩ := Nat.exists_eq_add_of_le' (show 1 ≤ n by omega)
      rw [List.take_succ_cons, templateRest_inside (by decide) rfl, ih (by omega)]
  | case8 depth cs hend hescape hopens ih =>
      obtain ⟨n, rfl⟩ := Nat.exists_eq_add_of_le' (show 1 ≤ n by omega)
      have hcloses : templateRest (depth + 1) ('\x7d' :: cs.take n) =
          templateRest depth (cs.take n) + 1 := by
        cases depth <;> rfl
      rw [List.take_succ_cons, hcloses, ih (by omega)]
  | case9 depth c cs hend hescape hopens hcloses ih =>
      obtain ⟨n, rfl⟩ := Nat.exists_eq_add_of_le' (show 1 ≤ n by omega)
      have hcount : depth + [c].count '\x7d' = depth + [c].count '\x7b' := by
        simp [hopens, hcloses]
      rw [List.take_succ_cons, templateRest_inside (ne_backslash hend hescape) hcount, ih (by omega)]

theorem exponentLength_of_length_le_one (h : cs.length ≤ 1) : exponentLength cs = 0 := by
  have hdrop : ∀ sign, cs.drop (1 + sign) = [] := fun sign => List.drop_of_length_le (by omega)
  simp [exponentLength, hdrop, runLength]

theorem exponentLength_take (h : exponentLength cs ≤ n) :
    exponentLength (cs.take n) = exponentLength cs := by
  by_cases hn : n ≤ 1
  · -- The letter alone is not an exponent.
    have hshort : exponentLength (cs.take n) = 0 := exponentLength_of_length_le_one (by simp; omega)
    have hnone : exponentLength cs = 0 := by
      rw [exponentLength] at h ⊢
      simp only at h ⊢
      split_ifs at h ⊢ <;> omega
    rw [hshort, hnone]
  · have hsign : headIs (fun c => c == '+' || c == '-') ((cs.take n).drop 1) =
        headIs (fun c => c == '+' || c == '-') (cs.drop 1) := by
      rw [List.drop_take, headIs_take (by omega)]
    rw [exponentLength] at h ⊢
    rw [exponentLength, headIs_take (by omega), hsign]
    simp only at h ⊢
    generalize hone : (if headIs (fun c => c == '+' || c == '-') (cs.drop 1) then 1 else 0) = sign at h ⊢
    have hle : sign ≤ 1 := by
      rw [← hone]
      split_ifs <;> omega
    by_cases hletter : headIs (fun c => c == 'e' || c == 'E') cs = true
    · have hdigits : runLength Char.isDigit ((cs.take n).drop (1 + sign)) =
          runLength Char.isDigit (cs.drop (1 + sign)) := by
        rw [if_pos hletter] at h
        rw [List.drop_take, runLength_take]
        split_ifs at h <;> omega
      rw [hdigits]
    · rw [if_neg hletter, if_neg hletter]

theorem numberRest_take (h : numberRest c cs ≤ n) : numberRest c (cs.take n) = numberRest c cs := by
  rw [numberRest] at h ⊢
  rw [numberRest]
  split at h
  · rename_i hhex
    have hhex' : (decide (c = '0') && headIs (fun c => c == 'x' || c == 'X') (cs.take n)) = true := by
      rw [headIs_take (by omega)]
      exact hhex
    rw [if_pos hhex', if_pos hhex, List.drop_take, runLength_take (by omega)]
  · rename_i hhex
    have hhex' : ¬(decide (c = '0') && headIs (fun c => c == 'x' || c == 'X') (cs.take n)) = true := by
      intro hx
      obtain ⟨hzero, hx⟩ := Bool.and_eq_true_iff.mp hx
      exact hhex (Bool.and_eq_true_iff.mpr ⟨hzero, headIs_of_take hx⟩)
    simp only at h
    rw [if_neg hhex', if_neg hhex]
    simp only
    rw [runLength_take (by omega), List.drop_take, exponentLength_take (by omega)]

theorem blockCommentRest_take (h : blockCommentRest cs ≤ n) :
    blockCommentRest (cs.take n) = blockCommentRest cs := by
  cases hseek : seek? (begins ['*', '/']) cs with
  | none =>
      rw [blockCommentRest, hseek] at h
      rw [List.take_of_length_le h]
  | some before =>
      rw [blockCommentRest, hseek] at h
      rw [blockCommentRest, blockCommentRest, seek?_take (List.cons_ne_nil _ _) hseek h, hseek]

/-! ## Lexemes -/

/-- The other lexeme is the same one, if `n` characters behind the first are enough for it. -/
def Lexeme.Keeps (n : Nat) (lexeme other : Lexeme) : Prop :=
  lexeme.more ≤ n → other = lexeme

/-- A choice between two lexemes is kept if the question has the same answer where the lexeme fits. -/
theorem Lexeme.Keeps.ite {p p' : Prop} [Decidable p] [Decidable p'] {yes yes' no no' : Lexeme}
    (hp : p → yes.more ≤ n → p') (hp' : ¬p → no.more ≤ n → ¬p') (hyes : p → Keeps n yes yes')
    (hno : ¬p → Keeps n no no') : Keeps n (if p then yes else no) (if p' then yes' else no') := by
  by_cases h : p
  · rw [if_pos h]
    intro hle
    rw [if_pos (hp h hle)]
    exact hyes h hle
  · rw [if_neg h]
    intro hle
    rw [if_neg (hp' h hle)]
    exact hno h hle

/-- A question that looks at the first character alone has the same answer. -/
theorem Lexeme.Keeps.first {p : Prop} [Decidable p] {yes yes' no no' : Lexeme}
    (hyes : p → Keeps n yes yes') (hno : ¬p → Keeps n no no') :
    Keeps n (if p then yes else no) (if p then yes' else no') :=
  .ite (fun hp _ => hp) (fun hp _ => hp) hyes hno

section Sign

variable {p : Prop} [Decidable p] {pattern : List Char}

theorem sign_take (hle : pattern.length ≤ n) (hsign : (decide p && begins pattern cs) = true) :
    (decide p && begins pattern (cs.take n)) = true := by
  obtain ⟨hp, hbegins⟩ := Bool.and_eq_true_iff.mp hsign
  exact Bool.and_eq_true_iff.mpr ⟨hp, begins_take hle hbegins⟩

theorem sign_of_take (hsign : (decide p && begins pattern (cs.take n)) = true) :
    (decide p && begins pattern cs) = true := by
  obtain ⟨hp, hbegins⟩ := Bool.and_eq_true_iff.mp hsign
  exact Bool.and_eq_true_iff.mpr ⟨hp, begins_of_take hbegins⟩

end Sign

/-- A dot with a digit begins a numeral, which is long enough to show the digit. -/
theorem isNumeral_take (hle : numberRest c cs ≤ n)
    (h : (c.isDigit || decide (c = '.') && headIs Char.isDigit cs) = true) :
    (c.isDigit || decide (c = '.') && headIs Char.isDigit (cs.take n)) = true := by
  simp only [Bool.or_eq_true, Bool.and_eq_true, decide_eq_true_eq] at h ⊢
  refine h.imp_right ?_
  rintro ⟨rfl, hdigit⟩
  have hdigits := headIs_take_numberRest hdigit
  rw [← Nat.min_eq_left hle, ← List.take_take] at hdigits
  exact ⟨rfl, headIs_of_take hdigits⟩

theorem isNumeral_of_take
    (h : (c.isDigit || decide (c = '.') && headIs Char.isDigit (cs.take n)) = true) :
    (c.isDigit || decide (c = '.') && headIs Char.isDigit cs) = true := by
  simp only [Bool.or_eq_true, Bool.and_eq_true, decide_eq_true_eq] at h ⊢
  exact h.imp_right fun ⟨hdot, hdigit⟩ => ⟨hdot, headIs_of_take hdigit⟩

/-- An equals sign that does not assign begins an operator, which is long enough to show the sign
    behind it. -/
theorem comparison_take (hle : runLength isOperatorSign cs ≤ n)
    (h : headIs (fun d => d == '=' || d == '>') cs = true) :
    headIs (fun d => d == '=' || d == '>') (cs.take n) = true := by
  obtain ⟨d, ds, rfl, hd⟩ := exists_of_headIs h
  have hsign : isOperatorSign d = true := by
    rcases Bool.or_eq_true_iff.mp hd with hd | hd <;> rw [eq_of_beq hd] <;> decide
  rw [runLength_cons hsign] at hle
  rw [headIs_take (Nat.lt_of_lt_of_le (Nat.succ_pos _) hle)]
  exact h

/-- Where `n` characters behind the first are enough for a lexeme, they are enough to find it. -/
theorem Lexeme.keeps_front (c : Char) (cs : List Char) (n : Nat) :
    Keeps n (Lexeme.front c cs) (Lexeme.front c (cs.take n)) := by
  rw [Lexeme.front, Lexeme.front]
  refine .first (fun _ hle => ?_) fun _ => ?_
  · rw [runLength_take hle]
  refine .ite (fun hline hle => ?_) (fun hline _ => mt sign_of_take hline) (fun _ hle => ?_) fun _ => ?_
  · obtain ⟨ds, rfl⟩ := exists_of_begins_singleton (Bool.and_eq_true_iff.mp hline).2
    rw [runLength_cons (by decide)] at hle
    exact sign_take (Nat.le_of_add_left_le hle) hline
  · rw [runLength_take hle]
  refine .ite (fun hblock hle => ?_) (fun hblock _ => mt sign_of_take hblock) (fun _ hle => ?_) fun _ => ?_
  · exact sign_take (Nat.le_of_add_right_le hle) hblock
  · simp only at hle
    rw [List.drop_take, blockCommentRest_take (by omega)]
  refine .first (fun _ hle => ?_) fun _ => .first (fun _ hle => ?_) fun _ => ?_
  · rw [stringRest_take hle]
  · rw [templateRest_take hle]
  refine .ite (fun hnumber hle => isNumeral_take hle hnumber)
    (fun hnumber _ => mt isNumeral_of_take hnumber) (fun _ hle => ?_) fun _ => ?_
  · rw [numberRest_take hle]
  refine .first (fun _ hle => ?_) fun _ => .first (fun _ => ?_) fun _ => ?_
  · simp only at hle
    simp only [runLength_take hle, List.take_take, Nat.min_eq_left hle]
  · exact .ite (fun hdots hle => begins_take hle hdots) (fun hdots _ => mt begins_of_take hdots)
      (fun _ _ => rfl) fun _ _ => rfl
  refine .ite (fun hequals _ => ?_) (fun hequals hle => ?_) (fun _ _ => rfl) fun _ => ?_
  · simp only [Bool.and_eq_true, decide_eq_true_eq, Bool.not_eq_true'] at hequals ⊢
    exact ⟨hequals.1, Bool.eq_false_iff.mpr (mt headIs_of_take (Bool.eq_false_iff.mp hequals.2))⟩
  · simp only [Bool.and_eq_true, decide_eq_true_eq, Bool.not_eq_true'] at hequals ⊢
    rintro ⟨rfl, hcut⟩
    have hsign : headIs (fun d => d == '=' || d == '>') cs = true := by simpa using hequals
    rw [comparison_take hle hsign] at hcut
    cases hcut
  refine .first (fun _ hle => ?_) fun _ _ => rfl
  rw [runLength_take hle]

/-- A lexeme is found again in front of a cut. -/
theorem Lexeme.front_take (h : (Lexeme.front c cs).more ≤ n) :
    Lexeme.front c (cs.take n) = Lexeme.front c cs :=
  keeps_front c cs n h

/-! ## Regions -/

section Region

variable {text : List Char} {start stop stop' more : Nat}

/-- A region that ends sooner, but not in front of some first characters, holds these and some more. -/
theorem exists_shorter (h : Spans text (c :: cs) start stop) (hstop : Boundary text stop')
    (hle : start + byteLength (c :: cs.take more) ≤ stop') (hle' : stop' ≤ stop) :
    ∃ n, more ≤ n ∧ Spans text (c :: cs.take n) start stop' := by
  have hfront := spans_front more h
  obtain ⟨between, hbetween⟩ := spans_between hfront.boundary_stop hstop hle
  obtain ⟨behind, hbehind⟩ := spans_between hstop h.boundary_stop hle'
  have hrest : cs.drop more = between ++ behind :=
    (spans_rest more h).unique (hbetween.append hbehind)
  refine ⟨more + between.length, Nat.le_add_right _ _, ?_⟩
  rw [List.take_add, hrest, List.take_left]
  exact hfront.append hbetween

/-- A region that starts between characters and is not empty begins with a lexeme. -/
theorem exists_cons_of_lt (hstart : Boundary text start) (hstop : Boundary text stop)
    (hlt : start < stop) : ∃ c cs, Spans text (c :: cs) start stop := by
  obtain ⟨part, hpart⟩ := spans_between hstart hstop (Nat.le_of_lt hlt)
  cases part with
  | nil =>
      have hstop := hpart.stop_eq
      rw [byteLength_nil] at hstop
      omega
  | cons c cs => exact ⟨c, cs, hpart⟩

/-- The text of a lexeme by itself is this lexeme. -/
theorem readings_of_front (offset : Nat) (c : Char) (cs : List Char) :
    readings offset (c :: cs.take (Lexeme.front c cs).more) =
      [⟨.script (Lexeme.front c cs).kind,
        offset + byteLength (c :: cs.take (Lexeme.front c cs).more), placeAt offset⟩] := by
  have hfront := Lexeme.front_take (Nat.le_refl (Lexeme.front c cs).more)
  simp only [readings, hfront, List.take_take, Nat.min_self, List.drop_take, Nat.sub_self,
    List.take_zero]

end Region

end Script

namespace ScriptGrammar

open Text Script

/-- In a region that is not empty a lexeme is found, which is not empty either and does not reach beyond
    the region. It is found in every region that reaches as far as the lexeme and no further than this
    one, and its own text is one lexeme of its kind. -/
theorem lexeme_found_in_shorter_regions (source : String) (start stop : Nat)
    (hstart : Boundary source.toList start) (hstop : Boundary source.toList stop) (hlt : start < stop) :
    ∃ kind behind, lexemeAt source start stop = .ok (kind, behind) ∧ start < behind ∧ behind ≤ stop ∧
      (∀ stop', Boundary source.toList stop' → behind ≤ stop' → stop' ≤ stop →
        lexemeAt source start stop' = .ok (kind, behind)) ∧
      ∃ text, region source.toList start behind = .ok text ∧
        let own := String.ofList text
        lexemeAt own 0 own.utf8ByteSize = .ok (kind, own.utf8ByteSize) ∧
        (Script.tape own 0 own.utf8ByteSize).map Tape.tokens =
          .ok [⟨.script kind, 0, own.utf8ByteSize⟩] := by
  obtain ⟨c, cs, hspans⟩ := exists_cons_of_lt hstart hstop hlt
  have hfront := spans_front (Lexeme.front c cs).more hspans
  have hpos := byteLength_pos c (cs.take (Lexeme.front c cs).more)
  refine ⟨_, _, lexemeAt_eq hspans, by omega, ?_, ?_, _, region_eq_ok_iff.mpr hfront, ?_⟩
  · have hbehind := (spans_rest (Lexeme.front c cs).more hspans).stop_eq
    omega
  · intro stop' hstop' hle hle'
    obtain ⟨n, hn, hshorter⟩ := exists_shorter hspans hstop' hle hle'
    rw [lexemeAt_eq hshorter, Lexeme.front_take hn, List.take_take, Nat.min_eq_left hn]
  · intro own
    have hown : own.toList = c :: cs.take (Lexeme.front c cs).more := String.toList_ofList
    have hsize : byteLength (c :: cs.take (Lexeme.front c cs).more) = own.utf8ByteSize := by
      rw [← hown, byteLength_toList]
    have hwhole : Spans own.toList (c :: cs.take (Lexeme.front c cs).more) 0 own.utf8ByteSize := by
      have hspans := spans_whole own
      rwa [hown] at hspans ⊢
    constructor
    · rw [lexemeAt_eq hwhole, Lexeme.front_take (Nat.le_refl _), List.take_take, Nat.min_self, hsize,
        Nat.zero_add]
    · rw [Script.tape, if_pos (by omega), region_eq_ok_iff.mpr hwhole]
      simp only [Except.map, readings_of_front, hsize, Nat.zero_add]
      rfl

/-- The letter behind the digit begins no exponent, however much of what follows is cut off. -/
theorem lexeme_found_in_shorter_regions_of_numeral :
    Boundary "1e+é".toList 0 ∧ Boundary "1e+é".toList 5 ∧
      lexemeAt "1e+é" 0 5 = .ok (.number, 1) ∧
      (∀ stop ∈ [1, 2, 3], Boundary "1e+é".toList stop ∧ lexemeAt "1e+é" 0 stop = .ok (.number, 1)) ∧
      (Script.tape "1" 0 1).map Tape.tokens = .ok [⟨.script .number, 0, 1⟩] := by
  have hstart : Boundary "1e+é".toList 0 := by decide
  have hstop : Boundary "1e+é".toList 5 := by decide
  obtain ⟨kind, behind, hlexeme, -, -, hshorter, text, htext, -, hown⟩ :=
    lexeme_found_in_shorter_regions "1e+é" 0 5 hstart hstop (by decide)
  have hnumeral : lexemeAt "1e+é" 0 5 = .ok (.number, 1) := by decide +kernel
  obtain ⟨rfl, rfl⟩ := Prod.mk.inj (Except.ok.inj (hlexeme.symm.trans hnumeral))
  have hdigit : region "1e+é".toList 0 1 = .ok ['1'] := by decide +kernel
  obtain rfl := Except.ok.inj (htext.symm.trans hdigit)
  refine ⟨hstart, hstop, hnumeral, ?_, hown⟩
  intro stop hmem
  have hboundary : ∀ stop ∈ [1, 2, 3], Boundary "1e+é".toList stop ∧ 1 ≤ stop ∧ stop ≤ 5 := by decide
  obtain ⟨hboundary, hle, hle'⟩ := hboundary stop hmem
  exact ⟨hboundary, hshorter stop hboundary hle hle'⟩

end ScriptGrammar

end Relex
