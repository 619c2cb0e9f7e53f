import Mathlib.Data.List.Infix
import Relex.Proofs.Boundary
import Relex.Proofs.Lookahead
import Relex.Proofs.Run
import Relex.Proofs.WrittenScript
import Relex.Script.Grammar

/-! # Reading what was written

A written lexeme is read back as one lexeme of its kind, whatever comes behind its separator
(`Written.readsAs`). The separator itself is read as one blank, since no lexeme begins with white
space. So a text of written lexemes is read as these lexemes and their separators, one after the
other.
-/

namespace Relex.Script

open Text Unicode

/-- In front of the rest, the text is one lexeme of a kind. It is not empty and no blank. -/
def ReadsAs (kind : ScriptKind) (text rest : List Char) : Prop :=
  ∃ c cs, text = c :: cs ∧ isWhiteSpace c = false ∧ Lexeme.front c (cs ++ rest) = ⟨kind, cs.length⟩

/-- A sign sets off the rest from what is in front of it, if there is a rest. -/
def SetOffBy (sign : Char) (rest : List Char) : Prop :=
  ∀ c ∈ rest.head?, c = sign

section SetOffBy

variable {sign : Char} {rest : List Char} {p : Char → Bool}

theorem setOffBy_nil : SetOffBy sign [] := by
  intro c hc
  cases hc

theorem SetOffBy.eq_nil_or (h : SetOffBy sign rest) :
    rest = [] ∨ ∃ behind, rest = sign :: behind := by
  cases rest with
  | nil => exact .inl rfl
  | cons c behind => exact .inr ⟨behind, by rw [h c rfl]⟩

theorem SetOffBy.forall_head (h : SetOffBy sign rest) (hp : p sign = false) :
    ∀ c ∈ rest.head?, p c = false := by
  intro c hc
  rw [h c hc]
  exact hp

theorem SetOffBy.headIs_eq (h : SetOffBy sign rest) (hp : p sign = false) :
    headIs p rest = false := by
  cases rest with
  | nil => rfl
  | cons c cs => exact h.forall_head hp c rfl

end SetOffBy

/-! ## Signs -/

section Signs

variable {c : Char}

theorem isWhiteSpace_of_startsName (h : startsName c = true) : isWhiteSpace c = false := by
  rw [startsName, Bool.or_eq_true, Bool.or_eq_true] at h
  rcases h with (hletter | hline) | hdollar
  · apply Bool.eq_false_iff.mpr
    intro hspace
    have hnone := isAlphanumeric_of_isWhiteSpace hspace
    rw [isAlphanumeric, hletter] at hnone
    cases hnone
  · rw [eq_of_beq hline]
    decide
  · rw [eq_of_beq hdollar]
    decide

theorem isDigit_of_startsName (h : startsName c = true) : c.isDigit = false := by
  apply Bool.eq_false_iff.mpr
  intro hdigit
  have hline : (c == '_') = false := beq_false_of_ne (ne_of_class hdigit (by decide))
  have hdollar : (c == '$') = false := beq_false_of_ne (ne_of_class hdigit (by decide))
  rw [startsName, isAlphabetic_of_isDigit hdigit, hline, hdollar] at h
  cases h

end Signs

/-! ## The first sign tells -/

section First

variable {c : Char}

theorem front_of_isDigit (h : c.isDigit = true) (cs : List Char) :
    Lexeme.front c cs = ⟨.number, numberRest c cs⟩ := by
  have hne : ∀ d, d.isDigit = false → c ≠ d := fun _ => ne_of_class h
  simp only [Lexeme.front, isWhiteSpace_of_isDigit h, h, hne '/' (by decide), hne '\x22' (by decide),
    hne '\x27' (by decide), hne '\x60' (by decide), decide_false, Bool.false_and, Bool.true_or,
    Bool.or_self, Bool.false_eq_true, if_false, if_true]

theorem front_of_startsName (h : startsName c = true) (cs : List Char) :
    Lexeme.front c cs =
      ⟨nameKind (c :: cs.take (runLength continuesName cs)), runLength continuesName cs⟩ := by
  have hne : ∀ d, startsName d = false → c ≠ d := fun _ => ne_of_class h
  simp only [Lexeme.front, isWhiteSpace_of_startsName h, isDigit_of_startsName h, h,
    hne '/' (by decide), hne '\x22' (by decide), hne '\x27' (by decide), hne '\x60' (by decide),
    hne '.' (by decide), decide_false, Bool.false_and, Bool.or_self, Bool.false_eq_true,
    if_false, if_true]

end First

variable {rest : List Char}

/-! ## Names -/

theorem Name.readsAs (name : Name) (hrest : SetOffBy ' ' rest) :
    ReadsAs (nameKind name.chars) name.chars rest := by
  have hstarts := name.first_startsName
  have hrun : runLength continuesName (name.more ++ rest) = name.more.length :=
    runLength_append name.more_continuesName (hrest.forall_head (by decide))
  refine ⟨name.first, name.more, rfl, isWhiteSpace_of_startsName hstarts, ?_⟩
  rw [front_of_startsName hstarts, hrun, List.take_left]
  rfl

theorem exists_name_of_keyword {word : String} (h : word ∈ keywords) :
    ∃ name : Name, name.chars = word.toList := by
  have hnames : keywords.all (fun word => headIs startsName word.toList &&
      word.toList.tail.all continuesName) = true := by decide +kernel
  obtain ⟨hhead, htail⟩ := Bool.and_eq_true_iff.mp (List.all_eq_true.mp hnames word h)
  cases hword : word.toList with
  | nil => rw [hword] at hhead; cases hhead
  | cons c cs => rw [hword] at hhead htail; exact ⟨⟨c, cs, hhead, htail⟩, rfl⟩

/-! ## Numerals -/

theorem Exponent.length_eq (exponent : Exponent) (hrest : SetOffBy ' ' rest) :
    exponentLength (exponent.chars ++ rest) = exponent.chars.length := by
  obtain ⟨letter, signs, first, more, hletter, hsigns, hfirst, hmore⟩ := exponent
  have hhead : (letter == 'e' || letter == 'E') = true := by
    rcases hletter with rfl | rfl
    all_goals rfl
  have hdigits : runLength Char.isDigit (first :: (more ++ rest)) = more.length + 1 := by
    have hall : (first :: more).all Char.isDigit = true := by
      rw [List.all_cons, hfirst, hmore]
      rfl
    exact runLength_append hall (hrest.forall_head (by decide))
  have hplus : (first == '+' || first == '-') = false := by
    rw [beq_false_of_ne (ne_of_class hfirst (by decide)),
      beq_false_of_ne (ne_of_class hfirst (by decide))]
    rfl
  rcases hsigns with rfl | rfl | rfl
  all_goals simp [exponentLength, Exponent.chars, headIs, hhead, hplus, hdigits]
  all_goals omega

/-- What a decimal numeral runs over in front of its exponent. -/
def isBodySign (c : Char) : Bool := c.isDigit || c == '_' || c == '.'

theorem numberRest_eq {first : Char} {cs : List Char}
    (hx : headIs (fun c => c == 'x' || c == 'X') cs = false) : numberRest first cs =
      runLength isBodySign cs + exponentLength (cs.drop (runLength isBodySign cs)) := by
  rw [numberRest, hx, Bool.and_false, if_neg Bool.false_ne_true]
  rfl

theorem numberRest_hexadecimal {digits : List Char} (hdigits : digits.all isHexDigit = true)
    (hrest : SetOffBy ' ' rest) :
    numberRest '0' ('x' :: digits ++ rest) = digits.length + 1 := by
  have hrun : runLength (fun c => isHexDigit c || c == '_') (digits ++ rest) = digits.length := by
    refine runLength_append ?_ (hrest.forall_head (by decide))
    rw [List.all_eq_true] at hdigits ⊢
    intro c hc
    rw [hdigits c hc]
    rfl
  simp [numberRest, headIs, hrun, Nat.add_comm]

theorem numberRest_decimal {first : Char} {body : List Char} {exponent : Option Exponent}
    (hbody : body.all isBodySign = true) (hrest : SetOffBy ' ' rest) :
    numberRest first (body ++ exponent.elim [] Exponent.chars ++ rest) =
      (body ++ exponent.elim [] Exponent.chars).length := by
  -- Behind the body stands the letter of an exponent or what is behind the numeral.
  have hbehind : ∀ c ∈ (exponent.elim [] Exponent.chars ++ rest).head?, c ∈ [' ', 'e', 'E'] := by
    intro c hc
    cases exponent with
    | none => rw [hrest c hc]; decide
    | some exponent =>
        cases hc
        rcases exponent.letter_eq with hletter | hletter
        all_goals rw [hletter]; decide
  have hrun :
      runLength isBodySign (body ++ (exponent.elim [] Exponent.chars ++ rest)) = body.length := by
    have hnone : [' ', 'e', 'E'].any isBodySign = false := by decide
    exact runLength_append hbody fun c hc => eq_false_of_any hnone (hbehind c hc)
  have hx : headIs (fun c => c == 'x' || c == 'X')
      (body ++ (exponent.elim [] Exponent.chars ++ rest)) = false := by
    have hnone : [' ', 'e', 'E'].any (fun c => c == 'x' || c == 'X') = false := by decide
    refine headIs_append (fun c hc => ?_) fun c hc => eq_false_of_any hnone (hbehind c hc)
    have hsign := List.all_eq_true.mp hbody c hc
    rw [beq_false_of_ne (ne_of_class hsign (by decide)),
      beq_false_of_ne (ne_of_class hsign (by decide))]
    rfl
  rw [List.append_assoc, numberRest_eq hx, hrun, List.drop_left, List.length_append]
  congr 1
  cases exponent with
  | none =>
      rw [Option.elim_none, List.nil_append, exponentLength, hrest.headIs_eq (by decide)]
      rfl
  | some exponent => exact exponent.length_eq hrest

theorem Numeral.readsAs (numeral : Numeral) (hrest : SetOffBy ' ' rest) :
    ReadsAs .number numeral.chars rest := by
  cases numeral with
  | hexadecimal digits hdigits =>
      refine ⟨'0', 'x' :: digits, rfl, by decide, ?_⟩
      rw [front_of_isDigit (by decide), numberRest_hexadecimal hdigits hrest]
      rfl
  | decimal first more fraction exponent hfirst hmore hfraction =>
      refine ⟨first, _, rfl, isWhiteSpace_of_isDigit hfirst, ?_⟩
      rw [front_of_isDigit hfirst, numberRest_decimal ?_ hrest]
      have hdigits : ∀ digits : List Char, digits.all Char.isDigit = true →
          digits.all isBodySign = true := by
        intro digits
        simp only [List.all_eq_true]
        intro hall c hc
        rw [isBodySign, hall c hc]
        rfl
      rw [List.all_append, hdigits more hmore]
      cases fraction with
      | none => rfl
      | some digits => exact hdigits digits (hfraction digits rfl)

/-! ## Strings -/

theorem stringRest_cons {quote c : Char} (hbackslash : c ≠ '\\') (cs : List Char) :
    stringRest quote (c :: cs) =
      if isLineBreak c then 0 else if c = quote then 1 else stringRest quote cs + 1 := by
  rw [stringRest]
  · exact fun hsame _ => hbackslash hsame
  · exact fun _ _ hsame _ => hbackslash hsame

theorem stringRest_pieces {quote : Char} (hquote : quote = '\x22' ∨ quote = '\x27')
    (pieces : List (StringPiece quote)) : stringRest quote
      (pieces.flatMap StringPiece.chars ++ quote :: rest) =
        (pieces.flatMap StringPiece.chars).length + 1 := by
  induction pieces with
  | nil =>
      rcases hquote with rfl | rfl
      all_goals simp [stringRest, isLineBreak]
  | cons piece pieces ih =>
      cases piece with
      | escape c =>
          simp only [List.flatMap_cons, StringPiece.chars, List.cons_append, List.nil_append,
            stringRest, ih, List.length_cons]
      | plain c hc hbackslash hline =>
          simp [StringPiece.chars, stringRest, hc, hbackslash, hline, ih]

theorem readsAs_string {quote : Char} (hquote : quote = '\x22' ∨ quote = '\x27')
    (pieces : List (StringPiece quote)) :
    ReadsAs .string (quote :: (pieces.flatMap StringPiece.chars ++ [quote])) rest := by
  refine ⟨quote, _, rfl, ?_, ?_⟩
  · rcases hquote with rfl | rfl
    all_goals decide
  · have hfront : ∀ cs, Lexeme.front quote cs = ⟨.string, stringRest quote cs⟩ := by
      intro cs
      rcases hquote with rfl | rfl
      all_goals rfl
    rw [hfront, List.append_assoc, List.singleton_append, stringRest_pieces hquote,
      List.length_append, List.length_singleton]

/-! ## Templates -/

theorem templateRest_escape (depth : Nat) (c : Char) (cs : List Char) :
    templateRest depth ('\\' :: c :: cs) = templateRest depth cs + 2 := by
  cases depth
  all_goals simp [templateRest]

theorem templateRest_plain {c : Char} {cs : List Char} (hquote : c ≠ '\x60') (hbackslash : c ≠ '\\')
    (hdollar : c = '$' → cs.head? ≠ some '{') : templateRest 0 (c :: cs) = templateRest 0 cs + 1 := by
  rw [templateRest, if_neg hquote]
  · exact fun hsame _ => hbackslash hsame
  · exact fun _ _ hsame _ => hbackslash hsame
  · rintro ds hsame rfl
    exact hdollar hsame rfl

/-- Inside braces a character leaves as many open as it opens and does not close. -/
theorem templateRest_inside {c : Char} (hbackslash : c ≠ '\\') {depth behind : Nat}
    (hbehind : behind + [c].count '}' = depth + [c].count '{') (cs : List Char) :
    templateRest (depth + 1) (c :: cs) = templateRest (behind + 1) cs + 1 := by
  rw [templateRest]
  · split
    · rename_i hopens
      obtain rfl : behind = depth + 1 := by simpa [hopens] using hbehind
      rfl
    split
    · rename_i hcloses
      obtain rfl : behind + 1 = depth := by simpa [hcloses] using hbehind
      rfl
    · rename_i hopens hcloses
      obtain rfl : behind = depth := by simpa [hopens, hcloses] using hbehind
      rfl
  · exact fun hsame _ => hbackslash hsame
  · exact fun _ _ hsame _ => hbackslash hsame

/-- What is not read as an escape does not begin with a backslash. -/
theorem ne_backslash {c : Char} {cs : List Char} (hlone : c = '\\' → cs = [] → False)
    (hescape : ∀ d ds, c = '\\' → cs = d :: ds → False) : c ≠ '\\' := by
  intro hc
  cases cs with
  | nil => exact hlone hc rfl
  | cons d ds => exact hescape d ds hc rfl

theorem withoutEscapes_cons {c : Char} (hbackslash : c ≠ '\\') (cs : List Char) :
    withoutEscapes (c :: cs) = (withoutEscapes cs).map (c :: ·) := by
  rw [withoutEscapes]
  · exact fun hsame _ => hbackslash hsame
  · exact fun _ _ hsame _ => hbackslash hsame

/-- With `before` braces open in front of it, a text never closes one that is not open, and `after` are
    open behind it. -/
structure Leads (before : Nat) (bare : List Char) (after : Nat) : Prop where
  open_le : ∀ n, (bare.take n).count '}' ≤ before + (bare.take n).count '{'
  count_eq : after + bare.count '}' = before + bare.count '{'

theorem braceBalanced_iff_leads {bare : List Char} : BraceBalanced bare ↔ Leads 0 bare 0 := by
  simp only [BraceBalanced, List.mem_inits]
  constructor
  · rintro ⟨hopen, hcount⟩
    exact ⟨fun n => (Nat.zero_add _).symm ▸ hopen _ (List.take_prefix n bare), by omega⟩
  · rintro ⟨hopen, hcount⟩
    refine ⟨?_, by omega⟩
    intro front hfront
    rw [List.prefix_iff_eq_take.mp hfront]
    have hle := hopen front.length
    omega

theorem leads_append_iff {before after : Nat} {front bare : List Char} :
    Leads before (front ++ bare) after ↔
      ∃ between, Leads before front between ∧ Leads between bare after := by
  constructor
  · rintro ⟨hopen, hcount⟩
    have hfront := hopen front.length
    rw [List.take_left] at hfront
    rw [List.count_append, List.count_append] at hcount
    refine ⟨before + front.count '{' - front.count '}', ⟨?_, Nat.sub_add_cancel hfront⟩, ⟨?_, by omega⟩⟩
    · intro n
      have hle := hopen (min n front.length)
      rwa [List.take_append_of_le_length (Nat.min_le_right _ _), ← List.take_eq_take_min] at hle
    · intro n
      have hle := hopen (front.length + n)
      rw [List.take_length_add_append, List.count_append, List.count_append] at hle
      omega
  · rintro ⟨between, ⟨hfront, hbetween⟩, ⟨hbare, hafter⟩⟩
    refine ⟨?_, by rw [List.count_append, List.count_append]; omega⟩
    intro n
    have hfront := hfront n
    have hbare := hbare (n - front.length)
    rw [List.take_append, List.count_append, List.count_append]
    rcases Nat.le_total n front.length with hn | hn
    · rw [Nat.sub_eq_zero_of_le hn]
      simpa using hfront
    · rw [List.take_of_length_le hn]
      omega

/-- Inside a substitution a text leaves as many braces open as it opens and does not close. -/
theorem templateRest_script {script bare : List Char} (hbare : withoutEscapes script = some bare)
    {before after : Nat} (hleads : Leads before bare after) (rest : List Char) :
    templateRest (before + 1) (script ++ rest) = templateRest (after + 1) rest + script.length := by
  induction script using withoutEscapes.induct generalizing bare before with
  | case1 =>
      cases hbare
      obtain rfl : after = before := by simpa using hleads.count_eq
      rfl
  | case2 => cases hbare
  | case3 c script ih =>
      rw [withoutEscapes] at hbare
      rw [List.cons_append, List.cons_append, templateRest_escape, ih hbare hleads]
      rfl
  | case4 c script hlone hescape ih =>
      have hbackslash := ne_backslash hlone hescape
      rw [withoutEscapes_cons hbackslash] at hbare
      obtain ⟨more, hmore, rfl⟩ := Option.map_eq_some_iff.mp hbare
      obtain ⟨behind, hfirst, hlater⟩ := leads_append_iff.mp (List.singleton_append ▸ hleads)
      rw [List.cons_append, templateRest_inside hbackslash hfirst.count_eq, ih hmore hlater]
      rfl

/-- A substitution ends at its closing brace, unless more braces are opened in it than closed. -/
theorem templateRest_substitution {script bare : List Char} (hbare : withoutEscapes script = some bare)
    {after : Nat} (hleads : Leads 0 bare after) (cs : List Char) :
    templateRest 0 ('$' :: '{' :: (script ++ '}' :: cs)) = templateRest after cs + script.length + 3 := by
  have hend : templateRest (after + 1) ('}' :: cs) = templateRest after cs + 1 := by simp [templateRest]
  rw [templateRest, templateRest_script hbare hleads, hend]
  omega

theorem TemplatePiece.head?_chars_append (piece : TemplatePiece) (cs : List Char) :
    (piece.chars ++ cs).head? = piece.chars.head? := by
  cases piece
  all_goals rfl

theorem templateRest_pieces {pieces : List TemplatePiece}
    (hdollar : pieces.IsChain fun piece next => piece.chars = ['$'] → next.chars.head? ≠ some '{')
    (hrest : rest.head? ≠ some '{') : templateRest 0 (pieces.flatMap TemplatePiece.chars ++ rest) =
      templateRest 0 rest + (pieces.flatMap TemplatePiece.chars).length := by
  induction pieces with
  | nil => rfl
  | cons piece pieces ih =>
      have hpieces := ih hdollar.tail
      rw [List.flatMap_cons, List.append_assoc, List.length_append]
      cases piece with
      | escape c =>
          rw [TemplatePiece.chars, List.cons_append, List.cons_append, List.nil_append,
            templateRest_escape, hpieces]
          simp only [List.length_cons, List.length_nil]
          omega
      | plain c hquote hbackslash =>
          rw [TemplatePiece.chars, List.cons_append, List.nil_append,
            templateRest_plain hquote hbackslash ?_, hpieces]
          · simp only [List.length_cons, List.length_nil]
            omega
          · rintro rfl
            cases pieces with
            | nil => exact hrest
            | cons next pieces =>
                have hnext := (List.isChain_cons_cons.mp hdollar).1 rfl
                rwa [List.flatMap_cons, List.append_assoc, next.head?_chars_append]
      | substitution script bare hbare hbalanced =>
          rw [TemplatePiece.chars, List.cons_append, List.cons_append, List.append_assoc,
            List.singleton_append, templateRest_substitution hbare (braceBalanced_iff_leads.mp hbalanced),
            hpieces]
          simp only [List.length_cons, List.length_append, List.length_nil]
          omega

theorem templateRest_closed {pieces : List TemplatePiece}
    (hdollar : pieces.IsChain fun piece next => piece.chars = ['$'] → next.chars.head? ≠ some '{') :
    templateRest 0 (pieces.flatMap TemplatePiece.chars ++ '\x60' :: rest) =
      (pieces.flatMap TemplatePiece.chars).length + 1 := by
  have hend : templateRest 0 ('\x60' :: rest) = 1 := rfl
  rw [templateRest_pieces hdollar (by simp), hend, Nat.add_comm]

theorem readsAs_template {pieces : List TemplatePiece}
    (hdollar : pieces.IsChain fun piece next => piece.chars = ['$'] → next.chars.head? ≠ some '{') :
    ReadsAs .templateString ('\x60' :: (pieces.flatMap TemplatePiece.chars ++ ['\x60'])) rest := by
  refine ⟨'\x60', _, rfl, by decide, ?_⟩
  have hfront : ∀ cs, Lexeme.front '\x60' cs = ⟨.templateString, templateRest 0 cs⟩ := fun _ => rfl
  rw [hfront, List.append_assoc, List.singleton_append, templateRest_closed hdollar, List.length_append,
    List.length_singleton]

/-! ## Comments -/

theorem readsAs_lineComment {body : List Char} (hline : ∀ c ∈ body, isLineBreak c = false)
    (hrest : SetOffBy '\n' rest) : ReadsAs .lineComment ('/' :: '/' :: body) rest := by
  refine ⟨'/', '/' :: body, rfl, by decide, ?_⟩
  have hfront : ∀ cs, Lexeme.front '/' ('/' :: cs) =
      ⟨.lineComment, runLength (fun c => !isLineBreak c) ('/' :: cs)⟩ := fun _ => rfl
  have hall : ('/' :: body).all (fun c => !isLineBreak c) = true := by
    rw [List.all_eq_true]
    refine List.forall_mem_cons.mpr ⟨by decide, fun c hc => ?_⟩
    rw [hline c hc]
    rfl
  rw [List.cons_append, hfront, ← List.cons_append,
    runLength_append hall (hrest.forall_head (by decide))]

theorem blockCommentRest_eq {body : List Char} (hend : ∀ before behind,
    body ++ ['*', '/'] = before ++ ['*', '/'] ++ behind → behind = []) :
    blockCommentRest (body ++ ['*', '/'] ++ rest) = body.length + 2 := by
  have hseek : seek? (begins ['*', '/']) (body ++ ('*' :: '/' :: rest)) = some body.length := by
    apply seek?_of_first (List.cons_ne_nil _ _)
    · simp [begins]
    · intro k hk
      apply Bool.eq_false_iff.mpr
      intro hfound
      have hrest : (body ++ '*' :: '/' :: rest).drop k = (body ++ ['*', '/']).drop k ++ rest := by
        rw [← List.drop_append_of_le_length (by simp; omega), List.append_assoc]
        rfl
      have hlong : ['*', '/'].length ≤ ((body ++ ['*', '/']).drop k).length := by
        simp only [List.length_drop, List.length_append]
        omega
      rw [begins_iff, hrest] at hfound
      obtain ⟨behind, hbehind⟩ :=
        List.prefix_of_prefix_length_le hfound (List.prefix_append _ rest) hlong
      have hnil := hend ((body ++ ['*', '/']).take k) behind (by
        rw [List.append_assoc, hbehind, List.take_append_drop])
      rw [hnil] at hbehind
      have hlength := congrArg List.length hbehind
      simp only [List.length_drop, List.length_append, List.length_cons, List.length_nil] at hlength
      omega
  rw [blockCommentRest, List.append_assoc]
  simp only [List.cons_append, List.nil_append, hseek]

theorem readsAs_blockComment {body : List Char} (hend : ∀ before behind,
    body ++ ['*', '/'] = before ++ ['*', '/'] ++ behind → behind = []) :
    ReadsAs .blockComment ('/' :: '*' :: (body ++ ['*', '/'])) rest := by
  refine ⟨'/', _, rfl, by decide, ?_⟩
  have hfront : ∀ cs, Lexeme.front '/' ('*' :: cs) = ⟨.blockComment, 1 + blockCommentRest cs⟩ :=
    fun _ => rfl
  rw [List.cons_append, hfront, blockCommentRest_eq hend]
  simp only [List.length_cons, List.length_append, List.length_nil]
  congr 1
  omega

/-! ## Signs -/

theorem Mark.readsAs (mark : Mark) (hrest : SetOffBy ' ' rest) :
    ReadsAs mark.kind [mark.char] rest := by
  refine ⟨mark.char, [], rfl, ?_, ?_⟩
  · cases mark
    all_goals decide
  rw [List.nil_append]
  cases mark with
  | dot | equals =>
      rcases hrest.eq_nil_or with rfl | ⟨behind, rfl⟩
      all_goals rfl
  | _ => rfl

theorem readsAs_spread : ReadsAs .operator ['.', '.', '.'] rest :=
  ⟨'.', ['.', '.'], rfl, by decide, rfl⟩

theorem isWhiteSpace_of_isOperatorSign {c : Char} (h : isOperatorSign c = true) :
    isWhiteSpace c = false :=
  eq_false_of_any (by decide : operatorSigns.any isWhiteSpace = false) (List.contains_iff_mem.mp h)

/-- An operator is a run of signs, unless a comment begins with it, or an equals sign that
    assigns. -/
theorem front_of_isOperatorSign {c : Char} {cs : List Char} (hsign : isOperatorSign c = true)
    (hcomment : c = '/' → cs.head? ≠ some '/' ∧ cs.head? ≠ some '*')
    (hequals : c = '=' → cs.head? = some '=' ∨ cs.head? = some '>') :
    Lexeme.front c cs = ⟨.operator, runLength isOperatorSign cs⟩ := by
  have hne : ∀ d, isOperatorSign d = false → c ≠ d := fun _ => ne_of_class hsign
  have hclass : ∀ p : Char → Bool, operatorSigns.any p = false → p c = false :=
    fun _ hnone => eq_false_of_any hnone (List.contains_iff_mem.mp hsign)
  have hnext : ∀ d, (c = '/' → cs.head? ≠ some d) → (c = '/' && begins [d] cs) = false := by
    intro d hslash
    by_cases hfirst : c = '/'
    · rw [begins_singleton (hslash hfirst), Bool.and_false]
    · rw [decide_eq_false hfirst, Bool.false_and]
  have hassigns : (c = '=' && !headIs (fun d => d == '=' || d == '>') cs) = false := by
    by_cases hfirst : c = '='
    · have hhead : headIs (fun d => d == '=' || d == '>') cs = true := by
        rcases hequals hfirst with hhead | hhead
        all_goals simp [headIs, hhead]
      rw [hhead, Bool.not_true, Bool.and_false]
    · rw [decide_eq_false hfirst, Bool.false_and]
  simp only [Lexeme.front, isWhiteSpace_of_isOperatorSign hsign, hclass Char.isDigit (by decide),
    hclass startsName (by decide), hnext '/' fun h => (hcomment h).1,
    hnext '*' fun h => (hcomment h).2, hne '\x22' (by decide), hne '\x27' (by decide),
    hne '\x60' (by decide), hne '.' (by decide), hassigns, hsign, decide_false,
    Bool.false_and, Bool.or_self, Bool.false_eq_true, if_false, if_true]

/-- The signs of an operator are one operator wherever no other sign follows. -/
theorem front_of_operatorSigns {first : Char} {more : List Char}
    (hsigns : (first :: more).all isOperatorSign = true)
    (hcomment : first = '/' → more.head? ≠ some '/' ∧ more.head? ≠ some '*')
    (hequals : first = '=' → more.head? = some '=' ∨ more.head? = some '>')
    (hrest : ∀ c ∈ rest.head?, isOperatorSign c = false) :
    Lexeme.front first (more ++ rest) = ⟨.operator, more.length⟩ := by
  obtain ⟨hfirst, hmore⟩ := Bool.and_eq_true_iff.mp hsigns
  have hhead : ∀ d, isOperatorSign d = true →
      ((more ++ rest).head? = some d ↔ more.head? = some d) := by
    intro d hd
    cases more with
    | cons c cs => rfl
    | nil =>
        simp only [List.nil_append, List.head?_nil, reduceCtorEq, iff_false]
        exact fun hsame => Bool.eq_false_iff.mp (hrest d hsame) hd
  rw [front_of_isOperatorSign hfirst, runLength_append hmore hrest]
  · rw [ne_eq, ne_eq, hhead '/' (by decide), hhead '*' (by decide)]
    exact hcomment
  · rw [hhead '=' (by decide), hhead '>' (by decide)]
    exact hequals

theorem readsAs_operator {first : Char} {more : List Char}
    (hsigns : (first :: more).all isOperatorSign = true)
    (hcomment : first = '/' → more.head? ≠ some '/' ∧ more.head? ≠ some '*')
    (hequals : first = '=' → more.head? = some '=' ∨ more.head? = some '>')
    (hrest : SetOffBy ' ' rest) : ReadsAs .operator (first :: more) rest :=
  ⟨first, more, rfl, isWhiteSpace_of_isOperatorSign (Bool.and_eq_true_iff.mp hsigns).1,
    front_of_operatorSigns hsigns hcomment hequals (hrest.forall_head (by decide))⟩

/-! ## Lexemes -/

namespace Written

theorem readsAs (w : Written) (hrest : SetOffBy w.separator rest) :
    ReadsAs w.kind w.chars rest := by
  cases w with
  | identifier name hname =>
      have hkind : nameKind name.chars = .identifier :=
        if_neg fun hmem => hname (List.contains_iff_mem.mp hmem)
      have hreads := name.readsAs hrest
      rwa [hkind] at hreads
  | keyword word hword =>
      obtain ⟨name, hname⟩ := exists_name_of_keyword hword
      have hkind : nameKind name.chars = .keyword := by
        rw [nameKind, hname, String.ofList_toList, if_pos (List.contains_iff_mem.mpr hword)]
      have hreads := name.readsAs hrest
      rwa [hkind, hname] at hreads
  | number numeral => exact numeral.readsAs hrest
  | string quote pieces hquote => exact readsAs_string hquote pieces
  | template pieces hdollar => exact readsAs_template hdollar
  | blockComment body hend => exact readsAs_blockComment hend
  | lineComment body hline => exact readsAs_lineComment hline hrest
  | spread => exact readsAs_spread
  | mark sign => exact sign.readsAs hrest
  | operator first more hsigns hcomment hequals =>
      exact readsAs_operator hsigns hcomment hequals hrest

end Written

/-! ## Texts -/

/-- The rest is read behind a lexeme that is read in front of it. -/
theorem tokens_readings_append {kind : ScriptKind} {text : List Char} (h : ReadsAs kind text rest)
    (offset : Nat) : (readings offset (text ++ rest)).map Reading.token =
      ⟨.script kind, offset, offset + byteLength text⟩ ::
        (readings (offset + byteLength text) rest).map Reading.token := by
  obtain ⟨c, cs, rfl, -, hfront⟩ := h
  rw [List.cons_append, readings, hfront]
  simp only [List.map_cons, List.take_left, List.drop_left]
  rfl

namespace Written

theorem exists_print_cons (w : Written) (ws : List Written) :
    ∃ rest, print (w :: ws) = w.chars ++ rest ∧ SetOffBy w.separator rest := by
  cases ws with
  | nil => exact ⟨[], rfl, setOffBy_nil⟩
  | cons v ws => exact ⟨w.separator :: print (v :: ws), rfl, forall_head_cons rfl⟩

/-- No lexeme begins with white space, so one separator is all of the blank in front of it. -/
theorem tokens_readings_separator (w v : Written) (ws : List Written) (offset : Nat) :
    (readings offset (w.separator :: print (v :: ws))).map Reading.token =
      ⟨.script .whiteSpace, offset, offset + byteLength [w.separator]⟩ ::
        (readings (offset + byteLength [w.separator]) (print (v :: ws))).map Reading.token := by
  have hsign : w.separator = ' ' ∨ w.separator = '\n' := by
    cases w
    all_goals simp [separator]
  have hspace : isWhiteSpace w.separator = true := by
    rcases hsign with hsign | hsign
    all_goals rw [hsign]; decide
  obtain ⟨rest, hprint, hrest⟩ := exists_print_cons v ws
  obtain ⟨c, cs, hchars, hblank, -⟩ := v.readsAs hrest
  have hrun : runLength isWhiteSpace (print (v :: ws)) = 0 := by
    rw [hprint, hchars, runLength, List.cons_append, List.takeWhile_cons, hblank]
    rfl
  rw [readings, Lexeme.front, if_pos hspace, hrun]
  rfl

theorem tokens_readings_print (ws : List Written) (offset : Nat) :
    (readings offset (print ws)).map Reading.token = tokensFrom offset (withSeparators ws) := by
  induction ws using withSeparators.induct generalizing offset with
  | case1 => rw [print, withSeparators, List.flatMap_nil, readings]; rfl
  | case2 w =>
      have hread := tokens_readings_append (w.readsAs setOffBy_nil) offset
      rw [List.append_nil, readings] at hread
      have hprint : print [w] = w.chars := List.append_nil w.chars
      rw [hprint, hread]
      rfl
  | case3 w v ws ih =>
      have hsign : SetOffBy w.separator (w.separator :: print (v :: ws)) := forall_head_cons rfl
      have hprint : print (w :: v :: ws) = w.chars ++ w.separator :: print (v :: ws) := rfl
      rw [hprint, tokens_readings_append (w.readsAs hsign), tokens_readings_separator, ih]
      rfl

end Written

/-- The tokens of texts stand where the texts stand. -/
theorem regions_tokensFrom {text : List Char} {lexemes : List (ScriptKind × List Char)}
    {start stop : Nat} (h : Spans text (lexemes.flatMap Prod.snd) start stop) :
    (tokensFrom start lexemes).map (fun token => (token.kind, region text token.start token.stop)) =
      lexemes.map fun lexeme => (.script lexeme.1, .ok lexeme.2) := by
  induction lexemes generalizing start with
  | nil => rfl
  | cons lexeme lexemes ih =>
      obtain ⟨kind, part⟩ := lexeme
      rw [List.flatMap_cons] at h
      rw [tokensFrom, List.map_cons, List.map_cons, region_eq_ok_iff.mpr h.of_append_left,
        ih h.of_append_right]

theorem lexemeAt_eq {source : String} {c : Char} {cs : List Char} {offset stop : Nat}
    (hspans : Spans source.toList (c :: cs) offset stop) :
    lexemeAt source offset stop = .ok ((Lexeme.front c cs).kind,
      offset + byteLength (c :: cs.take (Lexeme.front c cs).more)) := by
  rw [lexemeAt, region_eq_ok_iff.mpr hspans]
  rfl

/-- A region is read as the lexemes of its text. -/
theorem exists_tape_of_spans {source : String} {text : List Char} {start stop : Nat}
    (hspans : Spans source.toList text start stop) :
    ∃ read, tape source start stop = .ok read ∧ read.readings = readings start text := by
  rw [tape]
  split
  · rw [region_eq_ok_iff.mpr hspans]
    exact ⟨_, rfl, rfl⟩
  · rename_i hempty
    have hstop := hspans.stop_eq
    rw [byteLength_eq_zero (by omega : byteLength text = 0), readings]
    exact ⟨_, rfl, rfl⟩

theorem exists_tape_of_source (source : String) : ∃ read,
    tape source 0 source.utf8ByteSize = .ok read ∧ read.readings = readings 0 source.toList :=
  exists_tape_of_spans (spans_whole source)

end Relex.Script

namespace Relex.ScriptGrammar

open Text Script

/-- Written script is read as the lexemes that were written, each with its kind and its text, and one
    blank between two of them. -/
theorem written_script_reads_back (lexer : Lexer ScriptGrammar Nat Unit) (ws : List Written)
    (state : UInt32) : ∃ started,
      lexer.start (Written.source ws) 0 (Written.source ws).utf8ByteSize state = .ok started ∧
      started.tape.tokens = tokensFrom 0 (Written.withSeparators ws) ∧
      started.tape.tokens.map (fun token =>
          (token.kind, region (Written.source ws).toList token.start token.stop)) =
        (Written.withSeparators ws).map fun lexeme => (.script lexeme.1, .ok lexeme.2) := by
  obtain ⟨tape, htape, hreadings⟩ := exists_tape_of_source (Written.source ws)
  have hread : Reader.start lexer.reader (Written.source ws) 0 (Written.source ws).utf8ByteSize state =
      .ok tape := htape
  obtain ⟨started, hstart, hsame, -⟩ := Lexer.start_of_read hread
  have htext : (Written.source ws).toList = Written.print ws := String.toList_ofList
  have htokens : started.tape.tokens = tokensFrom 0 (Written.withSeparators ws) := by
    rw [hsame, Tape.tokens, hreadings, htext, Written.tokens_readings_print]
  have hspans : Spans (Written.source ws).toList ((Written.withSeparators ws).flatMap Prod.snd) 0
      (byteLength (Written.print ws)) := by
    rw [htext]
    exact ⟨[], [], by simp [Written.print], rfl, rfl⟩
  refine ⟨started, hstart, htokens, ?_⟩
  rw [htokens]
  exact regions_tokensFrom hspans

/-- A backtick and an escaped brace inside a substitution do not end the template. -/
example :
    let substitution : TemplatePiece :=
      .substitution [' ', '{', '\\', '}', '\x60', '}'] [' ', '{', '\x60', '}'] rfl (by decide)
    let dollar : TemplatePiece := .plain '$' (by decide) (by decide)
    let ws : List Written :=
      [.keyword "let" (by decide), .template [dollar, substitution, dollar] (by decide),
        .lineComment [] (List.forall_mem_nil _), .mark .semicolon]
    Written.print ws = "let `$$\x7b \x7b\\\x7d`\x7d\x7d$` //\n;".toList ∧
      tokensFrom 0 (Written.withSeparators ws) =
        [⟨.script .keyword, 0, 3⟩, ⟨.script .whiteSpace, 3, 4⟩, ⟨.script .templateString, 4, 17⟩,
          ⟨.script .whiteSpace, 17, 18⟩, ⟨.script .lineComment, 18, 20⟩,
          ⟨.script .whiteSpace, 20, 21⟩, ⟨.script .semicolon, 21, 22⟩] := by
  decide

end Relex.ScriptGrammar
