import Relex.Dump
import Relex.Proofs.Run

/-! # Reading a listing

A line of a listing can be taken apart again. Its literal is read sign by sign, by a reader that
knows the escapes and nothing about which characters are escaped (`Text.readQuoted`). No literal
holds a line break, because the reader accepts none (`Text.newline_not_mem_quoted`), so the lines of
a listing are those of its tokens.
-/

namespace Relex

namespace Text

/-! ## Literals -/

/-- Where the reading of a literal stands. -/
inductive LiteralPhase where
  /-- In front of the opening quote. -/
  | outside
  | inside
  /-- Behind a backslash. -/
  | escape
  /-- Behind the letter of a code point, in front of its brace. -/
  | codePoint
  /-- In the braces of a code point, with the number that its digits make so far. -/
  | digits (number? : Option Nat)
  /-- Behind the closing quote. -/
  | behind
  deriving DecidableEq

/-- The value of a hexadecimal digit in lower case. -/
def hexValue? (c : Char) : Option Nat :=
  if c.isDigit then some (c.toNat - '0'.toNat)
  else if 'a' ≤ c && c ≤ 'f' then some (c.toNat - 'a'.toNat + 10)
  else none

/-- The character that a letter behind a backslash stands for. -/
def escaped? : Char → Option Char
  | '0' => some '\x00'
  | 't' => some '\t'
  | 'n' => some '\n'
  | 'r' => some '\r'
  | '\x22' => some '\x22'
  | '\\' => some '\\'
  | _ => none

/-- The character of a code point. -/
def ofCodePoint? (number : Nat) : Option Char :=
  if number.isValidChar then some (Char.ofNat number) else none

/-- How far a literal has been read: the text so far, the last character first. -/
structure LiteralReading where
  text : List Char
  phase : LiteralPhase

/-- Reads one more sign of a literal. -/
def LiteralReading.step (reading : LiteralReading) (c : Char) : Option LiteralReading :=
  match reading.phase with
  | .outside => if c = '\x22' then some { reading with phase := .inside } else none
  | .inside =>
    if c = '\x22' then some { reading with phase := .behind }
    else if c = '\\' then some { reading with phase := .escape }
    else if c = '\n' then none
    else some { reading with text := c :: reading.text }
  | .escape =>
    if c = 'u' then some { reading with phase := .codePoint }
    else (escaped? c).map fun d => ⟨d :: reading.text, .inside⟩
  | .codePoint => if c = '{' then some { reading with phase := .digits none } else none
  | .digits number? =>
    if c = '}' then
      (number?.bind ofCodePoint?).map fun d => ⟨d :: reading.text, .inside⟩
    else
      (hexValue? c).map fun d => { reading with phase := .digits (some (16 * number?.getD 0 + d)) }
  | .behind => none

/-- The text of a literal. -/
def readQuoted (literal : List Char) : Option (List Char) :=
  (literal.foldlM LiteralReading.step ⟨[], .outside⟩).bind fun reading =>
    if reading.phase = .behind then some reading.text.reverse else none

theorem hexValue?_digitChar : ∀ d < 16, hexValue? (Nat.digitChar d) = some d := by
  decide

theorem digitChar_ne_brace : ∀ d < 16, Nat.digitChar d ≠ '\x7d' := by
  decide

/-- The digits of a number make this number. -/
theorem foldlM_toDigits (text : List Char) (n : Nat) :
    (Nat.toDigits 16 n).foldlM LiteralReading.step ⟨text, .digits none⟩ =
      some ⟨text, .digits (some n)⟩ := by
  induction n using Nat.strongRecOn with
  | ind n ih =>
      have hstep : ∀ (number? : Option Nat) (d : Nat), d < 16 →
          LiteralReading.step ⟨text, .digits number?⟩ (Nat.digitChar d) =
            some ⟨text, .digits (some (16 * number?.getD 0 + d))⟩ := by
        intro number? d hd
        simp [LiteralReading.step, digitChar_ne_brace d hd, hexValue?_digitChar d hd]
      by_cases hn : n < 16
      · simp [Nat.toDigits_of_lt_base hn, hstep none n hn]
      · have hlast : n % 16 < 16 := Nat.mod_lt n (by decide)
        rw [Nat.toDigits_of_base_le (by decide) (by omega), List.foldlM_append, ih (n / 16) (by omega)]
        simp only [Option.pure_def, Option.bind_eq_bind, Option.bind_some, List.foldlM_cons,
          List.foldlM_nil, hstep _ _ hlast, Option.getD_some, Nat.div_add_mod]

theorem foldlM_escape (text : List Char) (c : Char) :
    (escape c).foldlM LiteralReading.step ⟨text, .inside⟩ = some ⟨c :: text, .inside⟩ := by
  unfold escape
  split
  · subst c; rfl
  split
  · subst c; rfl
  split
  · subst c; rfl
  split
  · subst c; rfl
  split
  · subst c; rfl
  split
  · subst c; rfl
  rename_i hnul htab hbreak hreturn hquote hbackslash
  split
  · have hcode : ofCodePoint? c.toNat = some c := by
      have hvalid : c.toNat.isValidChar := c.valid
      rw [ofCodePoint?, if_pos hvalid, Char.ofNat_toNat]
    have hopen : ['\\', 'u', '\x7b'].foldlM LiteralReading.step ⟨text, .inside⟩ =
        some ⟨text, .digits none⟩ := rfl
    rw [hexEscape, List.foldlM_append, List.foldlM_append, hopen]
    simp [foldlM_toDigits, LiteralReading.step, hcode]
  · simp [LiteralReading.step, hquote, hbackslash, hbreak]

theorem foldlM_flatMap_escape (text cs : List Char) :
    (cs.flatMap escape).foldlM LiteralReading.step ⟨text, .inside⟩ =
      some ⟨cs.reverse ++ text, .inside⟩ := by
  induction cs generalizing text with
  | nil => rfl
  | cons c cs ih => simp [List.foldlM_append, foldlM_escape, ih]

theorem foldlM_quoted (cs : List Char) :
    (quoted cs).foldlM LiteralReading.step ⟨[], .outside⟩ = some ⟨cs.reverse, .behind⟩ := by
  simp [quoted, List.foldlM_append, foldlM_flatMap_escape, LiteralReading.step]

theorem readQuoted_quoted (cs : List Char) : readQuoted (quoted cs) = some cs := by
  simp [readQuoted, foldlM_quoted]

theorem step_newline (reading : LiteralReading) : reading.step '\n' = none := by
  obtain ⟨text, phase⟩ := reading
  cases phase with
  | digits number? => cases number? <;> rfl
  | _ => rfl

theorem newline_not_mem_of_foldlM {literal : List Char} {before behind : LiteralReading}
    (h : literal.foldlM LiteralReading.step before = some behind) : '\n' ∉ literal := by
  induction literal generalizing before with
  | nil => exact List.not_mem_nil
  | cons c cs ih =>
      simp only [List.foldlM_cons, Option.bind_eq_bind, Option.bind_eq_some_iff] at h
      obtain ⟨between, hstep, hlater⟩ := h
      have hfirst : '\n' ≠ c := by
        rintro rfl
        rw [step_newline] at hstep
        cases hstep
      exact List.not_mem_cons_of_ne_of_not_mem hfirst (ih hlater)

theorem newline_not_mem_quoted (cs : List Char) : '\n' ∉ quoted cs :=
  newline_not_mem_of_foldlM (foldlM_quoted cs)

end Text

namespace Dump

open Text

/-! ## Lines -/

/-- A decimal number at the front of a text, and what follows it. -/
def readDecimal? (cs : List Char) : Option (Nat × List Char) :=
  let digits := cs.takeWhile Char.isDigit
  if digits.isEmpty then none
  else some (Nat.ofDigitChars 10 digits 0, cs.drop digits.length)

/-- The two points between the ends of a range, and what follows them. -/
def readDots? : List Char → Option (List Char)
  | '.' :: '.' :: rest => some rest
  | _ => none

/-- The name of a kind at the front of a text, up to a blank, and what follows it. -/
def readKind? (cs : List Char) : Option (Kind × List Char) :=
  let name := cs.takeWhile (· != ' ')
  (Kind.ofName? (String.ofList name)).map (·, cs.drop name.length)

def passBlanks (cs : List Char) : List Char :=
  cs.dropWhile (· == ' ')

/-- Takes a line apart: range, kind and literal, with blanks in front of each number, name and
    literal. -/
def readLine? (line : List Char) : Option (Token × List Char) := do
  let (start, rest) ← readDecimal? (passBlanks line)
  let rest ← readDots? rest
  let (stop, rest) ← readDecimal? (passBlanks rest)
  let (kind, rest) ← readKind? (passBlanks rest)
  let text ← readQuoted (passBlanks rest)
  return (⟨kind, start, stop⟩, text)

/-- The line of a token without its line break. -/
def lineBody (token : Token) (text : List Char) : List Char :=
  (decimal token.start).leftpad 6 ' ' ++ ['.', '.'] ++ (decimal token.stop).rightpad 6 ' ' ++
    ' ' :: token.kind.name.toList.rightpad 32 ' ' ++ ' ' :: quoted text

theorem listingLine_eq (token : Token) (text : List Char) :
    listingLine token text = lineBody token text ++ ['\n'] := by
  simp [listingLine, lineBody]

@[simp] theorem passBlanks_replicate_append (n : Nat) (cs : List Char) :
    passBlanks (List.replicate n ' ' ++ cs) = passBlanks cs := by
  unfold passBlanks
  rw [List.dropWhile_append_of_pos]
  simp

@[simp] theorem passBlanks_blank (cs : List Char) : passBlanks (' ' :: cs) = passBlanks cs := rfl

theorem passBlanks_append {word : List Char} (hne : word ≠ []) (hblank : ' ' ∉ word)
    (rest : List Char) : passBlanks (word ++ rest) = word ++ rest := by
  cases word with
  | nil => contradiction
  | cons c word =>
      have hc : c ≠ ' ' := by grind
      simp [passBlanks, hc]

theorem isDigit_of_mem_decimal {n : Nat} {c : Char} (hc : c ∈ decimal n) : c.isDigit :=
  Nat.isDigit_of_mem_toDigits (by decide) (by decide) hc

theorem readDecimal?_decimal (n : Nat) {rest : List Char} (hrest : ∀ c ∈ rest.head?, ¬ c.isDigit) :
    readDecimal? (decimal n ++ rest) = some (n, rest) := by
  have hnone : rest.takeWhile Char.isDigit = [] := by
    cases rest with
    | nil => rfl
    | cons c rest => simp_all
  have hdigits : (decimal n ++ rest).takeWhile Char.isDigit = decimal n := by
    rw [List.takeWhile_append_of_pos fun c hc => isDigit_of_mem_decimal hc, hnone,
      List.append_nil]
  have hne : decimal n ≠ [] := Nat.toDigits_ne_nil
  have hvalue : Nat.ofDigitChars 10 (decimal n) 0 = n := Nat.ofDigitChars_ten_toDigits
  simp [readDecimal?, hdigits, hne, hvalue]

theorem blank_not_mem_name (kind : Kind) : ' ' ∉ kind.name.toList := by
  cases kind with
  | script kind => cases kind <;> decide
  | _ => decide

theorem name_ne_nil (kind : Kind) : kind.name.toList ≠ [] := by
  cases kind with
  | script kind => cases kind <;> decide
  | _ => decide

theorem readKind?_name (kind : Kind) (rest : List Char) :
    readKind? (kind.name.toList ++ ' ' :: rest) = some (kind, ' ' :: rest) := by
  have hname : (kind.name.toList ++ ' ' :: rest).takeWhile (· != ' ') = kind.name.toList := by
    rw [List.takeWhile_append_of_pos]
    · simp
    · intro c hc
      have := blank_not_mem_name kind
      grind
  simp [readKind?, hname, Kind.ofName?_name]

theorem decimal_ne_nil (n : Nat) : decimal n ≠ [] :=
  Nat.toDigits_ne_nil

theorem not_mem_decimal {n : Nat} {c : Char} (hc : c.isDigit = false) : c ∉ decimal n := by
  intro h
  simp [isDigit_of_mem_decimal h] at hc

@[simp] theorem passBlanks_decimal_append (n : Nat) (rest : List Char) :
    passBlanks (decimal n ++ rest) = decimal n ++ rest :=
  passBlanks_append (decimal_ne_nil n) (not_mem_decimal (by decide)) rest

@[simp] theorem passBlanks_name_append (kind : Kind) (rest : List Char) :
    passBlanks (kind.name.toList ++ rest) = kind.name.toList ++ rest :=
  passBlanks_append (name_ne_nil kind) (blank_not_mem_name kind) rest

@[simp] theorem passBlanks_quoted (text : List Char) : passBlanks (quoted text) = quoted text := rfl

theorem replicate_append_blank (n : Nat) (rest : List Char) :
    ∃ more, List.replicate n ' ' ++ ' ' :: rest = ' ' :: more ∧
      passBlanks more = passBlanks rest := by
  cases n with
  | zero => exact ⟨rest, rfl, rfl⟩
  | succ n => exact ⟨List.replicate n ' ' ++ ' ' :: rest, rfl, by simp⟩

theorem readLine?_lineBody (token : Token) (text : List Char) :
    readLine? (lineBody token text) = some (token, text) := by
  obtain ⟨kind, start, stop⟩ := token
  have hstart (rest : List Char) :
      readDecimal? (decimal start ++ '.' :: rest) = some (start, '.' :: rest) :=
    readDecimal?_decimal start (by simp)
  have hstop (rest : List Char) :
      readDecimal? (decimal stop ++ ' ' :: rest) = some (stop, ' ' :: rest) :=
    readDecimal?_decimal stop (by simp)
  -- Behind a number or a name comes at least one blank, whether it fills its columns or not.
  obtain ⟨afterKind, hkind, hliteral⟩ :=
    replicate_append_blank (32 - kind.name.toList.length) (quoted text)
  obtain ⟨afterStop, hafter, hname⟩ :=
    replicate_append_blank (6 - (decimal stop).length) (kind.name.toList ++ ' ' :: afterKind)
  simp [lineBody, readLine?, List.leftpad, List.rightpad, hkind, hafter, hstart, readDots?, hstop,
    hname, readKind?_name, hliteral, readQuoted_quoted]

/-- The line of a token holds no line break. -/
theorem newline_not_mem_lineBody (token : Token) (text : List Char) :
    '\n' ∉ lineBody token text := by
  have hdecimal (n : Nat) : '\n' ∉ decimal n := not_mem_decimal (by decide)
  have hname : '\n' ∉ token.kind.name.toList := by
    cases token.kind with
    | script kind => cases kind <;> decide
    | _ => decide
  simp [lineBody, List.leftpad, List.rightpad, hdecimal, hname, newline_not_mem_quoted]

/-! ## The whole listing -/

theorem flatMap_listingLine (entries : List (Token × List Char)) :
    (entries.flatMap fun entry => listingLine entry.1 entry.2) =
      ['\n'].intercalate ((entries.map fun entry => lineBody entry.1 entry.2) ++ [[]]) := by
  induction entries with
  | nil => rfl
  | cons entry entries ih =>
      have hne : (entries.map fun entry => lineBody entry.1 entry.2) ++ [[]] ≠ [] := by simp
      rw [List.flatMap_cons, ih, List.map_cons, List.cons_append,
        List.intercalate_cons_of_ne_nil hne, listingLine_eq]

/-- A listing, cut at its line breaks, is a line for each token and nothing behind the last. -/
theorem splitOn_flatMap_listingLine (entries : List (Token × List Char)) :
    (entries.flatMap fun entry => listingLine entry.1 entry.2).splitOn '\n' =
      (entries.map fun entry => lineBody entry.1 entry.2) ++ [[]] := by
  rw [flatMap_listingLine]
  refine List.splitOn_intercalate _ (fun line hline => ?_) (by simp)
  simp only [List.mem_append, List.mem_map, List.mem_singleton] at hline
  obtain ⟨entry, -, rfl⟩ | rfl := hline
  · exact newline_not_mem_lineBody entry.1 entry.2
  · exact List.not_mem_nil

theorem mapM_readLine?_lineBody (entries : List (Token × List Char)) :
    (entries.map fun entry => lineBody entry.1 entry.2).mapM readLine? = some entries := by
  induction entries with
  | nil => rfl
  | cons entry entries ih =>
      simp [List.mapM_cons, readLine?_lineBody, ih]

theorem listing_eq {source : List Char} {tokens : List Token} {texts : List (List Char)}
    (h : tokens.mapM (fun token => region source token.start token.stop) = .ok texts) :
    listing source tokens =
      .ok ((tokens.zip texts).flatMap fun entry => listingLine entry.1 entry.2) := by
  have hlines : tokens.mapM (fun token =>
      (region source token.start token.stop).map (listingLine token)) =
        .ok ((tokens.zip texts).map fun entry => listingLine entry.1 entry.2) := by
    induction tokens generalizing texts with
    | nil => cases h; rfl
    | cons token tokens ih =>
        obtain ⟨text, later, hregion, hlater, rfl⟩ := Except.exists_of_mapM_cons h
        rw [List.mapM_cons, hregion, ih hlater]
        rfl
  rw [listing, hlines]
  rfl

end Dump

end Relex
