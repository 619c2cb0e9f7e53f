import Relex.Dump

/-! # Reading JSON

A reader of JSON, as far as token lists need it: numbers are natural and texts hold no escapes. It
takes one character at a time and keeps the arrays and objects that are open on a stack, so what it
makes of a text is what it makes of its parts one after the other. Tokens that were written as JSON
are read back (`Dump.readJson_json`).
-/

namespace Relex

inductive Json where
  | number (n : Nat)
  | text (cs : List Char)
  | array (items : List Json)
  | object (members : List (List Char × Json))

namespace Json

/-- What has been opened and not yet closed, with its items or members so far, the last one
    first. -/
inductive Frame where
  | array (items : List Json)
  /-- An object, with the name of the next member once it has been read. -/
  | object (members : List (List Char × Json)) (name? : Option (List Char))

/-- What has been read last, and so what may follow. -/
inductive Phase where
  /-- A value must follow. -/
  | value
  /-- Behind an opening bracket. -/
  | firstItem
  /-- Behind an opening brace. -/
  | firstMember
  /-- A name must follow. -/
  | name
  | inName (cs : List Char)
  /-- Behind a name. -/
  | colon
  | inText (cs : List Char)
  | inNumber (n : Nat)
  | behind (value : Json)

/-- How far a text has been read. -/
structure Reading where
  frames : List Frame
  phase : Phase

def isSpace (c : Char) : Bool :=
  c == ' ' || c == '\n' || c == '\r' || c == '\t'

/-- A character that stands for itself in a text. -/
def isPlain (c : Char) : Bool :=
  c != '\x22' && c != '\\' && ' '.toNat ≤ c.toNat

/-- The first character of a value. -/
def beginValue (frames : List Frame) (c : Char) : Option Reading :=
  if c = '\x22' then some ⟨frames, .inText []⟩
  else if c = '[' then some ⟨.array [] :: frames, .firstItem⟩
  else if c = '\x7b' then some ⟨.object [] none :: frames, .firstMember⟩
  else if c.isDigit then some ⟨frames, .inNumber (c.toNat - '0'.toNat)⟩
  else none

/-- The first character of a name. -/
def beginName (frames : List Frame) (c : Char) : Option Reading :=
  if c = '\x22' then some ⟨frames, .inName []⟩ else none

/-- A character behind a value. -/
def endValue (frames : List Frame) (value : Json) (c : Char) : Option Reading :=
  if isSpace c then some ⟨frames, .behind value⟩
  else
    match frames with
    | .array items :: frames =>
      if c = ',' then some ⟨.array (value :: items) :: frames, .value⟩
      else if c = ']' then some ⟨frames, .behind (.array (value :: items).reverse)⟩
      else none
    | .object members (some name) :: frames =>
      if c = ',' then some ⟨.object ((name, value) :: members) none :: frames, .name⟩
      else if c = '\x7d' then some ⟨frames, .behind (.object ((name, value) :: members).reverse)⟩
      else none
    | _ => none

/-- Reads one more character. -/
def Reading.step (reading : Reading) (c : Char) : Option Reading :=
  let frames := reading.frames
  match reading.phase with
  | .value => if isSpace c then some reading else beginValue frames c
  | .firstItem =>
    if isSpace c then some reading
    else if c = ']' then some ⟨frames.tail, .behind (.array [])⟩
    else beginValue frames c
  | .firstMember =>
    if isSpace c then some reading
    else if c = '\x7d' then some ⟨frames.tail, .behind (.object [])⟩
    else beginName frames c
  | .name => if isSpace c then some reading else beginName frames c
  | .inName cs =>
    if c = '\x22' then
      match frames with
      | .object members none :: frames =>
        some ⟨.object members (some cs.reverse) :: frames, .colon⟩
      | _ => none
    else if isPlain c then some ⟨frames, .inName (c :: cs)⟩
    else none
  | .colon =>
    if isSpace c then some reading
    else if c = ':' then some ⟨frames, .value⟩
    else none
  | .inText cs =>
    if c = '\x22' then some ⟨frames, .behind (.text cs.reverse)⟩
    else if isPlain c then some ⟨frames, .inText (c :: cs)⟩
    else none
  | .inNumber n =>
    if c.isDigit then
      -- A number does not begin with a zero, unless this is all of it.
      if n = 0 then none else some ⟨frames, .inNumber (10 * n + (c.toNat - '0'.toNat))⟩
    else endValue frames (.number n) c
  | .behind value => endValue frames value c

/-- The value that a text shows, with blanks around it. -/
def read (cs : List Char) : Option Json :=
  match cs.foldlM Reading.step ⟨[], .value⟩ with
  | some ⟨[], .behind value⟩ => some value
  | some ⟨[], .inNumber n⟩ => some (.number n)
  | _ => none

/-! ## What the reader makes of the parts -/

/-- A text leads the reader from one reading to another. -/
def Reads (before : Reading) (cs : List Char) (behind : Reading) : Prop :=
  cs.foldlM Reading.step before = some behind

theorem read_of_reads {cs : List Char} {value : Json}
    (h : Reads ⟨[], .value⟩ cs ⟨[], .behind value⟩) : read cs = some value := by
  unfold Reads at h
  simp only [read, h]

theorem Reads.append {before between behind : Reading} {front back : List Char}
    (hfront : Reads before front between) (hback : Reads between back behind) :
    Reads before (front ++ back) behind := by
  unfold Reads at *
  simp [List.foldlM_append, hfront, hback]

theorem reads_plain {cs : List Char} (h : ∀ c ∈ cs, isPlain c) (frames : List Frame)
    (before : List Char) :
    Reads ⟨frames, .inText before⟩ cs ⟨frames, .inText (cs.reverse ++ before)⟩ := by
  unfold Reads
  induction cs generalizing before with
  | nil => rfl
  | cons c cs ih =>
      obtain ⟨hc, hcs⟩ := List.forall_mem_cons.mp h
      have hquote : c ≠ '\x22' := by
        rintro rfl
        exact absurd hc (by decide)
      simp [Reading.step, hquote, hc, ih hcs]

/-- A quoted text without escapes. -/
theorem reads_text {cs : List Char} (h : ∀ c ∈ cs, isPlain c) (frames : List Frame) :
    Reads ⟨frames, .value⟩ ('\x22' :: (cs ++ ['\x22'])) ⟨frames, .behind (.text cs)⟩ := by
  have hopen : Reads ⟨frames, .value⟩ ['\x22'] ⟨frames, .inText []⟩ := rfl
  have hclose : Reads ⟨frames, .inText cs.reverse⟩ ['\x22'] ⟨frames, .behind (.text cs)⟩ := by
    simp [Reads, Reading.step]
  have hplain := reads_plain h frames []
  rw [List.append_nil] at hplain
  exact hopen.append (hplain.append hclose)

theorem isDigit_digitChar : ∀ d < 10, (Nat.digitChar d).isDigit := by
  decide

theorem digitChar_toNat : ∀ d < 10, (Nat.digitChar d).toNat - '0'.toNat = d := by
  decide

theorem beginValue_digitChar (frames : List Frame) : ∀ d < 10,
    Reading.step ⟨frames, .value⟩ (Nat.digitChar d) = some ⟨frames, .inNumber d⟩ := by
  intro d hd
  have hcases : ∀ d < 10, isSpace (Nat.digitChar d) = false ∧ Nat.digitChar d ≠ '\x22' ∧
      Nat.digitChar d ≠ '[' ∧ Nat.digitChar d ≠ '\x7b' := by
    decide
  obtain ⟨hspace, hquote, hbracket, hbrace⟩ := hcases d hd
  have hvalue := digitChar_toNat d hd
  simp only [Reading.step, beginValue, hspace, hquote, hbracket, hbrace, isDigit_digitChar d hd,
    hvalue, if_true, if_false]
  rfl

/-- The digits of a number. -/
theorem reads_decimal (n : Nat) (frames : List Frame) :
    Reads ⟨frames, .value⟩ (Dump.decimal n) ⟨frames, .inNumber n⟩ := by
  unfold Dump.decimal
  induction n using Nat.strongRecOn with
  | ind n ih =>
      by_cases hn : n < 10
      · simp [Reads, Nat.toDigits_of_lt_base hn, beginValue_digitChar frames n hn]
      · have hlast : n % 10 < 10 := Nat.mod_lt n (by decide)
        have hne : n / 10 ≠ 0 := by omega
        have hstep : Reads ⟨frames, .inNumber (n / 10)⟩ [Nat.digitChar (n % 10)]
            ⟨frames, .inNumber n⟩ := by
          have hvalue : (Nat.digitChar (n % 10)).toNat - 48 = n % 10 := digitChar_toNat _ hlast
          simp [Reads, Reading.step, isDigit_digitChar _ hlast, hne, hvalue, Nat.div_add_mod]
        rw [Nat.toDigits_of_base_le (by decide) (by omega)]
        exact (ih (n / 10) (by omega)).append hstep

end Json

/-! ## Tokens -/

namespace ScriptKind

/-- The script kind of a given name. -/
def ofName? (name : String) : Option ScriptKind :=
  all.find? fun kind => kind.name == name

theorem ofName?_name (kind : ScriptKind) : ofName? kind.name = some kind := by
  cases kind <;> decide

end ScriptKind

namespace Dump

/-- The kind that a value shows: a name, or for a script kind an object around it. -/
def readKind : Json → Option Kind
  | .text name =>
    match Kind.ofName? (String.ofList name) with
    | some (.script _) => none
    | kind? => kind?
  | .object [(wrapper, .text name)] =>
    if wrapper = "Script".toList then
      (ScriptKind.ofName? (String.ofList name)).map Kind.script
    else none
  | _ => none

/-- The token that a value shows. -/
def readToken : Json → Option Token
  | .object [(kindName, kind), (startName, .number start), (stopName, .number stop)] =>
    if kindName = "kind".toList ∧ startName = "start".toList ∧ stopName = "end".toList then
      (readKind kind).map (Token.mk · start stop)
    else none
  | _ => none

/-- The tokens of a dump in JSON. -/
def readJson (dump : List Char) : Option (List Token) :=
  match Json.read dump with
  | some (.array items) => items.mapM readToken
  | _ => none

open Json

/-- The value that shows a kind. -/
def kindValue : Kind → Json
  | .script kind => .object [("Script".toList, .text kind.name.toList)]
  | kind => .text kind.name.toList

/-- The value that shows a token. -/
def tokenValue (token : Token) : Json :=
  .object [("kind".toList, kindValue token.kind), ("start".toList, .number token.start),
    ("end".toList, .number token.stop)]

theorem readToken_tokenValue (token : Token) : readToken (tokenValue token) = some token := by
  obtain ⟨kind, start, stop⟩ := token
  have hkind : readKind (kindValue kind) = some kind := by
    cases kind with
    | script kind => simp [readKind, kindValue, ScriptKind.ofName?_name]
    | _ => simp [readKind, kindValue, Kind.ofName?_name]
  simp [readToken, tokenValue, hkind]

theorem mapM_readToken (tokens : List Token) :
    (tokens.map tokenValue).mapM readToken = some tokens := by
  induction tokens with
  | nil => rfl
  | cons token tokens ih => simp [readToken_tokenValue, ih]

theorem isPlain_name (kind : Kind) : ∀ c ∈ kind.name.toList, isPlain c := by
  apply List.all_eq_true.mp
  cases kind with
  | script kind => cases kind <;> decide
  | _ => decide

theorem isPlain_scriptName (kind : ScriptKind) : ∀ c ∈ kind.name.toList, isPlain c := by
  apply List.all_eq_true.mp
  cases kind <;> decide

theorem reads_quotedName {name : String} (h : ∀ c ∈ name.toList, isPlain c) (frames : List Frame) :
    Reads ⟨frames, .value⟩ ("\x22" ++ name ++ "\x22").toList
      ⟨frames, .behind (.text name.toList)⟩ := by
  have hquoted : ("\x22" ++ name ++ "\x22").toList = '\x22' :: (name.toList ++ ['\x22']) := by
    simp
  rw [hquoted]
  exact reads_text h frames

theorem script_or_plain (kind : Kind) : (∃ scriptKind, kind = .script scriptKind) ∨
    jsonKind kind = "\x22" ++ kind.name ++ "\x22" ∧ kindValue kind = .text kind.name.toList := by
  cases kind with
  | script kind => exact .inl ⟨kind, rfl⟩
  | _ => exact .inr ⟨rfl, rfl⟩

theorem reads_jsonKind (kind : Kind) (frames : List Frame) :
    Reads ⟨frames, .value⟩ (jsonKind kind).toList ⟨frames, .behind (kindValue kind)⟩ := by
  rcases script_or_plain kind with ⟨kind, rfl⟩ | ⟨hname, hvalue⟩
  · let wrapper : Frame := .object [] (some "Script".toList)
    have hopen : Reads ⟨frames, .value⟩ "\x7b\n      \x22Script\x22: ".toList
        ⟨wrapper :: frames, .value⟩ := by
      simp only [wrapper, String.reduceToList]
      rfl
    have hname := reads_quotedName (isPlain_scriptName kind) (wrapper :: frames)
    have hclose : Reads ⟨wrapper :: frames, .behind (.text kind.name.toList)⟩ "\n    \x7d".toList
        ⟨frames, .behind (kindValue (.script kind))⟩ := by
      simp only [String.reduceToList]
      rfl
    have hsplit : (jsonKind (.script kind)).toList =
        "\x7b\n      \x22Script\x22: ".toList ++ ("\x22" ++ kind.name ++ "\x22").toList ++
          "\n    \x7d".toList := by
      have hkind : jsonKind (.script kind) =
          "\x7b\n      \x22Script\x22: \x22" ++ kind.name ++ "\x22\n    \x7d" := rfl
      simp [hkind]
    rw [hsplit]
    exact (hopen.append hname).append hclose
  · rw [hname, hvalue]
    exact reads_quotedName (isPlain_name kind) frames

theorem reads_jsonToken (token : Token) (frames : List Frame) {phase : Json.Phase}
    (hphase : phase = .value ∨ phase = .firstItem) :
    Reads ⟨frames, phase⟩ (jsonToken token) ⟨frames, .behind (tokenValue token)⟩ := by
  obtain ⟨kind, start, stop⟩ := token
  let inKind : Frame := .object [] (some "kind".toList)
  let inStart : Frame := .object [("kind".toList, kindValue kind)] (some "start".toList)
  let inStop : Frame :=
    .object [("start".toList, .number start), ("kind".toList, kindValue kind)] (some "end".toList)
  have hopen : Reads ⟨frames, phase⟩ "  \x7b\n    \x22kind\x22: ".toList ⟨inKind :: frames, .value⟩ := by
    simp only [inKind, String.reduceToList]
    obtain rfl | rfl := hphase <;> rfl
  have hstart : Reads ⟨inKind :: frames, .behind (kindValue kind)⟩ ",\n    \x22start\x22: ".toList
      ⟨inStart :: frames, .value⟩ := by
    simp only [inKind, inStart, String.reduceToList]
    rfl
  have hstop : Reads ⟨inStart :: frames, .inNumber start⟩ ",\n    \x22end\x22: ".toList
      ⟨inStop :: frames, .value⟩ := by
    simp only [inStart, inStop, String.reduceToList]
    rfl
  have hclose : Reads ⟨inStop :: frames, .inNumber stop⟩ "\n  \x7d".toList
      ⟨frames, .behind (tokenValue ⟨kind, start, stop⟩)⟩ := by
    simp only [inStop, String.reduceToList]
    rfl
  exact (((((hopen.append (reads_jsonKind kind _)).append hstart).append
    (reads_decimal start _)).append hstop).append (reads_decimal stop _)).append hclose

/-- Tokens behind one another, in an array that holds some items already. The last of them is read
    to its end, and the array is still open. -/
theorem reads_jsonTokens (tokens : List Token) (last : Token) (items : List Json)
    {phase : Json.Phase} (hphase : phase = .value ∨ phase = .firstItem) :
    Reads ⟨[.array items], phase⟩ ([',', '\n'].intercalate ((tokens ++ [last]).map jsonToken))
      ⟨[.array ((tokens.map tokenValue).reverse ++ items)], .behind (tokenValue last)⟩ := by
  induction tokens generalizing items phase with
  | nil => simpa using reads_jsonToken last [.array items] hphase
  | cons token tokens ih =>
      have hcomma : Reads ⟨[.array items], .behind (tokenValue token)⟩ [',', '\n']
          ⟨[.array (tokenValue token :: items)], .value⟩ := rfl
      have hne : (tokens ++ [last]).map jsonToken ≠ [] := by simp
      rw [List.cons_append, List.map_cons, List.intercalate_cons_of_ne_nil hne]
      have hall := ((reads_jsonToken token _ hphase).append hcomma).append
        (ih (tokenValue token :: items) (.inl rfl))
      simpa using hall

/-- Tokens are read back from their dump in JSON. -/
theorem readJson_json (tokens : List Token) : readJson (json tokens) = some tokens := by
  cases tokens with
  | nil =>
      have hread : Json.read (json []) = some (.array []) := by
        simp only [json, String.reduceToList]
        rfl
      simp [readJson, hread]
  | cons token tokens =>
      obtain ⟨front, last, hlast⟩ : ∃ front last, token :: tokens = front ++ [last] :=
        ⟨_, _, (List.dropLast_concat_getLast (List.cons_ne_nil token tokens)).symm⟩
      have hopen : Reads ⟨[], .value⟩ "[\n".toList ⟨[.array []], .firstItem⟩ := by
        simp only [String.reduceToList]
        rfl
      have hclose : Reads ⟨[.array (front.map tokenValue).reverse], .behind (tokenValue last)⟩
          "\n]\n".toList ⟨[], .behind (.array ((front ++ [last]).map tokenValue))⟩ := by
        simp only [String.reduceToList]
        simp [Reads, Json.Reading.step, endValue, isSpace]
      have hitems := reads_jsonTokens front last [] (.inr rfl)
      rw [List.append_nil] at hitems
      have hread : Json.read (json (token :: tokens)) =
          some (.array ((token :: tokens).map tokenValue)) := by
        rw [← hlast] at hitems hclose
        have hall := (hopen.append hitems).append hclose
        exact read_of_reads hall
      simp only [readJson, hread, mapM_readToken]

end Dump

end Relex
