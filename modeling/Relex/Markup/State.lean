/-! # States of the markup grammar

A component document is read by a grammar with fourteen states. They are reported to callers as
state words, and a caller may hand any word back, so a state can also be a word that is not listed;
it is read as content. A further bit of the word is reserved as a flag: it marks a place whose
progress the word alone cannot describe.
-/

namespace Relex.Markup

/-- What the grammar expects next. -/
inductive State where
  /-- White space and the fence before the frontmatter, or the content of a document without any. -/
  | initial
  /-- Text and tags. -/
  | content
  | startTagName | endTagName
  /-- Attributes of a start tag, and its end. -/
  | attributes
  /-- The value of an attribute, behind its equals sign. -/
  | valueStart
  | doubleQuotedValue | singleQuotedValue
  /-- An end tag behind its name. -/
  | endTagBody
  | comment
  /-- The content of a script or style element. -/
  | rawText
  /-- Script between braces. -/
  | expression
  | frontmatter
  /-- The fence behind the frontmatter. -/
  | frontmatterClose
  /-- A state word that is not listed. -/
  | unlisted (code : UInt32) (beyond : 14 ≤ code)
  deriving Repr, DecidableEq

namespace State

/-- The state word of a state. -/
def code : State → UInt32
  | initial => 0
  | content => 1
  | startTagName => 2
  | endTagName => 3
  | attributes => 4
  | valueStart => 5
  | doubleQuotedValue => 6
  | singleQuotedValue => 7
  | endTagBody => 8
  | comment => 9
  | rawText => 10
  | expression => 11
  | frontmatter => 12
  | frontmatterClose => 13
  | unlisted code _ => code

/-- The state of a state word. -/
def ofCode (code : UInt32) : State :=
  if beyond : 14 ≤ code then
    unlisted code beyond
  else
    match code.toNat with
    | 0 => initial
    | 1 => content
    | 2 => startTagName
    | 3 => endTagName
    | 4 => attributes
    | 5 => valueStart
    | 6 => doubleQuotedValue
    | 7 => singleQuotedValue
    | 8 => endTagBody
    | 9 => comment
    | 10 => rawText
    | 11 => expression
    | 12 => frontmatter
    | _ => frontmatterClose

@[simp] theorem ofCode_code (state : State) : ofCode state.code = state := by
  cases state with
  | unlisted word beyond => simp [code, ofCode, beyond]
  | _ => rfl

theorem code_injective {state other : State} (h : state.code = other.code) : state = other := by
  rw [← ofCode_code state, h, ofCode_code]

theorem code_ofCode (word : UInt32) : (ofCode word).code = word := by
  unfold ofCode
  split
  · rfl
  · rename_i hlow
    have hbound : word.toNat < 14 := by
      rw [UInt32.le_iff_toNat_le] at hlow
      simpa using hlow
    -- Each listed word is decided by its number; only thirteen is left for the last branch.
    split
    all_goals
      apply UInt32.toNat_inj.1
      simp_all [code] <;> omega

end State

/-- The bit of a state word that marks progress which the word cannot describe. -/
def substateFlag : UInt32 := 0x20000000

/-- Whether reading can be started at a state word: it is that of a listed state, without the
    flag. -/
def isRestartPoint (code : UInt32) : Bool :=
  code &&& substateFlag == 0 && code < 14

/-- Whether a state word says that the name of a tag comes next. -/
def isTagName (code : UInt32) : Bool :=
  code == State.startTagName.code || code == State.endTagName.code

/-- The state in which markup goes on behind a region of another grammar. -/
def stateAfterEmbedment : State := .content

/-- What kind of text is read. -/
inductive Form where
  /-- A whole component document: perhaps frontmatter, then markup. -/
  | document
  /-- An expression by itself, which may hold markup. -/
  | fragment
  deriving Repr, DecidableEq

end Relex.Markup
