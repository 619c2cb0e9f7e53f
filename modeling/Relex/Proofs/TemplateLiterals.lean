import Relex.Proofs.LineEnds

/-! # Template literals

A template is one lexeme with all that is written in its substitutions: lexemes, groups in braces,
strings and templates again. To find its end only braces are counted, wherever they stand. So the strings
inside a substitution and the texts of the templates inside it count too, and the end is found where
their braces balance (`Template.Balanced`). A brace that is only opened there takes what is behind the
template into the lexeme. The lexeme ends with the template exactly when its braces alone close it
(`ClosesByBraces`, `ScriptGrammar.template_is_one_lexeme_if_balanced`).
-/

namespace Relex.Script

open Text

/-! ## Templates as they are written -/

namespace TemplatePiece

def isText : TemplatePiece → Bool
  | substitution .. => false
  | _ => true

/-- The characters of a piece, escapes apart. -/
def bare : TemplatePiece → List Char
  | escape _ => []
  | plain c .. => [c]
  | substitution _ bare .. => '$' :: '{' :: (bare ++ ['}'])

end TemplatePiece

/-- The characters of a piece, escapes apart. -/
def StringPiece.bare {quote : Char} : StringPiece quote → List Char
  | escape _ => []
  | plain c .. => [c]

/-- Text between two backticks without a substitution. -/
structure TemplateText where
  pieces : List TemplatePiece
  isText : pieces.all TemplatePiece.isText = true
  apart : pieces.IsChain fun piece next => piece.chars = ['$'] → next.chars.head? ≠ some '{'

namespace TemplateText

def chars (text : TemplateText) : List Char := text.pieces.flatMap TemplatePiece.chars

def bare (text : TemplateText) : List Char := text.pieces.flatMap TemplatePiece.bare

end TemplateText

/-- A string in its quotes. -/
structure QuotedString where
  quote : Char
  pieces : List (StringPiece quote)
  quote_eq : quote = '\x22' ∨ quote = '\x27'

namespace QuotedString

def chars (string : QuotedString) : List Char :=
  string.quote :: (string.pieces.flatMap StringPiece.chars ++ [string.quote])

def bare (string : QuotedString) : List Char := string.pieces.flatMap StringPiece.bare

end QuotedString

/-- A text that is one lexeme by itself and has no braces. -/
structure BracelessLexeme where
  first : Char
  more : List Char
  more_front : (Lexeme.front first more).more = more.length
  braceless : ∀ c ∈ first :: more, c ≠ '{' ∧ c ≠ '}'

def BracelessLexeme.chars (lexeme : BracelessLexeme) : List Char := lexeme.first :: lexeme.more

mutual

/-- What a template is behind its opening backtick: text, with substitutions in between. -/
inductive Template where
  | ends (text : TemplateText)
  | substitutes (text : TemplateText) (script : Substituted) (later : Template)

/-- The script between the braces of a substitution. -/
inductive Substituted where
  | nil
  | lexeme (lexeme : BracelessLexeme) (later : Substituted)
  | braces (inner later : Substituted)
  | string (string : QuotedString) (later : Substituted)
  | template (inner : Template) (later : Substituted)

end

mutual

/-- The characters behind the opening backtick. -/
def Template.chars : Template → List Char
  | .ends text => text.chars ++ ['\x60']
  | .substitutes text script later => text.chars ++ '$' :: '{' :: (script.chars ++ '}' :: later.chars)

def Substituted.chars : Substituted → List Char
  | .nil => []
  | .lexeme lexeme later => lexeme.chars ++ later.chars
  | .braces inner later => '{' :: (inner.chars ++ '}' :: later.chars)
  | .string string later => string.chars ++ later.chars
  | .template inner later => '\x60' :: (inner.chars ++ later.chars)

end

/-- The template with its backticks. -/
def Template.literal (template : Template) : List Char := '\x60' :: template.chars

/-! ## Braces that belong to no group and no substitution -/

mutual

/-- The characters of the texts and of the strings in a template, escapes apart. -/
def Template.stray : Template → List Char
  | .ends text => text.bare
  | .substitutes text script later => text.bare ++ (script.stray ++ later.stray)

def Substituted.stray : Substituted → List Char
  | .nil => []
  | .lexeme _ later => later.stray
  | .braces inner later => inner.stray ++ later.stray
  | .string string later => string.bare ++ later.stray
  | .template inner later => inner.stray ++ later.stray

end

mutual

/-- No lexeme ends with a backslash that would take the next character with it. -/
def Template.EscapesWithin : Template → Prop
  | .ends _ => True
  | .substitutes _ script later => script.EscapesWithin ∧ later.EscapesWithin

def Substituted.EscapesWithin : Substituted → Prop
  | .nil => True
  | .lexeme lexeme later => withoutEscapes lexeme.chars ≠ none ∧ later.EscapesWithin
  | .braces inner later => inner.EscapesWithin ∧ later.EscapesWithin
  | .string _ later => later.EscapesWithin
  | .template inner later => inner.EscapesWithin ∧ later.EscapesWithin

end

namespace Template

/-- In each substitution the braces in strings and in the texts of templates balance. -/
def Balanced : Template → Prop
  | .ends _ => True
  | .substitutes _ script later =>
    script.EscapesWithin ∧ BraceBalanced script.stray ∧ later.Balanced

/-- In no substitution a brace in a string or in the text of a template is closed before it is opened, and
    none is closed in the text of the template itself. -/
def OnlyOpens : Template → Prop
  | .ends text => '}' ∉ text.bare
  | .substitutes text script later =>
    '}' ∉ text.bare ∧ script.EscapesWithin ∧ (∃ left, Leads 0 script.stray left) ∧ later.OnlyOpens

/-- A template of one substitution, and in it one string. -/
def ofString (pieces : List (StringPiece '\x22')) : Template :=
  .substitutes ⟨[], rfl, .nil⟩ (.string ⟨'\x22', pieces, .inl rfl⟩ .nil) (.ends ⟨[], rfl, .nil⟩)

end Template

/-! ## Templates of which only the braces are counted -/

/-- What is behind an opening backtick is text, and substitutions in which the braces balance wherever they
    stand, escapes apart, up to a closing backtick. -/
def ClosesByBraces (cs : List Char) : Prop :=
  ∃ pieces : List TemplatePiece,
    (pieces.IsChain fun piece next => piece.chars = ['$'] → next.chars.head? ≠ some '{') ∧
      cs = pieces.flatMap TemplatePiece.chars ++ ['\x60']

/-! ## Braces behind a text -/

theorem withoutEscapes_append {front bare : List Char} (h : withoutEscapes front = some bare)
    (cs : List Char) : withoutEscapes (front ++ cs) = (withoutEscapes cs).map (bare ++ ·) := by
  induction front using withoutEscapes.induct generalizing bare with
  | case1 => cases h; simp
  | case2 => cases h
  | case3 c front ih =>
      rw [withoutEscapes] at h
      rw [List.cons_append, List.cons_append, withoutEscapes, ih h]
  | case4 c front hlone hescape ih =>
      have hbackslash := ne_backslash hlone hescape
      rw [withoutEscapes_cons hbackslash] at h
      obtain ⟨more, hmore, rfl⟩ := Option.map_eq_some_iff.mp h
      rw [List.cons_append, withoutEscapes_cons hbackslash, ih hmore, Option.map_map]
      rfl

theorem sublist_of_withoutEscapes {cs bare : List Char} (h : withoutEscapes cs = some bare) :
    bare.Sublist cs := by
  induction cs using withoutEscapes.induct generalizing bare with
  | case1 => cases h; exact .slnil
  | case2 => cases h
  | case3 c cs ih => exact ((ih h).cons c).cons '\\'
  | case4 c cs hlone hescape ih =>
      rw [withoutEscapes_cons (ne_backslash hlone hescape)] at h
      obtain ⟨more, hmore, rfl⟩ := Option.map_eq_some_iff.mp h
      exact (ih hmore).cons_cons c

theorem withoutEscapes_flatMap {Piece : Type} {chars bare : Piece → List Char}
    (h : ∀ piece, withoutEscapes (chars piece) = some (bare piece)) (pieces : List Piece) :
    withoutEscapes (pieces.flatMap chars) = some (pieces.flatMap bare) := by
  induction pieces with
  | nil => rfl
  | cons piece pieces ih =>
      rw [List.flatMap_cons, withoutEscapes_append (h piece), ih]
      rfl

theorem StringPiece.withoutEscapes_chars {quote : Char} (piece : StringPiece quote) :
    withoutEscapes piece.chars = some piece.bare := by
  cases piece with
  | escape c => rfl
  | plain c _ hbackslash _ => rw [chars, withoutEscapes_cons hbackslash]; rfl

theorem TemplatePiece.withoutEscapes_chars (piece : TemplatePiece) :
    withoutEscapes piece.chars = some piece.bare := by
  cases piece with
  | escape c => rfl
  | plain c _ hbackslash => rw [chars, withoutEscapes_cons hbackslash]; rfl
  | substitution script bare hbare hbalanced =>
      have hdollar : ('$' : Char) ≠ '\\' := by decide
      have hbrace : ('{' : Char) ≠ '\\' := by decide
      rw [chars, withoutEscapes_cons hdollar, withoutEscapes_cons hbrace, withoutEscapes_append hbare]
      rfl

/-- Over a text that stands inside braces, escapes apart, the count of the open braces gets from one number
    to another, and it is never closed more than is open. -/
def Passes (before : Nat) (text : List Char) (after : Nat) : Prop :=
  ∃ bare, withoutEscapes text = some bare ∧ Leads before bare after

section Passes

variable {before between after : Nat} {front text : List Char}

theorem Leads.add (h : Leads before text after) (outer : Nat) :
    Leads (outer + before) text (outer + after) where
  open_le n := by
    have hle := h.open_le n
    omega
  count_eq := by
    have hcount := h.count_eq
    omega

theorem leads_nil_iff : Leads before [] after ↔ before = after := by
  constructor
  · intro h
    simpa using h.count_eq.symm
  · rintro rfl
    exact ⟨fun n => by simp, rfl⟩

/-- A text without closing braces opens as many as there are. -/
theorem leads_of_not_mem (h : '}' ∉ text) : Leads before text (before + text.count '{') where
  open_le n := by
    rw [List.count_eq_zero.mpr fun hmem => h (List.mem_of_mem_take hmem)]
    exact Nat.zero_le _
  count_eq := by rw [List.count_eq_zero.mpr h]; rfl

theorem Passes.append (hfront : Passes before front between) (htext : Passes between text after) :
    Passes before (front ++ text) after := by
  obtain ⟨bare, hbare, hleads⟩ := hfront
  obtain ⟨more, hmore, hleads'⟩ := htext
  refine ⟨bare ++ more, ?_, leads_append_iff.mpr ⟨between, hleads, hleads'⟩⟩
  rw [withoutEscapes_append hbare, hmore]
  rfl

theorem passes_nil : Passes before [] before :=
  ⟨[], rfl, leads_nil_iff.mpr rfl⟩

theorem Passes.escape (h : Passes before text after) (c : Char) : Passes before ('\\' :: c :: text) after :=
  h

theorem Passes.cons {c : Char} (hbackslash : c ≠ '\\')
    (hcount : between + [c].count '}' = before + [c].count '{') (htext : Passes between text after) :
    Passes before (c :: text) after := by
  have hsign : Passes before [c] between := by
    refine ⟨[c], by rw [withoutEscapes_cons hbackslash]; rfl, ?_, hcount⟩
    intro n
    cases n with
    | zero => exact Nat.zero_le _
    | succ n => rw [List.take_of_length_le (Nat.le_add_left 1 n)]; omega
  exact hsign.append htext

/-- What stands in braces of its own leaves as many open as it would without them. -/
theorem Passes.inBraces {inner : List Char} (hinner : Passes before inner between)
    (htext : Passes between text after) : Passes before ('{' :: (inner ++ '}' :: text)) after := by
  have hinside : Passes (1 + before) inner (1 + between) := by
    obtain ⟨bare, hbare, hleads⟩ := hinner
    exact ⟨bare, hbare, hleads.add 1⟩
  have hclosing : Passes (1 + between) ('}' :: text) after :=
    htext.cons (by decide) (by simp [Nat.add_comm])
  exact (hinside.append hclosing).cons (by decide) (by simp [Nat.add_comm])

theorem TemplateText.passes {text : TemplateText} (h : Leads before text.bare after) :
    Passes before text.chars after :=
  ⟨text.bare, withoutEscapes_flatMap TemplatePiece.withoutEscapes_chars text.pieces, h⟩

theorem QuotedString.passes {string : QuotedString} (h : Leads before string.bare after) :
    Passes before string.chars after := by
  obtain ⟨quote, pieces, hquote⟩ := string
  have hpieces : Passes before (pieces.flatMap StringPiece.chars) after :=
    ⟨_, withoutEscapes_flatMap StringPiece.withoutEscapes_chars pieces, h⟩
  have hbackslash : quote ≠ '\\' := by
    rcases hquote with rfl | rfl
    all_goals decide
  have hcount : ∀ count, count + [quote].count '}' = count + [quote].count '{' := by
    rcases hquote with rfl | rfl
    all_goals exact fun _ => rfl
  exact (hpieces.append (passes_nil.cons hbackslash (hcount after))).cons hbackslash (hcount before)

theorem BracelessLexeme.passes {lexeme : BracelessLexeme} (h : withoutEscapes lexeme.chars ≠ none) :
    Passes before lexeme.chars before := by
  obtain ⟨bare, hbare⟩ := Option.ne_none_iff_exists'.mp h
  have hbraceless : ∀ brace ∈ ['{', '}'], brace ∉ bare := by
    intro brace hbrace hmem
    obtain ⟨hopening, hclosing⟩ := lexeme.braceless brace ((sublist_of_withoutEscapes hbare).subset hmem)
    simp only [List.mem_cons, List.not_mem_nil, or_false] at hbrace
    exact hbrace.elim hopening hclosing
  have hleads : Leads before bare (before + bare.count '{') := leads_of_not_mem (hbraceless '}' (by decide))
  rw [List.count_eq_zero.mpr (hbraceless '{' (by decide))] at hleads
  exact ⟨bare, hbare, hleads⟩

end Passes

mutual

theorem Template.passes {template : Template} (h : template.EscapesWithin) {before after : Nat}
    (hleads : Leads before template.stray after) : Passes before template.chars after := by
  cases template with
  | ends text =>
      exact (TemplateText.passes hleads).append (passes_nil.cons (by decide) rfl)
  | substitutes text script later =>
      obtain ⟨hscript, hlater⟩ := h
      obtain ⟨opened, htext, hbehind⟩ := leads_append_iff.mp hleads
      obtain ⟨between, hbody, hrest⟩ := leads_append_iff.mp hbehind
      have hinside := (Substituted.passes hscript hbody).inBraces (Template.passes hlater hrest)
      exact (TemplateText.passes htext).append (hinside.cons (by decide) rfl)

theorem Substituted.passes {script : Substituted} (h : script.EscapesWithin) {before after : Nat}
    (hleads : Leads before script.stray after) : Passes before script.chars after := by
  cases script with
  | nil => exact ⟨[], rfl, hleads⟩
  | lexeme lexeme later =>
      obtain ⟨hlexeme, hlater⟩ := h
      exact (BracelessLexeme.passes hlexeme).append (Substituted.passes hlater hleads)
  | braces inner later =>
      obtain ⟨hinner, hlater⟩ := h
      obtain ⟨between, hinside, hbehind⟩ := leads_append_iff.mp hleads
      exact (Substituted.passes hinner hinside).inBraces (Substituted.passes hlater hbehind)
  | string string later =>
      have hlater : later.EscapesWithin := h
      obtain ⟨between, hstring, hbehind⟩ := leads_append_iff.mp hleads
      exact (QuotedString.passes hstring).append (Substituted.passes hlater hbehind)
  | template inner later =>
      obtain ⟨hinner, hlater⟩ := h
      obtain ⟨between, hinside, hbehind⟩ := leads_append_iff.mp hleads
      have hread := (Template.passes hinner hinside).append (Substituted.passes hlater hbehind)
      exact hread.cons (by decide) rfl

end

/-! ## The end of a template -/

/-- Text outside braces belongs to the template, whatever comes behind it but a brace. -/
theorem TemplateText.templateRest_chars (text : TemplateText) {rest : List Char}
    (hrest : rest.head? ≠ some '{') :
    templateRest 0 (text.chars ++ rest) = templateRest 0 rest + text.chars.length :=
  templateRest_pieces text.apart hrest

/-- As many braces as a substitution leaves open are open behind it. -/
theorem Template.templateRest_substitutes (text : TemplateText) {script : Substituted} {left : Nat}
    (hscript : Passes 0 script.chars left) (later : Template) (rest : List Char) :
    templateRest 0 ((Template.substitutes text script later).chars ++ rest) =
      templateRest left (later.chars ++ rest) + (text.chars.length + script.chars.length + 3) := by
  obtain ⟨bare, hbare, hleads⟩ := hscript
  rw [Template.chars, List.append_assoc, text.templateRest_chars (by simp), List.cons_append,
    List.cons_append, List.append_assoc, List.cons_append, templateRest_substitution hbare hleads]
  omega

theorem Template.templateRest_of_balanced (template : Template) (h : template.Balanced) (rest : List Char) :
    templateRest 0 (template.chars ++ rest) = template.chars.length := by
  cases template with
  | ends text =>
      rw [Template.chars, List.append_assoc, List.singleton_append, List.length_append]
      exact templateRest_closed text.apart
  | substitutes text script later =>
      obtain ⟨hescapes, hbalanced, hlater⟩ := h
      have hscript := Substituted.passes hescapes (braceBalanced_iff_leads.mp hbalanced)
      rw [templateRest_substitutes text hscript, later.templateRest_of_balanced hlater, Template.chars]
      simp only [List.length_append, List.length_cons]
      omega

/-- A template that only opens braces is passed inside braces too. -/
theorem Template.exists_leads (template : Template) (h : template.OnlyOpens) (before : Nat) :
    template.EscapesWithin ∧ ∃ after, Leads before template.stray after := by
  cases template with
  | ends text => exact ⟨trivial, _, leads_of_not_mem h⟩
  | substitutes text script later =>
      obtain ⟨htext, hescapes, ⟨left, hleads⟩, hlater⟩ := h
      obtain ⟨hwithin, after, hbehind⟩ := later.exists_leads hlater (before + text.bare.count '{' + left)
      have hscript := leads_append_iff.mpr ⟨_, hleads.add (before + text.bare.count '{'), hbehind⟩
      exact ⟨⟨hescapes, hwithin⟩, after, leads_append_iff.mpr ⟨_, leads_of_not_mem htext, hscript⟩⟩

/-- Where a substitution leaves a brace open, the closing backtick is inside braces. -/
theorem Template.templateRest_of_onlyOpens (template : Template) (h : template.OnlyOpens)
    (hopen : ¬template.Balanced) : ∃ left, ∀ rest,
      templateRest 0 (template.chars ++ rest) = templateRest (left + 1) rest + template.chars.length := by
  cases template with
  | ends text => exact absurd trivial hopen
  | substitutes text script later =>
      obtain ⟨htext, hescapes, ⟨left, hleads⟩, hlater⟩ := h
      have hscript := Substituted.passes hescapes hleads
      have hlength : (Template.substitutes text script later).chars.length =
          later.chars.length + (text.chars.length + script.chars.length + 3) := by
        simp only [Template.chars, List.length_append, List.length_cons]
        omega
      cases left with
      | zero =>
          -- The braces of this substitution balance, so a later one leaves a brace open.
          have hnot : ¬later.Balanced := fun hbalanced =>
            hopen ⟨hescapes, braceBalanced_iff_leads.mpr hleads, hbalanced⟩
          obtain ⟨left, hend⟩ := later.templateRest_of_onlyOpens hlater hnot
          refine ⟨left, fun rest => ?_⟩
          rw [templateRest_substitutes text hscript, hend, hlength, Nat.add_assoc]
      | succ left =>
          -- From here on everything is read inside braces, up to the closing backtick and past it.
          obtain ⟨hwithin, after, hstray⟩ := later.exists_leads hlater left
          obtain ⟨bare, hbare, hbehind⟩ := Template.passes hwithin hstray
          refine ⟨after, fun rest => ?_⟩
          rw [templateRest_substitutes text hscript, templateRest_script hbare hbehind, hlength,
            Nat.add_assoc]

/-! ## The end by braces alone -/

/-- Inside as many open braces as `depth` all of them are closed first. -/
def ClosesFrom : (depth : Nat) → List Char → Prop
  | 0, cs => ClosesByBraces cs
  | depth + 1, cs =>
    ∃ script behind, cs = script ++ '}' :: behind ∧ Passes depth script 0 ∧ ClosesByBraces behind

theorem closesByBraces_backtick : ClosesByBraces ['\x60'] :=
  ⟨[], .nil, rfl⟩

theorem ClosesByBraces.cons {cs : List Char} (h : ClosesByBraces cs) (piece : TemplatePiece)
    (hdollar : piece.chars = ['$'] → cs.head? ≠ some '{') : ClosesByBraces (piece.chars ++ cs) := by
  obtain ⟨pieces, hchain, rfl⟩ := h
  refine ⟨piece :: pieces, ?_, by rw [List.flatMap_cons, List.append_assoc]⟩
  cases pieces with
  | nil => exact .singleton piece
  | cons next pieces =>
      rw [List.flatMap_cons, List.append_assoc, next.head?_chars_append] at hdollar
      exact List.isChain_cons_cons.mpr ⟨hdollar, hchain⟩

namespace ClosesFrom

variable {depth behind : Nat} {c : Char} {cs : List Char}

theorem escape (h : ClosesFrom depth cs) (c : Char) : ClosesFrom depth ('\\' :: c :: cs) := by
  cases depth with
  | zero => exact ClosesByBraces.cons h (.escape c) (by simp [TemplatePiece.chars])
  | succ depth =>
      obtain ⟨script, behind, rfl, hscript, hbehind⟩ := h
      exact ⟨'\\' :: c :: script, behind, rfl, hscript.escape c, hbehind⟩

theorem plain (h : ClosesFrom 0 cs) (hquote : c ≠ '\x60') (hbackslash : c ≠ '\\')
    (hdollar : c = '$' → cs.head? ≠ some '{') : ClosesFrom 0 (c :: cs) :=
  ClosesByBraces.cons h (.plain c hquote hbackslash) fun hsame => hdollar (List.singleton_inj.mp hsame)

theorem substitution (h : ClosesFrom 1 cs) : ClosesFrom 0 ('$' :: '{' :: cs) := by
  obtain ⟨script, behind, rfl, ⟨bare, hbare, hleads⟩, hbehind⟩ := h
  have hcloses := hbehind.cons (.substitution script bare hbare (braceBalanced_iff_leads.mpr hleads))
    (by simp [TemplatePiece.chars])
  rwa [TemplatePiece.chars, List.cons_append, List.cons_append, List.append_assoc, List.singleton_append]
    at hcloses

/-- Inside braces a character leaves as many to be closed as it opens and does not close. -/
theorem inside (h : ClosesFrom (behind + 1) cs) (hbackslash : c ≠ '\\')
    (hcount : behind + [c].count '}' = depth + [c].count '{') : ClosesFrom (depth + 1) (c :: cs) := by
  obtain ⟨script, later, rfl, hscript, hlater⟩ := h
  exact ⟨c :: script, later, rfl, hscript.cons hbackslash hcount, hlater⟩

theorem closing (h : ClosesFrom depth cs) : ClosesFrom (depth + 1) ('}' :: cs) := by
  cases depth with
  | zero => exact ⟨[], cs, rfl, passes_nil, h⟩
  | succ depth => exact h.inside (by decide) rfl

end ClosesFrom

/-- What is found behind a front part is found with it. -/
theorem closesFrom_or_append {depth behind n : Nat} {cs : List Char} (front : List Char)
    (hcloses : ∀ part, part <+: cs → ClosesFrom behind part → ClosesFrom depth (front ++ part))
    (h : (∃ part, part <+: cs ∧ ClosesFrom behind part) ∨ n = cs.length) :
    (∃ part, part <+: front ++ cs ∧ ClosesFrom depth part) ∨
      n + front.length = (front ++ cs).length := by
  rcases h with ⟨part, hprefix, hpart⟩ | rfl
  · exact .inl ⟨front ++ part, (List.prefix_append_right_inj front).mpr hprefix,
      hcloses part hprefix hpart⟩
  · exact .inr (by rw [List.length_append, Nat.add_comm])

/-- Either a front part closes the template, or all that is there belongs to it. -/
theorem exists_closesFrom_or (depth : Nat) (cs : List Char) :
    (∃ part, part <+: cs ∧ ClosesFrom depth part) ∨ templateRest depth cs = cs.length := by
  fun_induction templateRest depth cs with
  | case1 => exact .inr rfl
  | case2 => exact .inr rfl
  | case3 depth c cs ih => exact closesFrom_or_append ['\\', c] (fun _ _ h => h.escape c) ih
  | case4 cs ih => exact closesFrom_or_append ['$', '{'] (fun _ _ h => h.substitution) ih
  | case5 cs => exact .inl ⟨['\x60'], ⟨cs, rfl⟩, closesByBraces_backtick⟩
  | case6 c cs hlone hescape hdollar hquote ih =>
      refine closesFrom_or_append [c] (fun part hprefix hpart => ?_) ih
      refine hpart.plain hquote (ne_backslash hlone hescape) fun hsame hhead => ?_
      obtain ⟨later, rfl⟩ := List.head?_eq_some_iff.mp hhead
      obtain ⟨more, rfl⟩ := hprefix
      exact hdollar (later ++ more) hsame rfl
  | case7 depth cs _ _ ih =>
      exact closesFrom_or_append ['{'] (fun _ _ h => h.inside (by decide) rfl) ih
  | case8 depth cs _ _ _ ih => exact closesFrom_or_append ['}'] (fun _ _ h => h.closing) ih
  | case9 depth c cs hlone hescape hopens hcloses ih =>
      have hcount : depth + [c].count '}' = depth + [c].count '{' := by simp [hopens, hcloses]
      exact closesFrom_or_append [c] (fun _ _ h => h.inside (ne_backslash hlone hescape) hcount) ih

theorem ClosesByBraces.templateRest_append {front : List Char} (h : ClosesByBraces front)
    (rest : List Char) : templateRest 0 (front ++ rest) = front.length := by
  obtain ⟨pieces, hchain, rfl⟩ := h
  rw [List.append_assoc, List.singleton_append, templateRest_closed hchain, List.length_append,
    List.length_singleton]

/-- A template ends with a front part of a text exactly if that part closes it, or if the text is over
    and no part of it does. -/
theorem take_templateRest_eq_iff {front rest : List Char} :
    (front ++ rest).take (templateRest 0 (front ++ rest)) = front ↔
      ClosesByBraces front ∨ rest = [] ∧ ∀ part, part <+: front → ¬ClosesByBraces part := by
  constructor
  · intro htake
    rcases exists_closesFrom_or 0 (front ++ rest) with ⟨part, ⟨more, hmore⟩, hcloses⟩ | hlength
    · have hpart : ClosesByBraces part := hcloses
      rw [← hmore, hpart.templateRest_append, List.take_left] at htake
      exact .inl (htake ▸ hpart)
    · rw [hlength, List.take_length] at htake
      obtain rfl : rest = [] := List.append_right_eq_self.mp htake
      rw [List.append_nil] at hlength
      refine or_iff_not_imp_left.mpr fun hfront => ⟨rfl, fun part hprefix hpart => hfront ?_⟩
      -- A part that closes the template is where it ends, so it is all of the text.
      obtain ⟨more, hmore⟩ := hprefix
      have hend := hpart.templateRest_append more
      rw [hmore, hlength] at hend
      have hwhole : part = front := List.IsPrefix.eq_of_length ⟨more, hmore⟩ hend.symm
      exact hwhole ▸ hpart
  · rintro (hfront | ⟨rfl, hopen⟩)
    · rw [hfront.templateRest_append, List.take_left]
    · rw [List.append_nil]
      rcases exists_closesFrom_or 0 front with ⟨part, hprefix, hcloses⟩ | hlength
      · exact absurd hcloses (hopen part hprefix)
      · rw [hlength, List.take_length]

theorem templateRest_pos (depth : Nat) (c : Char) (cs : List Char) : 0 < templateRest depth (c :: cs) := by
  unfold templateRest
  split
  · rename_i hnil
    cases hnil
  · exact Nat.one_pos
  · exact Nat.succ_pos _
  · exact Nat.succ_pos _
  · split
    all_goals omega
  · split
    · exact Nat.succ_pos _
    · split
      all_goals exact Nat.succ_pos _

theorem lexemeAt_template {source : String} {cs : List Char} {start stop : Nat}
    (hspans : Spans source.toList ('\x60' :: cs) start stop) : lexemeAt source start stop =
      .ok (.templateString, start + byteLength ('\x60' :: cs.take (templateRest 0 cs))) :=
  lexemeAt_eq hspans

theorem lexemeAt_template_iff {source : String} {front rest : List Char} {start stop : Nat}
    (hspans : Spans source.toList ('\x60' :: (front ++ rest)) start stop) :
    lexemeAt source start stop = .ok (.templateString, start + byteLength ('\x60' :: front)) ↔
      ClosesByBraces front ∨ rest = [] ∧ ∀ part, part <+: front → ¬ClosesByBraces part := by
  rw [lexemeAt_template hspans, ← take_templateRest_eq_iff]
  constructor
  · intro hend
    have hlength := Nat.add_left_cancel (congrArg Prod.snd (Except.ok.inj hend))
    rw [byteLength_cons, byteLength_cons] at hlength
    exact front_eq_of_byteLength_eq (List.take_append_drop _ _) (Nat.add_left_cancel hlength)
  · intro htake
    rw [htake]

end Relex.Script

namespace Relex.ScriptGrammar

open Text Script

/-- A template is one lexeme, whatever is behind it, if in each substitution the braces in strings and in
    the texts of templates balance. If such braces are only opened, but not all of them closed, the lexeme
    takes in what is behind the template. In any case the lexeme ends with the template exactly if the
    template closes by its braces alone, wherever they stand, or if nothing is behind it and no part of it
    closes by braces. -/
theorem template_is_one_lexeme_if_balanced (template : Template) (source : String) (start stop : Nat) :
    (template.Balanced → ∀ rest, Spans source.toList (template.literal ++ rest) start stop →
      lexemeAt source start stop = .ok (.templateString, start + byteLength template.literal)) ∧
    (template.OnlyOpens → ¬template.Balanced →
      ∀ c rest, Spans source.toList (template.literal ++ c :: rest) start stop →
        ∃ behind, lexemeAt source start stop = .ok (.templateString, behind) ∧
          start + byteLength template.literal < behind) ∧
    (∀ rest, Spans source.toList (template.literal ++ rest) start stop →
      (lexemeAt source start stop = .ok (.templateString, start + byteLength template.literal) ↔
        ClosesByBraces template.chars ∨
          rest = [] ∧ ∀ front, front <+: template.chars → ¬ClosesByBraces front)) := by
  have hlexeme : ∀ rest, Spans source.toList (template.literal ++ rest) start stop →
      lexemeAt source start stop = .ok (.templateString, start + byteLength ('\x60' ::
        (template.chars ++ rest).take (templateRest 0 (template.chars ++ rest)))) :=
    fun rest hspans => lexemeAt_template hspans
  refine ⟨?_, ?_, fun rest hspans => lexemeAt_template_iff hspans⟩
  · intro hbalanced rest hspans
    rw [hlexeme rest hspans, template.templateRest_of_balanced hbalanced, List.take_left]
    rfl
  · intro honly hopen c rest hspans
    obtain ⟨left, hend⟩ := template.templateRest_of_onlyOpens honly hopen
    refine ⟨_, hlexeme _ hspans, ?_⟩
    obtain ⟨n, hn⟩ := Nat.exists_eq_add_one.mpr (templateRest_pos (left + 1) c rest)
    have hpast : '\x60' :: (template.chars ++ c :: rest).take (templateRest 0 (template.chars ++ c :: rest)) =
        template.literal ++ c :: rest.take n := by
      rw [hend, hn, Nat.add_comm, List.take_length_add_append]
      rfl
    have hpos := byteLength_pos c (rest.take n)
    rw [hpast, byteLength_append]
    omega

/-- The braces of the first template balance, over a template and a string in its substitution. In the
    second a string opens one. In the third a string closes the substitution, and the backtick behind the
    brace that was to close it still ends the template. -/
theorem template_is_one_lexeme_if_balanced_in_strings :
    lexemeAt "`$\x7b \x7b`\x7b`\x7d '\x7d'\x7d `;" 0 17 = .ok (.templateString, 16) ∧
      (∃ behind, lexemeAt "`$\x7b\x22\x7b\x22\x7d`;" 0 9 = .ok (.templateString, behind) ∧ 8 < behind) ∧
      lexemeAt "`$\x7b\x22\x7d\x22\x7d`;" 0 9 = .ok (.templateString, 8) := by
  let space : BracelessLexeme := ⟨' ', [], rfl, List.forall_mem_singleton.mpr (by decide)⟩
  let opening : TemplateText := ⟨[.plain '{' (by decide) (by decide)], rfl, .singleton _⟩
  let closing : QuotedString := ⟨'\x27', [.plain '}' (by decide) (by decide) rfl], .inr rfl⟩
  let script : Substituted :=
    .lexeme space (.braces (.template (.ends opening) .nil) (.lexeme space (.string closing .nil)))
  let balanced : Template := .substitutes ⟨[], rfl, .nil⟩ script
    (.ends ⟨[.plain ' ' (by decide) (by decide)], rfl, .singleton _⟩)
  have hescapes : script.EscapesWithin := ⟨nofun, ⟨trivial, trivial⟩, nofun, trivial⟩
  let opened : Template := .ofString [.plain '{' (by decide) (by decide) rfl]
  have honly : opened.OnlyOpens :=
    ⟨List.not_mem_nil, trivial, ⟨1, leads_of_not_mem (by decide)⟩, List.not_mem_nil⟩
  have hopen : ¬opened.Balanced := fun h => absurd h.2.1 (by decide)
  let closed : Template := .ofString [.plain '}' (by decide) (by decide) rfl]
  have hcloses : ClosesByBraces closed.chars :=
    ⟨[.substitution ['\x22'] ['\x22'] rfl (by decide), .plain '\x22' (by decide) (by decide),
      .plain '}' (by decide) (by decide)], by simp [TemplatePiece.chars], rfl⟩
  have hfirst : Spans "`$\x7b \x7b`\x7b`\x7d '\x7d'\x7d `;".toList (balanced.literal ++ [';']) 0 17 := by
    refine ⟨[], [], ?_, rfl, ?_⟩
    all_goals decide +kernel
  have hsecond : Spans "`$\x7b\x22\x7b\x22\x7d`;".toList (opened.literal ++ [';']) 0 9 := by
    refine ⟨[], [], ?_, rfl, ?_⟩
    all_goals decide +kernel
  have hthird : Spans "`$\x7b\x22\x7d\x22\x7d`;".toList (closed.literal ++ [';']) 0 9 := by
    refine ⟨[], [], ?_, rfl, ?_⟩
    all_goals decide +kernel
  have hbalanced : balanced.Balanced := ⟨hescapes, by decide, trivial⟩
  have hlength : byteLength balanced.literal = 16 := by decide +kernel
  have hlength' : byteLength opened.literal = 8 := by decide +kernel
  have hlength'' : byteLength closed.literal = 8 := by decide +kernel
  have hwhole := (template_is_one_lexeme_if_balanced balanced _ 0 17).1 hbalanced [';'] hfirst
  have hpast := (template_is_one_lexeme_if_balanced opened _ 0 9).2.1 honly hopen ';' [] hsecond
  have hend := ((template_is_one_lexeme_if_balanced closed _ 0 9).2.2 [';'] hthird).mpr (.inl hcloses)
  rw [hlength] at hwhole
  rw [hlength'] at hpast
  rw [hlength''] at hend
  exact ⟨hwhole, hpast, hend⟩

/-- A brace in a string takes what is behind the template into the lexeme, or ends it too early. -/
theorem braces_in_strings_count :
    (Template.ofString [.plain '{' (by decide) (by decide) rfl]).literal = "`$\x7b\x22\x7b\x22\x7d`".toList ∧
      lexemeAt "`$\x7b\x22\x7b\x22\x7d`;" 0 9 = .ok (.templateString, 9) ∧
    (Template.ofString
        [.plain '}' (by decide) (by decide) rfl, .plain '\x60' (by decide) (by decide) rfl]).literal =
        "`$\x7b\x22\x7d`\x22\x7d`".toList ∧
      lexemeAt "`$\x7b\x22\x7d`\x22\x7d`;" 0 10 = .ok (.templateString, 6) := by
  decide +kernel

end Relex.ScriptGrammar
