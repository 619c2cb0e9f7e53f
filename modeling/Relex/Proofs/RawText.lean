import Mathlib.Order.Bounds.Defs
import Relex.Proofs.Arrival
import Relex.Proofs.Bytes
import Relex.Proofs.Reading

/-! # Where raw text ends

The content of a raw text element is one token, which reaches up to the first end tag of that
element. `HasEndTag` says what such an end tag is, without any search. Three rules have to agree on
it: the search that ends the text, the rule that reads the name again behind the sign, and the
comparison that decides what the end tag closes. They do because the name of a raw text element
consists of small letters of ASCII (`isAlpha_of_rawTextName`), so that whatever is equal to it up to
case is read as a whole name, and the element it belongs to is the innermost one.
-/

namespace Relex

namespace Markup

open Text Unicode

/-! ## End tags of raw text -/

/-- The text begins with an end tag of an element, as far as the name goes: the name stands there in
    any case, and in front of the end of the text or of a sign that ends it. -/
def HasEndTag (name : String) (text : List Char) : Prop :=
  ∃ letters rest, text = '<' :: '/' :: (letters ++ rest) ∧
    letters.map Char.toLower = name.toList.map Char.toLower ∧
    ∀ c ∈ rest.head?, c = '>' ∨ c = '/' ∨ isMarkupSpace c = true

theorem endsRawText_iff {name : String} {text : List Char} :
    endsRawText name text = true ↔ HasEndTag name text := by
  constructor
  · intro h
    simp only [endsRawText, Bool.and_eq_true, begins_iff] at h
    obtain ⟨⟨⟨behind, rfl⟩, hname⟩, hend⟩ := h
    have hsigns : ∀ n, (['<', '/'] ++ behind).drop (2 + n) = behind.drop n := by
      intro n
      rw [Nat.add_comm]
      rfl
    rw [hsigns] at hend
    refine ⟨behind.take name.toList.length, behind.drop name.toList.length, ?_, ?_, ?_⟩
    · rw [List.take_append_drop]
      rfl
    · exact (beq_iff_eq.mp hname).symm
    · intro c hc
      obtain ⟨rest, hrest⟩ := List.head?_eq_some_iff.mp hc
      rw [hrest] at hend
      simpa [headIs, or_assoc] using hend
  · rintro ⟨letters, rest, rfl, hletters, hrest⟩
    have hlength : letters.length = name.toList.length := by
      simpa using congrArg List.length hletters
    have hbehind : ('<' :: '/' :: (letters ++ rest)).drop (2 + name.toList.length) = rest := by
      rw [← hlength, Nat.add_comm]
      exact List.drop_left
    have hname : (('<' :: '/' :: (letters ++ rest)).drop 2).take name.toList.length = letters := by
      rw [← hlength]
      exact List.take_left
    simp only [endsRawText, hbehind, hname, equalIgnoringCase, hletters, beq_self_eq_true,
      Bool.and_true]
    cases rest with
    | nil => rfl
    | cons c rest =>
        have hend := hrest c rfl
        simp [begins, headIs, or_assoc, hend]

/-- An end tag of an element stands at an offset of the region that ends at `stop`. -/
def EndTagAt (source : List Char) (stop : Nat) (name : String) (offset : Nat) : Prop :=
  ∃ text, Spans source text offset stop ∧ HasEndTag name text

theorem endTagAt_iff {source : List Char} {stop offset : Nat} {name : String} :
    EndTagAt source stop name offset ↔
      (region source offset stop).toOption.any (endsRawText name) = true := by
  simp only [EndTagAt, ← region_eq_ok_iff, ← endsRawText_iff]
  cases region source offset stop with
  | error error => simp [Except.toOption]
  | ok text => simp [Except.toOption]

instance (source : List Char) (stop : Nat) (name : String) (offset : Nat) :
    Decidable (EndTagAt source stop name offset) :=
  decidable_of_iff _ endTagAt_iff.symm

section Name

variable {name : String} {letters rest : List Char}

/-- What is equal to the name of a raw text element up to case consists of letters of ASCII. -/
theorem isAlpha_of_rawTextName (hraw : name ∈ rawTextElements)
    (hletters : letters.map Char.toLower = name.toList.map Char.toLower) :
    ∀ c ∈ letters, c.isAlpha = true := by
  intro c hc
  have hnames : rawTextElements.all
      (fun name => (name.toList.map Char.toLower).all Char.isAlpha) = true := by decide
  have hlower : c.toLower ∈ name.toList.map Char.toLower := by
    rw [← hletters]
    exact List.mem_map_of_mem hc
  exact isAlpha_of_toLower (List.all_eq_true.mp (List.all_eq_true.mp hnames name hraw) _ hlower)

theorem endTagMatches_of_rawTextName (hraw : name ∈ rawTextElements)
    (hletters : letters.map Char.toLower = name.toList.map Char.toLower) :
    endTagMatches name (String.ofList letters) = true := by
  simp [endTagMatches, equalIgnoringCase, hletters, hraw]

theorem byteLength_of_rawTextName
    (hletters : letters.map Char.toLower = name.toList.map Char.toLower) :
    byteLength letters = name.utf8ByteSize := by
  rw [← byteLength_map_toLower, hletters, byteLength_map_toLower, byteLength_toList]

/-- A name does not go on with a sign that ends it. -/
theorem inTagName_eq_false_of_end {c : Char}
    (hend : c = '>' ∨ c = '/' ∨ isMarkupSpace c = true) : inTagName c = false := by
  rcases hend with rfl | rfl | hspace
  · decide
  · decide
  · simp only [isMarkupSpace, Bool.or_eq_true, beq_iff_eq] at hspace
    rcases hspace with (((rfl | rfl) | rfl) | rfl) | rfl <;> decide

end Name

/-! ## Reading raw text -/

section Reading

variable (form : Form) (offset : Nat) {nesting : Nesting} {name : String}
  {front letters rest text : List Char}

/-- In an element of raw text the name of its end tag is read as one name, and it closes that
    element. -/
theorem yields_rawEndTagName (hraw : name ∈ rawTextElements)
    (hname : nesting.innermost? = some name)
    (hletters : letters.map Char.toLower = name.toList.map Char.toLower)
    (hrest : ∀ c ∈ rest.head?, c = '>' ∨ c = '/' ∨ isMarkupSpace c = true) :
    ∃ kind, (kind = .tagName ∨ kind = .componentName) ∧
      Cursor.Yields form ⟨offset, ⟨.endTagName, nesting⟩, letters ++ rest⟩
        [⟨kind, offset, offset + name.utf8ByteSize⟩]
        ⟨offset + name.utf8ByteSize, ⟨.endTagBody, nesting.leaving⟩, rest⟩ := by
  have halpha := isAlpha_of_rawTextName hraw hletters
  have hclosed := Nesting.apply_closeElement_innermost hname
    (endTagMatches_of_rawTextName hraw hletters)
  rw [← byteLength_of_rawTextName hletters]
  cases letters with
  | nil =>
      have hnames : ∀ name ∈ rawTextElements, name.toList.map Char.toLower ≠ [] := by decide
      exact absurd hletters.symm (hnames name hraw)
  | cons first more =>
      have hmore : more.all inTagName = true := by
        apply List.all_eq_true.mpr
        intro c hc
        exact inTagName_of_isAlpha (halpha c (List.mem_cons_of_mem first hc))
      have hkind : ∀ name, Rule.tagNameKind name = .tagName ∨
          Rule.tagNameKind name = .componentName := by
        intro name
        rw [Rule.tagNameKind]
        split
        · exact .inr rfl
        · exact .inl rfl
      refine ⟨_, hkind _, Cursor.yields_token form offset (transition_endTagName
        (halpha first List.mem_cons_self) hmore
        fun c hc => inTagName_eq_false_of_end (hrest c hc)) rfl ?_⟩
      rw [Context.after, hclosed]
      rfl

/-- The text in front of the end tag is one token, unless there is none. -/
theorem yields_rawText (htop : nesting.elements.top? = some name) (htext : HasEndTag name text)
    (hfirst : ∀ k < front.length, ¬HasEndTag name ((front ++ text).drop k)) :
    Cursor.Yields form ⟨offset, ⟨.rawText, nesting⟩, front ++ text⟩
      (if front = [] then [] else [⟨.rawText, offset, offset + byteLength front⟩])
      ⟨offset + byteLength front, ⟨.rawText, nesting⟩, text⟩ := by
  cases front with
  | nil => exact .nil
  | cons c front =>
      have hne : text ≠ [] := by
        obtain ⟨letters, rest, rfl, -, -⟩ := htext
        exact List.cons_ne_nil _ _
      have hseek : seek? (endsRawText name) (c :: front ++ text) = some (front.length + 1) := by
        refine seek?_of_first hne (endsRawText_iff.mpr htext) ?_
        intro k hk
        rw [Bool.eq_false_iff, ne_eq, endsRawText_iff]
        exact hfirst k hk
      exact Cursor.yields_token form offset (transition_rawText htop hseek) rfl rfl

/-- Raw text up to the end tag of its element, and the end tag as far as its name. -/
theorem yields_rawElement (hraw : name ∈ rawTextElements) (hname : nesting.innermost? = some name)
    (htext : HasEndTag name text)
    (hfirst : ∀ k < front.length, ¬HasEndTag name ((front ++ text).drop k)) :
    let bracket := offset + byteLength front
    ∃ kind behind, (kind = .tagName ∨ kind = .componentName) ∧
      Cursor.Yields form ⟨offset, ⟨.rawText, nesting⟩, front ++ text⟩
        ((if front = [] then [] else [⟨.rawText, offset, bracket⟩]) ++
          [⟨.endTagStart, bracket, bracket + 2⟩,
            ⟨kind, bracket + 2, bracket + 2 + name.utf8ByteSize⟩])
        ⟨bracket + 2 + name.utf8ByteSize, ⟨.endTagBody, nesting.leaving⟩, behind⟩ := by
  intro bracket
  have htop := (Nesting.innermost?_eq_some hname).2
  have hcontent := yields_rawText form offset htop htext hfirst
  obtain ⟨letters, rest, rfl, hletters, hrest⟩ := htext
  obtain ⟨kind, hkind, hend⟩ := yields_rawEndTagName form (bracket + 2) hraw hname hletters hrest
  have hseek : seek? (endsRawText name) ('<' :: '/' :: (letters ++ rest)) = some 0 := by
    rw [seek?, if_pos (endsRawText_iff.mpr ⟨letters, rest, rfl, hletters, hrest⟩)]
  have htransition : Context.transition ⟨.rawText, nesting⟩ '<' (['/'] ++ (letters ++ rest)) =
      ⟨.endTagStart, 1, .endTagName, .keep⟩ := transition_rawText htop hseek
  have hsign := Cursor.yields_token form bracket htransition rfl rfl
  exact ⟨kind, rest, hkind, hcontent.trans (hsign.trans hend)⟩

/-- Without an end tag raw text is all there is. -/
theorem tokens_rawText_of_none (htop : nesting.elements.top? = some name)
    (hnone : ∀ k < text.length, ¬HasEndTag name (text.drop k)) :
    ((Cursor.mk offset ⟨.rawText, nesting⟩ text).tape form).tokens =
      if text = [] then [] else [⟨.rawText, offset, offset + byteLength text⟩] := by
  cases text with
  | nil => rw [Cursor.tape_nil]; rfl
  | cons c cs =>
      have hseek : seek? (endsRawText name) (c :: cs) = none := by
        cases hseek : seek? (endsRawText name) (c :: cs) with
        | none => rfl
        | some before =>
            exact absurd (endsRawText_iff.mp (seek?_spec hseek)) (hnone before (seek?_lt hseek))
      have htransition : Context.transition ⟨.rawText, nesting⟩ c (cs ++ []) =
          ⟨.rawText, cs.length, .rawText, .keep⟩ := by
        rw [List.append_nil]
        simp only [Context.transition, Rule.rawText, htop, Option.bind_some, hseek]
      have hread := Cursor.yields_token form offset htransition rfl rfl
      rw [List.append_nil] at hread
      rw [hread.tokens_eq, Cursor.tape_nil]
      rfl

end Reading

section EndTagAt

variable {source : List Char} {stop offset bracket : Nat} {name : String} {text : List Char}

/-- What a cursor reads that stands in raw text. -/
theorem Cursor.rawText_ends {form : Form} {cursor : Cursor} (harrived : cursor.Arrived form)
    (hwithin : cursor.Within source stop) (hstate : cursor.context.state = .rawText) :
    ∃ name ∈ rawTextElements, cursor.context.nesting.elements.top? = some name ∧
      (∀ bracket,
        IsLeast {place | cursor.offset ≤ place ∧ EndTagAt source stop name place} bracket →
        ∃ kind there, (kind = .tagName ∨ kind = .componentName) ∧
          cursor.Yields form
            ((if cursor.offset < bracket then [⟨.rawText, cursor.offset, bracket⟩] else []) ++
              [⟨.endTagStart, bracket, bracket + 2⟩,
                ⟨kind, bracket + 2, bracket + 2 + name.utf8ByteSize⟩]) there ∧
          there.context = ⟨.endTagBody, cursor.context.nesting.leaving⟩) ∧
      ((¬∃ place ≥ cursor.offset, EndTagAt source stop name place) →
        (cursor.tape form).tokens =
          if cursor.offset < stop then [⟨.rawText, cursor.offset, stop⟩] else []) := by
  obtain ⟨name, hraw, hname⟩ := harrived.rawText hstate
  have htop := (Nesting.innermost?_eq_some hname).2
  obtain ⟨offset, ⟨state, nesting⟩, text⟩ := cursor
  obtain rfl : state = .rawText := hstate
  have hspans : Spans source text offset stop := hwithin
  -- Some text is left exactly where some bytes are left.
  have hlt : ∀ part : List Char, part = [] ↔ ¬ offset < offset + byteLength part := by
    intro part
    cases part with
    | nil => simp
    | cons c part =>
        have hpos := byteLength_pos c part
        simp only [reduceCtorEq, false_iff]
        omega
  refine ⟨name, hraw, htop, ?_, ?_⟩
  · intro bracket hleast
    obtain ⟨front, endTag, rfl, rfl, htag, hfirst⟩ := hspans.exists_front_of_isLeast hleast
    obtain ⟨kind, behind, hkind, hyields⟩ :=
      yields_rawElement form offset hraw hname htag hfirst
    simp only [hlt front, ite_not] at hyields
    exact ⟨kind, _, hkind, hyields, rfl⟩
  · intro hnone
    have htokens := tokens_rawText_of_none form offset htop
      fun k _ hhere => hnone ⟨_, Nat.le_add_right _ _, _, hspans.drop k, hhere⟩
    rw [hspans.stop_eq]
    simpa only [hlt text, ite_not] using htokens

end EndTagAt

end Markup

namespace MarkupGrammar

open Markup Text

/-- Wherever a lexer gets to that started with nothing open, it moves on as a cursor does that has
    arrived there, and unless its region is empty the cursor is in it. -/
theorem exists_arrived {lexer started : Lexer MarkupGrammar Snapshot Nesting} {source : String}
    {start stop : Nat} (hstarted : lexer.start source start stop 0 = .ok started) (n : Nat) :
    ∃ cursor : Cursor, cursor.Arrived lexer.reader.form ∧
      (cursor = ⟨start, contextOf lexer.reader.form 0, []⟩ ∨ cursor.Within source.toList stop) ∧
      ∀ m, (Session.advanceTimes (n + m) started).tape =
        ((Cursor.next lexer.reader.form)^[m] cursor).tape lexer.reader.form := by
  obtain ⟨text, htext, -, htape⟩ := exists_text_of_start hstarted
  refine ⟨_, (Cursor.Arrived.start _ start text).iterate n, ?_, ?_⟩
  · rcases htext with rfl | hspans
    · exact .inl (Function.iterate_fixed rfl n)
    · have hwithin : (Cursor.mk start (contextOf lexer.reader.form 0) text).Within
          source.toList stop := hspans
      exact .inr (hwithin.iterate n)
  · intro m
    rw [htape, Nat.add_comm, Function.iterate_add_apply]

/-- Raw text ends exactly at the first end tag of its element, which closes this element and no
    other. Without such an end tag it is all there is. -/
theorem raw_text_ends_at_its_end_tag (lexer started : Lexer MarkupGrammar Snapshot Nesting)
    (source : String) (start stop : Nat)
    (hstarted : lexer.start source start stop 0 = .ok started) (n : Nat) :
    let here := (Session.advanceTimes n started).tape
    here.place.state = State.rawText.code →
    ∃ name ∈ rawTextElements, here.place.live.elements.top? = some name ∧
      (∀ bracket,
        IsLeast {offset | here.place.offset ≤ offset ∧ EndTagAt source.toList stop name offset}
          bracket →
        let texts : List Token :=
          if here.place.offset < bracket then [⟨.rawText, here.place.offset, bracket⟩] else []
        let behind := (Session.advanceTimes (n + texts.length + 2) started).tape
        (∃ kind, (kind = .tagName ∨ kind = .componentName) ∧
          here.tokens = texts ++ ⟨.endTagStart, bracket, bracket + 2⟩ ::
            ⟨kind, bracket + 2, bracket + 2 + name.utf8ByteSize⟩ :: behind.tokens) ∧
        behind.place.state = State.endTagBody.code ∧
        behind.place.live.expressions = here.place.live.expressions ∧
        here.place.live.elements = behind.place.live.elements.push name) ∧
      ((¬∃ offset ≥ here.place.offset, EndTagAt source.toList stop name offset) →
        here.tokens =
          if here.place.offset < stop then [⟨.rawText, here.place.offset, stop⟩] else []) := by
  obtain ⟨cursor, harrived, hregion, htape⟩ := exists_arrived hstarted n
  have hhere : (Session.advanceTimes n started).tape = cursor.tape lexer.reader.form := htape 0
  simp only [hhere, Cursor.place_tape, placeAt]
  intro hcode
  have hstate : cursor.context.state = .rawText := State.code_injective hcode
  have hwithin : cursor.Within source.toList stop := by
    refine hregion.resolve_left ?_
    rintro rfl
    have hfirst : ∀ form, (contextOf form 0).state ≠ .rawText := by
      intro form
      cases form <;> decide
    exact hfirst _ hstate
  obtain ⟨name, hraw, htop, hends, hnone⟩ := Cursor.rawText_ends harrived hwithin hstate
  refine ⟨name, hraw, htop, ?_, hnone⟩
  intro bracket hleast
  obtain ⟨kind, there, hkind, hyields, hthere⟩ := hends bracket hleast
  have hbehind : (Session.advanceTimes
      (n + (if cursor.offset < bracket then [⟨.rawText, cursor.offset, bracket⟩] else []
        : List Token).length + 2) started).tape = there.tape lexer.reader.form := by
    rw [← hyields.arrives, List.length_append, ← htape, Nat.add_assoc]
    rfl
  rw [hbehind, Cursor.place_tape, hthere]
  refine ⟨⟨kind, hkind, ?_⟩, rfl, rfl, ?_⟩
  · rw [hyields.tokens_eq, List.append_assoc]
    rfl
  · obtain ⟨outer, houter⟩ := List.head?_eq_some_iff.mp htop
    apply Stack.ext_entries
    simp [placeAt, Nesting.leaving, houter]

/-- In an expression, behind an end tag of another element and one with a longer name. -/
theorem raw_text_ends_at_capital_end_tag :
    IsLeast {offset | 13 ≤ offset ∧
      EndTagAt "<p a=\x7b<style>a</b</styles></STYLE x>".toList 36 "style" offset} 26 ∧
    ∃ started, (Lexer.idle ⟨.document⟩ : Lexer MarkupGrammar Snapshot Nesting).start
        "<p a=\x7b<style>a</b</styles></STYLE x>" 0 36 0 = .ok started ∧
      (Session.advanceTimes 9 started).tape.place.state = State.rawText.code ∧
      ∃ kind, (Session.advanceTimes 9 started).tape.tokens =
        ⟨.rawText, 13, 26⟩ :: ⟨.endTagStart, 26, 28⟩ :: ⟨kind, 28, 33⟩ ::
          (Session.advanceTimes 12 started).tape.tokens := by
  let lexer : Lexer MarkupGrammar Snapshot Nesting := Lexer.idle ⟨.document⟩
  let source := "<p a=\x7b<style>a</b</styles></STYLE x>"
  have hleast : IsLeast {offset | 13 ≤ offset ∧ EndTagAt source.toList 36 "style" offset} 26 := by
    have hbefore : ∀ offset < 26, 13 ≤ offset → ¬EndTagAt source.toList 36 "style" offset := by
      decide +kernel
    refine ⟨⟨by decide, by decide +kernel⟩, ?_⟩
    rintro offset ⟨hle, htag⟩
    by_contra hlt
    exact hbefore offset (Nat.lt_of_not_le hlt) hle htag
  have hplace : (lexer.start source 0 36 0).toOption.map (fun started =>
      ((Session.advanceTimes 9 started).tape.place.state,
        (Session.advanceTimes 9 started).tape.place.offset,
        (Session.advanceTimes 9 started).tape.place.live.elements.top?)) =
      some (State.rawText.code, 13, some "style") := by
    decide +kernel
  cases hstarted : lexer.start source 0 36 0 with
  | error error =>
      rw [hstarted] at hplace
      cases hplace
  | ok started =>
      rw [hstarted] at hplace
      simp only [Except.toOption, Option.map_some, Option.some.injEq, Prod.mk.injEq] at hplace
      obtain ⟨hstate, hoffset, htop⟩ := hplace
      obtain ⟨name, -, hname, hends, -⟩ :=
        raw_text_ends_at_its_end_tag lexer started source 0 36 hstarted 9 hstate
      obtain rfl : "style" = name := Option.some.inj (htop.symm.trans hname)
      rw [hoffset] at hends
      obtain ⟨⟨kind, -, htokens⟩, -⟩ := hends 26 hleast
      exact ⟨hleast, started, rfl, hstate, kind, htokens⟩

end MarkupGrammar

end Relex
