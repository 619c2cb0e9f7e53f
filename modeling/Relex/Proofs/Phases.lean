import Relex.Proofs.Arrival
import Relex.Proofs.EntryPoint

/-! # Phases of tags

As far as tags go, a stream of tokens is in one of three phases: outside names and quotes, in front of
the name of a tag, or between the quotes of a value. `Phase.Step` says which kinds a phase reads and which
phase is behind them. The state of the markup tells the phase (`State.phase`), and every token of an arrived
cursor is such a step (`Cursor.Arrived.passes`), because a sign opens a tag only in front of its name.
Joining and expanding tokens keep the phases: what is joined never ends a phase, and the script of the
frontmatter is outside all tags. So the order of the signs, names and quotes of a document can be read off
its phases (`Leads.tagsOrdered`).
-/

namespace Relex

open Text

/-- The signs that open a tag. -/
def Kind.opensTag : Kind → Bool
  | .tagStart | .endTagStart => true
  | _ => false

namespace Markup

/-- The kinds of tokens outside names and quotes that stay outside. -/
def isPlain (kind : Kind) : Bool :=
  !(kind.opensTag || isName kind || kind == .attributeValueStartDelimiter ||
    kind == .attributeValueEndDelimiter)

/-- What the tokens so far leave open. -/
inductive Phase where
  | outside
  /-- Behind the sign that opens a tag. -/
  | tagName
  /-- Between the quotes of a value. -/
  | value (quote : Char)

/-- What a token of a kind does in a phase. It stands for the signs of which `Quotes` holds. -/
inductive Phase.Step (Quotes : Char → Prop) : Phase → Kind → Phase → Prop
  | plain {kind : Kind} (hkind : isPlain kind = true) : Step Quotes .outside kind .outside
  | sign {kind : Kind} (hkind : kind.opensTag = true) : Step Quotes .outside kind .tagName
  | name {kind : Kind} (hkind : isName kind = true ∨ kind = .tagEnd) :
      Step Quotes .tagName kind .outside
  | openQuote {quote : Char} (hquote : Quotes quote) :
      Step Quotes .outside .attributeValueStartDelimiter (.value quote)
  | piece {quote : Char} {kind : Kind} (hkind : kind.isValuePiece = true) :
      Step Quotes (.value quote) kind (.value quote)
  | closeQuote {quote : Char} (hquote : Quotes quote) :
      Step Quotes (.value quote) .attributeValueEndDelimiter .outside

theorem Phase.Step.mono {Quotes Quotes' : Char → Prop} {phase next : Phase} {kind : Kind}
    (h : phase.Step Quotes kind next) (hquotes : ∀ quote, Quotes quote → Quotes' quote) :
    phase.Step Quotes' kind next := by
  cases h with
  | plain hkind => exact .plain hkind
  | sign hkind => exact .sign hkind
  | name hkind => exact .name hkind
  | openQuote hquote => exact .openQuote (hquotes _ hquote)
  | piece hkind => exact .piece hkind
  | closeQuote hquote => exact .closeQuote (hquotes _ hquote)

/-- The phase in which a state reads. -/
def State.phase : State → Phase
  | .startTagName | .endTagName => .tagName
  | .doubleQuotedValue => .value '\x22'
  | .singleQuotedValue => .value '\x27'
  | _ => .outside

theorem isTagName_code_iff (state : State) :
    isTagName state.code = true ↔ state.phase = .tagName := by
  cases state with
  | unlisted code beyond =>
      refine iff_of_false ?_ Phase.noConfusion
      simp only [isTagName, State.code, Bool.or_eq_true, beq_iff_eq]
      rintro (rfl | rfl)
      · exact absurd beyond (by decide)
      · exact absurd beyond (by decide)
  | _ => simp [isTagName, State.code, State.phase]

/-! ## The rules -/

/-- The transition is a step of the phases, when the token begins with `c`. -/
def Transition.Steps (transition : Transition) (phase : Phase) (c : Char) : Prop :=
  phase.Step (fun quote => c = quote ∧ transition.more = 0) transition.kind transition.next.phase

namespace Rule

variable (nesting : Nesting) (c : Char) (cs : List Char)

theorem content_steps : (content nesting c cs).Steps .outside c := by
  rw [content]
  repeat' split
  all_goals first | exact .plain rfl | exact .sign rfl

theorem initial_steps : (initial nesting c cs).Steps .outside c := by
  rw [initial]
  split
  · exact .plain rfl
  split
  · exact .plain rfl
  · exact content_steps nesting c cs

theorem frontmatterClose_steps : (frontmatterClose nesting c cs).Steps .outside c := by
  rw [frontmatterClose]
  split
  · exact .plain rfl
  · exact content_steps nesting c cs

theorem startTagEnd_steps : (startTagEnd nesting).Steps .outside c := by
  rw [startTagEnd]
  repeat' split
  all_goals exact .plain rfl

theorem attributes_steps : (attributes nesting c cs).Steps .outside c := by
  rw [attributes]
  split
  · exact .plain rfl
  split
  · exact startTagEnd_steps nesting c
  repeat' split
  all_goals exact .plain rfl

theorem valueStart_steps : (valueStart nesting c cs).Steps .outside c := by
  rw [valueStart]
  split
  · exact .plain rfl
  split
  · rename_i hquote
    exact .openQuote ⟨hquote, rfl⟩
  split
  · rename_i hquote
    exact .openQuote ⟨hquote, rfl⟩
  split
  · exact .plain rfl
  split
  · exact attributes_steps nesting c cs
  · exact .plain rfl

theorem quotedValue_steps {quote : Char} {state : State} (hphase : state.phase = .value quote) :
    (quotedValue c cs quote state).Steps state.phase c := by
  have hpiece : ∀ kind more, kind.isValuePiece = true →
      Transition.Steps ⟨kind, more, state, .keep⟩ state.phase c := by
    intro kind more hkind
    rw [Transition.Steps, hphase]
    exact .piece hkind
  rw [quotedValue]
  split
  · rename_i hquote
    rw [hphase]
    exact .closeQuote ⟨hquote, rfl⟩
  repeat' split
  all_goals exact hpiece _ _ rfl

theorem endTagBody_steps : (endTagBody c cs).Steps .outside c := by
  rw [endTagBody]
  repeat' split
  all_goals exact .plain rfl

/-- In front of a name the last rule, which reads attributes, is never used. -/
theorem startTagName_steps (hname : opensName (c :: cs) = true) :
    (startTagName nesting c cs).Steps .tagName c := by
  rw [startTagName]
  split
  · exact .name (.inr rfl)
  split
  · exact .name (.inl (tagNameKind_isName _))
  · rename_i hangle hletter
    have halpha : c.isAlpha = true := by simpa [opensName, headIs, hangle] using hname
    exact absurd (inTagName_of_isAlpha halpha) hletter

theorem endTagName_steps (hname : opensName (c :: cs) = true) :
    (endTagName c cs).Steps .tagName c := by
  rw [endTagName]
  split
  · exact .name (.inr rfl)
  split
  · exact .name (.inl (tagNameKind_isName _))
  · rename_i hangle hletter
    have halpha : c.isAlpha = true := by simpa [opensName, headIs, hangle] using hname
    exact absurd (inTagName_of_isAlpha halpha) hletter

theorem comment_steps : (comment c cs).Steps .outside c := by
  rw [comment]
  repeat' split
  all_goals exact .plain rfl

theorem rawText_steps : (rawText nesting c cs).Steps .outside c := by
  rw [rawText]
  split
  · exact .sign rfl
  · exact .plain rfl
  · exact .plain rfl

theorem expression_steps
    (hbehind : ∀ brace ∈ nesting.expressions.top?, brace.stateBehind.phase = .outside) :
    (expression nesting c cs).Steps .outside c := by
  rw [expression]
  split
  · exact .plain rfl
  split
  · split
    · exact .plain rfl
    · rename_i brace htop
      split
      · exact .plain rfl
      · rw [Transition.Steps, hbehind brace htop]
        exact .plain rfl
  split
  · exact .sign rfl
  split
  · exact .sign rfl
  · exact .plain rfl

end Rule

theorem Cursor.Arrived.steps {form : Form} {offset : Nat} {context : Context} {c : Char}
    {cs : List Char} (h : (Cursor.mk offset context (c :: cs)).Arrived form) :
    (context.transition c cs).Steps context.state.phase c := by
  obtain ⟨state, nesting⟩ := context
  cases state with
  | initial => exact Rule.initial_steps nesting c cs
  | content => exact Rule.content_steps nesting c cs
  | startTagName => exact Rule.startTagName_steps nesting c cs h.expected
  | endTagName => exact Rule.endTagName_steps c cs (h.endTagName rfl)
  | attributes => exact Rule.attributes_steps nesting c cs
  | valueStart => exact Rule.valueStart_steps nesting c cs
  | doubleQuotedValue => exact Rule.quotedValue_steps c cs rfl
  | singleQuotedValue => exact Rule.quotedValue_steps c cs rfl
  | endTagBody => exact Rule.endTagBody_steps c cs
  | comment => exact Rule.comment_steps c cs
  | rawText => exact Rule.rawText_steps nesting c cs
  | expression =>
      refine Rule.expression_steps nesting c cs ?_
      intro brace htop
      rcases h.stateBehind_cases htop with hbehind | hbehind | hbehind
      · rw [hbehind]
        rfl
      · rw [hbehind]
        rfl
      · rw [hbehind]
        rfl
  | frontmatter => exact .plain rfl
  | frontmatterClose => exact Rule.frontmatterClose_steps nesting c cs
  | unlisted code beyond => exact h.expected.elim

/-- What is read outside all tags is outside names and quotes. -/
theorem Context.phase_after (form : Form) (context : Context) (transition : Transition) :
    (context.after form transition).state.phase = transition.next.phase := by
  simp only [Context.after]
  split
  · rename_i hnext
    rw [hnext]
    rcases (context.nesting.apply transition.change).ambientState_cases form with hambient | hambient
    · exact congrArg State.phase hambient
    · exact (congrArg State.phase hambient).trans rfl
  · rfl

theorem phase_contextOf (form : Form) : (contextOf form 0).state.phase = .outside := by
  cases form with
  | document => rfl
  | fragment => rfl

/-! ## Streams -/

section Streams

variable {π ι : Type} {text : List Char} {phase next last : Phase} {r s : Reading π ι}
  {rs before after : List (Reading π ι)}

/-- A token of a text moves a stream on from one phase to the next. The state word says when the name
    of a tag is due. -/
structure Phase.Passes (text : List Char) (phase : Phase) (r : Reading π ι) (next : Phase) : Prop where
  step : phase.Step (fun quote => Spans text [quote] r.place.offset r.stop) r.kind next
  state : isTagName r.place.state = true ↔ phase = .tagName

theorem Phase.Passes.congr {π' ι' : Type} {s : Reading π' ι'} (h : phase.Passes text r next)
    (htoken : s.token = r.token) (hstate : s.place.state = r.place.state) :
    phase.Passes text s next := by
  obtain ⟨hkind, hstart, hstop⟩ := Token.mk.inj htoken
  refine ⟨?_, hstate ▸ h.state⟩
  rw [hkind, hstart, hstop]
  exact h.step

/-- The tokens of a text move a stream on from a phase to the last one. -/
inductive Leads (text : List Char) : Phase → List (Reading π ι) → Phase → Prop
  | nil {phase : Phase} : Leads text phase [] phase
  | cons {phase next last : Phase} {r : Reading π ι} {rs : List (Reading π ι)}
      (hfirst : phase.Passes text r next) (hlater : Leads text next rs last) :
      Leads text phase (r :: rs) last

theorem Leads.append (h : Leads text phase before next) (hafter : Leads text next after last) :
    Leads text phase (before ++ after) last := by
  induction h with
  | nil => exact hafter
  | cons hfirst _ ih => exact .cons hfirst (ih hafter)

theorem Leads.exists_append (h : Leads text phase (before ++ after) last) :
    ∃ next, Leads text phase before next ∧ Leads text next after last := by
  induction before generalizing phase with
  | nil => exact ⟨phase, .nil, h⟩
  | cons r before ih =>
      cases h with
      | cons hfirst hlater =>
          obtain ⟨next, hbefore, hafter⟩ := ih hlater
          exact ⟨next, .cons hfirst hbefore, hafter⟩

/-- How the signs that open tags, the names behind them and the quotes of values stand in a stream. -/
structure TagsOrdered (text : List Char) (rs : List (Reading π ι)) : Prop where
  sign : ∀ before r after, rs = before ++ r :: after → r.kind.opensTag = true →
    ∃ s ∈ after.head?, isName s.kind = true ∨ s.kind = .tagEnd
  name : ∀ before r after, rs = before ++ r :: after → isName r.kind = true →
    ∃ s ∈ before.getLast?, s.kind.opensTag = true
  state : ∀ before r after, rs = before ++ r :: after →
    (isTagName r.place.state = true ↔ ∃ s ∈ before.getLast?, s.kind.opensTag = true)
  startQuote : ∀ before r after, rs = before ++ r :: after → r.kind = .attributeValueStartDelimiter →
    ∃ quote pieces rest, Spans text [quote] r.place.offset r.stop ∧ after = pieces ++ rest ∧
      (∀ s ∈ pieces, s.kind.isValuePiece = true) ∧
      ∀ s ∈ rest.head?, s.kind = .attributeValueEndDelimiter ∧
        Spans text [quote] s.place.offset s.stop
  endQuote : ∀ before r after, rs = before ++ r :: after → r.kind = .attributeValueEndDelimiter →
    ∃ front s pieces, before = front ++ s :: pieces ∧ s.kind = .attributeValueStartDelimiter ∧
      ∀ piece ∈ pieces, piece.kind.isValuePiece = true

/-! ### What the phases say about the order -/

theorem Phase.Step.next_eq_tagName_iff {Quotes : Char → Prop} {kind : Kind}
    (h : phase.Step Quotes kind next) : next = .tagName ↔ kind.opensTag = true := by
  cases h with
  | plain hkind => cases kind <;> simp_all [isPlain, Kind.opensTag]
  | sign hkind => simp [hkind]
  | name hkind => cases kind <;> simp_all [isName, Kind.opensTag]
  | openQuote hquote => simp [Kind.opensTag]
  | piece hkind => cases kind <;> simp_all [Kind.isValuePiece, Kind.opensTag]
  | closeQuote hquote => simp [Kind.opensTag]

theorem Phase.Step.eq_tagName {Quotes : Char → Prop} {kind : Kind} (h : phase.Step Quotes kind next)
    (hname : isName kind = true) : phase = .tagName := by
  cases h with
  | plain hkind => simp [isPlain, hname] at hkind
  | sign hkind => cases kind <;> simp_all [isName, Kind.opensTag]
  | name hkind => rfl
  | openQuote hquote => cases hname
  | piece hkind => cases kind <;> simp_all [isName, Kind.isValuePiece]
  | closeQuote hquote => cases hname

/-- The name of a tag is due behind the sign that opens it, and nowhere else. -/
theorem Leads.eq_tagName_iff (h : Leads text .outside before next) :
    next = .tagName ↔ ∃ s ∈ before.getLast?, s.kind.opensTag = true := by
  rcases List.eq_nil_or_concat before with rfl | ⟨front, s, rfl⟩
  · cases h
    simp
  · rw [List.concat_eq_append] at h ⊢
    obtain ⟨middle, -, hlast⟩ := h.exists_append
    cases hlast with
    | cons hfirst hnil =>
        cases hnil
        rw [hfirst.step.next_eq_tagName_iff]
        simp

/-- Behind a quote comes a value, up to the same quote. -/
theorem Leads.exists_value {quote : Char} (h : Leads text (.value quote) rs last) :
    ∃ pieces rest, rs = pieces ++ rest ∧ (∀ s ∈ pieces, s.kind.isValuePiece = true) ∧
      ∀ s ∈ rest.head?, s.kind = .attributeValueEndDelimiter ∧
        Spans text [quote] s.place.offset s.stop := by
  induction rs with
  | nil => exact ⟨[], [], rfl, by simp, by simp⟩
  | cons r rs ih =>
      cases h with
      | cons hfirst hlater =>
          have hstep := hfirst.step
          generalize hkind : r.kind = kind at hstep
          cases hstep with
          | piece hpiece =>
              obtain ⟨pieces, rest, rfl, hpieces, hrest⟩ := ih hlater
              exact ⟨r :: pieces, rest, rfl, List.forall_mem_cons.mpr ⟨hkind ▸ hpiece, hpieces⟩, hrest⟩
          | closeQuote hquote =>
              refine ⟨[], r :: rs, rfl, by simp, ?_⟩
              intro s hs
              obtain rfl : r = s := Option.some.inj hs
              exact ⟨hkind, hquote⟩

/-- Inside a value the last quote is the one that opened it. -/
theorem Leads.exists_startQuote {quote : Char} (h : Leads text .outside before (.value quote)) :
    ∃ front s pieces, before = front ++ s :: pieces ∧ s.kind = .attributeValueStartDelimiter ∧
      ∀ piece ∈ pieces, piece.kind.isValuePiece = true := by
  induction before using List.reverseRecOn with
  | nil => cases h
  | append_singleton before r ih =>
      obtain ⟨middle, hbefore, hlast⟩ := h.exists_append
      cases hlast with
      | cons hfirst hnil =>
          cases hnil
          have hstep := hfirst.step
          generalize hkind : r.kind = kind at hstep
          cases hstep with
          | openQuote hquote => exact ⟨before, r, [], rfl, hkind, by simp⟩
          | piece hpiece =>
              obtain ⟨front, s, pieces, rfl, hs, hpieces⟩ := ih hbefore
              refine ⟨front, s, pieces ++ [r], by simp, hs, ?_⟩
              exact List.forall_mem_append.mpr ⟨hpieces, List.forall_mem_singleton.mpr (hkind ▸ hpiece)⟩

theorem Leads.tagsOrdered (h : Leads text .outside rs last) (hlast : last ≠ .tagName) :
    TagsOrdered text rs := by
  -- The phases in front of a token and behind it.
  have hat : ∀ before r after, rs = before ++ r :: after → ∃ here next,
      Leads text .outside before here ∧ here.Passes text r next ∧ Leads text next after last := by
    rintro before r after rfl
    obtain ⟨here, hbefore, hrest⟩ := h.exists_append
    cases hrest with
    | cons hfirst hafter => exact ⟨here, _, hbefore, hfirst, hafter⟩
  constructor
  · intro before r after hrs hsign
    obtain ⟨here, next, -, hpasses, hafter⟩ := hat before r after hrs
    obtain rfl := hpasses.step.next_eq_tagName_iff.mpr hsign
    cases hafter with
    | nil => exact absurd rfl hlast
    | @cons _ _ _ s _ hfirst _ =>
        have hstep := hfirst.step
        generalize hkind : s.kind = kind at hstep
        cases hstep with
        | name hname => exact ⟨s, rfl, hkind ▸ hname⟩
  · intro before r after hrs hname
    obtain ⟨here, next, hbefore, hpasses, -⟩ := hat before r after hrs
    exact hbefore.eq_tagName_iff.mp (hpasses.step.eq_tagName hname)
  · intro before r after hrs
    obtain ⟨here, next, hbefore, hpasses, -⟩ := hat before r after hrs
    rw [hpasses.state, hbefore.eq_tagName_iff]
  · intro before r after hrs hkind
    obtain ⟨here, next, -, hpasses, hafter⟩ := hat before r after hrs
    have hstep := hpasses.step
    rw [hkind] at hstep
    cases hstep with
    | openQuote hquote =>
        obtain ⟨pieces, rest, hvalue⟩ := hafter.exists_value
        exact ⟨_, pieces, rest, hquote, hvalue⟩
    | plain hplain => cases hplain
    | sign hsign => cases hsign
    | name hname => simp [isName] at hname
    | piece hpiece => cases hpiece
  · intro before r after hrs hkind
    obtain ⟨here, next, hbefore, hpasses, -⟩ := hat before r after hrs
    have hstep := hpasses.step
    rw [hkind] at hstep
    cases hstep with
    | closeQuote hquote => exact hbefore.exists_startQuote
    | plain hplain => cases hplain
    | sign hsign => cases hsign
    | name hname => simp [isName] at hname
    | piece hpiece => cases hpiece

end Streams

/-- Reading goes through the phases of the states. It ends in front of no name. -/
theorem Cursor.Arrived.leads {form : Form} {text rest : List Char} {offset stop : Nat}
    {context : Context} (h : (Cursor.mk offset context rest).Arrived form)
    (hwithin : (Cursor.mk offset context rest).Within text stop) :
    ∃ last, Leads text context.state.phase (tapeOf form offset context rest).readings last ∧
      last ≠ .tagName := by
  fun_induction tapeOf form offset context rest with
  | case1 offset context =>
      refine ⟨_, .nil, ?_⟩
      obtain ⟨state, nesting⟩ := context
      cases state with
      | startTagName => exact (Bool.false_ne_true h.expected).elim
      | endTagName => exact (Bool.false_ne_true (h.endTagName rfl)).elim
      | _ => exact Phase.noConfusion
  | case2 offset context c cs transition behind ih =>
      obtain ⟨last, hlater, hlast⟩ := ih h.next hwithin.next
      rw [Context.phase_after] at hlater
      refine ⟨last, .cons ⟨?_, isTagName_code_iff context.state⟩ hlater, hlast⟩
      refine h.steps.mono ?_
      rintro quote ⟨rfl, hmore⟩
      have hfront : Spans text ([c] ++ cs) offset stop := hwithin
      have hbehind : behind = offset + byteLength [c] := by simp only [behind, transition, hmore]; rfl
      rw [hbehind]
      exact hfront.of_append_left

/-! ## Joined tokens -/

section Joined

variable {π ι : Type} {text : List Char} {grouping : Grouping} {phase next last : Phase} {kind : Kind}
  {Quotes : Char → Prop} {start : Nat} {final : Place π ι} {r : Reading π ι}
  {rs shown : List (Reading π ι)} {parts : List (List (Reading π ι))}

/-- What joins a token does not end a phase. -/
theorem Phase.Step.next_eq_of_joins {other : Kind} (h : phase.Step Quotes kind next)
    (hjoins : grouping.joins kind other = true) : next = phase := by
  have hcases : kind.joinsNeighbours = true ∨ kind.isValuePiece = true := by
    rcases Grouping.joins_iff.mp hjoins with ⟨-, hneighbours⟩ | ⟨-, hpiece, -⟩
    · exact .inl hneighbours
    · exact .inr hpiece
  cases h with
  | plain hkind => rfl
  | piece hkind => rfl
  | sign hkind => cases kind <;> simp_all [Kind.opensTag, Kind.joinsNeighbours, Kind.isValuePiece]
  | name hkind => cases kind <;> simp_all [isName, Kind.joinsNeighbours, Kind.isValuePiece]
  | openQuote hquote => simp [Kind.joinsNeighbours, Kind.isValuePiece] at hcases
  | closeQuote hquote => simp [Kind.joinsNeighbours, Kind.isValuePiece] at hcases

/-- A token that stays in a phase stands for no quote, and value text could take its place. -/
theorem Phase.Step.kindOf {Quotes' : Char → Prop} (h : phase.Step Quotes kind phase)
    (rs : List (Reading π ι)) : phase.Step Quotes' (Group.kindOf kind rs) phase := by
  rw [Group.kindOf]
  cases h with
  | plain hkind =>
      split
      · exact .plain rfl
      · exact .plain hkind
  | piece hkind =>
      split
      · exact .piece rfl
      · exact .piece hkind

theorem Leads.of_joined (h : Leads text phase rs last)
    (hjoins : ∀ s ∈ rs, ∃ other, grouping.joins s.kind other = true) : last = phase := by
  induction h with
  | nil => rfl
  | cons hfirst hlater ih =>
      obtain ⟨⟨other, hother⟩, hrest⟩ := List.forall_mem_cons.mp hjoins
      exact (ih hrest).trans (hfirst.step.next_eq_of_joins hother)

/-- A stream whose parts are joined goes through the same phases. -/
theorem Leads.displayed (h : Leads text phase parts.flatten last)
    (hcovers : Covers text final.offset start (parts.flatten.map Reading.token))
    (hjoined : ∀ part ∈ parts, part.IsChain fun s t => grouping.joins s.kind t.kind = true)
    (hdisplays : Group.Displays final parts shown) : Leads text phase shown last := by
  induction hdisplays generalizing phase start with
  | nil => exact h
  | @cons first s more later parts hkind hoffset hstate hstop _ ih =>
      obtain ⟨hpart, hparts⟩ := List.forall_mem_cons.mp hjoined
      have hpairs := Group.pairwise_of_isChain hpart
      obtain ⟨next, hmembers, hlater⟩ := h.exists_append
      rw [Group.kindOf_cons_self] at hkind
      cases hmembers with
      | cons hfirst hmore =>
          rw [List.flatten_cons, List.map_append, List.map_cons, List.cons_append] at hcovers
          obtain ⟨middle, -, -, hbehind⟩ := hcovers.behind
          refine .cons ?_ (ih hlater hbehind hparts)
          cases more with
          | nil =>
              cases hmore
              cases hcovers with
              | cons _ _ _ _ hrest =>
                  let rest : Tape π ι := ⟨parts.flatten, final⟩
                  have hrest : Covers text rest.final.offset first.stop rest.tokens := hrest
                  refine hfirst.congr ?_ hstate
                  simp only [Reading.token, hkind, hoffset, hstop]
                  rw [hrest.place_offset]
                  rfl
          | cons t more =>
              have hfirstJoins := (List.pairwise_cons.mp hpairs).1 t List.mem_cons_self
              obtain rfl := hfirst.step.next_eq_of_joins hfirstJoins
              have hmoreJoins : ∀ s ∈ t :: more, ∃ other, grouping.joins s.kind other = true :=
                fun s hs => ⟨_, Grouping.joins_symm ((List.pairwise_cons.mp hpairs).1 s hs)⟩
              obtain rfl := hmore.of_joined hmoreJoins
              refine ⟨?_, hstate ▸ hfirst.state⟩
              rw [hkind]
              exact hfirst.step.kindOf _

theorem Leads.group {tape : Tape π ι} (h : Leads text phase tape.readings last)
    (hcovers : Covers text tape.final.offset start tape.tokens) (grouping : Grouping) :
    Leads text phase (tape.group grouping).readings last := by
  have hapart := (Tape.ascending_of_covers hcovers).apart
  obtain ⟨parts, hruns, hdisplays⟩ : ∃ parts, Group.Runs grouping tape.readings parts ∧
      Group.Displays tape.final parts (tape.group grouping).readings :=
    ⟨_, Group.runs_of_apart grouping hapart, Group.displays_of_apart grouping tape.final hapart⟩
  rw [← hruns.flatten] at h
  rw [Tape.tokens, ← hruns.flatten] at hcovers
  exact h.displayed hcovers hruns.joined hdisplays

end Joined

end Markup

open Markup

/-! ## Documents -/

namespace Document

variable {source : String}

/-- A lexer of script reads lexemes only. -/
theorem kind_of_script {start stop : Nat} {script : Lexer ScriptGrammar Nat Unit}
    (h : (Lexer.idle ScriptGrammar.mk).start source start stop 0 = .ok script) :
    ∀ token ∈ script.tape.tokens, ∃ kind, token.kind = .script kind := by
  rw [script_start_eq] at h
  obtain ⟨tape, htape, rfl⟩ := Except.map_eq_ok_iff.mp h
  intro token htoken
  obtain ⟨lexeme, hlexeme, rfl⟩ := List.mem_map.mp htoken
  by_cases hlt : start < stop
  · exact (Script.tape_of_lt hlt htape).2 lexeme hlexeme
  · rw [Script.tape, if_neg hlt] at htape
    cases htape
    cases hlexeme

theorem leads_of_script {text : List Char} {part : List (Reading Snapshot Live)}
    (hkinds : ∀ s ∈ part, ∃ kind, s.kind = .script kind)
    (hstates : ∀ s ∈ part, s.place.state = State.frontmatter.code ||| substateFlag) :
    Leads text .outside part .outside := by
  induction part with
  | nil => exact .nil
  | cons s part ih =>
      obtain ⟨⟨kind, hkind⟩, hkinds⟩ := List.forall_mem_cons.mp hkinds
      obtain ⟨hstate, hstates⟩ := List.forall_mem_cons.mp hstates
      refine .cons ⟨?_, ?_⟩ (ih hkinds hstates)
      · rw [hkind]
        exact .plain rfl
      · rw [hstate]
        exact iff_of_false (by decide) Phase.noConfusion

/-- The script of the frontmatter is outside all tags, and so is every lexeme of it. -/
theorem Expansion.leads {phase last : Phase} {rs : List (Reading Snapshot Nesting)}
    {document : List (Reading Snapshot Live)} (hexpansion : Expansion source rs document)
    (h : Leads source.toList phase rs last) : Leads source.toList phase document last := by
  induction hexpansion generalizing phase with
  | nil =>
      cases h
      exact .nil
  | keep hkind htoken hstate hsnapshot _ ih =>
      cases h with
      | cons hfirst hlater => exact .cons (hfirst.congr htoken hstate) (ih hlater)
  | script hkind hscript hne htokens hstate hsnapshot _ ih =>
      cases h with
      | cons hfirst hlater =>
          have hstep := hfirst.step
          rw [hkind] at hstep
          cases hstep with
          | plain hplain =>
              refine (leads_of_script ?_ hstate).append (ih hlater)
              intro s hs
              exact kind_of_script hscript s.token (htokens ▸ List.mem_map_of_mem hs)
          | sign hsign => cases hsign
          | name hname => simp [isName] at hname
          | piece hpiece => cases hpiece

end Document

theorem Markup.covers_whole (source : String) (form : Form) (context : Context) :
    let tape := tapeOf form 0 context source.toList
    Covers source.toList tape.final.offset 0 tape.tokens := by
  let cursor : Cursor := ⟨0, context, source.toList⟩
  have hwithin : cursor.Within source.toList source.utf8ByteSize := spans_whole source
  exact Cursor.covers_tape form hwithin

namespace DocumentGrammar

open Document

/-- A region that is read from its beginning is read by a cursor that has arrived there. -/
theorem exists_started (lexer : Lexer DocumentGrammar Snapshot Live) {source : String}
    {text : List Char} {start stop : Nat} (htext : Spans source.toList text start stop) :
    ∃ started, lexer.start source start stop 0 = .ok started ∧
      ofMarkup source ((tapeOf lexer.reader.form start (contextOf lexer.reader.form 0) text).group
        lexer.reader.grouping) = .ok started.tape := by
  let cursor : Cursor := ⟨start, contextOf lexer.reader.form 0, text⟩
  have hwithin : cursor.Within source.toList stop := htext
  obtain ⟨document, hdocument⟩ :=
    Markup.exists_ofMarkup (Cursor.tape_eq hwithin) lexer.reader.grouping
  have hread : Reader.start lexer.reader source start stop 0 = .ok document :=
    (lexer.reader.start_eq_resume source start stop 0).trans
      ((lexer.reader.resume_eq hwithin).trans hdocument)
  obtain ⟨started, hstarted, rfl, -⟩ := Lexer.start_of_read hread
  exact ⟨started, hstarted, hdocument⟩

/-- The signs that open tags, the names behind them and the quotes of values stand in order, in whatever
    way the tokens are grouped. -/
theorem tags_in_order (lexer : Lexer DocumentGrammar Snapshot Live) (source : String)
    (start stop : Nat) (hstart : Boundary source.toList start)
    (hstop : Boundary source.toList stop) (hle : start ≤ stop) :
    ∃ started, lexer.start source start stop 0 = .ok started ∧
      TagsOrdered source.toList started.tape.readings := by
  obtain ⟨text, htext⟩ := spans_between hstart hstop hle
  obtain ⟨started, hstarted, hdocument⟩ := exists_started lexer htext
  refine ⟨started, hstarted, ?_⟩
  let form := lexer.reader.form
  let context := contextOf form 0
  let cursor : Cursor := ⟨start, context, text⟩
  have hwithin : cursor.Within source.toList stop := htext
  have hcovers := Cursor.covers_tape form hwithin
  have hordered := Tape.ascending_of_covers hcovers
  have hlisted : context.Listed := contextOf_accepted_listed form 0
  -- The phases of the tokens, of their groups, and of the document for the groups.
  obtain ⟨last, hmarkup, hlast⟩ := (Cursor.Arrived.start form start text).leads hwithin
  rw [phase_contextOf] at hmarkup
  have hgrouped := Leads.group hmarkup hcovers lexer.reader.grouping
  have hexpansion := expansion_of_ofMarkup
    ((tapeOf_restartable form start hlisted text).group hordered lexer.reader.grouping)
    (fun r hr => hordered.offset_lt_stop hr) hdocument
  exact (hexpansion.leads hgrouped).tagsOrdered hlast

/-- With an end tag of raw text, and a value in a tag in the value of another tag. -/
theorem tags_in_order_in_nested_value :
    let source := "é<style>a</STYLE><p b=\x7b<i c='d&amp;e"
    Boundary source.toList 2 ∧ Boundary source.toList 37 ∧ 2 ≤ 37 ∧
    ∃ started, (Lexer.idle ⟨.values, .document⟩ : Lexer DocumentGrammar Snapshot Live).start
        source 2 37 0 = .ok started ∧
      TagsOrdered source.toList started.tape.readings := by
  intro source
  have hstart : Boundary source.toList 2 := by decide
  have hstop : Boundary source.toList 37 := by decide
  exact ⟨hstart, hstop, by decide,
    tags_in_order (Lexer.idle ⟨.values, .document⟩) source 2 37 hstart hstop (by decide)⟩

end DocumentGrammar

end Relex
