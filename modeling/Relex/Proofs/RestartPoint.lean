import Relex.Proofs.Coherence
import Relex.Proofs.Kinds
import Relex.Proofs.Order

/-! # Restart points

Markup can be taken up again at every place of a tape, whatever state word the tape was started at.
A context is `Listed` when its state and all states that its braces remember are listed ones. A
property of states that no move loses (`State.Lasting`) holds throughout a context for good, and being
listed is such a property (`Context.Listed.after`). A place with a listed context shows a state word
from which reading can be restarted. Grouping keeps both, since a group shows what its first member
shows (`Tape.mem_readings_group`).
-/

namespace Relex

namespace Markup

open Text

/-! ## Listed contexts -/

/-- The state has a word of its own. -/
def State.Listed (state : State) : Prop :=
  state.code < 14

instance (state : State) : Decidable state.Listed :=
  inferInstanceAs (Decidable (state.code < 14))

namespace State.Listed

variable {state : State}

theorem isRestartPoint (h : state.Listed) : isRestartPoint state.code = true := by
  cases state with
  | unlisted code beyond => exact absurd h (UInt32.not_lt.mpr beyond)
  | _ => decide

theorem unflagged (h : state.Listed) : state.code &&& ~~~substateFlag = state.code := by
  cases state with
  | unlisted code beyond => exact absurd h (UInt32.not_lt.mpr beyond)
  | _ => decide

end State.Listed

theorem exists_listed_of_isRestartPoint {code : UInt32} (h : isRestartPoint code = true) :
    ∃ state : State, state.Listed ∧ state.code = code := by
  rw [isRestartPoint, Bool.and_eq_true, decide_eq_true_eq] at h
  refine ⟨.ofCode code, ?_, State.code_ofCode code⟩
  rw [State.Listed, State.code_ofCode]
  exact h.2

/-- The state and the states behind the open braces are listed. -/
structure Context.Listed (context : Context) : Prop where
  state : context.state.Listed
  behind : ∀ brace ∈ context.nesting.expressions.entries, brace.stateBehind.Listed

theorem contextOf_listed (form : Form) {state : State} (h : state.Listed) :
    (contextOf form state.code).Listed := by
  constructor
  · simp only [contextOf, h.unflagged, State.ofCode_code]
    split
    · decide
    · exact h
  · intro brace hbrace
    cases hbrace

/-- The initial state stands in for a state word that cannot be restarted. -/
theorem contextOf_accepted_listed (form : Form) (code : UInt32) :
    (contextOf form (if isRestartPoint code then code else State.initial.code)).Listed := by
  split
  · rename_i hpoint
    obtain ⟨state, hstate, rfl⟩ := exists_listed_of_isRestartPoint hpoint
    exact contextOf_listed form hstate
  · exact contextOf_listed form (by decide)

/-! ## Properties of states that last -/

/-- The listed states of markup, once the frontmatter is over. -/
def State.InMarkup : State → Prop
  | .initial | .frontmatter | .frontmatterClose | .unlisted _ _ => False
  | _ => True

theorem State.InMarkup.listed {state : State} (h : state.InMarkup) : state.Listed := by
  cases state with
  | initial | frontmatter | frontmatterClose | unlisted => exact h.elim
  | _ => decide

theorem Nesting.ambientState_inMarkup (form : Form) (nesting : Nesting) :
    (nesting.ambientState form).InMarkup := by
  rcases nesting.ambientState_cases form with hambient | hambient
  · rw [hambient]; trivial
  · rw [hambient]; trivial

theorem State.OpensBrace.behindBrace_inMarkup {state : State} (hstate : state.OpensBrace) :
    state.behindBrace.InMarkup := by
  rcases hstate with rfl | rfl | rfl | rfl | rfl <;> trivial

/-- A property of states that no move can lose: all states of markup have it, and the states of the
    frontmatter have it if the one before them does. -/
structure State.Lasting (S : State → Prop) : Prop where
  inMarkup : ∀ {state : State}, state.InMarkup → S state
  frontmatter : S .initial → S .frontmatter
  close : S .frontmatter → S .frontmatterClose

theorem State.lasting_listed : State.Lasting State.Listed where
  inMarkup := State.InMarkup.listed
  frontmatter _ := by decide
  close _ := by decide

theorem State.lasting_inMarkup : State.Lasting State.InMarkup where
  inMarkup h := h
  frontmatter h := h.elim
  close h := h.elim

/-- The state and the states behind the open braces have a property. -/
structure Context.Throughout (S : State → Prop) (context : Context) : Prop where
  state : S context.state
  behind : ∀ brace ∈ context.nesting.expressions.entries, S brace.stateBehind

theorem Context.throughout_empty {S : State → Prop} {state : State} (h : S state) :
    (Context.mk state ∅).Throughout S :=
  ⟨h, List.forall_mem_nil _⟩

theorem Context.listed_iff_throughout {context : Context} :
    context.Listed ↔ context.Throughout State.Listed :=
  ⟨fun h => ⟨h.state, h.behind⟩, fun h => ⟨h.state, h.behind⟩⟩

section Move

variable {nesting : Nesting} {ahead : List Char} {state next : State} {kind : Kind}
  {change : Change} {S : State → Prop}

theorem Move.next_lasting (hmove : Move nesting ahead state kind next change)
    (hS : State.Lasting S) (hstate : S state)
    (hbehind : ∀ brace ∈ nesting.expressions.entries, S brace.stateBehind) : S next := by
  cases hmove with
  | stay hahead => exact hstate
  | pass hnext => rcases hnext with rfl | rfl | rfl | rfl <;> exact hS.inMarkup trivial
  | enterFrontmatter => exact hS.frontmatter hstate
  | leaveFrontmatter hahead => exact hS.close hstate
  | alongTag hstate hnext => rcases hnext with rfl | rfl | rfl | rfl <;> exact hS.inMarkup trivial
  | closeBrace htop => exact hbehind _ (List.mem_of_head? htop)
  | openElement hnext => rcases hnext with rfl | rfl <;> exact hS.inMarkup trivial
  | closeElement hnext => rcases hnext with rfl | rfl <;> exact hS.inMarkup trivial
  | _ => exact hS.inMarkup trivial

theorem Move.behind_lasting (hmove : Move nesting ahead state kind next change)
    (hS : State.Lasting S)
    (hbehind : ∀ brace ∈ nesting.expressions.entries, S brace.stateBehind) :
    ∀ brace ∈ (nesting.apply change).expressions.entries, S brace.stateBehind := by
  intro brace hbrace
  rw [Nesting.expressions_apply] at hbrace
  cases hmove with
  | openBrace hstate =>
      rcases List.mem_cons.mp hbrace with rfl | hbelow
      · rw [Nesting.opening, Opening.stateBehind_atDepth hstate.code_behindBrace_lt]
        exact hS.inMarkup hstate.behindBrace_inMarkup
      · exact hbehind brace hbelow
  | closeBrace htop => exact hbehind brace (List.mem_of_mem_drop hbrace)
  | _ => exact hbehind brace hbrace

end Move

namespace Context

/-- A state can be met in front of text that it does not expect. Such text is read as in some other
    state, so every transition is still a move. -/
theorem exists_moves (context : Context) (c : Char) (cs : List Char) :
    ∃ state, (state = context.state ∨ state.InMarkup) ∧
      (context.transition c cs).Moves context.nesting state cs := by
  obtain ⟨state, nesting⟩ := context
  cases state with
  | startTagName =>
      simp only [transition, Rule.startTagName]
      split
      · exact ⟨.startTagName, .inl rfl, .openElement (.inl rfl)⟩
      split
      · exact ⟨.startTagName, .inl rfl, .openElement (.inr rfl)⟩
      · exact ⟨.attributes, .inr trivial, Rule.attributes_moves nesting c cs (.inl rfl)⟩
  | frontmatterClose =>
      cases hfence : begins fence (c :: cs) with
      | true => exact ⟨.frontmatterClose, .inl rfl, Rule.frontmatterClose_moves nesting c cs hfence⟩
      | false =>
          simp only [transition, Rule.frontmatterClose, hfence]
          exact ⟨.content, .inr trivial, Rule.content_moves nesting c cs (.inr rfl)⟩
  | unlisted code beyond =>
      exact ⟨.content, .inr trivial, Rule.content_moves nesting c cs (.inr rfl)⟩
  | _ => exact ⟨_, .inl rfl, moves ⟨_, nesting⟩ c cs trivial⟩

theorem Throughout.after {form : Form} {context : Context} {S : State → Prop}
    (h : context.Throughout S) (hS : State.Lasting S) (c : Char) (cs : List Char) :
    (context.after form (context.transition c cs)).Throughout S := by
  obtain ⟨state, hstate, hmoves⟩ := context.exists_moves c cs
  have hkept : S state := by
    rcases hstate with rfl | hmarkup
    · exact h.state
    · exact hS.inMarkup hmarkup
  constructor
  · simp only [Context.after]
    split
    · exact hS.inMarkup (Nesting.ambientState_inMarkup form _)
    · exact Move.next_lasting hmoves hS hkept h.behind
  · exact Move.behind_lasting hmoves hS h.behind

theorem Listed.after {form : Form} {context : Context} (h : context.Listed) (c : Char)
    (cs : List Char) : (context.after form (context.transition c cs)).Listed :=
  listed_iff_throughout.mpr ((listed_iff_throughout.mp h).after State.lasting_listed c cs)

end Context

end Markup

/-! ## Tapes of restart points -/

open Markup

/-- The place shows a context, and answers with a snapshot of it. -/
structure Place.Shows {ι : Type} (place : Place Snapshot ι) (context : Context) : Prop where
  state : place.state = context.state.code
  snapshot : place.snapshot = .ok ⟨place.offset, context⟩

namespace Markup

theorem placeAt_shows (offset : Nat) (context : Context) : (placeAt offset context).Shows context :=
  ⟨rfl, rfl⟩

/-- Every place of the tape shows a listed context. The script of the frontmatter is where its
    state is. -/
structure Restartable (tape : Tape Snapshot Nesting) : Prop where
  readings : ∀ r ∈ tape.readings, ∃ context : Context, context.Listed ∧ r.place.Shows context ∧
    (r.kind = .frontmatterScript ↔ context.state = .frontmatter)
  final : ∃ context : Context, context.Listed ∧ tape.final.Shows context

theorem restartable_ended (offset : Nat) {context : Context} (h : context.Listed) :
    Restartable (Tape.ended (placeAt offset context)) where
  readings := List.forall_mem_nil _
  final := ⟨context, h, placeAt_shows offset context⟩

theorem tapeOf_restartable (form : Form) (offset : Nat) {context : Context} (h : context.Listed)
    (cs : List Char) : Restartable (tapeOf form offset context cs) := by
  fun_induction tapeOf form offset context cs with
  | case1 offset context => exact restartable_ended offset h
  | case2 offset context c cs transition stop ih =>
      have hrest := ih (h.after c cs)
      have hkind := context.kind_eq_script_iff c cs
      refine ⟨?_, hrest.final⟩
      intro r hr
      rw [Tape.readings_cons, List.mem_cons] at hr
      rcases hr with rfl | hlater
      · exact ⟨context, h, placeAt_shows offset context, hkind⟩
      · exact hrest.readings r hlater

theorem restartable_of_tape {form : Form} {source : String} {stop : Nat} {snapshot : Snapshot}
    {tape : Tape Snapshot Nesting} (hlisted : snapshot.context.Listed)
    (h : Markup.tape form source stop snapshot = .ok tape) : Restartable tape := by
  rw [Markup.tape] at h
  split at h
  · split at h
    · cases h
      exact tapeOf_restartable form _ hlisted _
    · split at h
      · rename_i hraw
        cases h
        refine ⟨?_, snapshot.context, hlisted, placeAt_shows _ _⟩
        intro r hr
        rw [List.mem_singleton.mp hr]
        refine ⟨snapshot.context, hlisted, placeAt_shows _ _, iff_of_false Kind.noConfusion ?_⟩
        rw [hraw.1]
        exact State.noConfusion
      · cases h
    · cases h
  · cases h
    exact restartable_ended snapshot.offset hlisted

theorem Restartable.group {tape : Tape Snapshot Nesting} (h : Restartable tape)
    (hascending : tape.Ascending) (grouping : Grouping) : Restartable (tape.group grouping) := by
  refine ⟨?_, h.final⟩
  intro s hs
  obtain ⟨n, r, rs, hreadings, rfl⟩ := Tape.mem_readings_group hs
  have hr : r ∈ tape.readings := by
    apply List.mem_of_mem_drop (i := n)
    rw [← Tape.readings_drop, hreadings]
    exact List.mem_cons_self
  obtain ⟨context, hlisted, hshows, hscript⟩ := h.readings r hr
  refine ⟨context, hlisted, ⟨hshows.state, ?_⟩, ?_⟩
  · have hfirst : (Group.front grouping r rs).first.place.snapshot = .ok ⟨r.place.offset, context⟩ :=
      hshows.snapshot
    simp only [Group.reading, hfirst]
    rfl
  · have hrest : (tape.drop n) = ⟨r :: rs, tape.final⟩ := Tape.ext_readings hreadings rfl
    have hdistinct : ∀ s ∈ rs, s.place.offset ≠ r.place.offset := by
      intro s hs
      have hordered := hascending.drop n
      rw [hrest, Tape.ascending_cons_iff] at hordered
      exact Nat.ne_of_gt (hordered.1 _ (Tape.mem_offsets_of_mem hs))
    rw [← hscript]
    rcases Group.kind_front grouping hdistinct with hkind | ⟨hpiece, hkind⟩
    · rw [Group.reading, hkind]
    · refine iff_of_false ?_ ?_
      · rw [Group.reading, hkind]
        exact Kind.noConfusion
      · intro hsame
        rw [hsame] at hpiece
        cases hpiece

end Markup

end Relex
