import Relex.Proofs.Coherence

/-! # Matching braces

Between an opening brace and the brace that closes it there may be any markup: elements that are not
closed, end tags that close nothing, and further braces. Still the closing brace finds everything as
the opening brace left it. While the brace is open, it and what was open around it form a `Frame`
that no move reaches (`Frame.next`). At the closing brace all elements inside the frame are closed
again, for otherwise the state would not be that of script.
-/

namespace Relex

namespace Markup

open Text

/-- What one move does to the open braces. -/
inductive BraceStep (form : Form) (cursor : Cursor) : Prop
  | keeps
      (hbraces : (cursor.next form).context.nesting.expressions =
        cursor.context.nesting.expressions)
  | opens {brace : Opening}
      (hentries : (cursor.next form).context.nesting.expressions.entries =
        brace :: cursor.context.nesting.expressions.entries)
      (hkind : (cursor.tape form).kind? = some (openingKind brace.stateBehind))
      (hdepth : cursor.context.nesting.elements.size = brace.depth)
      (hbehind : brace.stateBehind = cursor.context.state.behindBrace)
      (helements : (cursor.next form).context.nesting.elements = cursor.context.nesting.elements)
  | closes {brace : Opening}
      (hentries : cursor.context.nesting.expressions.entries =
        brace :: (cursor.next form).context.nesting.expressions.entries)
      (hkind : (cursor.tape form).kind? = some (closingKind brace.stateBehind))
      (hdepth : cursor.context.nesting.elements.size = brace.depth)
      (helements : (cursor.next form).context.nesting.elements = cursor.context.nesting.elements)
      (hbehind : (cursor.next form).context.state =
        if brace.stateBehind = .content then (cursor.next form).context.nesting.ambientState form
        else brace.stateBehind)

/-- An open brace with the braces around it, and the elements around it. -/
structure Frame (braces : List Opening) (elements : List String) (nesting : Nesting) : Prop where
  braces : braces <:+ nesting.expressions.entries
  elements : elements <:+ nesting.elements.entries

namespace Cursor

variable {form : Form} {cursor : Cursor}

theorem Sound.braceStep (h : cursor.Sound form) : BraceStep form cursor := by
  cases step h.expected with
  | ended hnext => exact .keeps (by rw [hnext])
  | moved hmove hkind hnesting hbehind _ =>
      obtain ⟨offset, ⟨state, nesting⟩, rest⟩ := cursor
      cases hmove with
      | openBrace hstate =>
          have hcode := hstate.code_behindBrace_lt
          have hbehind : (nesting.opening state.behindBrace).stateBehind = state.behindBrace :=
            Opening.stateBehind_atDepth hcode
          have hdepth : (nesting.opening state.behindBrace).depth = nesting.elements.size :=
            Opening.depth_atDepth hcode h.few_elements
          rw [← hbehind] at hkind
          refine .opens ?_ hkind hdepth.symm hbehind ?_
          · rw [hnesting]
            rfl
          · rw [hnesting]
            rfl
      | @closeBrace brace htop =>
          obtain ⟨outer, hentries, -, -⟩ := h.coheres.restsOn_top htop
          have houter : nesting.expressions.entries =
              brace :: (nesting.apply .closeExpression).expressions.entries := by
            rw [Nesting.entries_closeExpression hentries, hentries]
          have hdepth := (ambientState_eq_expression_iff.mp h.coheres.standing).1
          rw [hentries] at hdepth
          refine .closes ?_ hkind hdepth ?_ hbehind
          · rw [hnesting]
            exact houter
          · rw [hnesting]
            rfl
      | _ =>
          refine .keeps ?_
          rw [hnesting]
          exact nesting.expressions_apply _

end Cursor

namespace Frame

variable {form : Form} {cursor : Cursor} {brace : Opening} {outer : List Opening}
  {elements : List String}

/-- As long as its brace is open, a frame is out of reach. -/
theorem next (hframe : Frame (brace :: outer) elements cursor.context.nesting)
    (hsound : cursor.Sound form) (hdepth : elements.length ≤ brace.depth)
    (hopen : outer.length < (cursor.next form).context.nesting.expressions.size) :
    Frame (brace :: outer) elements (cursor.next form).context.nesting := by
  constructor
  · rw [Stack.size_eq] at hopen
    cases hsound.braceStep with
    | keeps hbraces => rw [hbraces]; exact hframe.braces
    | opens hentries _ _ _ _ =>
        rw [hentries]
        exact hframe.braces.trans (List.suffix_cons _ _)
    | closes hentries _ _ _ _ =>
        have hbraces := hframe.braces
        rw [hentries] at hbraces
        rcases List.suffix_cons_iff.mp hbraces with hall | hbelow
        · cases hall
          exact absurd hopen (Nat.lt_irrefl _)
        · exact hbelow
  · obtain ⟨inner, hentries⟩ := hframe.braces
    have hinner : depthAround (brace :: outer) ≤ depthAround (inner ++ brace :: outer) :=
      (hentries ▸ hsound.coheres.nested).depthAround_le
    have houter : elements.length ≤ cursor.context.nesting.outerDepth := by
      rw [Nesting.outerDepth_eq, ← hentries]
      exact Nat.le_trans hdepth hinner
    cases Cursor.step hsound.expected with
    | ended hnext => rw [hnext]; exact hframe.elements
    | moved _ _ hnesting _ _ =>
        rw [hnesting]
        exact cursor.context.nesting.outer_kept hframe.elements houter _

/-- The brace of a frame is closed where all elements that were opened inside it are closed. -/
theorem close (hframe : Frame (brace :: outer) elements cursor.context.nesting)
    (hsound : cursor.Sound form) (hdepth : elements.length = brace.depth)
    (hclosed : (cursor.next form).context.nesting.expressions.size ≤ outer.length) :
    (cursor.tape form).kind? = some (closingKind brace.stateBehind) ∧
      cursor.context.nesting.elements.entries = elements ∧
      (cursor.next form).context.nesting.elements.entries = elements ∧
      (cursor.next form).context.nesting.expressions.entries = outer ∧
      (cursor.next form).context.state =
        if brace.stateBehind = .content then (cursor.next form).context.nesting.ambientState form
        else brace.stateBehind := by
  have hlength := hframe.braces.length_le
  rw [List.length_cons] at hlength
  rw [Stack.size_eq] at hclosed
  cases hsound.braceStep with
  | keeps hbraces =>
      rw [hbraces] at hclosed
      omega
  | opens hentries _ _ _ _ =>
      rw [hentries, List.length_cons] at hclosed
      omega
  | closes hentries hkind hsize hsame hbehind =>
      have hbraces := hframe.braces
      rw [hentries] at hbraces
      rcases List.suffix_cons_iff.mp hbraces with hall | hbelow
      · obtain ⟨rfl, houter⟩ := List.cons.inj hall
        have helements : elements = cursor.context.nesting.elements.entries := by
          apply hframe.elements.eq_of_length
          rw [hdepth, ← hsize, Stack.size_eq]
        refine ⟨hkind, helements.symm, ?_, houter.symm, hbehind⟩
        rw [hsame, helements]
      · have hbound := hbelow.length_le
        rw [List.length_cons] at hbound
        omega

theorem run {run : Nat → Cursor} {i j : Nat} (hnext : ∀ m, run (m + 1) = (run m).next form)
    (hsound : ∀ m, (run m).Sound form) (hdepth : elements.length ≤ brace.depth)
    (hframe : Frame (brace :: outer) elements (run (i + 1)).context.nesting)
    (hopen : ∀ m, i < m → m ≤ j → outer.length < (run m).context.nesting.expressions.size) :
    ∀ m, i < m → m ≤ j → Frame (brace :: outer) elements (run m).context.nesting := by
  intro m him hmj
  induction m with
  | zero => exact absurd him (Nat.not_lt_zero i)
  | succ m ih =>
      rcases Nat.lt_or_eq_of_le (Nat.le_of_lt_succ him) with hlt | rfl
      · have hlater := hopen (m + 1) him hmj
        rw [hnext m] at hlater ⊢
        exact (ih hlt (Nat.le_of_succ_le hmj)).next (hsound m) hdepth hlater
      · exact hframe

end Frame

namespace Cursor

variable {form : Form} {cursor : Cursor}

/-- A brace that is read frames what is open around it. -/
theorem Sound.frame_of_size_lt (h : cursor.Sound form)
    (hopened : cursor.context.nesting.expressions.size <
      (cursor.next form).context.nesting.expressions.size) :
    ∃ brace : Opening,
      Frame (brace :: cursor.context.nesting.expressions.entries)
        cursor.context.nesting.elements.entries (cursor.next form).context.nesting ∧
      cursor.context.nesting.elements.entries.length = brace.depth ∧
      brace.stateBehind = cursor.context.state.behindBrace ∧
      (cursor.tape form).kind? = some (openingKind brace.stateBehind) := by
  cases h.braceStep with
  | keeps hbraces =>
      rw [hbraces] at hopened
      exact absurd hopened (Nat.lt_irrefl _)
  | @opens brace hentries hkind hdepth hbehind helements =>
      rw [Stack.size_eq] at hdepth
      refine ⟨brace, ⟨?_, ?_⟩, hdepth, hbehind, hkind⟩
      · exact hentries.symm ▸ List.suffix_rfl
      · exact helements.symm ▸ List.suffix_rfl
  | closes hentries _ _ _ _ =>
      rw [Stack.size_eq, Stack.size_eq, hentries, List.length_cons] at hopened
      omega

/-- Where a brace is read outside tags, content is read once it is closed again. -/
theorem Sound.ambientState_behind (h : cursor.Sound form)
    (hbehind : cursor.context.state.behindBrace = .content) :
    cursor.context.nesting.ambientState form = .content := by
  have hstanding := h.coheres.standing
  cases hstate : cursor.context.state with
  | initial =>
      rw [hstate] at hstanding
      rw [hstanding.1, hstanding.2]
      rfl
  | content =>
      rw [hstate] at hstanding
      exact hstanding
  | _ =>
      rw [hstate] at hbehind
      cases hbehind

end Cursor

theorem closingKind_eq_iff (behind : State) :
    (closingKind behind = .expressionEnd ↔ openingKind behind = .expressionStart) ∧
      (closingKind behind = .script .rBrace ↔ openingKind behind = .script .lBrace) := by
  rw [closingKind, openingKind]
  split
  · refine ⟨⟨?_, ?_⟩, ⟨fun _ => rfl, fun _ => rfl⟩⟩
    · intro h
      cases h
    · intro h
      cases h
  · refine ⟨⟨fun _ => rfl, fun _ => rfl⟩, ⟨?_, ?_⟩⟩
    · intro h
      cases h
    · intro h
      cases h

/-- The token at `i` opens a brace, which stays open until the token at `j` closes it. Given is how
    many braces are open in front of each token. -/
structure Matching (braces : Nat → Nat) (i j : Nat) : Prop where
  before : i < j
  opened : braces (i + 1) = braces i + 1
  kept : ∀ m, i < m → m ≤ j → braces i < braces m
  closed : braces (j + 1) ≤ braces i

instance (braces : Nat → Nat) (i j : Nat) : Decidable (Matching braces i j) :=
  decidable_of_iff
    (i < j ∧ braces (i + 1) = braces i + 1 ∧
      (∀ m, m < j + 1 → i < m → braces i < braces m) ∧ braces (j + 1) ≤ braces i)
    ⟨fun ⟨hbefore, hopened, hkept, hclosed⟩ =>
      ⟨hbefore, hopened, fun m him hmj => hkept m (Nat.lt_succ_of_le hmj) him, hclosed⟩,
      fun h => ⟨h.before, h.opened, fun m hmj him => h.kept m him (Nat.le_of_lt_succ hmj),
        h.closed⟩⟩

/-- What two matching braces have to do with each other, where `tape m` is what a lexer shows after
    `m` moves. -/
structure Restores (tape : Nat → Tape Snapshot Nesting) (i j : Nat) : Prop where
  opening : (tape i).kind? = some .expressionStart ∨ (tape i).kind? = some (.script .lBrace)
  expression : (tape j).kind? = some .expressionEnd ↔ (tape i).kind? = some .expressionStart
  script : (tape j).kind? = some (.script .rBrace) ↔ (tape i).kind? = some (.script .lBrace)
  outside : ∀ m, i < m → m ≤ j →
    (tape i).place.live.elements.entries <:+ (tape m).place.live.elements.entries
  elements : (tape j).place.live.elements = (tape i).place.live.elements
  expressions : (tape (j + 1)).place.live.expressions = (tape i).place.live.expressions
  state : State.ofCode (tape (j + 1)).place.state =
    (State.ofCode (tape i).place.state).behindBrace

/-- Matching braces in a sound run. -/
theorem Cursor.Sound.restores {form : Form} {run : Nat → Cursor} {i j : Nat}
    (hnext : ∀ m, run (m + 1) = (run m).next form) (hsound : ∀ m, (run m).Sound form)
    (hmatch : Matching (fun m => (run m).context.nesting.expressions.size) i j) :
    Restores (fun m => (run m).tape form) i j := by
  have hopened : (run i).context.nesting.expressions.size <
      ((run i).next form).context.nesting.expressions.size := by
    rw [← hnext i]
    exact hmatch.kept (i + 1) (Nat.lt_succ_self i) hmatch.before
  have hclosed : ((run j).next form).context.nesting.expressions.size ≤
      (run i).context.nesting.expressions.entries.length := by
    rw [← hnext j, ← Stack.size_eq]
    exact hmatch.closed
  obtain ⟨brace, hframe, hdepth, hbehind, hopens⟩ := (hsound i).frame_of_size_lt hopened
  rw [← hnext i] at hframe
  have hkept : ∀ m, i < m → m ≤ j →
      Frame (brace :: (run i).context.nesting.expressions.entries)
        (run i).context.nesting.elements.entries (run m).context.nesting := by
    refine Frame.run hnext hsound (Nat.le_of_eq hdepth) hframe ?_
    intro m him hmj
    rw [← Stack.size_eq]
    exact hmatch.kept m him hmj
  -- So the brace that is closed at `j` is the one of this frame.
  have hinner := hkept j hmatch.before (Nat.le_refl j)
  obtain ⟨hcloses, hclear, helements, hbraces, hstate⟩ := hinner.close (hsound j) hdepth hclosed
  have hrestored : ((run j).next form).context.nesting = (run i).context.nesting := by
    rw [Nesting.mk.injEq]
    exact ⟨Stack.ext_entries hbraces, Stack.ext_entries helements⟩
  have hback : ((run j).next form).context.state = (run i).context.state.behindBrace := by
    rw [hstate, hrestored, hbehind]
    split
    · rename_i hcontent
      rw [hcontent]
      exact (hsound i).ambientState_behind hcontent
    · rfl
  obtain ⟨hexpression, hscript⟩ := closingKind_eq_iff brace.stateBehind
  constructor
  · rw [hopens, openingKind]
    split
    · exact .inr rfl
    · exact .inl rfl
  · rw [hopens, hcloses, Option.some_inj, Option.some_inj, hexpression]
  · rw [hopens, hcloses, Option.some_inj, Option.some_inj, hscript]
  · intro m him hmj
    rw [Cursor.live_tape, Cursor.live_tape]
    exact (hkept m him hmj).elements
  · rw [Cursor.live_tape, Cursor.live_tape]
    exact Stack.ext_entries hclear
  · rw [Cursor.live_tape, Cursor.live_tape, hnext j, hrestored]
  · rw [Cursor.ofCode_state_tape, Cursor.ofCode_state_tape, hnext j, hback]

end Markup

namespace MarkupGrammar

open Markup

/-- Behind its closing brace an expression has left no trace: everything is open that was open in
    front of the opening brace, and reading goes on as it would have done there. -/
theorem matching_braces_restore (lexer started : Lexer MarkupGrammar Snapshot Nesting)
    (source : String) (start stop : Nat) (hsize : source.utf8ByteSize < Opening.depthLimit)
    (hstarted : lexer.start source start stop 0 = .ok started) (i j : Nat)
    (hmatch : Matching
      (fun m => (Session.advanceTimes m started).tape.place.live.expressions.size) i j) :
    Restores (fun m => (Session.advanceTimes m started).tape) i j := by
  obtain ⟨cursor, hsound, htape⟩ := start_sound hsize hstarted
  let run : Nat → Cursor := fun m => (Cursor.next lexer.reader.form)^[m] cursor
  have hnext : ∀ m, run (m + 1) = (run m).next lexer.reader.form :=
    fun m => Function.iterate_succ_apply' _ m cursor
  have hrun : (fun m => (Session.advanceTimes m started).tape) =
      fun m => (run m).tape lexer.reader.form := funext htape
  have hsizes : (fun m => (Session.advanceTimes m started).tape.place.live.expressions.size) =
      fun m => (run m).context.nesting.expressions.size := by
    funext m
    rw [htape m, Cursor.live_tape]
  rw [hrun]
  exact Cursor.Sound.restores hnext hsound.iterate (hsizes ▸ hmatch)

theorem matching_braces_restore_around_markup :
    "<p>\x7b<b>\x7bx\x7d</p></b>\x7d".utf8ByteSize < Opening.depthLimit ∧
      ∃ started : Lexer MarkupGrammar Snapshot Nesting,
        (Lexer.idle ⟨.document⟩ : Lexer MarkupGrammar Snapshot Nesting).start
          "<p>\x7b<b>\x7bx\x7d</p></b>\x7d" 0 19 0 = .ok started ∧
        Matching (fun m => (Session.advanceTimes m started).tape.place.live.expressions.size)
          3 16 ∧
        Restores (fun m => (Session.advanceTimes m started).tape) 3 16 := by
  let lexer : Lexer MarkupGrammar Snapshot Nesting := Lexer.idle ⟨.document⟩
  let source := "<p>\x7b<b>\x7bx\x7d</p></b>\x7d"
  have hsize : source.utf8ByteSize < Opening.depthLimit := by decide
  have hmatch : ((lexer.start source 0 19 0).toOption.any fun started =>
      Matching (fun m => (Session.advanceTimes m started).tape.place.live.expressions.size)
        3 16) = true := by
    decide +kernel
  cases hstarted : lexer.start source 0 19 0 with
  | error error =>
      rw [hstarted] at hmatch
      cases hmatch
  | ok started =>
      rw [hstarted] at hmatch
      have hmatch := of_decide_eq_true hmatch
      exact ⟨hsize, started, rfl, hmatch,
        matching_braces_restore lexer started source 0 19 hsize hstarted 3 16 hmatch⟩

end MarkupGrammar

end Relex
