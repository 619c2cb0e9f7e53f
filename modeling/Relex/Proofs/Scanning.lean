import Relex.Proofs.Pulling
import Relex.Proofs.SlicedMarkup

/-! # Scanners

A scanner reads a grammar on demand, with an offset into the source for its position. It finds the
token at the offset by slices, which fail where the offset does not fit the text. From the same place
of the same region a scanner fails as the reader does, or shows the tape that the reader reads
(`Markup.Scanner.both_locate`, `Script.Scanner.both_start`).
-/

namespace Relex

open Text Pulling

theorem Stack.isEmpty_iff {α : Type} {s : Stack α} : s.isEmpty = true ↔ s.top? = none := by
  obtain ⟨entries, size, rfl⟩ := s
  cases entries <;> simp [isEmpty, top?]

namespace Markup

/-- A token that begins inside the region and is not empty. -/
structure Pending (offset stop : Nat) where
  step : Sliced.Step
  offset_lt_stop : offset < stop
  offset_lt_end : offset < step.stop

/-- A scanner of markup. -/
structure Scanner where
  form : Form
  source : String
  /-- The end of the region. -/
  stop : Nat
  offset : Nat
  context : Context
  token? : Option (Pending offset stop)

namespace Scanner

/-- A scanner before its first start. -/
def idle (form : Form) : Scanner where
  form := form
  source := ""
  stop := 0
  offset := 0
  context := ⟨.initial, ∅⟩
  token? := none

/-- The token at an offset of the region. -/
def scanAt (source : String) (stop offset : Nat) (context : Context) :
    Except RangeError Sliced.Step := do
  let text ← sliceTo source.toList stop
  Sliced.scan context.nesting text offset context.state

theorem lt_stop_of_scanAt {source : String} {stop offset : Nat} {context : Context}
    {step : Sliced.Step} (hlt : offset < stop) (h : scanAt source stop offset context = .ok step) :
    offset < step.stop := by
  rw [scanAt] at h
  cases htext : sliceTo source.toList stop with
  | error error =>
      rw [htext] at h
      cases h
  | ok text =>
      rw [htext] at h
      have hlength := byteLength_of_sliceTo htext
      exact Sliced.lt_stop_of_scan context.nesting (hlength ▸ hlt) h

/-- The token at an offset, unless the region ends there. -/
def found? (source : String) (stop offset : Nat) (context : Context) :
    Except RangeError (Option (Pending offset stop)) :=
  if hlt : offset < stop then
    match hstep : scanAt source stop offset context with
    | .error error => .error error
    | .ok step => .ok (some ⟨step, hlt, lt_stop_of_scanAt hlt hstep⟩)
  else
    .ok none

/-- Finds the token where the scanner stands. -/
def locate (scanner : Scanner) : Except RangeError Scanner :=
  (found? scanner.source scanner.stop scanner.offset scanner.context).map fun token? =>
    { scanner with token? := token? }

/-- Goes to an offset that is reached in a context. -/
def goto (scanner : Scanner) (offset : Nat) (context : Context) : Except RangeError Scanner :=
  locate { scanner with offset := offset, context := context, token? := none }

def start (scanner : Scanner) (source : String) (start stop : Nat) (state : UInt32) :
    Except RangeError Scanner :=
  locate { scanner with
    source := source
    stop := stop
    offset := start
    context := contextOf scanner.form state
    token? := none }

def restore (scanner : Scanner) (snapshot : Snapshot) : Except RangeError Scanner :=
  scanner.goto snapshot.offset snapshot.context

/-- What moving past a token changes is applied when the scanner moves on. -/
def advance (scanner : Scanner) : Except RangeError Scanner :=
  match scanner.token? with
  | none => .ok scanner
  | some ⟨step, _, _⟩ =>
    scanner.goto step.stop (scanner.context.after scanner.form
      { kind := step.kind, more := 0, next := step.next, change := step.change })

instance : Pulling Scanner (Form × String × Nat) Snapshot Nesting where
  setting scanner := (scanner.form, scanner.source, scanner.stop)
  kind? scanner := scanner.token?.map (·.step.kind)
  stop scanner := scanner.token?.elim scanner.offset (·.step.stop)
  place scanner := placeAt scanner.offset scanner.context
  advance := advance

theorem eq_of_locate {scanner located : Scanner} (h : scanner.locate = .ok located) :
    ∃ token?, located = { scanner with token? := token? } := by
  obtain ⟨token?, -, rfl⟩ := Except.map_eq_ok_iff.mp h
  exact ⟨token?, rfl⟩

/-- A scanner that moves on has less of its region in front of it. -/
instance : Draining Scanner (Form × String × Nat) Snapshot Nesting where
  left scanner := scanner.stop - scanner.offset
  left_lt := by
    intro scanner next hkind hnext
    obtain ⟨form, source, stop, offset, context, token?⟩ := scanner
    cases token? with
    | none => cases hkind
    | some pending =>
        obtain ⟨step, hlt, hstep⟩ := pending
        obtain ⟨token?, rfl⟩ := eq_of_locate hnext
        simp only
        omega

variable {source : String} {stop offset : Nat} {context : Context} {text cs : List Char} {c : Char}

theorem found?_of_le (h : stop ≤ offset) : found? source stop offset context = .ok none := by
  rw [found?, dif_neg (Nat.not_lt.mpr h)]

theorem found?_of_error {error : RangeError} (hlt : offset < stop)
    (hscan : scanAt source stop offset context = .error error) :
    found? source stop offset context = .error error := by
  rw [found?, dif_pos hlt]
  split <;> simp_all

theorem found?_of_ok {step : Sliced.Step} (hlt : offset < stop)
    (hscan : scanAt source stop offset context = .ok step) :
    found? source stop offset context =
      .ok (some ⟨step, hlt, lt_stop_of_scanAt hlt hscan⟩) := by
  rw [found?, dif_pos hlt]
  split
  · simp_all
  · rename_i other hother
    obtain rfl := Except.ok.inj (hscan.symm.trans hother)
    rfl

theorem locate_of_le (scanner : Scanner) (h : scanner.stop ≤ scanner.offset) :
    scanner.locate = .ok { scanner with token? := none } := by
  rw [locate, found?_of_le h]
  rfl

/-- At the end of the region there is no token. -/
theorem tracks_ended (scanner : Scanner) :
    Tracks (scanner.form, scanner.source, scanner.stop) { scanner with token? := none }
      (.ended (placeAt scanner.offset scanner.context)) :=
  .ended ⟨rfl, rfl, rfl, rfl⟩ rfl

/-- Where the text ahead is known, a scanner reads the tokens of its characters. -/
theorem exists_locate {form : Form} (htext : sliceTo source.toList stop = .ok text)
    (h : Ahead text offset cs) (context : Context) (token? : Option (Pending offset stop)) :
    ∃ located, locate ⟨form, source, stop, offset, context, token?⟩ = .ok located ∧
      Tracks (form, source, stop) located (tapeOf form offset context cs) := by
  induction hlength : cs.length using Nat.strongRecOn generalizing cs offset context token? with
  | _ length ih =>
  have hstop := byteLength_of_sliceTo htext
  have hbytes := h.byteLength_eq
  cases cs with
  | nil =>
      have hle : stop ≤ offset := by
        simp only [byteLength_nil] at hbytes
        omega
      refine ⟨_, locate_of_le _ hle, ?_⟩
      rw [tapeOf]
      exact tracks_ended ⟨form, source, stop, offset, context, token?⟩
  | cons c cs =>
      let transition := context.transition c cs
      have hlt : offset < stop := by
        have := byteLength_pos c cs
        omega
      have hscan : scanAt source stop offset context = .ok (.of transition offset c cs) := by
        rw [scanAt, htext]
        exact Sliced.scan_eq context.nesting h context.state
      have hbehind := h.drop (transition.more + 1)
      rw [List.take_succ_cons, List.drop_succ_cons] at hbehind
      have hshorter : (cs.drop transition.more).length < length := by
        simp only [← hlength, List.length_drop, List.length_cons]
        omega
      obtain ⟨next, hnext, hlater⟩ :=
        ih _ hshorter hbehind (context.after form transition) none rfl
      refine ⟨⟨form, source, stop, offset, context,
        some ⟨_, hlt, lt_stop_of_scanAt hlt hscan⟩⟩, ?_, ?_⟩
      · rw [locate, found?_of_ok hlt hscan]
        rfl
      · rw [tapeOf]
        exact .cons ⟨rfl, rfl, rfl, rfl⟩ hnext hlater

/-- Raw text of no element is read from anywhere. -/
theorem exists_locate_rawText {form : Form} (hlt : offset < stop)
    (htext : sliceTo source.toList stop = .ok text) (hstate : context.state = .rawText)
    (htop : context.nesting.elements.top? = none) (token? : Option (Pending offset stop)) :
    ∃ located, locate ⟨form, source, stop, offset, context, token?⟩ = .ok located ∧
      Tracks (form, source, stop) located (rawTextTape ⟨offset, context⟩ stop) := by
  have hstop := byteLength_of_sliceTo htext
  have hscan : scanAt source stop offset context =
      .ok { kind := .rawText, stop := stop, next := .rawText } := by
    rw [scanAt, htext, hstate, ← hstop]
    exact Sliced.scan_rawText context.nesting htop text offset
  -- Behind the token nothing is left, and its context is kept.
  have hafter : context.after form { kind := .rawText, more := 0, next := .rawText } = context := by
    obtain ⟨state, nesting⟩ := context
    obtain rfl := hstate
    rfl
  refine ⟨⟨form, source, stop, offset, context,
    some ⟨_, hlt, lt_stop_of_scanAt hlt hscan⟩⟩, ?_, ?_⟩
  · rw [locate, found?_of_ok hlt hscan]
    rfl
  · have hended := tracks_ended ⟨form, source, stop, stop, context, none⟩
    refine .cons ⟨rfl, rfl, rfl, rfl⟩ ?_ hended
    change goto _ stop (context.after form { kind := .rawText, more := 0, next := .rawText }) = _
    rw [hafter, goto, locate_of_le _ (Nat.le_refl stop)]

/-- A scanner fails where the reader does, and otherwise it reads the same tape. -/
theorem both_locate (scanner : Scanner) :
    Both (Tracks (scanner.form, scanner.source, scanner.stop)) scanner.locate
      (Markup.tape scanner.form scanner.source scanner.stop ⟨scanner.offset, scanner.context⟩) := by
  obtain ⟨form, source, stop, offset, context, token?⟩ := scanner
  unfold Markup.tape
  by_cases hlt : offset < stop
  · simp only [if_pos hlt, region_eq]
    cases htext : sliceTo source.toList stop with
    | error error =>
        have hscan : scanAt source stop offset context = .error error := by
          rw [scanAt, htext]
          rfl
        obtain rfl := eq_badStop_of_sliceTo htext
        rw [locate, found?_of_error hlt hscan]
        exact .error _
    | ok text =>
        simp only [bind, Except.bind]
        cases hrest : sliceFrom text offset with
        | ok rest =>
            exact Both.ok_right_iff.mpr
              (exists_locate htext (sliceFrom_eq_ok_iff.mp hrest) context token?)
        | error error =>
            obtain rfl := eq_badStart_of_sliceFrom hrest
            simp only
            split
            · rename_i hraw
              obtain ⟨hstate, hempty⟩ := hraw
              exact Both.ok_right_iff.mpr (exists_locate_rawText hlt htext hstate
                (Stack.isEmpty_iff.mp hempty) token?)
            · rename_i hraw
              have hscan : scanAt source stop offset context = .error (.badStart offset) := by
                rw [scanAt, htext]
                refine Sliced.scan_of_error context.nesting hrest ?_
                intro hstate htop
                exact hraw ⟨hstate, Stack.isEmpty_iff.mpr htop⟩
              rw [locate, found?_of_error hlt hscan]
              exact .error _
  · rw [if_neg hlt, locate_of_le _ (Nat.le_of_not_lt hlt)]
    exact .ok (tracks_ended ⟨form, source, stop, offset, context, token?⟩)

/-- Whatever the scanner was doing before, it starts as the reader does. -/
theorem both_start (scanner : Scanner) (source : String) (start stop : Nat) (state : UInt32) :
    Both (Tracks (scanner.form, source, stop)) (scanner.start source start stop state)
      (Reader.start (MarkupGrammar.mk scanner.form) source start stop state) :=
  both_locate ⟨scanner.form, source, stop, start, contextOf scanner.form state, none⟩

theorem both_restore (scanner : Scanner) (snapshot : Snapshot) :
    Both (Tracks (scanner.form, scanner.source, scanner.stop)) (scanner.restore snapshot)
      (Reader.resume (MarkupGrammar.mk scanner.form) scanner.source scanner.stop snapshot) :=
  both_locate
    ⟨scanner.form, scanner.source, scanner.stop, snapshot.offset, snapshot.context, none⟩

end Scanner

end Markup

namespace Script

/-- A scanner of script. It has no position besides its lexeme. -/
structure Scanner where
  source : String
  /-- The end of the region. -/
  stop : Nat
  /-- The kind of the lexeme, and the offsets where it starts and ends. -/
  token? : Option (ScriptKind × Nat × Nat)

namespace Scanner

/-- A scanner before its first start. -/
def idle : Scanner where
  source := ""
  stop := 0
  token? := none

/-- Finds the lexeme at an offset, unless the region ends there. -/
def locate (scanner : Scanner) (offset : Nat) : Except RangeError Scanner :=
  if offset < scanner.stop then
    (Sliced.lexemeAt scanner.source.toList offset scanner.stop).map fun (kind, stop) =>
      { scanner with token? := some (kind, offset, stop) }
  else
    .ok { scanner with token? := none }

def start (scanner : Scanner) (source : String) (start stop : Nat) : Except RangeError Scanner :=
  locate { scanner with source := source, stop := stop } start

def advance (scanner : Scanner) : Except RangeError Scanner :=
  match scanner.token? with
  | none => .ok scanner
  | some (_, _, stop) => scanner.locate stop

instance : Pulling Scanner (String × Nat) Nat Unit where
  setting scanner := (scanner.source, scanner.stop)
  kind? scanner := scanner.token?.map fun (kind, _, _) => .script kind
  stop scanner := scanner.token?.elim scanner.stop fun (_, _, stop) => stop
  place scanner := placeAt (scanner.token?.elim scanner.stop fun (_, start, _) => start)
  advance := advance

variable {source : String} {stop offset : Nat} {text cs : List Char}

theorem locate_of_le (scanner : Scanner) (h : scanner.stop ≤ offset) :
    scanner.locate offset = .ok { scanner with token? := none } := by
  rw [locate, if_neg (Nat.not_lt.mpr h)]

/-- At the end of the region there is no lexeme. -/
theorem tracks_ended (source : String) (stop : Nat) :
    Tracks (source, stop) (⟨source, stop, none⟩ : Scanner) (.ended (placeAt stop)) :=
  .ended ⟨rfl, rfl, rfl, rfl⟩ rfl

/-- Where the text ahead is known, a scanner reads the lexemes of its characters. -/
theorem exists_locate (htext : sliceTo source.toList stop = .ok text) (h : Ahead text offset cs)
    (token? : Option (ScriptKind × Nat × Nat)) :
    ∃ located, locate ⟨source, stop, token?⟩ offset = .ok located ∧
      Tracks (source, stop) located ⟨readings offset cs, placeAt stop⟩ := by
  induction hlength : cs.length using Nat.strongRecOn generalizing cs offset token? with
  | _ length ih =>
  have hstop := byteLength_of_sliceTo htext
  have hbytes := h.byteLength_eq
  cases cs with
  | nil =>
      have hle : stop ≤ offset := by
        simp only [byteLength_nil] at hbytes
        omega
      refine ⟨_, locate_of_le _ hle, ?_⟩
      rw [readings]
      exact tracks_ended source stop
  | cons c cs =>
      have hlt : offset < stop := by
        have := byteLength_pos c cs
        omega
      have hlexeme : Sliced.lexemeAt source.toList offset stop =
          .ok ((Lexeme.front c cs).kind,
            offset + byteLength (c :: cs.take (Lexeme.front c cs).more)) := by
        rw [Sliced.lexemeAt_eq, lexemeAt, region_eq, htext]
        simp only [bind, Except.bind, h.slice]
        rfl
      have hbehind := h.drop ((Lexeme.front c cs).more + 1)
      rw [List.take_succ_cons, List.drop_succ_cons] at hbehind
      let located : Scanner := ⟨source, stop, some ((Lexeme.front c cs).kind, offset,
        offset + byteLength (c :: cs.take (Lexeme.front c cs).more))⟩
      have hshorter : (cs.drop (Lexeme.front c cs).more).length < length := by
        simp only [← hlength, List.length_drop, List.length_cons]
        omega
      obtain ⟨next, hnext, hlater⟩ := ih _ hshorter hbehind located.token? rfl
      refine ⟨located, ?_, ?_⟩
      · rw [locate, if_pos hlt, hlexeme]
        rfl
      · rw [readings]
        exact Tracks.cons (s := located) ⟨rfl, rfl, rfl, rfl⟩ hnext hlater

/-- A scanner fails where the reader does, and otherwise it reads the same tape. -/
theorem both_start (scanner : Scanner) (source : String) (start stop : Nat) :
    Both (Tracks (source, stop)) (scanner.start source start stop) (tape source start stop) := by
  unfold tape Scanner.start
  by_cases hlt : start < stop
  · simp only [if_pos hlt, region_eq]
    cases htext : sliceTo source.toList stop with
    | error error =>
        rw [locate, if_pos hlt, Sliced.lexemeAt, htext]
        exact .error error
    | ok text =>
        simp only [bind, Except.bind]
        cases hrest : sliceFrom text start with
        | error error =>
            rw [locate, if_pos hlt, Sliced.lexemeAt, htext]
            simp only [bind, Except.bind, hrest]
            exact .error error
        | ok rest =>
            exact Both.ok_right_iff.mpr
              (exists_locate htext (sliceFrom_eq_ok_iff.mp hrest) scanner.token?)
  · rw [if_neg hlt, locate_of_le _ (Nat.le_of_not_lt hlt)]
    exact .ok (tracks_ended source stop)

end Scanner

end Script

end Relex
