import Mathlib.Data.List.Basic
import Relex.Proofs.SharedNodes
import Relex.Stack.Shelf

/-! # Stacks that share nodes are lists

The commands of a shelf are carried out on stacks of shared nodes. Every command works, whatever was
copied from what before, answers what the shelf answers, and leaves the stacks with the entries that
they have there (`Stacks.Agrees.run`). On a shelf each stack is a list, and a command changes the list of
one name alone. So after any commands the stacks show what their lists say
(`Stacks.shared_stacks_are_lists`).
-/

namespace Relex

/-! ## Looking names up -/

section Lookup

variable {β : Type} {entries : List (String × β)} {name other : String} {b : β}

theorem lookup_filter_ne (entries : List (String × β)) (hne : other ≠ name) :
    (entries.filter fun entry => entry.1 != name).lookup other = entries.lookup other := by
  induction entries with
  | nil => rfl
  | cons entry entries ih =>
      by_cases hname : entry.1 = name
      · have hskip : (other == entry.1) = false := beq_false_of_ne (hname ▸ hne)
        rw [List.filter_cons_of_neg (by simpa using hname), List.lookup_cons, hskip, ih]
      · rw [List.filter_cons_of_pos (by simpa using hname), List.lookup_cons, List.lookup_cons, ih]

theorem lookup_filter_self (entries : List (String × β)) (name : String) :
    (entries.filter fun entry => entry.1 != name).lookup name = none := by
  refine List.lookup_eq_none_iff.mpr fun entry hentry => ?_
  rw [bne_comm]
  exact (List.mem_filter.mp hentry).2

/-- A name that is put in front, in place of what it stood for. -/
theorem lookup_replace (entries : List (String × β)) (name : String) (b : β) (other : String) :
    ((name, b) :: entries.filter fun entry => entry.1 != name).lookup other =
      if other = name then some b else entries.lookup other := by
  by_cases hname : other = name
  · rw [if_pos hname, hname, List.lookup_cons_self]
  · rw [if_neg hname, List.lookup_cons, beq_false_of_ne hname]
    exact lookup_filter_ne entries hname

theorem filter_eq_of_lookup (h : entries.lookup name = none) :
    (entries.filter fun entry => entry.1 != name) = entries := by
  refine List.filter_eq_self.mpr fun entry hentry => ?_
  rw [bne_comm]
  exact List.lookup_eq_none_iff.mp h entry hentry

/-- What a name stands for can be taken out. -/
theorem perm_of_lookup (hnodup : (entries.map Prod.fst).Nodup) (h : entries.lookup name = some b) :
    entries.Perm ((name, b) :: entries.filter fun entry => entry.1 != name) := by
  obtain ⟨front, behind, rfl, hfront⟩ := List.lookup_eq_some_iff.mp h
  have hbehind : behind.lookup name = none := by
    rw [List.map_append, List.map_cons, List.nodup_append, List.nodup_cons] at hnodup
    refine List.lookup_eq_none_iff.mpr fun entry hentry => bne_iff_ne.mpr fun hname => ?_
    exact hnodup.2.1.1 (List.mem_map.mpr ⟨entry, hentry, hname.symm⟩)
  have hrest : ((front ++ (name, b) :: behind).filter fun entry => entry.1 != name) =
      front ++ behind := by
    rw [List.filter_append, List.filter_cons_of_neg (by simp),
      filter_eq_of_lookup (List.lookup_eq_none_iff.mpr hfront), filter_eq_of_lookup hbehind]
  rw [hrest]
  exact List.perm_middle

end Lookup

/-! ## The shelf -/

theorem Stack.beq_eq {α : Type} [DecidableEq α] (s t : Stack α) :
    (s == t) = decide (s.entries = t.entries) := by
  rw [beq_eq_decide]
  exact decide_eq_decide.mpr ⟨congrArg Stack.entries, Stack.ext_entries⟩

namespace Shelf

variable {α : Type} {shelf : Shelf α} {lists : String → List α}

theorem stack_erase (shelf : Shelf α) (name other : String) :
    (shelf.erase name).stack other = if other = name then ∅ else shelf.stack other := by
  rw [stack, erase]
  split
  · rename_i hname
    rw [hname, lookup_filter_self]
    rfl
  · rename_i hname
    rw [lookup_filter_ne shelf hname, stack]

theorem stack_insert (shelf : Shelf α) (name : String) (s : Stack α) (other : String) :
    (shelf.insert name s).stack other = if other = name then s else shelf.stack other := by
  rw [stack, insert, erase, lookup_replace]
  split <;> rfl

@[simp] theorem stack_ensure (shelf : Shelf α) (name other : String) :
    (shelf.ensure name).stack other = shelf.stack other := by
  rw [ensure, stack_insert]
  split
  · rename_i hname
    rw [hname]
  · rfl

/-- What a command does to the list of each name, top first. Only the list of one name changes. -/
def Command.change (lists : String → List α) : Command α → String → List α
  | .push name value => Function.update lists name (value :: lists name)
  | .pop name | .drop name => Function.update lists name (lists name).tail
  | .clear name | .erase name => Function.update lists name []
  | .ofList name values => Function.update lists name values.reverse
  | .copy name target => Function.update lists target (lists name)
  | .compare .. | .list _ | .show _ => lists

/-- What a command answers about the lists. -/
def Command.answer [DecidableEq α] [ToString α] (lists : String → List α) : Command α → Reply α
  | .pop name => (lists name).head?.elim .none .value
  | .compare name other => .equal (lists name = lists other)
  | .list name => .entries (lists name)
  | .show name => .text ("[" ++ ", ".intercalate ((lists name).reverse.map toString) ++ "]")
  | .push .. | .drop _ | .clear _ | .erase _ | .ofList .. | .copy .. => .none

/-- The stacks on a shelf have the entries of some lists. -/
def Lists (shelf : Shelf α) (lists : String → List α) : Prop :=
  ∀ name, (shelf.stack name).entries = lists name

theorem Lists.insert (h : shelf.Lists lists) (name : String) {s : Stack α} {list : List α}
    (hentries : s.entries = list) : (shelf.insert name s).Lists (Function.update lists name list) := by
  intro other
  rw [stack_insert]
  by_cases hname : other = name
  · subst hname
    rw [if_pos rfl, Function.update_self, hentries]
  · rw [if_neg hname, Function.update_of_ne hname, h]

theorem Lists.erase (h : shelf.Lists lists) (name : String) :
    (shelf.erase name).Lists (Function.update lists name []) := by
  intro other
  rw [stack_erase]
  by_cases hname : other = name
  · subst hname
    rw [if_pos rfl, Function.update_self]
    rfl
  · rw [if_neg hname, Function.update_of_ne hname, h]

theorem Lists.ensure (h : shelf.Lists lists) (name : String) : (shelf.ensure name).Lists lists := by
  intro other
  rw [stack_ensure, h]

/-- A command answers what it answers about the lists, and does to the stacks what it does to the
    lists. -/
theorem Lists.run [DecidableEq α] [ToString α] (h : shelf.Lists lists) (command : Command α) :
    (shelf.run command).1 = command.answer lists ∧
      (shelf.run command).2.Lists (command.change lists) := by
  cases command with
  | push name value => exact ⟨rfl, h.insert name (congrArg (value :: ·) (h name))⟩
  | pop name =>
      refine ⟨?_, h.insert name ?_⟩
      · rw [Command.answer, ← h name]
        rfl
      · rw [← h name]
        exact List.drop_one
  | drop name =>
      refine ⟨rfl, h.insert name ?_⟩
      rw [← h name]
      exact List.drop_one
  | clear name => exact ⟨rfl, h.insert name rfl⟩
  | ofList name values =>
      exact ⟨rfl, h.insert name (List.reverse_eq_iff.mp (Stack.toList_ofList values))⟩
  | copy name target => exact ⟨rfl, (h.ensure name).insert target (h name)⟩
  | erase name => exact ⟨rfl, h.erase name⟩
  | compare name other =>
      refine ⟨?_, (h.ensure name).ensure other⟩
      rw [Command.answer, ← h name, ← h other, ← Stack.beq_eq]
      rfl
  | list name => exact ⟨congrArg Reply.entries (h name), h.ensure name⟩
  | «show» name =>
      refine ⟨?_, h.ensure name⟩
      rw [Command.answer, ← h name]
      rfl

/-- Carries out commands one after the other. -/
def runAll [DecidableEq α] [ToString α] (shelf : Shelf α) : List (Command α) → List (Reply α) × Shelf α
  | [] => ([], shelf)
  | command :: commands =>
    let later := (shelf.run command).2.runAll commands
    ((shelf.run command).1 :: later.1, later.2)

/-- What commands answer about lists, and the lists behind them. -/
def follow [DecidableEq α] [ToString α] (lists : String → List α) :
    List (Command α) → List (Reply α) × (String → List α)
  | [] => ([], lists)
  | command :: commands =>
    let later := follow (command.change lists) commands
    (command.answer lists :: later.1, later.2)

theorem Lists.runAll [DecidableEq α] [ToString α] (h : shelf.Lists lists) (commands : List (Command α)) :
    (shelf.runAll commands).1 = (follow lists commands).1 ∧
      (shelf.runAll commands).2.Lists (follow lists commands).2 := by
  induction commands generalizing shelf lists with
  | nil => exact ⟨rfl, h⟩
  | cons command commands ih =>
      obtain ⟨hanswer, hlists⟩ := h.run command
      obtain ⟨hreplies, hlast⟩ := ih hlists
      exact ⟨congrArg₂ List.cons hanswer hreplies, hlast⟩

end Shelf

/-! ## The same commands on shared nodes -/

namespace Shared

/-- Stacks by name, with their nodes in one memory. The first stack of a name counts. -/
structure Stacks (α : Type) where
  memory : Memory α
  handles : List (String × Handle)

namespace Stacks

variable {α : Type}

instance : EmptyCollection (Stacks α) where
  emptyCollection := ⟨∅, []⟩

/-- The stack of a name; a name without a stack stands for an empty one. -/
def handle (s : Stacks α) (name : String) : Handle :=
  (s.handles.lookup name).getD ∅

/-- All stacks but that of a name. -/
def others (s : Stacks α) (name : String) : List (String × Handle) :=
  s.handles.filter fun entry => entry.1 != name

/-- Puts a stack in the place of one whose reference was moved or given up. -/
def put (s : Stacks α) (name : String) (h : Handle) (m : Memory α) : Stacks α :=
  ⟨m, (name, h) :: s.others name⟩

/-- Puts an empty stack under a name unless it has one. -/
def ensure (s : Stacks α) (name : String) : Stacks α :=
  s.put name (s.handle name) s.memory

/-- Carries out a command. -/
def run [DecidableEq α] [ToString α] (s : Stacks α) :
    Shelf.Command α → Except Fault (Shelf.Reply α × Stacks α)
  | .push name value =>
    let (h, m) := (s.handle name).push s.memory value
    .ok (.none, s.put name h m)
  | .pop name => do
    let (value?, h, m) ← (s.handle name).pop s.memory
    return (value?.elim .none .value, s.put name h m)
  | .drop name => do
    let (h, m) ← (s.handle name).dropTop s.memory
    return (.none, s.put name h m)
  | .clear name => do
    let (h, m) ← (s.handle name).clear s.memory
    return (.none, s.put name h m)
  | .ofList name values => do
    let built := Handle.ofList s.memory values
    let m ← (s.handle name).discard built.2
    return (.none, s.put name built.1 m)
  | .copy name target => do
    let s := s.ensure name
    let (h, m) ← (s.handle name).clone s.memory
    let m ← (s.handle target).discard m
    return (.none, s.put target h m)
  | .erase name => do
    let m ← (s.handle name).discard s.memory
    return (.none, ⟨m, s.others name⟩)
  | .compare name other => do
    let answer ← (s.handle name).equal s.memory (s.handle other)
    return (.equal answer, (s.ensure name).ensure other)
  | .list name => do
    let entries ← (s.handle name).entries s.memory
    return (.entries entries, s.ensure name)
  | .show name => do
    let text ← (s.handle name).text toString s.memory
    return (.text text, s.ensure name)

/-- The references that some stacks hold. -/
def tops (handles : List (String × Handle)) : List (Option Nat) :=
  handles.map fun entry => entry.2.top

variable {s : Stacks α} {shelf : Shelf α} {name other : String} {m : Memory α} {h : Handle}

/-- The stacks are those of a shelf: the same names have stacks, with the same entries, and all
    references are counted. -/
structure Agrees (s : Stacks α) (shelf : Shelf α) : Prop where
  names : s.handles.map Prod.fst = shelf.map Prod.fst
  nodup : (s.handles.map Prod.fst).Nodup
  counted : s.memory.Counted (tops s.handles)
  lists : ∀ name, (s.handle name).Lists s.memory (shelf.stack name).entries

theorem handle_put (s : Stacks α) (name : String) (h : Handle) (m : Memory α) (other : String) :
    (s.put name h m).handle other = if other = name then h else s.handle other := by
  rw [handle, put, others, lookup_replace]
  split <;> rfl

theorem names_others (hnames : s.handles.map Prod.fst = shelf.map Prod.fst) (name : String) :
    (s.others name).map Prod.fst = (shelf.erase name).map Prod.fst := by
  have hfilter {β : Type} (entries : List (String × β)) :
      (entries.filter fun entry => entry.1 != name).map Prod.fst =
        (entries.map Prod.fst).filter (· != name) := by
    rw [List.filter_map]
    rfl
  rw [others, Shelf.erase, hfilter, hfilter, hnames]

namespace Agrees

theorem empty : Agrees (∅ : Stacks α) [] where
  names := rfl
  nodup := List.nodup_nil
  counted := .empty
  lists _ := .empty _

/-- The stack of a name is held besides all others. -/
theorem held (hagrees : Agrees s shelf) (name : String) :
    (s.handle name).Held s.memory (tops (s.others name)) (shelf.stack name).entries := by
  refine ⟨?_, hagrees.lists name⟩
  have hcounted := hagrees.counted
  cases hlookup : s.handles.lookup name with
  | none =>
      have hsame : s.others name = s.handles := filter_eq_of_lookup hlookup
      rw [handle, hlookup, hsame]
      exact Memory.Counted.none_cons_iff.mpr hcounted
  | some h =>
      rw [handle, hlookup]
      exact hcounted.perm ((perm_of_lookup hagrees.nodup hlookup).map _)

/-- Where all others keep their entries, so does the stack of another name. -/
theorem lists_of_keeps (hagrees : Agrees s shelf) (hkeeps : s.memory.Keeps m (tops (s.others name)))
    (hname : other ≠ name) : (s.handle other).Lists m (shelf.stack other).entries := by
  obtain ⟨hchain, hsize⟩ := hagrees.lists other
  refine ⟨?_, hsize⟩
  have hlookup : (s.others name).lookup other = s.handles.lookup other :=
    lookup_filter_ne s.handles hname
  rw [handle, ← hlookup] at hchain ⊢
  cases hstack : (s.others name).lookup other with
  | none =>
      rw [hstack] at hchain
      generalize (shelf.stack other).entries = list at hchain
      cases hchain
      exact .nil
  | some h =>
      rw [hstack] at hchain
      obtain ⟨front, behind, hothers, -⟩ := List.lookup_eq_some_iff.mp hstack
      have hmem : (other, h) ∈ s.others name := hothers ▸ List.mem_append_right front List.mem_cons_self
      exact hkeeps _ (List.mem_map_of_mem hmem) _ hchain

theorem erase (hagrees : Agrees s shelf) (hcounted : m.Counted (tops (s.others name)))
    (hkeeps : s.memory.Keeps m (tops (s.others name))) :
    Agrees ⟨m, s.others name⟩ (shelf.erase name) where
  names := names_others hagrees.names name
  nodup := hagrees.nodup.sublist (List.filter_sublist.map _)
  counted := hcounted
  lists other := by
    rw [Shelf.stack_erase]
    by_cases hname : other = name
    · rw [if_pos hname, hname, handle, others, lookup_filter_self]
      exact .empty m
    · rw [if_neg hname, handle, others, lookup_filter_ne s.handles hname]
      exact hagrees.lists_of_keeps hkeeps hname

theorem put (hagrees : Agrees s shelf) (stack : Stack α)
    (hheld : h.Held m (tops (s.others name)) stack.entries)
    (hkeeps : s.memory.Keeps m (tops (s.others name))) :
    Agrees (s.put name h m) (shelf.insert name stack) where
  names := congrArg (name :: ·) (names_others hagrees.names name)
  nodup := by
    refine List.nodup_cons.mpr ⟨fun hmem => ?_, hagrees.nodup.sublist (List.filter_sublist.map _)⟩
    obtain ⟨entry, hentry, hname⟩ := List.mem_map.mp hmem
    simpa [hname] using (List.mem_filter.mp hentry).2
  counted := hheld.counted
  lists other := by
    rw [handle_put, Shelf.stack_insert]
    split
    · exact hheld.lists
    · rename_i hname
      exact hagrees.lists_of_keeps hkeeps hname

theorem ensure (hagrees : Agrees s shelf) (name : String) :
    Agrees (s.ensure name) (shelf.ensure name) :=
  hagrees.put _ (hagrees.held name) fun _ _ _ hchain => hchain

/-- Every command works, answers what the shelf answers, and does to the stacks what it does to those of
    the shelf. -/
theorem run [DecidableEq α] [ToString α] (hagrees : Agrees s shelf) (command : Shelf.Command α) :
    ∃ s', s.run command = .ok ((shelf.run command).1, s') ∧ Agrees s' (shelf.run command).2 := by
  have hage := hagrees.counted.older
  cases command with
  | push name value =>
      obtain ⟨hheld, hkeeps⟩ := (hagrees.held name).push value
      exact ⟨_, rfl, hagrees.put ((shelf.stack name).push value) hheld hkeeps⟩
  | pop name =>
      obtain ⟨h, m, hpop, hheld, hkeeps⟩ := (hagrees.held name).pop
      refine ⟨_, by rw [Stacks.run, hpop]; rfl, ?_⟩
      rw [← List.drop_one] at hheld
      exact hagrees.put ((shelf.stack name).drop 1) hheld hkeeps
  | drop name =>
      obtain ⟨h, m, hdrop, hheld, hkeeps⟩ := (hagrees.held name).dropTop
      refine ⟨_, by rw [Stacks.run, hdrop]; rfl, ?_⟩
      rw [← List.drop_one] at hheld
      exact hagrees.put ((shelf.stack name).drop 1) hheld hkeeps
  | clear name =>
      obtain ⟨m, hclear, hheld, hkeeps⟩ := (hagrees.held name).clear
      exact ⟨_, by rw [Stacks.run, hclear]; rfl, hagrees.put ∅ hheld hkeeps⟩
  | ofList name values =>
      obtain ⟨hbuilt, hkeeps⟩ := Handle.Held.ofList (hagrees.held name).counted values
      obtain ⟨m, hdiscard, hheld, hkeeps'⟩ := hbuilt.discard_other
      refine ⟨_, by rw [Stacks.run, hdiscard]; rfl, ?_⟩
      rw [← List.reverse_eq_iff.mp (Stack.toList_ofList values)] at hheld
      exact hagrees.put _ hheld ((hkeeps.mono (List.subset_cons_self _ _)).trans hkeeps')
  | copy name target =>
      have hensured := hagrees.ensure name
      have hlists := hensured.lists name
      rw [Shelf.stack_ensure] at hlists
      obtain ⟨copied, hclone, hcopied, hkeeps⟩ :=
        Handle.Held.clone hlists (hensured.held target).counted
      obtain ⟨m, hdiscard, hheld, hkeeps'⟩ := hcopied.discard_other
      refine ⟨_, by simp only [Stacks.run, hclone, hdiscard, bind, Except.bind]; rfl, ?_⟩
      exact hensured.put _ hheld ((hkeeps.mono (List.subset_cons_self _ _)).trans hkeeps')
  | erase name =>
      obtain ⟨m, hdiscard, hcounted, hkeeps⟩ := (hagrees.held name).discard
      exact ⟨_, by rw [Stacks.run, hdiscard]; rfl, hagrees.erase hcounted hkeeps⟩
  | compare name other =>
      have hequal := (hagrees.lists name).equal_eq (hagrees.lists other) hage
      refine ⟨_, ?_, (hagrees.ensure name).ensure other⟩
      rw [Stacks.run, hequal, Shelf.run, Stack.beq_eq]
      rfl
  | list name =>
      have hentries := (hagrees.lists name).entries_eq hage
      exact ⟨_, by rw [Stacks.run, hentries]; rfl, hagrees.ensure name⟩
  | «show» name =>
      have htext := (hagrees.lists name).text_eq hage toString
      exact ⟨_, by rw [Stacks.run, htext]; rfl, hagrees.ensure name⟩

end Agrees

/-- Carries out commands one after the other. -/
def runAll [DecidableEq α] [ToString α] (s : Stacks α) :
    List (Shelf.Command α) → Except Fault (List (Shelf.Reply α) × Stacks α)
  | [] => .ok ([], s)
  | command :: commands => do
    let (reply, s) ← s.run command
    let (replies, last) ← s.runAll commands
    return (reply :: replies, last)

theorem Agrees.runAll [DecidableEq α] [ToString α] (hagrees : Agrees s shelf)
    (commands : List (Shelf.Command α)) : ∃ last,
      s.runAll commands = .ok ((shelf.runAll commands).1, last) ∧
        Agrees last (shelf.runAll commands).2 := by
  induction commands generalizing s shelf with
  | nil => exact ⟨s, rfl, hagrees⟩
  | cons command commands ih =>
      obtain ⟨next, hrun, hnext⟩ := hagrees.run command
      obtain ⟨last, hlater, hlast⟩ := ih hnext
      refine ⟨last, ?_, hlast⟩
      rw [Stacks.runAll, hrun]
      simp only [bind, Except.bind, hlater]
      rfl

/-- After any commands, on any stacks that were copied from one another, nothing has gone wrong in
    memory. All answers were those about lists of which each command changes one, and so were those of
    the shelf. The nodes of each stack hold its list, top first. Its size is their number, and whatever
    else can be asked of it, the list answers too. Two stacks are equal just when their lists are. -/
theorem shared_stacks_are_lists [DecidableEq α] [ToString α] (commands : List (Shelf.Command α)) :
    let answers := (Shelf.follow (fun _ => []) commands).1
    let lists := (Shelf.follow (fun _ => []) commands).2
    ∃ (s : Stacks α) (shelf : Shelf α), runAll ∅ commands = .ok (answers, s) ∧
      Shelf.runAll [] commands = (answers, shelf) ∧ s.handles.map Prod.fst = shelf.map Prod.fst ∧
      ∀ name, (shelf.stack name).entries = lists name ∧
        s.memory.Chain (s.handle name).top (lists name) ∧
        (s.handle name).size = (lists name).length ∧
        (s.handle name).isEmpty = (lists name).isEmpty ∧
        (s.handle name).top? s.memory = .ok (lists name).head? ∧
        ((s.handle name).pop s.memory).map Prod.fst = .ok (lists name).head? ∧
        (s.handle name).entries s.memory = .ok (lists name) ∧
        (s.handle name).toList s.memory = .ok (lists name).reverse ∧
        (s.handle name).text toString s.memory =
          .ok ("[" ++ ", ".intercalate ((lists name).reverse.map toString) ++ "]") ∧
        ∀ other, (s.handle name).equal s.memory (s.handle other) =
          .ok (decide (lists name = lists other)) := by
  intro answers lists
  have hempty : Shelf.Lists ([] : Shelf α) fun _ => [] := fun _ => rfl
  obtain ⟨s, hrun, hagrees⟩ := Agrees.empty.runAll commands
  obtain ⟨hanswers, hentries⟩ := hempty.runAll commands
  have hage := hagrees.counted.older
  have hlists : ∀ name, (s.handle name).Lists s.memory (lists name) := by
    intro name
    have hstack := hagrees.lists name
    rw [hentries name] at hstack
    exact hstack
  refine ⟨s, (Shelf.runAll [] commands).2, by rw [hrun, hanswers], Prod.ext hanswers rfl, hagrees.names,
    fun name => ?_⟩
  obtain ⟨h', m', hpop, -⟩ := (hagrees.held name).pop
  refine ⟨hentries name, (hlists name).chain, (hlists name).size_eq, (hlists name).isEmpty_eq,
    (hlists name).top?_eq, ?_, (hlists name).entries_eq hage, (hlists name).toList_eq hage,
    (hlists name).text_eq hage toString, fun other => (hlists name).equal_eq (hlists other) hage⟩
  rw [hpop, hentries name]
  rfl

-- The copy begins with the node of the stack that was copied, and both stacks have it below their tops.
example : ((runAll ∅ [.push "a" 1, .copy "a" "b", .push "b" 2, .push "a" 3]).toOption.map fun (_, s) =>
    (s.memory.cells, s.handle "a", s.handle "b")) =
    some ([some ⟨1, none, 2⟩, some ⟨2, some 0, 1⟩, some ⟨3, some 0, 1⟩], ⟨some 2, 2⟩, ⟨some 1, 2⟩) := by
  cbv

end Stacks

end Shared

end Relex
