import Mathlib.Data.List.Count
import Relex.Stack.Basic

/-! # Nodes that stacks share

A stack can be kept in memory as a chain of nodes, the top entry first. A copy begins with the same node,
so two stacks share what they have in common, and every node counts the references that hold it. With the
last reference the node is freed, and the reference to the node below is given up in turn.

A memory is `Counted` for the references from outside if every count is right and every node is older
than the one above it. Then no node is missed: a reference can be copied (`Counted.retain`) and given up
(`Counted.release`), and whatever else is held keeps its entries. So each operation on a stack works
(`Held.push`, `Held.dropTop`, `Held.clone`, `Held.discard`), with the entries that its list says.
-/

namespace Relex.Shared

/-! ## Memory -/

/-- An entry of a stack, the address of the node below, and how many references hold the node. -/
structure Node (α : Type) where
  entry : α
  below : Option Nat
  holders : Nat
  deriving Repr, DecidableEq

/-- What could go wrong with nodes. -/
inductive Fault where
  /-- A reference to a node that was freed. -/
  | freed (address : Nat)
  /-- A node that is not older than the one above it. The way down might not end. -/
  | endless (address : Nat)
  /-- An entry taken from a stack whose size is zero. -/
  | sizeBelowZero
  deriving Repr, DecidableEq

/-- The nodes by address, nothing where one was freed. No address is used again. -/
structure Memory (α : Type) where
  cells : List (Option (Node α))
  deriving Repr, DecidableEq

namespace Memory

variable {α : Type}

instance : EmptyCollection (Memory α) where
  emptyCollection := ⟨[]⟩

def node? (m : Memory α) (a : Nat) : Option (Node α) :=
  m.cells[a]?.join

/-- The node that a reference leads to. -/
def node (m : Memory α) (a : Nat) : Except Fault (Node α) :=
  match m.node? a with
  | some node => .ok node
  | none => .error (.freed a)

/-- Makes a node, and answers its address. -/
def allocate (m : Memory α) (node : Node α) : Nat × Memory α :=
  (m.cells.length, ⟨m.cells ++ [some node]⟩)

/-- Replaces or frees a node. -/
def write (m : Memory α) (a : Nat) (cell : Option (Node α)) : Memory α :=
  ⟨m.cells.set a cell⟩

/-- How many nodes are not freed. -/
def live (m : Memory α) : Nat :=
  m.cells.countP Option.isSome

theorem exists_cell {m : Memory α} {a : Nat} {node : Node α} (h : m.node? a = some node) :
    ∃ hlt : a < m.cells.length, m.cells[a] = some node :=
  List.getElem?_eq_some_iff.mp (Option.join_eq_some_iff.mp h)

/-- Among the cells, the one that is replaced no longer counts, and the new one counts. -/
theorem countP_write {m : Memory α} {a : Nat} {node : Node α} (h : m.node? a = some node)
    (p : Option (Node α) → Bool) (cell : Option (Node α)) :
    (m.write a cell).cells.countP p + (if p (some node) then 1 else 0) =
      m.cells.countP p + if p cell then 1 else 0 := by
  obtain ⟨hlt, hcell⟩ := exists_cell h
  have hone := List.boole_getElem_le_countP (p := p) hlt
  rw [hcell] at hone
  rw [write, List.countP_set hlt, hcell]
  omega

theorem live_write_none {m : Memory α} {a : Nat} {node : Node α} (h : m.node? a = some node) :
    (m.write a none).live < m.live := by
  have hcount := countP_write h Option.isSome none
  simp only [Option.isSome_some, Option.isSome_none, if_true, Bool.false_eq_true, if_false] at hcount
  simp only [live]
  omega

/-- Copies a reference. -/
def retain (m : Memory α) : Option Nat → Except Fault (Memory α)
  | none => .ok m
  | some a => do
    let node ← m.node a
    return m.write a (some { node with holders := node.holders + 1 })

/-- Gives a reference up. The last one frees the node. -/
def release (m : Memory α) (reference : Option Nat) : Except Fault (Memory α) :=
  match reference with
  | none => .ok m
  | some a =>
    match _hnode : m.node? a with
    | none => .error (.freed a)
    | some node =>
      if node.holders = 1 then (m.write a none).release node.below
      else .ok (m.write a (some { node with holders := node.holders - 1 }))
termination_by m.live
decreasing_by exact live_write_none _hnode

/-- The entries from a node down. -/
def entries (m : Memory α) : Option Nat → Except Fault (List α)
  | none => .ok []
  | some a => do
    let node ← m.node a
    match node.below with
    | none => return [node.entry]
    | some b =>
      if b < a then
        let rest ← m.entries (some b)
        return node.entry :: rest
      else
        .error (.endless a)
termination_by reference => reference.getD 0

/-! ## What is written and made -/

variable {m m' : Memory α} {a b : Nat} {node old : Node α} {reference : Option Nat} {entries : List α}
  {roots : List (Option Nat)}

theorem node_eq (h : m.node? a = some node) : m.node a = .ok node := by
  rw [Memory.node, h]

theorem node?_write (h : m.node? a = some old) (cell : Option (Node α)) (x : Nat) :
    (m.write a cell).node? x = if x = a then cell else m.node? x := by
  obtain ⟨hlt, -⟩ := exists_cell h
  rw [node?, write, List.getElem?_set]
  by_cases hx : x = a
  · subst hx
    simp [hlt]
  · rw [if_neg (Ne.symm hx), if_neg hx, node?]

theorem node?_allocate (m : Memory α) (node : Node α) (x : Nat) :
    (m.allocate node).2.node? x = if x = m.cells.length then some node else m.node? x := by
  rw [node?, allocate, List.getElem?_append]
  split
  · rename_i hlt
    rw [if_neg (Nat.ne_of_lt hlt), node?]
  · rename_i hle
    by_cases hx : x = m.cells.length
    · simp [hx]
    · have hnone : m.cells[x]? = none := List.getElem?_eq_none (Nat.not_lt.mp hle)
      have hpast : x - m.cells.length ≠ 0 := by omega
      rw [if_neg hx, node?, hnone, List.getElem?_singleton, if_neg hpast]

/-- No node stands at the address that is used next. -/
theorem node?_length (m : Memory α) : m.node? m.cells.length = none := by
  rw [node?, List.getElem?_eq_none (Nat.le_refl _)]
  rfl

/-! ## Entries -/

/-- Going down from a reference, these entries are met and then the end. -/
inductive Chain (m : Memory α) : Option Nat → List α → Prop
  | nil : Chain m none []
  | cons {a : Nat} {node : Node α} {entries : List α} (hnode : m.node? a = some node)
      (hbelow : Chain m node.below entries) : Chain m (some a) (node.entry :: entries)

theorem Chain.exists_node (h : m.Chain reference entries) :
    ∀ a ∈ reference, ∃ node, m.node? a = some node := by
  rintro a rfl
  cases h with
  | cons hnode _ => exact ⟨_, hnode⟩

/-- Every node is older than the one above it. -/
def Older (m : Memory α) : Prop :=
  ∀ a node, m.node? a = some node → ∀ b ∈ node.below, b < a

/-- Nothing else comes to stand below a node. -/
theorem Older.write (h : m.Older) (hnode : m.node? a = some node) {cell : Option (Node α)}
    (hcell : ∀ other ∈ cell, other.below = node.below) : (m.write a cell).Older := by
  intro x other hother b hb
  rw [node?_write hnode] at hother
  split at hother
  · rename_i hx
    subst hx
    exact h x node hnode b (hcell other hother ▸ hb)
  · exact h x other hother b hb

theorem Chain.entries_eq (h : m.Chain reference entries) (hage : m.Older) :
    m.entries reference = .ok entries := by
  induction h with
  | nil => rw [Memory.entries]
  | @cons a node entries hnode hbelow ih =>
      rw [Memory.entries, node_eq hnode]
      simp only [bind, Except.bind, pure, Except.pure]
      cases hnext : node.below with
      | none =>
          rw [hnext] at hbelow
          cases hbelow
          rfl
      | some b =>
          have hlt : b < a := hage a node hnode b hnext
          rw [hnext] at ih
          simp only [if_pos hlt, ih]

/-! ## References -/

/-- Whether a cell holds a node above an address. -/
def standsOn (x : Nat) (cell : Option (Node α)) : Bool :=
  cell.any fun node => node.below = some x

/-- How many references hold the node at an address, as the node counts them. -/
def holders (m : Memory α) (x : Nat) : Nat :=
  (m.node? x).elim 0 Node.holders

/-- How many references to an address there are in the nodes. -/
def above (m : Memory α) (x : Nat) : Nat :=
  m.cells.countP (standsOn x)

/-- The nodes count exactly the references that there are: those in nodes, and some from outside. -/
structure Counted (m : Memory α) (roots : List (Option Nat)) : Prop where
  holders_eq : ∀ x, m.holders x = roots.count (some x) + m.above x
  older : m.Older

theorem holders_write (h : m.node? a = some old) (cell : Option (Node α)) (x : Nat) :
    (m.write a cell).holders x = if x = a then cell.elim 0 Node.holders else m.holders x := by
  rw [holders, node?_write h]
  split <;> rfl

theorem holders_of_node (h : m.node? a = some node) : m.holders a = node.holders := by
  rw [holders, h]
  rfl

/-- Counting otherwise changes no reference. -/
theorem above_recount (h : m.node? a = some node) (n x : Nat) :
    (m.write a (some { node with holders := n })).above x = m.above x := by
  have hcount := countP_write h (standsOn x) (some { node with holders := n })
  simp only [standsOn, Option.any_some] at hcount
  exact Nat.add_right_cancel hcount

theorem above_free (h : m.node? a = some node) (x : Nat) :
    (m.write a none).above x + (if node.below = some x then 1 else 0) = m.above x := by
  have hcount := countP_write h (standsOn x) none
  simpa [standsOn, above] using hcount

theorem above_allocate (m : Memory α) (node : Node α) (x : Nat) :
    (m.allocate node).2.above x = m.above x + if node.below = some x then 1 else 0 := by
  simp [above, allocate, List.countP_append, List.countP_singleton, standsOn]

theorem above_pos (h : m.node? a = some node) (hbelow : node.below = some b) : 0 < m.above b := by
  have hfree := above_free h b
  rw [if_pos hbelow] at hfree
  omega

namespace Counted

theorem empty : Counted (∅ : Memory α) [] where
  holders_eq _ := rfl
  older := nofun

theorem perm (h : m.Counted roots) {others : List (Option Nat)} (hperm : roots.Perm others) :
    m.Counted others where
  holders_eq x := by rw [h.holders_eq, hperm.count_eq]
  older := h.older

/-- A reference leads to a node. -/
theorem exists_node (h : m.Counted roots) (hx : 0 < roots.count (some a) + m.above a) :
    ∃ node, m.node? a = some node := by
  rw [← h.holders_eq, holders] at hx
  cases hnode : m.node? a with
  | none => simp [hnode] at hx
  | some node => exact ⟨node, rfl⟩

theorem exists_node_of_mem (h : m.Counted roots) (ha : some a ∈ roots) :
    ∃ node, m.node? a = some node :=
  h.exists_node (Nat.add_pos_left (List.count_pos_iff.mpr ha) _)

theorem exists_node_below (h : m.Counted roots) (hnode : m.node? a = some node)
    (hbelow : node.below = some b) : ∃ node, m.node? b = some node :=
  h.exists_node (Nat.add_pos_right _ (above_pos hnode hbelow))

end Counted

/-! ## What is kept -/

/-- All that is held keeps its entries. -/
def Keeps (m m' : Memory α) (roots : List (Option Nat)) : Prop :=
  ∀ reference ∈ roots, ∀ entries, m.Chain reference entries → m'.Chain reference entries

theorem Keeps.trans {m'' : Memory α} (h : Keeps m m' roots) (h' : Keeps m' m'' roots) :
    Keeps m m'' roots :=
  fun reference hroot entries hchain => h' reference hroot entries (h reference hroot entries hchain)

theorem Keeps.mono {others : List (Option Nat)} (h : Keeps m m' roots) (hsub : others ⊆ roots) :
    Keeps m m' others :=
  fun reference hroot => h reference (hsub hroot)

/-- Entries do not depend on what the nodes count. -/
theorem Chain.recount (h : m.Chain reference entries) (hnode : m.node? a = some node) (n : Nat) :
    (m.write a (some { node with holders := n })).Chain reference entries := by
  induction h with
  | nil => exact .nil
  | @cons x other entries hother hbelow ih =>
      by_cases hx : x = a
      · subst hx
        cases hnode.symm.trans hother
        have hnew : (m.write x (some { node with holders := n })).node? x =
            some { node with holders := n } := by rw [node?_write hnode, if_pos rfl]
        have hchain := Chain.cons hnew ih
        exact hchain
      · exact .cons (by rw [node?_write hnode, if_neg hx]; exact hother) ih

theorem Chain.allocate (h : m.Chain reference entries) (node : Node α) :
    (m.allocate node).2.Chain reference entries := by
  induction h with
  | nil => exact .nil
  | @cons x other entries hother hbelow ih =>
      have hx : x ≠ m.cells.length := by
        rintro rfl
        rw [node?_length] at hother
        cases hother
      exact .cons (by rw [node?_allocate, if_neg hx]; exact hother) ih

/-- A node that nothing stands on is not missed. -/
theorem Chain.free (h : m.Chain reference entries) (hnode : m.node? a = some node)
    (habove : m.above a = 0) (hreference : reference ≠ some a) :
    (m.write a none).Chain reference entries := by
  induction h with
  | nil => exact .nil
  | @cons x other entries hother hbelow ih =>
      have hx : x ≠ a := fun hx => hreference (congrArg some hx)
      have hnext : other.below ≠ some a := by
        intro hnext
        have hpos := above_pos hother hnext
        omega
      exact .cons (by rw [node?_write hnode, if_neg hx]; exact hother) (ih hnext)

/-! ## Copying and giving up references -/

namespace Counted

theorem none_cons_iff : m.Counted (none :: roots) ↔ m.Counted roots := by
  have hcount : ∀ x, (none :: roots).count (some x) = roots.count (some x) := fun x => by simp
  exact ⟨fun h => ⟨fun x => (hcount x) ▸ h.holders_eq x, h.older⟩,
    fun h => ⟨fun x => (hcount x).symm ▸ h.holders_eq x, h.older⟩⟩

/-- A node that is counted anew, after the references to it have changed and no others. -/
theorem recount {others : List (Option Nat)} {n : Nat} (h : m.Counted roots)
    (hnode : m.node? a = some node) (hn : n = others.count (some a) + m.above a)
    (hothers : ∀ x, x ≠ a → others.count (some x) = roots.count (some x)) :
    (m.write a (some { node with holders := n })).Counted others where
  holders_eq x := by
    rw [holders_write hnode, above_recount hnode]
    by_cases hx : x = a
    · subst hx
      rw [if_pos rfl, ← hn]
      rfl
    · rw [if_neg hx, hothers x hx, h.holders_eq]
  older := h.older.write hnode fun other hother => by cases hother; rfl

/-- A reference can be copied where it leads to a node. All that there is keeps its entries. -/
theorem retain (h : m.Counted roots) (hreference : ∀ a ∈ reference, ∃ node, m.node? a = some node) :
    ∃ m', m.retain reference = .ok m' ∧ m'.Counted (reference :: roots) ∧
      ∀ r entries, m.Chain r entries → m'.Chain r entries := by
  cases reference with
  | none => exact ⟨m, rfl, none_cons_iff.mpr h, fun _ _ hchain => hchain⟩
  | some a =>
      obtain ⟨node, hnode⟩ := hreference a rfl
      have hall := h.holders_eq a
      rw [holders_of_node hnode] at hall
      have hone : node.holders + 1 = (some a :: roots).count (some a) + m.above a := by
        rw [List.count_cons_self]
        omega
      have hothers : ∀ x, x ≠ a → (some a :: roots).count (some x) = roots.count (some x) :=
        fun x hx => List.count_cons_of_ne fun hsame => hx (Option.some.inj hsame).symm
      exact ⟨_, by rw [Memory.retain, node_eq hnode]; rfl, h.recount hnode hone hothers,
        fun _ _ hchain => hchain.recount hnode _⟩

/-- Without the last reference to a node, the node below is held in its place. -/
theorem free (h : m.Counted (some a :: roots)) (hnode : m.node? a = some node)
    (hlast : node.holders = 1) : (m.write a none).Counted (node.below :: roots) ∧
      Keeps m (m.write a none) (node.below :: roots) := by
  have hall := h.holders_eq a
  rw [holders_of_node hnode, hlast, List.count_cons_self] at hall
  have hroots : some a ∉ roots := List.count_eq_zero.mp (by omega)
  have hbelow : node.below ≠ some a := fun hbelow => Nat.lt_irrefl a (h.older a node hnode a hbelow)
  refine ⟨⟨fun x => ?_, h.older.write hnode nofun⟩, ?_⟩
  · have hfree := above_free hnode x
    rw [holders_write hnode, List.count_cons]
    by_cases hx : x = a
    · subst hx
      rw [if_neg hbelow] at hfree
      rw [if_pos rfl, List.count_eq_zero.mpr hroots, beq_false_of_ne hbelow]
      simp only [Option.elim_none, Bool.false_eq_true, if_false]
      omega
    · have heq := h.holders_eq x
      rw [List.count_cons_of_ne fun hsame => hx (Option.some.inj hsame).symm] at heq
      rw [if_neg hx, heq, ← hfree]
      simp only [beq_iff_eq]
      omega
  · intro reference hreference entries hchain
    refine hchain.free hnode (by omega) ?_
    rintro rfl
    rcases List.mem_cons.mp hreference with heq | hmem
    · exact hbelow heq.symm
    · exact hroots hmem

/-- A reference can be given up. What is held besides keeps its entries. -/
theorem release (h : m.Counted (reference :: roots)) :
    ∃ m', m.release reference = .ok m' ∧ m'.Counted roots ∧ Keeps m m' roots := by
  fun_induction Memory.release m reference with
  | case1 m => exact ⟨m, rfl, none_cons_iff.mp h, fun _ _ _ hchain => hchain⟩
  | case2 m a hnone =>
      obtain ⟨node, hnode⟩ := h.exists_node_of_mem List.mem_cons_self
      cases hnone.symm.trans hnode
  | case3 m a node hnode hlast ih =>
      obtain ⟨hcounted, hkeeps⟩ := h.free hnode hlast
      obtain ⟨m', hrelease, hcounted', hkeeps'⟩ := ih hcounted
      exact ⟨m', hrelease, hcounted', (hkeeps.mono (List.subset_cons_self _ _)).trans hkeeps'⟩
  | case4 m a node hnode hlast =>
      have hall := h.holders_eq a
      rw [holders_of_node hnode, List.count_cons_self] at hall
      have hone : node.holders - 1 = roots.count (some a) + m.above a := by omega
      have hothers : ∀ x, x ≠ a → roots.count (some x) = (some a :: roots).count (some x) :=
        fun x hx => (List.count_cons_of_ne fun hsame => hx (Option.some.inj hsame).symm).symm
      exact ⟨_, rfl, h.recount hnode hone hothers, fun _ _ _ hchain => hchain.recount hnode _⟩

/-- A node that is made for a reference takes it over. All that there is keeps its entries. -/
theorem allocate (h : m.Counted (reference :: roots)) (entry : α) :
    let made := m.allocate ⟨entry, reference, 1⟩
    made.2.Counted (some made.1 :: roots) ∧ made.2.node? made.1 = some ⟨entry, reference, 1⟩ ∧
      ∀ r entries, m.Chain r entries → made.2.Chain r entries := by
  have hnew : (m.allocate ⟨entry, reference, 1⟩).2.node? m.cells.length =
      some ⟨entry, reference, 1⟩ := by
    rw [node?_allocate, if_pos rfl]
  refine ⟨⟨fun x => ?_, ?_⟩, hnew, fun _ _ hchain => hchain.allocate _⟩
  · change _ = (some m.cells.length :: roots).count (some x) + _
    have heq := h.holders_eq x
    rw [above_allocate, List.count_cons]
    rw [List.count_cons] at heq
    by_cases hx : x = m.cells.length
    · -- Nothing could lead to an address that was not in use.
      subst hx
      rw [holders, node?_length] at heq
      rw [holders_of_node hnew]
      simp only [Option.elim_none, beq_iff_eq] at heq ⊢
      simp only [if_true]
      omega
    · have hne : (some m.cells.length == some x) = false := beq_false_of_ne fun hsame =>
        hx (Option.some.inj hsame).symm
      rw [holders, node?_allocate, if_neg hx, ← holders, heq, hne]
      simp only [beq_iff_eq, Bool.false_eq_true, if_false]
      omega
  · intro x other hother b hb
    rw [node?_allocate] at hother
    split at hother
    · rename_i hx
      cases hother
      obtain rfl : reference = some b := hb
      obtain ⟨node, hnode⟩ := h.exists_node_of_mem List.mem_cons_self
      obtain ⟨hlt, -⟩ := exists_cell hnode
      exact hx ▸ hlt
    · exact h.older x other hother b hb

end Counted

end Memory

/-! ## Stacks -/

/-- A stack: the reference to the node of its top entry, and its size. -/
structure Handle where
  top : Option Nat
  size : Nat
  deriving Repr, DecidableEq

namespace Handle

variable {α : Type}

instance : EmptyCollection Handle where
  emptyCollection := ⟨none, 0⟩

def isEmpty (h : Handle) : Bool :=
  h.size == 0

/-- The stack's reference goes over to the new node. -/
def push (m : Memory α) (h : Handle) (entry : α) : Handle × Memory α :=
  let (a, m) := m.allocate ⟨entry, h.top, 1⟩
  (⟨some a, h.size + 1⟩, m)

def top? (m : Memory α) (h : Handle) : Except Fault (Option α) :=
  match h.top with
  | none => .ok none
  | some a => return some (← m.node a).entry

/-- Takes the top entry away. The reference to the node below is copied before that to the top node is
    given up, so that what is below is not freed with it. -/
def dropTop (m : Memory α) (h : Handle) : Except Fault (Handle × Memory α) :=
  match h.top with
  | none => .ok (h, m)
  | some a => do
    let node ← m.node a
    let m ← m.retain node.below
    if h.size = 0 then .error .sizeBelowZero
    let m ← m.release (some a)
    return (⟨node.below, h.size - 1⟩, m)

def pop (m : Memory α) (h : Handle) : Except Fault (Option α × Handle × Memory α) := do
  let taken ← h.top? m
  let (h, m) ← h.dropTop m
  return (taken, h, m)

def clear (m : Memory α) (h : Handle) : Except Fault (Handle × Memory α) := do
  let m ← m.release h.top
  return (∅, m)

/-- A copy begins with the same node. -/
def clone (m : Memory α) (h : Handle) : Except Fault (Handle × Memory α) := do
  let m ← m.retain h.top
  return (h, m)

/-- Gives a stack up. -/
def discard (m : Memory α) (h : Handle) : Except Fault (Memory α) :=
  m.release h.top

/-- Builds a stack, the last of the values on top. -/
def ofList (m : Memory α) (values : List α) : Handle × Memory α :=
  values.foldl (fun (h, m) value => h.push m value) (∅, m)

/-- The entries from the top down. -/
def entries (m : Memory α) (h : Handle) : Except Fault (List α) :=
  m.entries h.top

/-- The entries from the bottom up. -/
def toList (m : Memory α) (h : Handle) : Except Fault (List α) :=
  (h.entries m).map List.reverse

/-- The entries from the bottom up, between square brackets. -/
def text (render : α → String) (m : Memory α) (h : Handle) : Except Fault String := do
  let entries ← h.toList m
  return "[" ++ ", ".intercalate (entries.map render) ++ "]"

/-- Whether two stacks are equal. Stacks of different sizes are not looked at. -/
def equal [DecidableEq α] (m : Memory α) (h other : Handle) : Except Fault Bool :=
  if h.size = other.size then
    return (← h.entries m) == (← other.entries m)
  else
    .ok false

/-! ## What stacks show -/

variable {m : Memory α} {h other : Handle} {list list' : List α} {roots : List (Option Nat)}

/-- The nodes of a stack hold the entries of a list, top first, and its size is the length of the
    list. -/
structure Lists (m : Memory α) (h : Handle) (list : List α) : Prop where
  chain : m.Chain h.top list
  size_eq : h.size = list.length

namespace Lists

theorem empty (m : Memory α) : Lists m ∅ [] :=
  ⟨.nil, rfl⟩

theorem isEmpty_eq (hlists : Lists m h list) : h.isEmpty = list.isEmpty := by
  rw [isEmpty, hlists.size_eq]
  cases list <;> rfl

theorem top?_eq (hlists : Lists m h list) : h.top? m = .ok list.head? := by
  obtain ⟨hchain, -⟩ := hlists
  rw [top?]
  cases htop : h.top with
  | none =>
      rw [htop] at hchain
      cases hchain
      rfl
  | some a =>
      rw [htop] at hchain
      cases hchain with
      | cons hnode _ =>
          simp only [Memory.node_eq hnode]
          rfl

theorem entries_eq (hlists : Lists m h list) (hage : m.Older) : h.entries m = .ok list :=
  hlists.chain.entries_eq hage

theorem toList_eq (hlists : Lists m h list) (hage : m.Older) : h.toList m = .ok list.reverse := by
  rw [toList, hlists.entries_eq hage]
  rfl

theorem text_eq (hlists : Lists m h list) (hage : m.Older) (render : α → String) :
    h.text render m = .ok ("[" ++ ", ".intercalate (list.reverse.map render) ++ "]") := by
  rw [text, hlists.toList_eq hage]
  rfl

/-- Stacks are equal just when their entries are, whether they share nodes or not. -/
theorem equal_eq [DecidableEq α] (hlists : Lists m h list) (hother : Lists m other list')
    (hage : m.Older) : h.equal m other = .ok (decide (list = list')) := by
  rw [equal]
  split
  · rw [hlists.entries_eq hage, hother.entries_eq hage]
    exact congrArg Except.ok (beq_eq_decide _ _)
  · rename_i hsize
    have hne : list ≠ list' := by
      rintro rfl
      exact hsize (hlists.size_eq.trans hother.size_eq.symm)
    rw [decide_eq_false hne]

end Lists

/-! ## What operations do -/

/-- A stack with its entries, in a memory in which other references are held too. -/
structure Held (m : Memory α) (roots : List (Option Nat)) (h : Handle) (list : List α) : Prop where
  counted : m.Counted (h.top :: roots)
  lists : Lists m h list

namespace Held

theorem empty (hcounted : m.Counted roots) : Held m roots ∅ [] :=
  ⟨Memory.Counted.none_cons_iff.mpr hcounted, .empty m⟩

theorem push (hheld : Held m roots h list) (entry : α) :
    Held (h.push m entry).2 roots (h.push m entry).1 (entry :: list) ∧
      m.Keeps (h.push m entry).2 roots := by
  obtain ⟨hcounted, hnode, hkeeps⟩ := hheld.counted.allocate entry
  refine ⟨⟨hcounted, .cons hnode (hkeeps _ _ hheld.lists.chain), ?_⟩, fun r _ => hkeeps r⟩
  exact congrArg (· + 1) hheld.lists.size_eq

theorem dropTop (hheld : Held m roots h list) : ∃ h' m', h.dropTop m = .ok (h', m') ∧
    Held m' roots h' list.tail ∧ m.Keeps m' roots := by
  obtain ⟨hcounted, hchain, hsize⟩ := hheld
  rw [Handle.dropTop]
  cases htop : h.top with
  | none =>
      rw [htop] at hchain
      cases hchain
      exact ⟨h, m, rfl, ⟨hcounted, htop ▸ .nil, hsize⟩, fun _ _ _ hchain => hchain⟩
  | some a =>
      rw [htop] at hcounted hchain
      cases hchain with
      | @cons _ node below hnode hbelow =>
          obtain ⟨copied, hretain, hcopied, hkept⟩ :=
            hcounted.retain fun b hb => hcounted.exists_node_below hnode hb
          obtain ⟨m', hrelease, hcounted', hkeeps⟩ := (hcopied.perm (.swap _ _ _)).release
          have hpos : h.size ≠ 0 := by
            rw [hsize]
            exact Nat.succ_ne_zero _
          refine ⟨⟨node.below, h.size - 1⟩, m', ?_, ⟨hcounted', ?_, ?_⟩, ?_⟩
          · simp only [Memory.node_eq hnode, hretain, hrelease, bind, Except.bind, if_neg hpos]
            rfl
          · exact hkeeps _ List.mem_cons_self _ (hkept _ _ hbelow)
          · rw [hsize]
            rfl
          · intro r hr entries hchain
            exact hkeeps r (List.mem_cons_of_mem _ hr) entries (hkept r entries hchain)

theorem pop (hheld : Held m roots h list) : ∃ h' m', h.pop m = .ok (list.head?, h', m') ∧
    Held m' roots h' list.tail ∧ m.Keeps m' roots := by
  obtain ⟨h', m', hdrop, hheld', hkeeps⟩ := hheld.dropTop
  refine ⟨h', m', ?_, hheld', hkeeps⟩
  rw [Handle.pop, hheld.lists.top?_eq, hdrop]
  rfl

theorem discard (hheld : Held m roots h list) : ∃ m', h.discard m = .ok m' ∧ m'.Counted roots ∧
    m.Keeps m' roots :=
  hheld.counted.release

theorem clear (hheld : Held m roots h list) : ∃ m', h.clear m = .ok (∅, m') ∧ Held m' roots ∅ [] ∧
    m.Keeps m' roots := by
  obtain ⟨m', hrelease, hcounted, hkeeps⟩ := hheld.counted.release
  refine ⟨m', ?_, .empty hcounted, hkeeps⟩
  rw [Handle.clear, hrelease]
  rfl

/-- A copy is held besides all that was held before, the stack that was copied with it. -/
theorem clone (hlists : Lists m h list) (hcounted : m.Counted roots) : ∃ m', h.clone m = .ok (h, m') ∧
    Held m' roots h list ∧ m.Keeps m' roots := by
  obtain ⟨m', hretain, hcopied, hkept⟩ := hcounted.retain hlists.chain.exists_node
  refine ⟨m', ?_, ⟨hcopied, hkept _ _ hlists.chain, hlists.size_eq⟩, fun r _ => hkept r⟩
  rw [Handle.clone, hretain]
  rfl

/-- Beside a stack, another one is given up. -/
theorem discard_other (hheld : Held m (other.top :: roots) h list) : ∃ m', other.discard m = .ok m' ∧
    Held m' roots h list ∧ m.Keeps m' roots := by
  obtain ⟨m', hrelease, hcounted, hkeeps⟩ := (hheld.counted.perm (.swap _ _ _)).release
  have hchain := hkeeps _ List.mem_cons_self _ hheld.lists.chain
  exact ⟨m', hrelease, ⟨hcounted, hchain, hheld.lists.size_eq⟩,
    hkeeps.mono (List.subset_cons_self _ _)⟩

theorem pushAll (values : List α) (hheld : Held m roots h list) :
    let built := values.foldl (fun (h, m) value => Handle.push m h value) (h, m)
    Held built.2 roots built.1 (values.reverse ++ list) ∧ m.Keeps built.2 roots := by
  induction values generalizing h m list with
  | nil => exact ⟨hheld, fun _ _ _ hchain => hchain⟩
  | cons value values ih =>
      obtain ⟨hpushed, hkeeps⟩ := hheld.push value
      obtain ⟨hbuilt, hkeeps'⟩ := ih hpushed
      rw [List.reverse_cons, List.append_assoc]
      exact ⟨hbuilt, hkeeps.trans hkeeps'⟩

theorem ofList (hcounted : m.Counted roots) (values : List α) :
    Held (ofList m values).2 roots (ofList m values).1 values.reverse ∧
      m.Keeps (ofList m values).2 roots := by
  obtain ⟨hbuilt, hkeeps⟩ := (empty hcounted).pushAll values
  rw [List.append_nil] at hbuilt
  exact ⟨hbuilt, hkeeps⟩

end Held

end Handle

end Relex.Shared
