/-! # Stacks

Stacks of any entries, seen as the list of their entries from the top down. A stack knows its size
without counting. As values, stacks never share anything that can change: an operation on one leaves
every copy as it was.
-/

namespace Relex

/-- A stack, with its size at hand. -/
@[ext] structure Stack (α : Type) where
  /-- The entries from the top down. -/
  entries : List α
  size : Nat
  size_eq : size = entries.length
  deriving Repr, DecidableEq

namespace Stack

variable {α : Type}

instance : EmptyCollection (Stack α) where
  emptyCollection := ⟨[], 0, rfl⟩

instance : Inhabited (Stack α) where
  default := ∅

def push (s : Stack α) (a : α) : Stack α where
  entries := a :: s.entries
  size := s.size + 1
  size_eq := by simp [s.size_eq]

def top? (s : Stack α) : Option α :=
  s.entries.head?

/-- Takes the `n` topmost entries away, or all of them if there are fewer. -/
def drop (s : Stack α) (n : Nat) : Stack α where
  entries := s.entries.drop n
  size := s.size - n
  size_eq := by simp [s.size_eq]

/-- The top entry and the stack below it. -/
def pop (s : Stack α) : Option α × Stack α :=
  (s.top?, s.drop 1)

def isEmpty (s : Stack α) : Bool :=
  s.size == 0

/-- The entries from the bottom up. -/
def toList (s : Stack α) : List α :=
  s.entries.reverse

/-- The stack that results from pushing the members of a list in order: the last one is on top. -/
def ofList (l : List α) : Stack α :=
  l.foldl push ∅

/-- The entries from the bottom up, between square brackets. -/
def text (render : α → String) (s : Stack α) : String :=
  "[" ++ ", ".intercalate (s.toList.map render) ++ "]"

@[simp, grind =] theorem entries_empty : (∅ : Stack α).entries = [] := rfl

@[simp, grind =] theorem entries_push (s : Stack α) (a : α) :
    (s.push a).entries = a :: s.entries := rfl

@[simp, grind =] theorem entries_drop (s : Stack α) (n : Nat) :
    (s.drop n).entries = s.entries.drop n := rfl

/-- The entries determine a stack. -/
theorem ext_entries {s t : Stack α} (h : s.entries = t.entries) : s = t := by
  ext1
  · exact h
  · rw [s.size_eq, t.size_eq, h]

theorem toList_ofList (l : List α) : (ofList l).toList = l := by
  have hfold : ∀ (s : Stack α), (l.foldl push s).entries = l.reverse ++ s.entries := by
    induction l with
    | nil => simp
    | cons a l ih => simp [ih]
  simp [ofList, toList, hfold]

end Stack

end Relex
