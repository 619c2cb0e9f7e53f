import Relex.Stack.Basic

/-! # A shelf of stacks

Stacks under names, and the commands that work on them. Each command reads or replaces the stacks it
names and leaves all others alone.
-/

namespace Relex

/-- Stacks by name, in no order that matters; the first one of a name counts. -/
abbrev Shelf (α : Type) := List (String × Stack α)

namespace Shelf

variable {α : Type}

/-- The stack of a name; a name without a stack stands for an empty one. -/
def stack (shelf : Shelf α) (name : String) : Stack α :=
  (shelf.lookup name).getD ∅

/-- Takes a name off the shelf. -/
def erase (shelf : Shelf α) (name : String) : Shelf α :=
  shelf.filter fun entry => entry.1 != name

/-- Puts a stack on the shelf in place of any other of that name. -/
def insert (shelf : Shelf α) (name : String) (s : Stack α) : Shelf α :=
  (name, s) :: shelf.erase name

/-- Puts an empty stack on the shelf unless the name has one. -/
def ensure (shelf : Shelf α) (name : String) : Shelf α :=
  shelf.insert name (shelf.stack name)

/-- What can be done to the stacks on a shelf. -/
inductive Command (α : Type) where
  | push (name : String) (value : α)
  | pop (name : String)
  | drop (name : String)
  | clear (name : String)
  /-- Builds a new stack, the last of the values on top. -/
  | ofList (name : String) (values : List α)
  /-- Copies a stack under another name. -/
  | copy (name target : String)
  /-- Takes a stack off the shelf. -/
  | erase (name : String)
  | compare (name other : String)
  /-- Asks for the entries from the top down. -/
  | list (name : String)
  /-- Asks for the text of a stack. -/
  | show (name : String)

/-- What a command answers. -/
inductive Reply (α : Type) where
  | none
  | value (value : α)
  | equal (answer : Bool)
  | entries (values : List α)
  | text (text : String)

/-- Carries out a command. Every name that a command uses has a stack afterwards, unless the command
    took it away. -/
def run [DecidableEq α] [ToString α] (shelf : Shelf α) : Command α → Reply α × Shelf α
  | .push name value => (.none, shelf.insert name ((shelf.stack name).push value))
  | .pop name =>
    let (value?, rest) := (shelf.stack name).pop
    (value?.elim .none .value, shelf.insert name rest)
  | .drop name => (.none, shelf.insert name ((shelf.stack name).drop 1))
  | .clear name => (.none, shelf.insert name ∅)
  | .ofList name values => (.none, shelf.insert name (Stack.ofList values))
  | .copy name target =>
    (.none, (shelf.ensure name).insert target (shelf.stack name))
  | .erase name => (.none, shelf.erase name)
  | .compare name other =>
    (.equal (shelf.stack name == shelf.stack other), (shelf.ensure name).ensure other)
  | .list name => (.entries (shelf.stack name).entries, shelf.ensure name)
  | .show name => (.text ((shelf.stack name).text toString), shelf.ensure name)

end Shelf

end Relex
