import Relex.Markup.Element
import Relex.Markup.State
import Relex.Stack.Basic

/-! # Nesting of elements and expressions

Besides its state the markup grammar keeps two stacks: the braces that are open, and the names of
the elements that are open. An open brace remembers how to go on behind its closing brace and how
many elements were open when it was read. Those elements are out of reach inside the braces.
-/

namespace Relex.Markup

/-- An open brace: one word with the state behind the closing brace in its low byte, and the number
    of elements that are open around the brace in the three bytes above, which count modulo 2²⁴. -/
structure Opening where
  packed : UInt32
  deriving Repr, DecidableEq

namespace Opening

/-- The brace that is read inside `depth` elements, with the state behind its closing brace. -/
def atDepth (stateBehind : State) (depth : Nat) : Opening :=
  ⟨stateBehind.code ||| (UInt32.ofNat depth <<< 8)⟩

/-- The state behind the closing brace. -/
def stateBehind (opening : Opening) : State :=
  .ofCode (opening.packed &&& 0xFF)

/-- How many elements are open around the brace. -/
def depth (opening : Opening) : Nat :=
  (opening.packed >>> 8).toNat

end Opening

/-- What is open at a place. -/
structure Nesting where
  /-- The open braces. -/
  expressions : Stack Opening
  /-- The names of the open elements. -/
  elements : Stack String
  deriving DecidableEq

/-- What moving past a token does to the nesting. -/
inductive Change where
  | keep
  | openExpression (opening : Opening)
  | closeExpression
  | openElement (name : String)
  /-- Closes the innermost element that an end tag of this name belongs to, and all inside it. -/
  | closeElement (name : String)
  /-- Closes the innermost element, whatever its name. -/
  | leaveElement
  deriving Repr, DecidableEq

namespace Nesting

instance : EmptyCollection Nesting where
  emptyCollection := ⟨∅, ∅⟩

/-- How many of the open elements lie outside the innermost braces. -/
def outerDepth (nesting : Nesting) : Nat :=
  nesting.expressions.top?.elim 0 Opening.depth

/-- The names of the elements opened inside the innermost braces, from the inside out. -/
def withinReach (nesting : Nesting) : List String :=
  nesting.elements.entries.take (nesting.elements.size - nesting.outerDepth)

/-- The innermost element, provided it was opened inside the innermost braces. -/
def innermost? (nesting : Nesting) : Option String :=
  nesting.withinReach.head?

/-- The brace that is read here, with the state behind its closing brace. -/
def opening (nesting : Nesting) (stateBehind : State) : Opening :=
  .atDepth stateBehind nesting.elements.size

/-- Makes a change. Elements outside the innermost braces stay open. -/
def apply (nesting : Nesting) : Change → Nesting
  | .keep => nesting
  | .openExpression opening => { nesting with expressions := nesting.expressions.push opening }
  | .closeExpression => { nesting with expressions := nesting.expressions.drop 1 }
  | .openElement name => { nesting with elements := nesting.elements.push name }
  | .closeElement name =>
    match nesting.withinReach.findIdx? fun openName => endTagMatches openName name with
    | some index => { nesting with elements := nesting.elements.drop (index + 1) }
    | none => nesting
  | .leaveElement =>
    if nesting.outerDepth < nesting.elements.size then
      { nesting with elements := nesting.elements.drop 1 }
    else
      nesting

/-- What is read outside all tags: script, once every element opened inside the innermost braces is
    closed again, and content otherwise. A fragment counts as braces of its own. -/
def ambientState (form : Form) (nesting : Nesting) : State :=
  match nesting.expressions.top? with
  | some opening => if opening.depth = nesting.elements.size then .expression else .content
  | none => if form = .fragment ∧ nesting.elements.isEmpty then .expression else .content

end Nesting

end Relex.Markup
