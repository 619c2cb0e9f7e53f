import Mathlib.Data.List.Basic
import Relex.Markup.Nesting

/-! # Braces and the elements around them

A brace holds the number of elements around it in twenty-four bits, so the number is found again as
long as it fits. Braces that stand inside one another are `Nested`: the depths grow from the outside
in, strictly so behind content or attributes. No change to a nesting reaches the elements outside
the innermost braces (`outer_kept`).
-/

namespace Relex.Markup

namespace Opening

/-- 2²⁴, the number below which a brace counts elements. -/
def depthLimit : Nat :=
  0x1000000

theorem toNat_packed {behind : State} {depth : Nat} (hbehind : behind.code.toNat < 256)
    (hdepth : depth < depthLimit) :
    (atDepth behind depth).packed.toNat = 256 * depth + behind.code.toNat := by
  simp only [depthLimit] at hdepth
  have hword : (UInt32.ofNat depth).toNat = depth :=
    UInt32.toNat_ofNat_of_lt' (by simp only [UInt32.size]; omega)
  have hshift : (UInt32.ofNat depth <<< 8).toNat = 2 ^ 8 * depth := by
    rw [UInt32.toNat_shiftLeft, hword, Nat.shiftLeft_eq]
    simp only [UInt32.reduceToNat, Nat.reducePow, Nat.reduceMod]
    omega
  rw [atDepth, UInt32.toNat_or, hshift, Nat.or_comm, ← Nat.two_pow_add_eq_or_of_lt hbehind]

theorem depth_atDepth {behind : State} {depth : Nat} (hbehind : behind.code.toNat < 256)
    (hdepth : depth < depthLimit) : (atDepth behind depth).depth = depth := by
  rw [Opening.depth, UInt32.toNat_shiftRight, toNat_packed hbehind hdepth]
  simp only [UInt32.reduceToNat, Nat.reduceMod, Nat.shiftRight_eq_div_pow, Nat.reducePow]
  omega

/-- The state is kept whole, also where the number is not. -/
theorem stateBehind_atDepth {behind : State} {depth : Nat} (hbehind : behind.code.toNat < 256) :
    (atDepth behind depth).stateBehind = behind := by
  have hlow : (atDepth behind depth).packed &&& 0xFF = behind.code := by
    have hmask : (0xFF : UInt32).toNat = 2 ^ 8 - 1 := rfl
    have hshifted : (UInt32.ofNat depth <<< 8).toNat % 2 ^ 8 = 0 := by
      rw [UInt32.toNat_shiftLeft, Nat.shiftLeft_eq]
      simp only [UInt32.reduceToNat, Nat.reducePow, Nat.reduceMod]
      omega
    apply UInt32.toNat_inj.mp
    rw [UInt32.toNat_and, hmask, Nat.and_two_pow_sub_one_eq_mod, atDepth, UInt32.toNat_or,
      Nat.or_mod_two_pow, hshifted, Nat.or_zero, Nat.mod_eq_of_lt hbehind]
  rw [stateBehind, hlow, State.ofCode_code]

end Opening

/-- How many elements are open around the first of some braces, none where there is no brace. -/
def depthAround (braces : List Opening) : Nat :=
  braces.head?.elim 0 Opening.depth

/-- How a brace may stand directly inside other braces. Behind a brace of script there is script
    again, so no element stands between the two. -/
inductive RestsOn (form : Form) (brace : Opening) (outer : List Opening) : Prop
  | content (hbehind : brace.stateBehind = .content)
      (hdepth : ∀ next ∈ outer.head?, next.depth < brace.depth)
  | attributes (hbehind : brace.stateBehind = .attributes)
      (hdepth : depthAround outer < brace.depth)
  | script (hbehind : brace.stateBehind = .expression) (hdepth : brace.depth = depthAround outer)
      (hform : outer = [] → form = .fragment)

/-- Braces from the inside out, each of which rests on the ones around it. -/
inductive Nested (form : Form) : List Opening → Prop
  | nil : Nested form []
  | cons {brace : Opening} {outer : List Opening} :
      RestsOn form brace outer → Nested form outer → Nested form (brace :: outer)

theorem RestsOn.depthAround_le {form : Form} {brace : Opening} {outer : List Opening}
    (h : RestsOn form brace outer) : depthAround outer ≤ brace.depth := by
  cases h with
  | content _ hdepth =>
      cases outer with
      | nil => exact Nat.zero_le _
      | cons next outer => exact Nat.le_of_lt (hdepth next rfl)
  | attributes _ hdepth => exact Nat.le_of_lt hdepth
  | script _ hdepth _ => exact Nat.le_of_eq hdepth.symm

theorem RestsOn.stateBehind_cases {form : Form} {brace : Opening} {outer : List Opening}
    (h : RestsOn form brace outer) :
    brace.stateBehind = .content ∨ brace.stateBehind = .attributes ∨
      brace.stateBehind = .expression := by
  cases h with
  | content hbehind _ => exact .inl hbehind
  | attributes hbehind _ => exact .inr (.inl hbehind)
  | script hbehind _ _ => exact .inr (.inr hbehind)

namespace Nested

variable {form : Form} {braces inner outer : List Opening} {brace : Opening}

theorem head (h : Nested form (brace :: outer)) : RestsOn form brace outer := by
  cases h with | cons hrests _ => exact hrests

theorem tail (h : Nested form (brace :: outer)) : Nested form outer := by
  cases h with | cons _ houter => exact houter

theorem of_append (h : Nested form (inner ++ outer)) : Nested form outer := by
  induction inner with
  | nil => exact h
  | cons brace inner ih => exact ih h.tail

theorem depthAround_le (h : Nested form (inner ++ outer)) :
    depthAround outer ≤ depthAround (inner ++ outer) := by
  induction inner with
  | nil => exact Nat.le_refl _
  | cons brace inner ih =>
      calc
        depthAround outer ≤ depthAround (inner ++ outer) := ih h.tail
        _ ≤ brace.depth := h.head.depthAround_le

theorem depth_le (h : Nested form braces) (hbrace : brace ∈ braces) :
    brace.depth ≤ depthAround braces := by
  obtain ⟨inner, outer, rfl⟩ := List.append_of_mem hbrace
  exact h.depthAround_le

theorem descending (h : Nested form braces) :
    braces.Pairwise fun above below => below.depth ≤ above.depth := by
  induction h with
  | nil => exact .nil
  | cons hrests houter ih =>
      refine .cons ?_ ih
      intro below hbelow
      exact Nat.le_trans (houter.depth_le hbelow) hrests.depthAround_le

end Nested

namespace Nesting

variable (nesting : Nesting)

theorem outerDepth_eq : nesting.outerDepth = depthAround nesting.expressions.entries := rfl

theorem innermost?_eq_some {nesting : Nesting} {name : String}
    (h : nesting.innermost? = some name) :
    nesting.outerDepth < nesting.elements.size ∧ nesting.elements.top? = some name := by
  rw [innermost?, withinReach, List.head?_take] at h
  split at h
  · cases h
  · exact ⟨by omega, h⟩

theorem innermost?_of_top {nesting : Nesting} {name : String}
    (hreach : nesting.outerDepth < nesting.elements.size)
    (htop : nesting.elements.top? = some name) : nesting.innermost? = some name := by
  rw [innermost?, withinReach, List.head?_take, if_neg (by omega)]
  exact htop

/-- The nesting behind the innermost element. -/
def leaving : Nesting :=
  { nesting with elements := nesting.elements.drop 1 }

/-- An end tag that belongs to the innermost element closes that element and no other. -/
theorem apply_closeElement_innermost {nesting : Nesting} {name endName : String}
    (h : nesting.innermost? = some name) (hmatches : endTagMatches name endName = true) :
    nesting.apply (.closeElement endName) = nesting.leaving := by
  obtain ⟨outer, hreach⟩ := List.head?_eq_some_iff.mp h
  have hfound : nesting.withinReach.findIdx? (fun openName => endTagMatches openName endName) =
      some 0 := by
    rw [hreach, List.findIdx?_cons, hmatches]
    rfl
  simp only [apply, hfound]
  rfl

/-- Changes to the elements leave the braces alone. -/
theorem expressions_apply (change : Change) :
    (nesting.apply change).expressions =
      match change with
      | .openExpression opening => nesting.expressions.push opening
      | .closeExpression => nesting.expressions.drop 1
      | _ => nesting.expressions := by
  cases change with
  | closeElement name =>
      simp only [apply]
      split
      · rfl
      · rfl
  | leaveElement =>
      simp only [apply]
      split
      · rfl
      · rfl
  | _ => rfl

theorem entries_closeExpression {nesting : Nesting} {brace : Opening} {outer : List Opening}
    (h : nesting.expressions.entries = brace :: outer) :
    (nesting.apply .closeExpression).expressions.entries = outer := by
  rw [expressions_apply, Stack.entries_drop, h, List.drop_one, List.tail_cons]

theorem elements_apply_size_le (change : Change) :
    (nesting.apply change).elements.size ≤ nesting.elements.size + 1 := by
  cases change with
  | keep => exact Nat.le_succ _
  | openExpression opening => exact Nat.le_succ _
  | closeExpression => exact Nat.le_succ _
  | openElement name => exact Nat.le_refl _
  | closeElement name =>
      simp only [apply]
      split
      · simp only [Stack.drop]
        omega
      · exact Nat.le_succ _
  | leaveElement =>
      simp only [apply]
      split
      · simp only [Stack.drop]
        omega
      · exact Nat.le_succ _

/-- A change that opens no element leaves only elements that were open. -/
theorem elements_apply_suffix (change : Change) (hchange : ∀ name, change ≠ .openElement name) :
    (nesting.apply change).elements.entries <:+ nesting.elements.entries := by
  cases change with
  | openElement name => exact absurd rfl (hchange name)
  | closeElement name =>
      simp only [apply]
      split
      · exact List.drop_suffix _ _
      · exact List.suffix_rfl
  | leaveElement =>
      simp only [apply]
      split
      · exact List.drop_suffix _ _
      · exact List.suffix_rfl
  | keep => exact List.suffix_rfl
  | openExpression opening => exact List.suffix_rfl
  | closeExpression => exact List.suffix_rfl

/-- The elements outside the innermost braces stay open. -/
theorem outer_kept {outer : List String} (hsuffix : outer <:+ nesting.elements.entries)
    (hdepth : outer.length ≤ nesting.outerDepth) (change : Change) :
    outer <:+ (nesting.apply change).elements.entries := by
  have hsize : nesting.elements.size = nesting.elements.entries.length := nesting.elements.size_eq
  have kept : ∀ n, n + outer.length ≤ nesting.elements.entries.length →
      outer <:+ nesting.elements.entries.drop n := by
    intro n hn
    obtain ⟨inner, hinner⟩ := hsuffix
    rw [← hinner, List.length_append] at hn
    rw [← hinner, List.drop_append_of_le_length (by omega)]
    exact List.suffix_append _ _
  cases change with
  | keep => exact hsuffix
  | openExpression opening => exact hsuffix
  | closeExpression => exact hsuffix
  | openElement name => exact hsuffix.trans (List.suffix_cons _ _)
  | closeElement name =>
      simp only [apply]
      split
      · rename_i index hfound
        have hreach : index < nesting.withinReach.length :=
          (List.findIdx?_eq_some_iff_findIdx_eq.mp hfound).1
        rw [withinReach, List.length_take] at hreach
        exact kept (index + 1) (by omega)
      · exact hsuffix
  | leaveElement =>
      simp only [apply]
      split
      · exact kept 1 (by omega)
      · exact hsuffix

theorem outerDepth_le_apply (hinside : nesting.outerDepth ≤ nesting.elements.size)
    (change : Change) : nesting.outerDepth ≤ (nesting.apply change).elements.size := by
  have hsize : nesting.elements.size = nesting.elements.entries.length := nesting.elements.size_eq
  let outer := nesting.elements.entries.drop (nesting.elements.size - nesting.outerDepth)
  have hlength : outer.length = nesting.outerDepth := by
    rw [List.length_drop]
    omega
  have hkept := nesting.outer_kept (List.drop_suffix _ _) (Nat.le_of_eq hlength) change
  rw [(nesting.apply change).elements.size_eq, ← hlength]
  exact hkept.length_le

theorem ambientState_cases (form : Form) :
    nesting.ambientState form = .content ∨ nesting.ambientState form = .expression := by
  rw [ambientState]
  split
  · split
    · exact .inr rfl
    · exact .inl rfl
  · split
    · exact .inr rfl
    · exact .inl rfl

end Nesting

end Relex.Markup
