import Relex.Proofs.Lookahead

/-! # Well-nested documents

A document is well nested when it is the text of some trees: every element that is opened is closed
by an end tag of its own name, every brace by a brace, and text holds no sign of the grammar. A tree
carries the proofs that its names and texts are such, so the text of every tree is well nested.
-/

namespace Relex.Markup

open Text Unicode

/-! ## Names -/

/-- A name that a tag can have. -/
structure TagName where
  first : Char
  more : List Char
  first_isAlpha : first.isAlpha = true
  more_inTagName : more.all inTagName = true

namespace TagName

def chars (name : TagName) : List Char := name.first :: name.more

def text (name : TagName) : String := String.ofList name.chars

/-- The start tag of an element up to its end, with the text of its attributes. -/
def startTag (name : TagName) (attributes : List Char) : List Char :=
  '<' :: (name.chars ++ attributes)

/-- The end tag of an element. -/
def endTag (name : TagName) : List Char := '<' :: '/' :: (name.chars ++ ['>'])

end TagName

/-- A name that an attribute can have. -/
structure AttributeName where
  first : Char
  more : List Char
  first_inAttributeName : inAttributeName first = true
  more_inAttributeName : more.all inAttributeName = true

namespace AttributeName

def chars (name : AttributeName) : List Char := name.first :: name.more

/-- An attribute up to its value. -/
def equals (name : AttributeName) : List Char := ' ' :: (name.chars ++ ['='])

end AttributeName

/-! ## Trees -/

/-- What is read outside tags: content, or script between braces. -/
inductive Ground where
  | content
  | script

namespace Ground

def state : Ground → State
  | content => .content
  | script => .expression

theorem code_state_lt (ground : Ground) : ground.state.code.toNat < 256 := by
  cases ground <;> decide

/-- The signs in front of which text ends. -/
def signs : Ground → List Char
  | content => contentSigns
  | script => Script.scriptSigns

/-- The characters of text. -/
def isText : Ground → Char → Bool
  | content, c => !contentSigns.contains c
  | script, c => Script.isWordOrBlank c

end Ground

mutual

/-- A piece of a well-nested document. -/
inductive Tree : Ground → Type where
  | text {ground : Ground} (cs : List Char) (h : cs.all ground.isText = true) : Tree ground
  | braces {ground : Ground} (items : List (Tree .script)) : Tree ground
  | element {ground : Ground} (name : TagName) (hvoid : name.text ∉ voidElements)
      (hraw : name.text ∉ rawTextElements) (attributes : List Attribute)
      (children : List (Tree .content)) : Tree ground
  | void {ground : Ground} (name : TagName) (hvoid : name.text ∈ voidElements)
      (attributes : List Attribute) : Tree ground
  | selfClosing {ground : Ground} (name : TagName) (attributes : List Attribute) : Tree ground
  | fragment {ground : Ground} (children : List (Tree .content)) : Tree ground
  /-- The content ends with the first end tag that closes the element. -/
  | raw {ground : Ground} (name : TagName) (hraw : name.text ∈ rawTextElements)
      (attributes : List Attribute) (content : List Char)
      (hend : seek? (endsRawText name.text) (content ++ name.endTag) = some content.length) :
      Tree ground

/-- An attribute of a well-nested document. -/
inductive Attribute : Type where
  | quoted (name : AttributeName) (value : List Char) (h : '\x22' ∉ value) : Attribute
  | braced (name : AttributeName) (items : List (Tree .script)) : Attribute

end

mutual

def Tree.print {ground : Ground} : Tree ground → List Char
  | .text cs _ => cs
  | .braces items => '{' :: (Tree.printAll items ++ ['}'])
  | .element name _ _ attributes children =>
    name.startTag (Attribute.printAll attributes) ++
      ('>' :: (Tree.printAll children ++ name.endTag))
  | .void name _ attributes => name.startTag (Attribute.printAll attributes) ++ ['>']
  | .selfClosing name attributes => name.startTag (Attribute.printAll attributes) ++ ['/', '>']
  | .fragment children => '<' :: '>' :: (Tree.printAll children ++ ['<', '/', '>'])
  | .raw name _ attributes content _ =>
    name.startTag (Attribute.printAll attributes) ++ ('>' :: (content ++ name.endTag))

def Tree.printAll {ground : Ground} : List (Tree ground) → List Char
  | [] => []
  | tree :: trees => tree.print ++ Tree.printAll trees

def Attribute.print : Attribute → List Char
  | .quoted name value _ => name.equals ++ ('\x22' :: (value ++ ['\x22']))
  | .braced name items => name.equals ++ ('{' :: (Tree.printAll items ++ ['}']))

def Attribute.printAll : List Attribute → List Char
  | [] => []
  | first :: more => first.print ++ Attribute.printAll more

end

mutual

/-- How many elements are open inside one another at most, where the attributes of an element stand
    inside it. -/
def Tree.depth {ground : Ground} : Tree ground → Nat
  | .text _ _ => 0
  | .braces items => Tree.depthAll items
  | .element _ _ _ attributes children =>
    max (Attribute.depthAll attributes) (Tree.depthAll children) + 1
  | .void _ _ attributes => Attribute.depthAll attributes + 1
  | .selfClosing _ attributes => Attribute.depthAll attributes + 1
  | .fragment children => Tree.depthAll children + 1
  | .raw _ _ attributes _ _ => Attribute.depthAll attributes + 1

def Tree.depthAll {ground : Ground} : List (Tree ground) → Nat
  | [] => 0
  | tree :: trees => max tree.depth (Tree.depthAll trees)

def Attribute.depth : Attribute → Nat
  | .quoted _ _ _ => 0
  | .braced _ items => Tree.depthAll items

def Attribute.depthAll : List Attribute → Nat
  | [] => 0
  | first :: more => max first.depth (Attribute.depthAll more)

end

/-- Text can run together with text beside it. -/
def Tree.isText {ground : Ground} : Tree ground → Bool
  | .text _ _ => true
  | _ => false

/-! ## The ends of trees -/

section Ends

variable {ground : Ground} {rest : List Char}

theorem Tree.exists_text {tree : Tree ground} (h : tree.isText = true) :
    ∃ cs hcs, tree = .text cs hcs := by
  cases tree with
  | text cs hcs => exact ⟨cs, hcs, rfl⟩
  | _ => cases h

/-- A tree that is not text begins with a sign. -/
theorem Tree.head_print {tree : Tree ground} (htext : tree.isText = false) :
    ∀ c ∈ (tree.print ++ rest).head?, c ∈ ground.signs := by
  have hangle : '<' ∈ ground.signs := by cases ground <;> decide
  have hbrace : '{' ∈ ground.signs := by cases ground <;> decide
  intro c hc
  cases tree with
  | text cs h => cases htext
  | braces items =>
      simp only [Tree.print] at hc
      cases hc
      exact hbrace
  | _ =>
      simp only [Tree.print] at hc
      cases hc
      exact hangle

/-- A tag name ends where the attributes begin, or the end of the tag. -/
theorem Attribute.head_printAll (attributes : List Attribute) {sign : Char}
    (hsign : inTagName sign = false) :
    ∀ c ∈ (Attribute.printAll attributes ++ sign :: rest).head?, inTagName c = false := by
  intro c hc
  cases attributes with
  | nil =>
      simp only [Attribute.printAll] at hc
      cases hc
      exact hsign
  | cons first more =>
      cases first with
      | quoted name value h =>
          simp only [Attribute.printAll, Attribute.print] at hc
          cases hc
          decide
      | braced name items =>
          simp only [Attribute.printAll, Attribute.print] at hc
          cases hc
          decide

end Ends

section Append

variable {ground : Ground} (trees more : List (Tree ground))

theorem Tree.printAll_append :
    Tree.printAll (trees ++ more) = Tree.printAll trees ++ Tree.printAll more := by
  induction trees with
  | nil => rw [List.nil_append, Tree.printAll, List.nil_append]
  | cons tree trees ih =>
      rw [List.cons_append, Tree.printAll, ih, Tree.printAll, List.append_assoc]

theorem Tree.depthAll_append :
    Tree.depthAll (trees ++ more) = max (Tree.depthAll trees) (Tree.depthAll more) := by
  induction trees with
  | nil => rw [List.nil_append, Tree.depthAll, Nat.zero_max]
  | cons tree trees ih => rw [List.cons_append, Tree.depthAll, ih, Tree.depthAll, Nat.max_assoc]

end Append

end Relex.Markup
