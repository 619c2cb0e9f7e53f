import Relex.Proofs.Reading

/-! # Well-nested documents balance

The text of a tree leaves the state and all that is open around it as they were, whatever that is
(`reads_tree`). The proof follows the structure of trees: attributes hold items of script, which hold
elements, which hold attributes again. Text is the part that has to be watched, because text beside
text is read as one. So a list of trees is read with some text in front of it, to which the texts at
the front of the list are added one by one (`reads_all`).
-/

namespace Relex

namespace Markup

open Text

mutual

/-- The text of a tree leaves everything as it was. If the tree is text itself, a sign must follow,
    for otherwise it would run together with what follows. -/
theorem reads_tree {form : Form} {ground : Ground} {nesting : Nesting} {rest : List Char}
    (tree : Tree ground) (h : Ready form ground nesting tree.depth)
    (hrest : tree.isText = true → ∀ c ∈ rest.head?, c ∈ ground.signs) :
    Reads form ⟨ground.state, nesting⟩ tree.print rest ⟨ground.state, nesting⟩ := by
  cases tree with
  | text cs hcs =>
      rw [Tree.print]
      exact reads_groundText h.ambient hcs (hrest rfl)
  | braces items =>
      rw [Tree.depth] at h
      rw [Tree.print]
      have hcode := ground.code_state_lt
      have hitems : Reads form ⟨.expression, nesting.inBraces ground.state⟩ (Tree.printAll items)
          (['}'] ++ rest) ⟨.expression, nesting.inBraces ground.state⟩ :=
        reads_all items (h.inBraces hcode) [] rfl (forall_head_cons (by decide))
      have hclose : Reads form ⟨.expression, nesting.inBraces ground.state⟩ ['}'] rest
          ⟨ground.state, nesting⟩ := by
        refine reads_closingBrace hcode ?_
        intro hcontent
        rw [h.ambient, hcontent]
      exact reads_openingBrace.append (hitems.append hclose)
  | element name hvoid hraw attributes children =>
      rw [Tree.depth] at h
      rw [Tree.print]
      have hinside := h.inElement name.text
      have hone : Ready form ground nesting 1 := h.mono (Nat.le_add_left _ _)
      have hattributes : Ready form .content (nesting.inElement name.text)
          (Attribute.depthAll attributes) := hinside.mono (Nat.le_max_left _ _)
      have hstart : Reads form ⟨ground.state, nesting⟩ (name.startTag (Attribute.printAll attributes))
          (['>'] ++ (Tree.printAll children ++ name.endTag) ++ rest)
          ⟨.attributes, nesting.inElement name.text⟩ :=
        reads_startTag name (reads_attributes attributes hattributes)
          (Attribute.head_printAll attributes (by decide))
      have hchildren : Reads form ⟨.content, nesting.inElement name.text⟩ (Tree.printAll children)
          (name.endTag ++ rest) ⟨.content, nesting.inElement name.text⟩ :=
        reads_all children (hinside.mono (Nat.le_max_right _ _)) [] rfl
          (forall_head_cons (by decide))
      have hend : Reads form ⟨.content, nesting.inElement name.text⟩ name.endTag rest
          ⟨ground.state, nesting⟩ := reads_endTag name (h.mono (Nat.zero_le _))
      exact hstart.append ((reads_elementStart hone hvoid hraw).append (hchildren.append hend))
  | void name hvoid attributes =>
      rw [Tree.depth] at h
      rw [Tree.print]
      have hstart : Reads form ⟨ground.state, nesting⟩ (name.startTag (Attribute.printAll attributes))
          (['>'] ++ rest) ⟨.attributes, nesting.inElement name.text⟩ :=
        reads_startTag name (reads_attributes attributes (h.inElement name.text))
          (Attribute.head_printAll attributes (by decide))
      exact hstart.append (reads_voidEnd (h.mono (Nat.le_add_left _ _)) hvoid)
  | selfClosing name attributes =>
      rw [Tree.depth] at h
      rw [Tree.print]
      have hstart : Reads form ⟨ground.state, nesting⟩ (name.startTag (Attribute.printAll attributes))
          (['/', '>'] ++ rest) ⟨.attributes, nesting.inElement name.text⟩ :=
        reads_startTag name (reads_attributes attributes (h.inElement name.text))
          (Attribute.head_printAll attributes (by decide))
      have hend : Reads form ⟨.attributes, nesting.inElement name.text⟩ ['/', '>'] rest
          ⟨ground.state, nesting⟩ := by
        rw [← h.ambient]
        exact reads_emptyElementEnd h.inside
      exact hstart.append hend
  | fragment children =>
      rw [Tree.depth] at h
      rw [Tree.print]
      have hopens : opensName ('>' :: (Tree.printAll children ++ ['<', '/', '>'] ++ rest)) = true :=
        rfl
      have hcloses : opensName ('>' :: rest) = true := rfl
      have hstart : Reads form ⟨.startTagName, nesting⟩ ['>']
          (Tree.printAll children ++ ['<', '/', '>'] ++ rest) ⟨.content, nesting.inElement ""⟩ :=
        reads_fragmentStart (h.mono (Nat.le_add_left _ _))
      have hchildren : Reads form ⟨.content, nesting.inElement ""⟩ (Tree.printAll children)
          (['<', '/', '>'] ++ rest) ⟨.content, nesting.inElement ""⟩ :=
        reads_all children (h.inElement "") [] rfl (forall_head_cons (by decide))
      have hend : Reads form ⟨.content, nesting.inElement ""⟩ ['<', '/', '>'] rest
          ⟨ground.state, nesting⟩ :=
        (reads_endTagSign hcloses).append (reads_fragmentEnd (h.mono (Nat.zero_le _)))
      exact (reads_startTagSign hopens).append (hstart.append (hchildren.append hend))
  | raw name hraw attributes content hend =>
      rw [Tree.depth] at h
      rw [Tree.print]
      have hone : Ready form ground nesting 1 := h.mono (Nat.le_add_left _ _)
      have hstart : Reads form ⟨ground.state, nesting⟩ (name.startTag (Attribute.printAll attributes))
          (['>'] ++ (content ++ name.endTag) ++ rest) ⟨.attributes, nesting.inElement name.text⟩ :=
        reads_startTag name (reads_attributes attributes (h.inElement name.text))
          (Attribute.head_printAll attributes (by decide))
      exact hstart.append ((reads_rawStart hone hraw).append
        (reads_rawElement name (h.mono (Nat.zero_le _)) hend))
termination_by sizeOf tree

/-- Some text may stand in front of the trees, which runs together with the text at their front. -/
theorem reads_all {form : Form} {ground : Ground} {nesting : Nesting} {rest : List Char}
    (trees : List (Tree ground)) (h : Ready form ground nesting (Tree.depthAll trees))
    (front : List Char) (hfront : front.all ground.isText = true)
    (hrest : ∀ c ∈ rest.head?, c ∈ ground.signs) :
    Reads form ⟨ground.state, nesting⟩ (front ++ Tree.printAll trees) rest
      ⟨ground.state, nesting⟩ := by
  cases trees with
  | nil =>
      rw [Tree.printAll, List.append_nil]
      exact reads_groundText h.ambient hfront hrest
  | cons tree trees =>
      rw [Tree.depthAll] at h
      rw [Tree.printAll]
      have hlater := h.mono (Nat.le_max_right _ _)
      cases htext : tree.isText with
      | true =>
          obtain ⟨cs, hcs, rfl⟩ := Tree.exists_text htext
          rw [Tree.print, ← List.append_assoc]
          refine reads_all trees hlater (front ++ cs) ?_ hrest
          rw [List.all_append, hfront, hcs]
          rfl
      | false =>
          have hread : Reads form ⟨ground.state, nesting⟩ front
              (tree.print ++ Tree.printAll trees ++ rest) ⟨ground.state, nesting⟩ := by
            refine reads_groundText h.ambient hfront ?_
            rw [List.append_assoc]
            exact Tree.head_print htext
          have htree : Reads form ⟨ground.state, nesting⟩ tree.print (Tree.printAll trees ++ rest)
              ⟨ground.state, nesting⟩ := by
            refine reads_tree tree (h.mono (Nat.le_max_left _ _)) ?_
            intro htrue
            rw [htext] at htrue
            cases htrue
          have hbehind : Reads form ⟨ground.state, nesting⟩ (Tree.printAll trees) rest
              ⟨ground.state, nesting⟩ := reads_all trees hlater [] rfl hrest
          exact hread.append (htree.append hbehind)
termination_by sizeOf trees

theorem reads_attribute {form : Form} {nesting : Nesting} {rest : List Char}
    (first : Attribute) (h : Ready form .content nesting first.depth) :
    Reads form ⟨.attributes, nesting⟩ first.print rest ⟨.attributes, nesting⟩ := by
  cases first with
  | quoted name value hvalue =>
      rw [Attribute.print]
      exact (reads_attributeEquals name).append (reads_quotedValue hvalue)
  | braced name items =>
      rw [Attribute.depth] at h
      rw [Attribute.print]
      have hitems : Reads form ⟨.expression, nesting.inBraces .attributes⟩ (Tree.printAll items)
          (['}'] ++ rest) ⟨.expression, nesting.inBraces .attributes⟩ :=
        reads_all items (h.inBraces (by decide)) [] rfl
          (forall_head_cons (by decide))
      have hclose : Reads form ⟨.expression, nesting.inBraces .attributes⟩ ['}'] rest
          ⟨.attributes, nesting⟩ := reads_closingBrace (by decide) nofun
      exact (reads_attributeEquals name).append
        (reads_openingValueBrace.append (hitems.append hclose))
termination_by sizeOf first

theorem reads_attributes {form : Form} {nesting : Nesting} {rest : List Char}
    (attributes : List Attribute)
    (h : Ready form .content nesting (Attribute.depthAll attributes)) :
    Reads form ⟨.attributes, nesting⟩ (Attribute.printAll attributes) rest
      ⟨.attributes, nesting⟩ := by
  cases attributes with
  | nil =>
      rw [Attribute.printAll]
      exact .nil
  | cons first more =>
      rw [Attribute.depthAll] at h
      rw [Attribute.printAll]
      exact (reads_attribute first (h.mono (Nat.le_max_left _ _))).append
        (reads_attributes more (h.mono (Nat.le_max_right _ _)))
termination_by sizeOf attributes

end

/-- Trees in front of anything. If the last of them is text, a sign must follow. -/
theorem reads_trees {form : Form} {ground : Ground} {nesting : Nesting} {rest : List Char}
    (trees : List (Tree ground)) (h : Ready form ground nesting (Tree.depthAll trees))
    (hrest : ∀ last ∈ trees.getLast?, last.isText = true → ∀ c ∈ rest.head?, c ∈ ground.signs) :
    Reads form ⟨ground.state, nesting⟩ (Tree.printAll trees) rest ⟨ground.state, nesting⟩ := by
  rcases List.eq_nil_or_concat' trees with rfl | ⟨before, last, rfl⟩
  · rw [Tree.printAll]
    exact .nil
  · have hlast : last ∈ (before ++ [last]).getLast? := List.getLast?_concat
    cases htext : last.isText with
    | true => exact reads_all _ h [] rfl (hrest last hlast htext)
    | false =>
        have hprint : Tree.printAll (before ++ [last]) = Tree.printAll before ++ last.print := by
          rw [Tree.printAll_append, Tree.printAll, Tree.printAll, List.append_nil]
        rw [Tree.depthAll_append, Tree.depthAll] at h
        have hbefore : Reads form ⟨ground.state, nesting⟩ (Tree.printAll before)
            (last.print ++ rest) ⟨ground.state, nesting⟩ :=
          reads_all before (h.mono (Nat.le_max_left _ _)) [] rfl
            (Tree.head_print htext)
        rw [hprint]
        refine hbefore.append (reads_tree last (h.mono ?_) (hrest last hlast))
        exact Nat.le_trans (Nat.le_max_left _ _) (Nat.le_max_right _ _)

end Markup

namespace MarkupGrammar

open Text Markup

/-- The text of well-nested trees is read from content to content, with nothing open at the end, and
    neither at any place between two trees, unless it lies between text and text, which are read as
    one. -/
theorem well_nested_text_balances (lexer : Lexer MarkupGrammar Snapshot Nesting)
    (trees : List (Tree .content)) (hform : lexer.reader.form = .document)
    (hdepth : Tree.depthAll trees < Opening.depthLimit) :
    let source := String.ofList (Tree.printAll trees)
    ∃ started, lexer.start source 0 source.utf8ByteSize State.content.code = .ok started ∧
      started.tape.final = placeAt source.utf8ByteSize ⟨.content, ∅⟩ ∧
      ∀ before behind, trees = before ++ behind →
        (∀ last ∈ before.getLast?, ∀ next ∈ behind.head?,
          ¬(last.isText = true ∧ next.isText = true)) →
        ∃ n, (Session.advanceTimes n started).tape.place =
          placeAt (byteLength (Tree.printAll before)) ⟨.content, ∅⟩ := by
  intro source
  have hsize : source.utf8ByteSize = byteLength (Tree.printAll trees) := by
    rw [← byteLength_toList, String.toList_ofList]
  let cursor : Cursor := ⟨0, ⟨.content, ∅⟩, Tree.printAll trees⟩
  have hwithin : cursor.Within source.toList source.utf8ByteSize := by
    refine ⟨[], [], ?_, rfl, ?_⟩
    · rw [String.toList_ofList]
      simp [cursor]
    · rw [hsize]
      rfl
  have hcontext : contextOf lexer.reader.form State.content.code = ⟨.content, ∅⟩ := by
    rw [hform]
    rfl
  have hread : Reader.start lexer.reader source 0 source.utf8ByteSize State.content.code =
      .ok (cursor.tape lexer.reader.form) := by
    change Markup.tape _ _ _ ⟨0, contextOf lexer.reader.form State.content.code⟩ = _
    rw [hcontext]
    exact Cursor.tape_eq hwithin
  obtain ⟨started, hstarted, htape, -⟩ := Lexer.start_of_read hread
  -- Up to each of these places the trees in front of it are read as if nothing else were there.
  have hreaches : ∀ before behind, trees = before ++ behind →
      (∀ last ∈ before.getLast?, ∀ next ∈ behind.head?,
        ¬(last.isText = true ∧ next.isText = true)) →
      ∃ n, (Session.advanceTimes n started).tape =
        (Cursor.mk (byteLength (Tree.printAll before)) ⟨.content, ∅⟩
          (Tree.printAll behind)).tape lexer.reader.form := by
    intro before behind htrees hapart
    have hready : Ready lexer.reader.form .content ∅ (Tree.depthAll before) := by
      rw [htrees, Tree.depthAll_append] at hdepth
      refine ⟨Nat.le_refl _, ?_, ?_⟩
      · rw [hform]
        rfl
      · exact Nat.lt_of_le_of_lt (Nat.le_of_eq (Nat.zero_add _))
          (Nat.lt_of_le_of_lt (Nat.le_max_left _ _) hdepth)
    have hsign : ∀ last ∈ before.getLast?, last.isText = true →
        ∀ c ∈ (Tree.printAll behind).head?, c ∈ Ground.content.signs := by
      intro last hlast htext
      cases behind with
      | nil =>
          rw [Tree.printAll]
          nofun
      | cons next behind =>
          rw [Tree.printAll]
          apply Tree.head_print
          exact Bool.eq_false_iff.mpr fun hnext => hapart last hlast next rfl ⟨htext, hnext⟩
    obtain ⟨n, hn⟩ := reads_trees before hready hsign 0
    refine ⟨n, ?_⟩
    rw [← Tree.printAll_append, ← htrees, Nat.zero_add] at hn
    rw [Lexer.tape_advanceTimes, htape, Cursor.drop_tape]
    exact congrArg (Cursor.tape lexer.reader.form) hn
  refine ⟨started, hstarted, ?_, ?_⟩
  · obtain ⟨n, hn⟩ := hreaches trees [] (List.append_nil trees).symm nofun
    have hfinal : (Session.advanceTimes n started).tape.final = started.tape.final := by
      rw [Lexer.tape_advanceTimes, Tape.final_drop]
    rw [← hfinal, hn, Tree.printAll, Cursor.tape_nil, hsize]
    rfl
  · intro before behind htrees hapart
    obtain ⟨n, hn⟩ := hreaches before behind htrees hapart
    refine ⟨n, ?_⟩
    rw [hn, Cursor.place_tape]

theorem well_nested_text_balances_in_attribute :
    ∃ trees : List (Tree .content),
      String.ofList (Tree.printAll trees) =
        "<p a=\"v\" b=\x7bx<br>\x7d>é\x7b<b>1</b>\x7d</p><style>a</b</style><></><Card/>" ∧
      Tree.depthAll trees < Opening.depthLimit ∧
      ∃ started, (Lexer.idle ⟨.document⟩ : Lexer MarkupGrammar Snapshot Nesting).start
        "<p a=\"v\" b=\x7bx<br>\x7d>é\x7b<b>1</b>\x7d</p><style>a</b</style><></><Card/>" 0 66
          State.content.code = .ok started ∧
        started.tape.final = placeAt 66 ⟨.content, ∅⟩ := by
  let p : TagName := ⟨'p', [], by decide, by decide⟩
  let b : TagName := ⟨'b', [], by decide, by decide⟩
  let br : TagName := ⟨'b', ['r'], by decide, by decide⟩
  let style : TagName := ⟨'s', ['t', 'y', 'l', 'e'], by decide, by decide⟩
  let card : TagName := ⟨'C', ['a', 'r', 'd'], by decide, by decide⟩
  let trees : List (Tree .content) :=
    [.element p (by decide +kernel) (by decide +kernel)
        [.quoted ⟨'a', [], by decide, by decide⟩ ['v'] (by decide),
          .braced ⟨'b', [], by decide, by decide⟩
            [.text ['x'] (by decide), .void br (by decide +kernel) []]]
        [.text ['é'] (by decide),
          .braces [.element b (by decide +kernel) (by decide +kernel) [] [.text ['1'] (by decide)]]],
      .raw style (by decide +kernel) [] ['a', '<', '/', 'b'] (by decide +kernel),
      .fragment [], .selfClosing card []]
  have hprint : String.ofList (Tree.printAll trees) =
      "<p a=\"v\" b=\x7bx<br>\x7d>é\x7b<b>1</b>\x7d</p><style>a</b</style><></><Card/>" := by
    simp [trees, Tree.printAll, Tree.print, Attribute.printAll, Attribute.print, TagName.startTag,
      TagName.endTag, TagName.chars, AttributeName.equals, AttributeName.chars, p, b, br, style, card]
  have hdepth : Tree.depthAll trees < Opening.depthLimit := by
    simp [trees, Tree.depthAll, Tree.depth, Attribute.depthAll, Attribute.depth, Opening.depthLimit]
  obtain ⟨started, hstarted, hfinal, -⟩ :=
    well_nested_text_balances (Lexer.idle ⟨.document⟩) trees rfl hdepth
  have hsize : "<p a=\"v\" b=\x7bx<br>\x7d>é\x7b<b>1</b>\x7d</p><style>a</b</style><></><Card/>".utf8ByteSize
      = 66 := by decide
  rw [hprint, hsize] at hstarted hfinal
  exact ⟨trees, hprint, hdepth, started, hstarted, hfinal⟩

end MarkupGrammar

end Relex
