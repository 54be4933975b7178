import ScopedCss.Proofs.SourcePositions

/-!
# Style sheets one behind the other

A style sheet that is complete does not look at what is put behind it, so a text that is put together
from two style sheets has the nodes of both.  There are two halves.

* `readItems_append`: the reader reads a complete style sheet the same way with more text behind it,
  and goes on with that text at the end of it.  Only a last at-rule that ends with the text would go
  on into the text behind it.
* `readItems_behind`: the reader does the same things when earlier nodes are there already and it
  began at another place.  The nodes it adds are the same, at places that are moved along.
-/

namespace ScopedCss

/-! ## Places behind another text -/

namespace Position

/-- The place in a text when `front` is put in front of the text.  The lines count on from the last
line of `front`, and so do the columns of the first line. -/
def behind (front : Text) (position : Position) : Position :=
  let last := start.advance front
  ⟨front.byteSize + position.offset, last.line + position.line - 1,
    if position.line = 1 then last.column + position.column - 1 else position.column⟩

theorem behind_start (front : Text) : start.behind front = start.advance front := by
  have hoffset : (start.advance front).offset = front.byteSize := by
    rw [offset_advance]
    exact Nat.zero_add _
  rw [behind, ← hoffset]
  rfl

/-- Lines and columns count from one. -/
def Counted (position : Position) : Prop :=
  0 < position.line ∧ 0 < position.column

theorem Counted.next {position : Position} (h : position.Counted) (c : Char) :
    (position.next c).Counted := by
  unfold Position.next
  split
  · exact ⟨Nat.succ_pos _, Nat.one_pos⟩
  · exact ⟨h.1, Nat.succ_pos _⟩

theorem behind_next {position : Position} (h : position.Counted) (front : Text) (c : Char) :
    (position.next c).behind front = (position.behind front).next c := by
  obtain ⟨hline, hcolumn⟩ := h
  have hlast : ∀ last : Nat, last + (position.line + 1) - 1 = last + position.line - 1 + 1 := by
    omega
  unfold behind Position.next
  by_cases hc : c = '\n'
  · have hsecond : position.line + 1 ≠ 1 := by omega
    simp only [hc, if_true, hsecond, if_false, hlast, Nat.add_assoc]
  · by_cases hfirst : position.line = 1
    · have hshift : ∀ last : Nat,
          last + (position.column + 1) - 1 = last + position.column - 1 + 1 := by
        omega
      simp only [hc, if_false, hfirst, if_true, hshift, Nat.add_assoc]
    · simp only [hc, if_false, hfirst, Nat.add_assoc]

/-- From this place on, moving the place goes along with reading. -/
def Follows (move : Position → Position) (position : Position) : Prop :=
  ∀ text, move (position.advance text) = (move position).advance text

theorem Follows.advance {move : Position → Position} {position : Position}
    (h : position.Follows move) (text : Text) : (position.advance text).Follows move := by
  intro more
  rw [← advance_append, h, advance_append, ← h]

theorem follows_behind {position : Position} (h : position.Counted) (front : Text) :
    position.Follows (behind front) := by
  intro text
  induction text generalizing position with
  | nil => rfl
  | cons c text ih =>
    show ((position.next c).advance text).behind front = ((position.behind front).next c).advance text
    rw [ih (h.next c), behind_next h]

end Position

/-! ## Nodes at other places -/

namespace Node

mutual

/-- The node with all places moved. -/
def moved (move : Position → Position) : Node → Node
  | .rule head body => .rule { head with position := head.position.map move } (movedAll move body)
  | .block head body => .block { head with position := head.position.map move } (movedAll move body)
  | .statement head => .statement { head with position := head.position.map move }
  | .declaration content => .declaration { content with position := content.position.map move }
  | .comment content position => .comment content (position.map move)

/-- The nodes with all places moved. -/
def movedAll (move : Position → Position) : List Node → List Node
  | [] => []
  | node :: nodes => node.moved move :: movedAll move nodes

end

theorem movedAll_eq_map (move : Position → Position) (nodes : List Node) :
    movedAll move nodes = nodes.map (moved move) := by
  induction nodes with
  | nil => rfl
  | cons node nodes ih => rw [movedAll, ih, List.map_cons]

theorem movedAll_reverse (move : Position → Position) (nodes : List Node) :
    movedAll move nodes.reverse = (movedAll move nodes).reverse := by
  rw [movedAll_eq_map, movedAll_eq_map, List.map_reverse]

end Node

/-- The head with its place moved. -/
def BlockHead.moved (move : Position → Position) : BlockHead → BlockHead
  | .rule head => .rule { head with position := head.position.map move }
  | .block head => .block { head with position := head.position.map move }

theorem BlockHead.moved_toNode (move : Position → Position) (head : BlockHead) (body : List Node) :
    (head.toNode body).moved move = (head.moved move).toNode (Node.movedAll move body) := by
  cases head <;> rfl

namespace Sheet

namespace Builder

/-- The builder with the given nodes and open blocks, all places moved, that had `earlier` nodes, last
first, to begin with. -/
def rebased (move : Position → Position) (earlier done : List Node) : List Frame → Builder
  | [] => ⟨Node.movedAll move done ++ earlier, []⟩
  | frame :: outer =>
    let around := rebased move earlier frame.earlier outer
    ⟨Node.movedAll move done, ⟨frame.head.moved move, around.done⟩ :: around.frames⟩

/-- The builder that had `earlier` nodes, last first, to begin with, and to which the same was added
at places that are moved. -/
def behind (move : Position → Position) (earlier : List Node) (builder : Builder) : Builder :=
  rebased move earlier builder.done builder.frames

section Behind

variable (move : Position → Position) (earlier : List Node) (builder : Builder)

theorem isNested_behind : (builder.behind move earlier).isNested = builder.isNested := by
  obtain ⟨done, frames⟩ := builder
  cases frames <;> rfl

theorem behind_push (node : Node) :
    (builder.push node).behind move earlier =
      (builder.behind move earlier).push (node.moved move) := by
  obtain ⟨done, frames⟩ := builder
  cases frames <;> rfl

theorem behind_openBlock (head : BlockHead) :
    (builder.openBlock head).behind move earlier =
      (builder.behind move earlier).openBlock (head.moved move) :=
  rfl

theorem behind_close : builder.close.behind move earlier = (builder.behind move earlier).close := by
  obtain ⟨done, frames⟩ := builder
  cases frames with
  | nil => rfl
  | cons frame outer =>
    have hpush := behind_push move earlier ⟨frame.earlier, outer⟩ (frame.head.toNode done.reverse)
    refine hpush.trans ?_
    rw [BlockHead.moved_toNode, Node.movedAll_reverse]
    rfl

/-- Adding an item goes along with moving the places. -/
theorem behind_add (position : Position) (item : Item) :
    (builder.add position item).behind move earlier =
      (builder.behind move earlier).add (move position) item := by
  cases item with
  | openRule selector => exact behind_openBlock ..
  | openBlock name params => exact behind_openBlock ..
  | close => exact behind_close ..
  | semicolon => rfl
  | statement name params => exact behind_push ..
  | declaration property value important => exact behind_push ..
  | comment content => exact behind_push ..

theorem reverse_done_behind (h : builder.isNested = false) :
    (builder.behind move earlier).done.reverse =
      earlier.reverse ++ Node.movedAll move builder.done.reverse := by
  have hframes : builder.frames = [] := by simpa [isNested] using h
  rw [behind, hframes, rebased, List.reverse_append, Node.movedAll_reverse]

end Behind

end Builder

/-! ## Reading from another place -/

/-- The error at a moved place. -/
def Error.moved (move : Position → Position) (error : Error) : Error :=
  { error with position := move error.position }

/-- From a moved place and with earlier nodes in front the reader does the same. -/
theorem readItems_behind {move : Position → Position} (earlier : List Node) {builder : Builder}
    {position : Position} (h : position.Follows move) (text : Text) :
    readItems (builder.behind move earlier) (move position) text =
      ((readItems builder position text).map fun nodes =>
        earlier.reverse ++ Node.movedAll move nodes).mapError (Error.moved move) := by
  fun_induction readItems builder position text with
  | case1 builder position text here hskip hnested =>
    rw [readItems_of_skipSpace_eq_nil_of_isNested hskip
      ((builder.isNested_behind move earlier).trans hnested), ← h]
    rfl
  | case2 builder position text hskip hnested =>
    have hnested : builder.isNested = false := by simpa using hnested
    rw [readItems_of_skipSpace_eq_nil hskip ((builder.isNested_behind move earlier).trans hnested),
      Builder.reverse_done_behind move earlier builder hnested]
    rfl
  | case3 builder position text here c tail hskip failure hitem =>
    rw [← builder.isNested_behind move earlier] at hitem
    rw [readItems_of_read_eq_error hskip hitem, ← h, ← h.advance]
    rfl
  | case4 builder position text here c tail hskip item rest hitem ih =>
    rw [← builder.isNested_behind move earlier] at hitem
    rw [readItems_of_read hskip hitem, ← h, ← h.advance, ← Builder.behind_add]
    exact ih ((h.advance _).advance _)

/-! ## Reading on behind a complete style sheet -/

/-- The last node is an at-rule without a block. -/
def endsWithStatement (sheet : Sheet) : Bool :=
  match sheet.getLast? with
  | some (.statement _) => true
  | _ => false

/-- Spaces in front of a text only move its place. -/
theorem readItems_spaces_append {gap : Text} (hgap : ∀ c ∈ gap, Text.isSpace c = true)
    (builder : Builder) (position : Position) (other : Text) :
    readItems builder position (gap ++ other) = readItems builder (position.advance gap) other := by
  have hskip : Text.skipSpace (gap ++ other) = other.skipSpace := List.dropWhile_append_of_pos hgap
  have hplace : position.advance (Text.leadingSpace (gap ++ other)) =
      (position.advance gap).advance other.leadingSpace := by
    rw [← Position.advance_append, Text.leadingSpace, List.takeWhile_append_of_pos hgap]
    rfl
  rw [readItems.eq_def, hplace, readItems.eq_def builder (position.advance gap)]
  rw [hskip]

/-- Text behind the first character that is not a space does not change which spaces are skipped. -/
theorem skipSpace_append_of_cons {text tail : Text} {c : Char} (h : text.skipSpace = c :: tail)
    (other : Text) :
    Text.leadingSpace (text ++ other) = text.leadingSpace ∧
      Text.skipSpace (text ++ other) = c :: (tail ++ other) := by
  have hgap : ∀ c ∈ text.leadingSpace, Text.isSpace c = true := fun _ => List.mem_takeWhile_imp
  have hhead : ∀ d ∈ (c :: (tail ++ other)).head?, Text.isSpace d = false := by
    intro d hd
    exact Text.head?_skipSpace d (by rw [h]; exact hd)
  have htext : text ++ other = text.leadingSpace ++ (c :: (tail ++ other)) := by
    rw [← List.cons_append, ← h, ← List.append_assoc, Text.leadingSpace_append_skipSpace]
  rw [htext]
  constructor
  · rw [Text.leadingSpace_append hgap hhead]
  · rw [Text.skipSpace_append hgap hhead]

/-- In a style sheet that is complete and does not end with a statement, no line ends with the text:
a declaration would leave its block open, and a statement would be the last node. -/
theorem ne_nil_of_isLine {builder : Builder} {position next : Position} {text rest : Text}
    {item : Item} {sheet : Sheet} (hread : Item.read builder.isNested text = .ok (item, rest))
    (h : readItems (builder.add position item) next rest = .ok sheet)
    (hlast : sheet.endsWithStatement = false) (hline : item.isLine = true) :
    rest ≠ [] := by
  rintro rfl
  obtain ⟨hnested, rfl⟩ := readItems_nil_eq_ok h
  cases item with
  | statement name params =>
    rw [endsWithStatement, List.getLast?_reverse] at hlast
    cases hlast
  | declaration property value important =>
    have hinner := Item.nested_of_isInner hread rfl
    exact absurd (hinner.symm.trans hnested) (by decide)
  | _ => cases hline

/-- A complete style sheet is read the same way with more text behind it, and the reader goes on with
that text. -/
theorem readItems_append {builder : Builder} {position : Position} {text : Text} {sheet : Sheet}
    (h : readItems builder position text = .ok sheet)
    (hlast : sheet.endsWithStatement = false) (other : Text) :
    readItems builder position (text ++ other) =
      readItems ⟨sheet.reverse, []⟩ (position.advance text) other := by
  fun_induction readItems builder position text with
  | case1 => simp at h
  | case2 builder position text hskip hnested =>
    obtain rfl := Except.ok.inj h
    obtain ⟨done, frames⟩ := builder
    have hframes : frames = [] := by simpa [Builder.isNested] using hnested
    have hspaces : ∀ c ∈ text, Text.isSpace c = true := List.dropWhile_eq_nil_iff.1 hskip
    rw [readItems_spaces_append hspaces, hframes, List.reverse_reverse]
  | case3 => simp at h
  | case4 builder position text here c tail hskip item rest hitem ih =>
    have hspelled := Item.read_eq_ok_iff.1 hitem
    have hmore := Item.read_eq_ok_iff.2 (hspelled.append (ne_nil_of_isLine hitem h hlast) other)
    obtain ⟨hgap, hstart⟩ := skipSpace_append_of_cons hskip other
    obtain ⟨consumed, hconsumed⟩ := hspelled.suffix
    have htext : text = text.leadingSpace ++ (consumed ++ rest) := by
      rw [hconsumed, ← hskip, Text.leadingSpace_append_skipSpace]
    have hbefore : Text.before (c :: (tail ++ other)) (rest ++ other) = consumed := by
      rw [← List.cons_append, ← hconsumed, List.append_assoc, Text.before_append]
    have hplace : position.advance text = (here.advance consumed).advance rest := by
      rw [htext, Position.advance_append, Position.advance_append]
    rw [← hconsumed, Text.before_append] at ih
    rw [readItems_of_read hstart hmore, hgap, hbefore, hplace]
    exact ih (by rwa [← hconsumed, Text.before_append] at h)

/-- A style sheet whose last node is not a statement can be put in front of any text: the text is
accepted behind it exactly if it is accepted alone.  Its nodes then stand behind those of the style
sheet, the same but for their places, which are moved behind the style sheet, and so is the place of
an error. -/
theorem parse_append {first : Text} {sheet : Sheet} (h : parse first = .ok sheet)
    (hlast : sheet.endsWithStatement = false) (second : Text) :
    ((∃ nodes, parse (first ++ second) = .ok nodes) ↔ ∃ nodes, parse second = .ok nodes) ∧
      (∀ nodes, parse second = .ok nodes →
        parse (first ++ second) = .ok (sheet ++ Node.movedAll (Position.behind first) nodes)) ∧
      ∀ error, parse second = .error error →
        parse (first ++ second) = .error (error.moved (Position.behind first)) := by
  have hreads : parse (first ++ second) =
      ((parse second).map fun nodes =>
        sheet ++ Node.movedAll (Position.behind first) nodes).mapError
          (Error.moved (Position.behind first)) := by
    have hstart : Position.start.Counted := ⟨Nat.one_pos, Nat.one_pos⟩
    have hbehind := @readItems_behind _ sheet.reverse .empty _
      (Position.follows_behind hstart first) second
    rw [Position.behind_start, List.reverse_reverse] at hbehind
    rw [parse, readItems_append h hlast]
    exact hbehind
  rw [hreads]
  cases parse second with
  | error error =>
    refine ⟨?_, ?_, ?_⟩
    · simp [Except.map, Except.mapError]
    · simp
    · simp [Except.map, Except.mapError]
  | ok nodes =>
    refine ⟨?_, ?_, ?_⟩
    · simp [Except.map, Except.mapError]
    · simp [Except.map, Except.mapError]
    · simp

/-- A statement in front of a comment with a character of two bytes and a rule, which is the last
node. -/
def frontSource : Text :=
  "@x;\n/*é*/ .a \x7b b: c \x7d ".toList

/-- A rule over two lines and a statement that ends with the text. -/
def backSource : Text :=
  "p \x7b q: r;\ns: t \x7d@y".toList

theorem parse_append_sample : ∃ sheet nodes,
    parse frontSource = .ok sheet ∧ sheet.endsWithStatement = false ∧
      parse backSource = .ok nodes ∧
      (Node.preorderAll (Node.movedAll (Position.behind frontSource) nodes)).map Node.position? =
        [some ⟨23, 2, 19⟩, some ⟨27, 2, 23⟩, some ⟨33, 3, 1⟩, some ⟨39, 3, 7⟩] ∧
      parse (frontSource ++ backSource) =
        .ok (sheet ++ Node.movedAll (Position.behind frontSource) nodes) := by
  obtain ⟨sheet, hsheet, hlast⟩ : ∃ sheet : Sheet,
      parse frontSource = .ok sheet ∧ sheet.endsWithStatement = false :=
    Selector.exists_ok_of_map (by decide +kernel)
  obtain ⟨nodes, hnodes, hplaces⟩ : ∃ nodes : Sheet, parse backSource = .ok nodes ∧
      (Node.preorderAll (Node.movedAll (Position.behind frontSource) nodes)).map Node.position? =
        [some ⟨23, 2, 19⟩, some ⟨27, 2, 23⟩, some ⟨33, 3, 1⟩, some ⟨39, 3, 7⟩] :=
    Selector.exists_ok_of_map (by decide +kernel)
  have happend := parse_append hsheet hlast backSource
  exact ⟨sheet, nodes, hsheet, hlast, hnodes, hplaces, happend.2.1 nodes hnodes⟩

end Sheet

end ScopedCss
