import ScopedCss.Proofs.SheetItems
import ScopedCss.Sheet.Parser

/-!
# Reading printed style sheets

A print-safe style sheet is read back from its text, up to the positions of its nodes.

The reader goes from item to item with a `Builder`, so the argument is about builders.
`Reads before text after` says that reading `text` takes the builder `before` to one with the
property `after`, whatever stands behind the text, and that only spaces are left over.  There is
one rule for spaces (`reads_spaces`), one for a legible item (`reads_item`) and one for two texts in
a row (`Reads.append`).  `reads_node_of_legible` puts them together along the tree: the text of a
node adds that node to the builder if all of its items are legible.
-/

namespace ScopedCss

/-! ## Print-safe trees -/

namespace Node

mutual

/-- The texts in a node and below it are safe to print. -/
def PrintSafe : Node → Prop
  | .rule head body => head.PrintSafe ∧ PrintSafeAll body
  | .block head body => head.PrintSafe [' '] '{' ∧ PrintSafeAll body
  | .statement head => head.PrintSafe [] ';'
  | .declaration content => content.PrintSafe
  | .comment content _ => ¬['*', '/'] <:+: content

/-- The texts in nodes and below them are safe to print. -/
def PrintSafeAll : List Node → Prop
  | [] => True
  | node :: nodes => node.PrintSafe ∧ PrintSafeAll nodes

end

mutual

/-- The node without its position and those below it. -/
def unplaced : Node → Node
  | .rule head body => .rule { head with position := none } (unplacedAll body)
  | .block head body => .block { head with position := none } (unplacedAll body)
  | .statement head => .statement { head with position := none }
  | .declaration content => .declaration { content with position := none }
  | .comment content _ => .comment content none

/-- The nodes without positions. -/
def unplacedAll : List Node → List Node
  | [] => []
  | node :: nodes => node.unplaced :: unplacedAll nodes

end

theorem unplacedAll_eq_map (nodes : List Node) : unplacedAll nodes = nodes.map unplaced := by
  induction nodes with
  | nil => rfl
  | cons node nodes ih => rw [unplacedAll, ih, List.map_cons]

mutual

/-- The items of a node. -/
def items : Node → List Sheet.Item
  | .rule head body => .openRule head.selector :: (itemsAll body ++ [.close])
  | .block head body => .openBlock head.name head.params :: (itemsAll body ++ [.close])
  | .statement head => [.statement head.name head.params]
  | .declaration content => [.declaration content.property content.value content.important]
  | .comment content _ => [.comment content]

/-- The items of nodes, one after the other. -/
def itemsAll : List Node → List Sheet.Item
  | [] => []
  | node :: nodes => node.items ++ itemsAll nodes

end

mutual

/-- The items of a print-safe node are legible. -/
theorem legible_of_printSafe : (node : Node) → node.PrintSafe →
    ∀ item ∈ node.items, item.Legible
  | .rule head body, h => by
    rw [items, List.forall_mem_cons, List.forall_mem_append, List.forall_mem_singleton]
    exact ⟨Sheet.Item.legible_rule h.1, legible_of_printSafeAll body h.2, Sheet.Item.legible_close⟩
  | .block head body, h => by
    rw [items, List.forall_mem_cons, List.forall_mem_append, List.forall_mem_singleton]
    exact ⟨Sheet.Item.legible_block (h.1.readable (by simp) (by decide)),
      legible_of_printSafeAll body h.2, Sheet.Item.legible_close⟩
  | .statement head, h =>
    List.forall_mem_singleton.2
      (Sheet.Item.legible_statement (AtRule.PrintSafe.readable h (by simp) (by decide)))
  | .declaration content, h =>
    List.forall_mem_singleton.2
      (Sheet.Item.legible_declaration (Declaration.PrintSafe.readable h))
  | .comment content _, h => List.forall_mem_singleton.2 (Sheet.Item.legible_comment h)

/-- The items of print-safe nodes are legible. -/
theorem legible_of_printSafeAll : (nodes : List Node) → PrintSafeAll nodes →
    ∀ item ∈ itemsAll nodes, item.Legible
  | [], _ => List.forall_mem_nil _
  | node :: nodes, h => by
    rw [itemsAll, List.forall_mem_append]
    exact ⟨legible_of_printSafe node h.1, legible_of_printSafeAll nodes h.2⟩

end

mutual

/-- Print-safety is checked node by node. -/
def decidePrintSafe : (node : Node) → Decidable node.PrintSafe
  | .rule head body =>
    have := decidePrintSafeAll body
    inferInstanceAs (Decidable (head.PrintSafe ∧ PrintSafeAll body))
  | .block head body =>
    have := decidePrintSafeAll body
    inferInstanceAs (Decidable (head.PrintSafe [' '] '{' ∧ PrintSafeAll body))
  | .statement head => inferInstanceAs (Decidable (head.PrintSafe [] ';'))
  | .declaration content => inferInstanceAs (Decidable content.PrintSafe)
  | .comment content _ => inferInstanceAs (Decidable ¬['*', '/'] <:+: content)

/-- Print-safety of all of the nodes. -/
def decidePrintSafeAll : (nodes : List Node) → Decidable (PrintSafeAll nodes)
  | [] => inferInstanceAs (Decidable True)
  | node :: nodes =>
    have := node.decidePrintSafe
    have := decidePrintSafeAll nodes
    inferInstanceAs (Decidable (node.PrintSafe ∧ PrintSafeAll nodes))

end

instance (nodes : List Node) : Decidable (PrintSafeAll nodes) :=
  decidePrintSafeAll nodes

end Node

namespace Sheet

/-- A style sheet whose text says what it is: no declaration stands outside a block, and no text in
it ends a construct or a comment too early. -/
def PrintSafe (sheet : Sheet) : Prop :=
  Node.declarations sheet = [] ∧ Node.PrintSafeAll sheet

instance (sheet : Sheet) : Decidable sheet.PrintSafe :=
  inferInstanceAs (Decidable (_ ∧ _))

/-! ## Builders -/

namespace Builder

/-- Adds finished nodes. -/
def pushAll (builder : Builder) (nodes : List Node) : Builder :=
  { builder with done := nodes.reverse ++ builder.done }

theorem pushAll_pushAll (builder : Builder) (first second : List Node) :
    (builder.pushAll first).pushAll second = builder.pushAll (first ++ second) := by
  simp [pushAll]

/-- Closing a block adds it, with the nodes that were added since it was opened. -/
theorem close_openBlock (builder : Builder) (head : BlockHead) (nodes : List Node) :
    ((builder.openBlock head).pushAll nodes).close = builder.push (head.toNode nodes) := by
  simp [close, pushAll, openBlock, push]

end Builder

/-! ## One item after the other -/

theorem readItems_of_skipSpace_eq_nil {builder : Builder} {position : Position} {text : Text}
    (h : text.skipSpace = []) (hnested : builder.isNested = false) :
    readItems builder position text = .ok builder.done.reverse := by
  rw [readItems.eq_def]
  split <;> simp_all

theorem readItems_of_skipSpace_eq_nil_of_isNested {builder : Builder} {position : Position}
    {text : Text} (h : text.skipSpace = []) (hnested : builder.isNested = true) :
    readItems builder position text =
      .error ⟨position.advance text.leadingSpace, .unexpectedEnd⟩ := by
  rw [readItems.eq_def]
  split <;> simp_all

/-- A style sheet that was read to its end is not nested, and its nodes are those of the builder. -/
theorem readItems_nil_eq_ok {builder : Builder} {position : Position} {sheet : Sheet}
    (h : readItems builder position [] = .ok sheet) :
    builder.isNested = false ∧ sheet = builder.done.reverse := by
  cases hnested : builder.isNested with
  | true =>
    rw [readItems_of_skipSpace_eq_nil_of_isNested rfl hnested] at h
    cases h
  | false =>
    rw [readItems_of_skipSpace_eq_nil rfl hnested] at h
    exact ⟨rfl, (Except.ok.inj h).symm⟩

theorem readItems_of_read {builder : Builder} {position : Position} {text tail rest : Text}
    {c : Char} {item : Item} (hstart : text.skipSpace = c :: tail)
    (hread : Item.read builder.isNested (c :: tail) = .ok (item, rest)) :
    readItems builder position text =
      readItems (builder.add (position.advance text.leadingSpace) item)
        ((position.advance text.leadingSpace).advance (Text.before (c :: tail) rest)) rest := by
  rw [readItems.eq_def]
  split
  · simp_all
  · next heq =>
    obtain ⟨rfl, rfl⟩ := List.cons.inj (hstart.symm.trans heq)
    split
    · simp_all
    · next hitem =>
      obtain ⟨rfl, rfl⟩ := Prod.mk.inj (Except.ok.inj (hread.symm.trans hitem))
      rfl

theorem readItems_of_read_eq_error {builder : Builder} {position : Position} {text tail : Text}
    {c : Char} {failure : Failure} (hstart : text.skipSpace = c :: tail)
    (hread : Item.read builder.isNested (c :: tail) = .error failure) :
    readItems builder position text =
      .error ⟨(position.advance text.leadingSpace).advance (Text.before (c :: tail) failure.rest),
        failure.cause⟩ := by
  rw [readItems.eq_def]
  split
  · simp_all
  · next heq =>
    obtain ⟨rfl, rfl⟩ := List.cons.inj (hstart.symm.trans heq)
    split
    · next hitem => rw [Except.error.inj (hread.symm.trans hitem)]
    · simp_all

/-- Reading `text` takes the builder `before` to one with the property `after`.  Spaces in front of
the text are skipped, and spaces may be left over. -/
def Reads (before : Builder) (text : Text) (after : Builder → Prop) : Prop :=
  ∀ (position : Position) (gap rest : Text), (∀ c ∈ gap, Text.isSpace c = true) →
    ∃ (builder : Builder) (next : Position) (left : Text),
      after builder ∧ (∀ c ∈ left, Text.isSpace c = true) ∧
        readItems before position (gap ++ (text ++ rest)) = readItems builder next (left ++ rest)

theorem reads_spaces {builder : Builder} {text : Text} (h : ∀ c ∈ text, Text.isSpace c = true) :
    Reads builder text (· = builder) := by
  intro position gap rest hgap
  refine ⟨builder, position, gap ++ text, rfl, ?_, by rw [List.append_assoc]⟩
  exact List.forall_mem_append.2 ⟨hgap, h⟩

theorem reads_item {item : Item} (h : item.Legible) {builder : Builder}
    (hnested : item.isInner = true → builder.isNested = true) :
    Reads builder item.text fun next => ∃ position, next = builder.add position item := by
  intro position gap rest hgap
  obtain ⟨⟨c, hhead, hstart⟩, hread⟩ := h
  have hread := hread builder.isNested hnested rest
  obtain ⟨tail, htext⟩ : ∃ tail, item.text = c :: tail := List.head?_eq_some_iff.1 hhead
  rw [htext] at hread ⊢
  have hskip : Text.skipSpace (gap ++ (c :: tail ++ rest)) = c :: (tail ++ rest) :=
    Text.skipSpace_append hgap (by simpa using hstart)
  exact ⟨_, _, [], ⟨_, rfl⟩, List.forall_mem_nil _, readItems_of_read hskip hread⟩

theorem Reads.append {before : Builder} {first second : Text} {between after : Builder → Prop}
    (hfirst : Reads before first between)
    (hsecond : ∀ builder, between builder → Reads builder second after) :
    Reads before (first ++ second) after := by
  intro position gap rest hgap
  obtain ⟨middle, here, left, hmiddle, hleft, hreads⟩ :=
    hfirst position gap (second ++ rest) hgap
  obtain ⟨builder, next, last, hafter, hlast, hrest⟩ := hsecond middle hmiddle here left rest hleft
  exact ⟨builder, next, last, hafter, hlast, by rw [List.append_assoc, hreads, hrest]⟩

theorem Reads.imp {before : Builder} {text : Text} {after weaker : Builder → Prop}
    (h : Reads before text after) (himp : ∀ builder, after builder → weaker builder) :
    Reads before text weaker := by
  intro position gap rest hgap
  obtain ⟨builder, next, left, hafter, hleft, hreads⟩ := h position gap rest hgap
  exact ⟨builder, next, left, himp builder hafter, hleft, hreads⟩

/-- Spaces around a text do not matter. -/
theorem Reads.pad {before : Builder} {text front back : Text} {after : Builder → Prop}
    (h : Reads before text after) (hfront : ∀ c ∈ front, Text.isSpace c = true)
    (hback : ∀ c ∈ back, Text.isSpace c = true) :
    Reads before (front ++ (text ++ back)) after := by
  refine (reads_spaces hfront).append ?_
  rintro _ rfl
  exact h.append fun builder hafter => (reads_spaces hback).imp fun _ heq => heq ▸ hafter

/-! ## Nodes -/

theorem isSpace_of_mem_indent (depth : Nat) : ∀ c ∈ Node.indent depth, Text.isSpace c = true := by
  intro c hc
  rw [List.eq_of_mem_replicate hc]
  decide

theorem isSpace_of_mem_break : ∀ c ∈ ['\n'], Text.isSpace c = true :=
  List.all_eq_true.1 (by decide)

/-- Inside a printed block there are only spaces around the printed nodes. -/
theorem exists_printBlock (depth : Nat) (body : List Node) :
    ∃ front back, (∀ c ∈ front, Text.isSpace c = true) ∧ (∀ c ∈ back, Text.isSpace c = true) ∧
      Node.printBlock depth body (Node.printAll (depth + 1) body) =
        [' ', '{'] ++ (front ++ (Node.printAll (depth + 1) body ++ back) ++ ['}', '\n']) := by
  cases body with
  | nil => exact ⟨[], [], List.forall_mem_nil _, List.forall_mem_nil _, rfl⟩
  | cons node nodes =>
    refine ⟨['\n'], Node.indent depth, isSpace_of_mem_break, isSpace_of_mem_indent depth, ?_⟩
    simp [Node.printBlock]

/-- The builder got nodes that are `nodes` but for their positions. -/
def Gains (builder : Builder) (nodes : List Node) (next : Builder) : Prop :=
  ∃ placed, Node.unplacedAll placed = Node.unplacedAll nodes ∧ next = builder.pushAll placed

/-- A block is read if its heading and its nodes are. -/
theorem reads_block {builder : Builder} {heading : Text} {head : Position → BlockHead}
    {depth : Nat} {body : List Node}
    (hopen : Reads builder (heading ++ [' ', '{']) fun next =>
      ∃ position, next = builder.openBlock (head position))
    (hbody : ∀ position, Reads (builder.openBlock (head position))
      (Node.printAll (depth + 1) body) (Gains (builder.openBlock (head position)) body)) :
    Reads builder (Node.indent depth ++ heading ++
        Node.printBlock depth body (Node.printAll (depth + 1) body)) fun next =>
      ∃ position placed, Node.unplacedAll placed = Node.unplacedAll body ∧
        next = builder.push ((head position).toNode placed) := by
  obtain ⟨front, back, hfront, hback, hblock⟩ := exists_printBlock depth body
  have htext : Node.indent depth ++ heading ++
      Node.printBlock depth body (Node.printAll (depth + 1) body) =
      Node.indent depth ++ ((heading ++ [' ', '{'] ++
        (front ++ (Node.printAll (depth + 1) body ++ back) ++ ['}'])) ++ ['\n']) := by
    simp [hblock]
  rw [htext]
  refine Reads.pad (hopen.append ?_) (isSpace_of_mem_indent depth) isSpace_of_mem_break
  rintro _ ⟨position, rfl⟩
  refine ((hbody position).pad hfront hback).append ?_
  rintro _ ⟨placed, hplaced, rfl⟩
  refine (reads_item Item.legible_close fun _ => rfl).imp ?_
  rintro _ ⟨_, rfl⟩
  exact ⟨position, placed, hplaced, builder.close_openBlock (head position) placed⟩

theorem gains_push {builder : Builder} {node placed : Node} (h : placed.unplaced = node.unplaced) :
    Gains builder [node] (builder.push placed) :=
  ⟨[placed], congrArg (· :: []) h, rfl⟩

theorem Gains.append {builder between next : Builder} {first second : List Node}
    (hfirst : Gains builder first between) (hsecond : Gains between second next) :
    Gains builder (first ++ second) next := by
  obtain ⟨front, hfront, rfl⟩ := hfirst
  obtain ⟨back, hback, rfl⟩ := hsecond
  refine ⟨front ++ back, ?_, builder.pushAll_pushAll front back⟩
  simp only [Node.unplacedAll_eq_map, List.map_append] at hfront hback ⊢
  rw [hfront, hback]

/-- A node without a body is read if its item is. -/
theorem reads_line {builder : Builder} {node : Node} {text : Text} {depth : Nat}
    {placed : Position → Node}
    (h : Reads builder text fun next => ∃ position, next = builder.push (placed position))
    (hline : node.print depth = Node.indent depth ++ (text ++ ['\n']))
    (hplaced : ∀ position, (placed position).unplaced = node.unplaced) :
    Reads builder (node.print depth) (Gains builder [node]) := by
  rw [hline]
  refine (h.pad (isSpace_of_mem_indent depth) isSpace_of_mem_break).imp ?_
  rintro _ ⟨position, rfl⟩
  exact gains_push (hplaced position)

mutual

/-- The text of a node adds the node. -/
theorem reads_node_of_legible (depth : Nat) (builder : Builder) : (node : Node) →
    (∀ item ∈ node.items, item.Legible) →
    (∀ content, node = .declaration content → builder.isNested = true) →
    Reads builder (node.print depth) (Gains builder [node])
  | .rule head body, h, _ => by
    rw [Node.items, List.forall_mem_cons, List.forall_mem_append] at h
    rw [Node.print]
    refine (reads_block (reads_item h.1 nofun) fun position =>
      reads_nodes_of_legible (depth + 1) _ body h.2.1 fun _ _ => rfl).imp ?_
    rintro _ ⟨position, placed, hplaced, rfl⟩
    exact gains_push (by simp [BlockHead.toNode, Node.unplaced, hplaced])
  | .block head body, h, _ => by
    rw [Node.items, List.forall_mem_cons, List.forall_mem_append] at h
    rw [Node.print]
    refine (reads_block (reads_item h.1 nofun) fun position =>
      reads_nodes_of_legible (depth + 1) _ body h.2.1 fun _ _ => rfl).imp ?_
    rintro _ ⟨position, placed, hplaced, rfl⟩
    exact gains_push (by simp [BlockHead.toNode, Node.unplaced, hplaced])
  | .statement head, h, _ =>
    reads_line (reads_item (List.forall_mem_singleton.1 h) nofun)
      (by rw [Node.print, Item.text, List.append_assoc, List.append_assoc]; rfl) fun _ => rfl
  | .declaration content, h, hnested =>
    reads_line (reads_item (List.forall_mem_singleton.1 h) fun _ => hnested content rfl)
      (by rw [Node.print, Item.text, List.append_assoc, List.append_assoc]; rfl) fun _ => rfl
  | .comment content _, h, _ =>
    reads_line (reads_item (List.forall_mem_singleton.1 h) nofun)
      (by simp [Node.print, Item.text]) fun _ => rfl

/-- The text of nodes adds them all. -/
theorem reads_nodes_of_legible (depth : Nat) (builder : Builder) : (nodes : List Node) →
    (∀ item ∈ Node.itemsAll nodes, item.Legible) →
    (∀ content, .declaration content ∈ nodes → builder.isNested = true) →
    Reads builder (Node.printAll depth nodes) (Gains builder nodes)
  | [], _, _ => (reads_spaces (List.forall_mem_nil _)).imp fun _ heq => ⟨[], rfl, heq⟩
  | node :: nodes, h, hnested => by
    rw [Node.itemsAll, List.forall_mem_append] at h
    rw [Node.printAll]
    refine (reads_node_of_legible depth builder node h.1 ?_).append fun between hbetween => ?_
    · rintro content rfl
      exact hnested content List.mem_cons_self
    · -- Declarations may stand in any open block, and the node closes what it opens.
      have hframes : between.isNested = builder.isNested := by
        obtain ⟨_, _, rfl⟩ := hbetween
        rfl
      refine (reads_nodes_of_legible depth between nodes h.2 fun content hcontent => ?_).imp
        fun next hnext => hbetween.append hnext
      rw [hframes]
      exact hnested content (List.mem_cons_of_mem node hcontent)

end

/-- A style sheet of legible items is read back from its text, up to positions. -/
theorem parse_print_of_legible {sheet : Sheet}
    (hlegible : ∀ item ∈ Node.itemsAll sheet, item.Legible)
    (htop : ∀ content, .declaration content ∉ sheet) :
    ∃ again, parse sheet.print = .ok again ∧ Node.unplacedAll again = Node.unplacedAll sheet := by
  have hnested : ∀ content, .declaration content ∈ sheet → Builder.empty.isNested = true :=
    fun content hcontent => absurd hcontent (htop content)
  obtain ⟨_, position, left, ⟨again, hagain, rfl⟩, hleft, hreads⟩ :=
    reads_nodes_of_legible 0 .empty sheet hlegible hnested .start [] [] (List.forall_mem_nil _)
  have hskip : Text.skipSpace (left ++ []) = [] := Text.skipSpace_append hleft (by simp)
  rw [readItems_of_skipSpace_eq_nil hskip rfl] at hreads
  refine ⟨again, ?_, hagain⟩
  simpa [parse, Sheet.print, Builder.pushAll, Builder.empty] using hreads

/-- A print-safe style sheet is read back from its text, up to positions. -/
theorem parse_print {sheet : Sheet} (h : sheet.PrintSafe) :
    ∃ nodes, parse sheet.print = .ok nodes ∧
      Node.unplacedAll nodes = Node.unplacedAll sheet := by
  obtain ⟨htop, hsafe⟩ := h
  refine parse_print_of_legible (Node.legible_of_printSafeAll sheet hsafe) ?_
  intro content hcontent
  have hmem : content ∈ Node.declarations sheet := List.mem_filterMap.2 ⟨_, hcontent, rfl⟩
  rw [htop] at hmem
  exact absurd hmem List.not_mem_nil

/-- A style sheet with stop characters in a comment, in a string, in brackets and in an escape. -/
def printSample : Sheet :=
  [.comment " \x7b a; \x7d ".toList none,
    .statement ⟨"import".toList, "url(a;b.css) print".toList, none⟩,
    .block ⟨"media".toList, "(width > 1px)".toList, none⟩
      [.rule ⟨".a\\;b[c=\"\x7b\"]".toList, none⟩
        [.declaration ⟨"content".toList, "\"\x7d\" /* ; */".toList, true, none⟩,
          .declaration ⟨"--x\\3a".toList, [], false, none⟩,
          .rule ⟨"&:hover".toList, none⟩ []],
        .block ⟨"font-face".toList, [], none⟩ []]]

theorem parse_print_sample : printSample.PrintSafe ∧ ∃ nodes,
    parse printSample.print = .ok nodes ∧
      Node.unplacedAll nodes = Node.unplacedAll printSample :=
  ⟨by decide +kernel, parse_print (by decide +kernel)⟩

end Sheet

end ScopedCss
