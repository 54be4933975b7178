import ScopedCss.Proofs.ParsedSheets
import ScopedCss.Proofs.SelectorDerivations

/-!
# Where nodes were read

Every node of a parsed style sheet knows the place where it began.  The reader carries a position
along and moves it over what it has read, so three facts have to be tied together.

* `Position.ofOffset_byteSize`: the position that was carried over a text is the position that is
  computed from scratch for the offset behind this text.
* `Node.Opens`: the text from that place on begins with the node.  `Item.opens_of_spelled` reads it off
  the spelling of the item.
* `Position.precedes_advance`: a position that is moved over some text grows, as an offset and as a
  line with a column.  Each item uses up text, so in document order the positions increase.

The nodes of a tree that is still being built are followed with `outlineListing`: it lists the nodes in
document order, each without its body, which may not be complete.
-/

namespace ScopedCss

/-! ## Places in a text -/

theorem Text.takeBytes_append (front back : Text) :
    takeBytes front.byteSize (front ++ back) = front := by
  induction front with
  | nil =>
    cases back with
    | nil => rfl
    | cons c back =>
      have hpos := c.utf8Size_pos
      rw [List.nil_append, byteSize_nil, takeBytes, if_neg (by omega)]
  | cons c front ih =>
    rw [List.cons_append, byteSize_cons, takeBytes, if_pos (by omega), Nat.add_sub_cancel_left, ih]

namespace Position

/-- The place behind the first part of a text. -/
theorem ofOffset_byteSize (front back : Text) :
    ofOffset (front ++ back) front.byteSize = start.advance front := by
  rw [ofOffset, Text.takeBytes_append]

/-- One place comes before another: it has the smaller offset, and it stands in an earlier line or in
the same line further to the left. -/
def Precedes (first second : Position) : Prop :=
  first.offset < second.offset ∧
    (first.line < second.line ∨ first.line = second.line ∧ first.column < second.column)

instance (first second : Position) : Decidable (first.Precedes second) :=
  inferInstanceAs (Decidable (_ ∧ _))

theorem Precedes.trans {first second third : Position} (hfirst : first.Precedes second)
    (hsecond : second.Precedes third) : first.Precedes third := by
  unfold Precedes at *
  omega

theorem precedes_next (position : Position) (c : Char) : position.Precedes (position.next c) := by
  have hpos := c.utf8Size_pos
  unfold Precedes next
  split <;> dsimp only <;> omega

/-- Moving a place over some text takes it to a later one. -/
theorem precedes_advance {consumed : Text} (h : consumed ≠ []) (position : Position) :
    position.Precedes (position.advance consumed) := by
  induction consumed generalizing position with
  | nil => exact absurd rfl h
  | cons c consumed ih =>
    show position.Precedes ((position.next c).advance consumed)
    by_cases hnil : consumed = []
    · subst hnil
      exact precedes_next position c
    · exact (precedes_next position c).trans (ih hnil (position.next c))

end Position

/-! ## Nodes in document order -/

namespace Node

/-- The place where the node began, if it was read from a source. -/
def position? : Node → Option Position
  | .rule head _ => head.position
  | .block head _ => head.position
  | .statement head => head.position
  | .declaration content => content.position
  | .comment _ position => position

/-- The text begins with the node: with the whole of a comment, with the name of an at-rule or, behind
blanks, with the selector of a rule or the property of a declaration. -/
def Opens (text : Text) : Node → Prop
  | .rule head _ => head.selector <+: text.trimStart
  | .block head _ => '@' :: head.name <+: text
  | .statement head => '@' :: head.name <+: text
  | .declaration content => content.property <+: text.trimStart
  | .comment content _ => '/' :: '*' :: (content ++ ['*', '/']) <+: text

mutual

/-- The node and the nodes below it, in document order. -/
def preorder : Node → List Node
  | .rule head body => .rule head body :: preorderAll body
  | .block head body => .block head body :: preorderAll body
  | .statement head => [.statement head]
  | .declaration content => [.declaration content]
  | .comment content position => [.comment content position]

/-- The nodes and the nodes below them, in document order. -/
def preorderAll : List Node → List Node
  | [] => []
  | node :: nodes => node.preorder ++ preorderAll nodes

end

/-- The node without its body. -/
def bare : Node → Node
  | .rule head _ => .rule head []
  | .block head _ => .block head []
  | node => node

theorem position?_bare (node : Node) : node.bare.position? = node.position? := by
  cases node <;> rfl

theorem opens_bare (text : Text) (node : Node) : node.bare.Opens text ↔ node.Opens text := by
  cases node <;> rfl

theorem preorderAll_append (first second : List Node) :
    preorderAll (first ++ second) = preorderAll first ++ preorderAll second := by
  induction first with
  | nil => rfl
  | cons node first ih => rw [List.cons_append, preorderAll, preorderAll, ih, List.append_assoc]

end Node

/-- The nodes in document order, without their bodies. -/
def outlineListing : Listing Node where
  nodes nodes := (Node.preorderAll nodes).map Node.bare
  opening head := [head.toNode []]
  closing := []
  nodes_append first second := by rw [Node.preorderAll_append, List.map_append]
  nodes_block head body := by
    cases head <;> simp [BlockHead.toNode, Node.preorderAll, Node.preorder, Node.bare]

namespace Sheet

/-! ## Items and the nodes that begin with them -/

/-- The node that begins with the item, without its body. -/
def Item.node? (position : Position) : Item → Option Node
  | .openRule selector => some (.rule ⟨selector, some position⟩ [])
  | .openBlock name params => some (.block ⟨name, params, some position⟩ [])
  | .close => none
  | .semicolon => none
  | .statement name params => some (.statement ⟨name, params, some position⟩)
  | .declaration property value important =>
    some (.declaration ⟨property, value, important, some position⟩)
  | .comment content => some (.comment content (some position))

theorem Item.position?_of_node? {position : Position} {item : Item} {node : Node}
    (h : item.node? position = some node) : node.position? = some position := by
  cases item <;> cases h <;> rfl

/-- Adding an item to a builder adds the node that begins with it to the end of the outline. -/
theorem Builder.listed_outline_add {builder : Builder} (position : Position) {item : Item}
    (hinner : item.isInner = true → builder.isNested = true) :
    (builder.add position item).listed outlineListing =
      builder.listed outlineListing ++ (item.node? position).toList := by
  cases item with
  | openRule selector => exact builder.listed_openBlock outlineListing _
  | openBlock name params => exact builder.listed_openBlock outlineListing _
  | close => exact listed_close outlineListing (hinner rfl)
  | semicolon => exact (List.append_nil _).symm
  | statement name params => exact builder.listed_pushAll outlineListing [_]
  | declaration property value important => exact builder.listed_pushAll outlineListing [_]
  | comment content => exact builder.listed_pushAll outlineListing [_]

/-- What trimming leaves of the start of a text stands behind the blanks of the whole text. -/
theorem trim_isPrefix {front : Text} (h : front.trim ≠ []) (back : Text) :
    front.trim <+: Text.trimStart (front ++ back) := by
  obtain ⟨lead, gap, hlead, -, hfront⟩ := Text.exists_append_trim_append front
  have hstart := (Text.trim_eq_self (Text.trim_trim front)).1
  have htext : front ++ back = lead ++ (front.trim ++ (gap ++ back)) := by
    rw [← List.append_assoc front.trim, ← List.append_assoc lead, ← hfront]
  rw [htext, Text.trimStart_append hlead, Text.trimStart_append_of_ne_nil h hstart]
  exact List.prefix_append _ _

/-- Where an item was read, the text begins with its node. -/
theorem Item.opens_of_spelled {nested : Bool} {text rest : Text} {item : Item}
    (h : Spelled nested text item rest) {position : Position} {node : Node}
    (hnode : item.node? position = some node) : node.Opens text := by
  cases h with
  | close => cases hnode
  | semicolon => cases hnode
  | comment =>
    cases hnode
    exact ⟨rest, by simp⟩
  | openBlock =>
    cases hnode
    exact ⟨_, rfl⟩
  | statement =>
    cases hnode
    exact ⟨_, rfl⟩
  | openRule _ _ hne =>
    cases hnode
    exact trim_isPrefix hne _
  | declaration _ _ _ _ hident =>
    cases hnode
    have hne := Ident.ne_nil_of_read?_eq_some (beq_iff_eq.1 hident)
    rw [List.append_assoc]
    exact trim_isPrefix hne _

/-! ## The positions of a parsed style sheet -/

/-- The node began in `source` at a place in front of the end of `front`, and the text from there on
begins with it. -/
def PlacedBefore (source front : Text) (node : Node) : Prop :=
  ∃ before back, source = before ++ back ∧ before.length < front.length ∧
    node.position? = some (Position.start.advance before) ∧ node.Opens back

/-- Both nodes have positions, in this order. -/
def InOrder (first second : Node) : Prop :=
  ∀ here ∈ first.position?, ∀ there ∈ second.position?, here.Precedes there

/-- A node that began in what has been read comes before one that begins behind it. -/
theorem PlacedBefore.inOrder {source front gap rest : Text} {first second : Node}
    (h : PlacedBefore source front first) (hsource : source = front ++ gap ++ rest)
    (hsecond : second.position? = some (Position.start.advance (front ++ gap))) :
    InOrder first second := by
  obtain ⟨before, back, hbefore, hlength, hfirst, -⟩ := h
  have hle : before.length ≤ (front ++ gap).length := by
    rw [List.length_append]
    omega
  obtain ⟨between, hbetween⟩ : before <+: front ++ gap :=
    List.prefix_of_prefix_length_le ⟨back, hbefore.symm⟩ ⟨rest, hsource.symm⟩ hle
  have hne : between ≠ [] := by
    rintro rfl
    have hsame := congrArg List.length hbetween
    simp only [List.append_nil, List.length_append] at hsame
    omega
  intro here hhere there hthere
  obtain rfl : Position.start.advance before = here := Option.some.inj (hfirst.symm.trans hhere)
  obtain rfl : Position.start.advance (front ++ gap) = there :=
    Option.some.inj (hsecond.symm.trans hthere)
  rw [← hbetween, Position.advance_append]
  exact Position.precedes_advance hne _

theorem PlacedBefore.mono {source front later : Text} {node : Node}
    (h : PlacedBefore source front node) (hlater : front.length ≤ later.length) :
    PlacedBefore source later node := by
  obtain ⟨before, back, hbefore, hlength, hrest⟩ := h
  exact ⟨before, back, hbefore, by omega, hrest⟩

/-- All nodes of the tree that is being built began in what has been read, and in document order. -/
def OutlinePlaced (source front : Text) (builder : Builder) : Prop :=
  (∀ node ∈ builder.listed outlineListing, PlacedBefore source front node) ∧
    (builder.listed outlineListing).Pairwise InOrder

/-- Reading an item keeps the nodes placed. -/
theorem OutlinePlaced.add {source front gap consumed rest : Text} {builder : Builder} {item : Item}
    (h : OutlinePlaced source front builder) (hsource : source = front ++ gap ++ (consumed ++ rest))
    (hread : Item.read builder.isNested (consumed ++ rest) = .ok (item, rest)) :
    OutlinePlaced source (front ++ gap ++ consumed)
      (builder.add (Position.start.advance (front ++ gap)) item) := by
  obtain ⟨hplaced, horder⟩ := h
  have hconsumed : 0 < consumed.length := by
    have hlt := Item.length_lt_of_read_eq_ok hread
    rw [List.length_append] at hlt
    omega
  have hnew : ∀ node ∈ item.node? (Position.start.advance (front ++ gap)),
      node.position? = some (Position.start.advance (front ++ gap)) ∧
        node.Opens (consumed ++ rest) := fun node hnode =>
    ⟨Item.position?_of_node? hnode, Item.opens_of_spelled (Item.spelled_of_read hread) hnode⟩
  rw [OutlinePlaced, Builder.listed_outline_add _ (Item.nested_of_isInner hread)]
  constructor
  · intro node hnode
    rcases List.mem_append.1 hnode with hold | hnode
    · refine (hplaced node hold).mono ?_
      rw [List.length_append, List.length_append]
      omega
    · obtain ⟨hposition, hopens⟩ := hnew node (Option.mem_toList.1 hnode)
      refine ⟨front ++ gap, consumed ++ rest, hsource, ?_, hposition, hopens⟩
      simp only [List.length_append]
      omega
  · rw [List.pairwise_append]
    refine ⟨horder, ?_, fun first hfirst second hsecond => ?_⟩
    · cases item.node? (Position.start.advance (front ++ gap)) <;> simp
    · exact (hplaced first hfirst).inOrder hsource (hnew second (Option.mem_toList.1 hsecond)).1

/-- Every node of a parsed style sheet has the position of a place in the source from which on the
source begins with the node, and in document order the positions increase, as offsets and as lines
with columns. -/
theorem parse_places {source : Text} {sheet : Sheet} (h : parse source = .ok sheet) :
    (∀ node ∈ Node.preorderAll sheet, ∃ position front back,
      node.position? = some position ∧ position = .ofOffset source position.offset ∧
        source = front ++ back ∧ front.byteSize = position.offset ∧ node.Opens back) ∧
    (Node.preorderAll sheet).Pairwise fun first second =>
      ∀ here ∈ first.position?, ∀ there ∈ second.position?, here.Precedes there := by
  have hempty : OutlinePlaced source [] .empty := ⟨List.forall_mem_nil _, .nil⟩
  obtain ⟨front, last, ⟨hplaced, horder⟩, hnested, rfl⟩ :=
    @readItems_run .start source (OutlinePlaced source)
      (fun _ _ _ _ _ _ hsource hinvariant hread _ => hinvariant.add hsource hread)
      [] source .empty .start sheet rfl rfl h hempty
  rw [Builder.listed_of_isNested_eq_false outlineListing hnested] at hplaced horder
  constructor
  · intro node hnode
    obtain ⟨before, back, hsource, -, hposition, hopens⟩ :=
      hplaced node.bare (List.mem_map_of_mem hnode)
    rw [Node.position?_bare] at hposition
    rw [Node.opens_bare] at hopens
    have hoffset : (Position.start.advance before).offset = before.byteSize := by
      rw [Position.offset_advance]
      exact Nat.zero_add _
    refine ⟨_, before, back, hposition, ?_, hsource, hoffset.symm, hopens⟩
    rw [hoffset, hsource, Position.ofOffset_byteSize]
  · refine (List.pairwise_map.1 horder).imp fun {first second} hboth => ?_
    simpa only [InOrder, Node.position?_bare] using hboth

/-- A comment with a character of two bytes, a rule inside a block behind a blank that is skipped with
the selector, two items in one line and a statement at the end. -/
def placedSource : Text :=
  "/*é*/@media x \x7b\n\u00a0.a \x7b é: b;/**/\n \x7d \x7d\n@import u".toList

theorem parse_places_sample : ∃ sheet, parse placedSource = .ok sheet ∧
    (Node.preorderAll sheet).map Node.position? =
      [some ⟨0, 1, 1⟩, some ⟨6, 1, 6⟩, some ⟨17, 2, 1⟩, some ⟨24, 2, 7⟩, some ⟨30, 2, 12⟩,
        some ⟨40, 4, 1⟩] ∧
    (∀ node ∈ Node.preorderAll sheet, ∃ position front back,
      node.position? = some position ∧ position = .ofOffset placedSource position.offset ∧
        placedSource = front ++ back ∧ front.byteSize = position.offset ∧ node.Opens back) ∧
    (Node.preorderAll sheet).Pairwise fun first second =>
      ∀ here ∈ first.position?, ∀ there ∈ second.position?, here.Precedes there := by
  obtain ⟨sheet, hparse, hpositions⟩ : ∃ sheet, parse placedSource = .ok sheet ∧
      (Node.preorderAll sheet).map Node.position? =
        [some ⟨0, 1, 1⟩, some ⟨6, 1, 6⟩, some ⟨17, 2, 1⟩, some ⟨24, 2, 7⟩, some ⟨30, 2, 12⟩,
          some ⟨40, 4, 1⟩] :=
    Selector.exists_ok_of_map (by decide +kernel)
  exact ⟨sheet, hparse, hpositions, parse_places hparse⟩

end Sheet

end ScopedCss
