import ScopedCss.Proofs.ParsedSheets

/-!
# When printing is stable

A style sheet that was read, printed and read again is not always the same one.  The reader trims
texts with a wider notion of white space than the one it skips, and does not look whether it trims
inside an escape; the printer joins the trimmed texts with new spaces and semicolons.  `Settled`
says when the seams hold:

* the selector of a rule, from which a form feed may have been trimmed, does not begin with an `@`
  or a `/*`;
* the name of an at-rule does not end with an escape that takes in the space behind it;
* the parameters of a statement and the value of a declaration do not end with an open backslash,
  which would hide the semicolon.  In front of a brace and of `!important` there is a space, so
  there an open backslash does no harm.

The main result is `settled_iff_read_back`: these are the only reasons for which the nodes change.
In one direction the reader goes from item to item.  In the other direction, what it has read so far
is the start of the items of the style sheet, so the next item it reads must be the one that was
printed, and only a settled item is read back from its text.
-/

namespace ScopedCss

namespace Sheet

namespace Item

/-! ## Settled items -/

/-- The item means the same when its text stands alone: the head of a rule does not begin like an
at-rule or a comment, a space ends the name of an at-rule, and a semicolon ends what it stands
behind. -/
def Settled : Item → Prop
  | .openRule selector => selector.head? ≠ some '@' ∧ ¬['/', '*'] <+: selector
  | .openBlock name _ => Ident.read? (name ++ [' ']) = some (name, [' '])
  | .statement name params =>
    (params ≠ [] → Ident.read? (name ++ [' ']) = some (name, [' '])) ∧
      Scan.unnested stops (params ++ [';']) = .found ';' []
  | .declaration _ value important =>
    important = false → Scan.unnested stops (value ++ [';']) = .found ';' []
  | .close => True
  | .semicolon => True
  | .comment _ => True

instance : DecidablePred Settled := fun item =>
  match item with
  | .openRule selector =>
    inferInstanceAs (Decidable (selector.head? ≠ some '@' ∧ ¬['/', '*'] <+: selector))
  | .openBlock name _ =>
    inferInstanceAs (Decidable (Ident.read? (name ++ [' ']) = some (name, [' '])))
  | .statement name params =>
    inferInstanceAs (Decidable ((params ≠ [] → Ident.read? (name ++ [' ']) = some (name, [' '])) ∧
      Scan.unnested stops (params ++ [';']) = .found ';' []))
  | .declaration _ value important =>
    inferInstanceAs (Decidable (important = false →
      Scan.unnested stops (value ++ [';']) = .found ';' []))
  | .close => inferInstanceAs (Decidable True)
  | .semicolon => inferInstanceAs (Decidable True)
  | .comment _ => inferInstanceAs (Decidable True)

/-- An item that was read is read back from its text if it is settled. -/
theorem legible_of_settled {item : Item} (hformed : item.Formed) (hsettled : item.Settled) :
    item.Legible := by
  cases item with
  | openRule selector =>
    obtain ⟨hne, htrim, hfound⟩ := hformed
    exact @legible_rule ⟨selector, none⟩ ⟨hne, htrim, hsettled.1, hsettled.2, hfound⟩
  | openBlock name params =>
    obtain ⟨hname, htrim, hfound⟩ := hformed
    have hends := (Ident.read?_append_eq_some_iff.1 hsettled).2
    refine @legible_block ⟨name, params, none⟩ ⟨htrim, ?_, hname.1, ?_⟩
    · exact hends.of_alike (by split <;> exact .inr ⟨rfl, by decide⟩)
    · rw [List.append_assoc]
      exact hfound
  | statement name params =>
    obtain ⟨⟨hname, other, hother⟩, htrim⟩ := hformed
    refine @legible_statement ⟨name, params, none⟩ ⟨htrim, ?_, hname, ?_⟩
    · split
      · exact hother.of_alike (.inl (by rintro _ ⟨rfl⟩; decide))
      · next hparams => exact (Ident.read?_append_eq_some_iff.1 (hsettled.1 hparams)).2
    · rw [List.append_nil]
      exact hsettled.2
  | declaration property value important =>
    obtain ⟨hproperty, hcolon, hident, hvalue, himportant, hplain⟩ := hformed
    refine @legible_declaration ⟨property, value, important, none⟩
      ⟨hproperty, hcolon, hident, hvalue, ?_, hplain⟩
    cases important with
    | false => exact hsettled rfl
    | true => exact himportant rfl
  | close => exact legible_close
  | semicolon => exact ⟨⟨';', rfl, by decide⟩, fun _ _ _ => rfl⟩
  | comment content => exact legible_comment hformed

/-! ## Items that are read back are settled -/

/-- A part that trims to the value it was printed for ends right in front of the semicolon: no blank
can be missing there. -/
theorem eq_of_trim_eq {front back value rest : Text} (htrim : value.trim = value)
    (hne : value ≠ []) (hfront : front.trim = value)
    (h : front ++ back = ' ' :: (value ++ ';' :: rest)) :
    front = ' ' :: value ∧ back = ';' :: rest := by
  obtain ⟨lead, gap, hlead, hgap, hsplit⟩ := Text.exists_append_trim_append front
  have hstart := (Text.trim_eq_self htrim).1
  have htext : lead ++ (value ++ (gap ++ back)) = [' '] ++ (value ++ ';' :: rest) := by
    rw [hfront] at hsplit
    rw [hsplit, List.append_assoc, List.append_assoc] at h
    exact h
  have hvalue : value ++ (gap ++ back) = value ++ ';' :: rest := by
    have htrimmed := congrArg Text.trimStart htext
    rwa [Text.trimStart_append hlead, Text.trimStart_append isBlank_of_mem_space,
      Text.trimStart_append_of_ne_nil hne hstart,
      Text.trimStart_append_of_ne_nil hne hstart] at htrimmed
  have hback := List.append_cancel_left hvalue
  have hnil : gap = [] := by
    cases gap with
    | nil => rfl
    | cons c gap =>
      obtain ⟨rfl, -⟩ := List.cons.inj hback
      exact absurd (hgap _ List.mem_cons_self) (by decide)
  rw [hvalue] at htext
  rw [hfront, hnil, List.append_cancel_right htext, List.append_nil] at hsplit
  rw [hnil] at hback
  exact ⟨hsplit, hback⟩

/-- If the text of a construct is read back, the semicolon behind it was found. -/
theorem found_of_extent {front value rest : Text} {ending : Ending}
    (htrim : value.trim = value) (hfront : front.trim = value) {lead : Text}
    (hlead : Scan.Passes stops lead)
    (h : extent (lead ++ ' ' :: (value ++ ';' :: rest)) = .ok (lead ++ front, ending)) :
    Scan.unnested stops (value ++ [';']) = .found ';' [] := by
  by_cases hne : value = []
  · rw [hne]
    exact (Scan.Passes.nil stops).unnested_append (by decide) (by decide) []
  have hpasses : Scan.Passes stops (lead ++ [' ']) :=
    hlead.append (Scan.passes_of_all (by decide))
  rcases extent_eq_ok h with ⟨stop, after, htext, hfound⟩ | ⟨htext, -⟩
  · rw [List.append_assoc] at htext
    obtain ⟨-, hback⟩ := eq_of_trim_eq htrim hne hfront (List.append_cancel_left htext).symm
    obtain ⟨rfl, rfl⟩ := List.cons.inj hback
    rw [← List.singleton_append, ← List.append_assoc, Scan.unnested,
      hpasses stops [] _ fun _ c hc => hc] at hfound
    exact Scan.unnested_congr_of_found hfound (by decide) []
  · have hnil : front ++ [] = ' ' :: (value ++ ';' :: rest) := by
      rw [List.append_nil]
      exact List.append_cancel_left htext
    exact absurd (eq_of_trim_eq htrim hne hfront hnil).2.symm (List.cons_ne_nil _ _)

theorem settled_of_readAtRule {name params rest tail : Text} {item : Item}
    (h : readAtRule (name ++ ' ' :: tail) = .ok (item, rest))
    (hitem : item = .openBlock name params ∨ item = .statement name params) :
    Ident.read? (name ++ [' ']) = some (name, [' ']) ∧
      ∃ front ending, extent (' ' :: tail) = .ok (front, ending) ∧ front.trim = params := by
  obtain ⟨other, after, front, ending, hname, hextent, hcases⟩ := readAtRule_eq_ok h
  have hsame : name = other ∧ front.trim = params := by
    rcases hcases with ⟨-, rfl⟩ | ⟨-, rfl⟩ <;> rcases hitem with heq | heq <;> cases heq <;>
      exact ⟨rfl, rfl⟩
  obtain ⟨rfl, htrim⟩ := hsame
  have hafter := List.append_cancel_left (Ident.append_of_read?_eq_some hname)
  rw [← hafter] at hname hextent
  obtain ⟨hne, hends⟩ := Ident.read?_append_eq_some_iff.1 hname
  exact ⟨Ident.read?_append_eq_some_iff.2 ⟨hne, hends.of_alike (.inr ⟨rfl, by simp⟩)⟩,
    front, ending, hextent, htrim⟩

theorem declaration_of_read {nested important : Bool} {text property value rest : Text}
    (h : read nested text = .ok (.declaration property value important, rest)) :
    ∃ front ending, extent text = .ok (front, ending) ∧
      declaration? front = .ok (.declaration property value important) := by
  cases spelled_of_read h with
  | declaration _ hended _ hcolon hident =>
    exact ⟨_, _, extent_eq_ok_iff.2 ⟨rfl, hended⟩, declaration?_append hcolon hident⟩

/-- If a declaration without a mark of importance is read back, the semicolon behind its value was
found. -/
theorem found_of_declaration? {property value rest front : Text} {ending : Ending}
    (hproperty : ':' ∉ property) (hident : Ident.isIdent property = true)
    (htrim : value.trim = value)
    (hextent : extent (property ++ [':'] ++ ' ' :: (value ++ ';' :: rest)) = .ok (front, ending))
    (h : declaration? front = .ok (.declaration property value false)) :
    Scan.unnested stops (value ++ [';']) = .found ';' [] := by
  obtain ⟨lead, back, rfl, hcolon, -, heq⟩ := declaration?_eq_ok h
  -- The first colon of the text is the one behind the property.
  have hlead : property = lead := by
    obtain ⟨after, hafter⟩ : ∃ after,
        property ++ [':'] ++ ' ' :: (value ++ ';' :: rest) = lead ++ ':' :: back ++ after := by
      rcases extent_eq_ok hextent with ⟨stop, after, htext, -⟩ | ⟨htext, -⟩
      · exact ⟨stop :: after, htext⟩
      · exact ⟨[], by rw [List.append_nil, htext]⟩
    rw [List.append_assoc, List.append_assoc] at hafter
    have hsplit := congrArg (Text.splitFirst? ':') hafter
    rw [List.singleton_append, List.cons_append, Text.splitFirst?_append hproperty,
      Text.splitFirst?_append hcolon] at hsplit
    exact (Prod.mk.inj (Option.some.inj hsplit)).1
  subst hlead
  have hback : back.trim = value := by
    rcases splitImportant_cases back.trim with ⟨_, _, -, -, hcase⟩ | ⟨hcase, -⟩
    · rw [hcase] at heq
      simp at heq
    · rw [hcase] at heq
      simp only [declaration.injEq] at heq
      exact heq.2.1.symm
  have hpasses : Scan.Passes stops (property ++ [':']) :=
    (Scan.passes_of_ends (Ident.ends_of_read?_eq_some (beq_iff_eq.1 hident)) (by decide)).append
      (Scan.passes_of_all (by decide))
  rw [List.append_cons property ':' back] at hextent
  exact found_of_extent htrim hback hpasses hextent

/-- An item that was read and is read back from its text is settled. -/
theorem settled_of_read {item : Item} (hformed : item.Formed) {nested : Bool} {rest other : Text}
    (h : read nested (item.text ++ rest) = .ok (item, other)) : item.Settled := by
  cases item with
  | openRule selector =>
    refine ⟨fun hat => ?_, ?_⟩
    · obtain ⟨tail, rfl⟩ := List.head?_eq_some_iff.1 hat
      rw [text, List.cons_append, List.cons_append, read] at h
      obtain ⟨_, _, _, _, -, -, ⟨-, heq⟩ | ⟨-, heq⟩⟩ := readAtRule_eq_ok h <;> cases heq
    · rintro ⟨tail, rfl⟩
      rw [text] at h
      obtain ⟨_, heq, -⟩ := readComment_eq_ok (show readComment _ = .ok _ from h)
      cases heq
  | openBlock name params =>
    obtain ⟨tail, htext⟩ : ∃ tail, text (.openBlock name params) ++ rest =
        '@' :: (name ++ ' ' :: tail) := by
      rw [text, AtRule.print]
      split
      · exact ⟨'{' :: rest, by simp⟩
      · exact ⟨params ++ ' ' :: '{' :: rest, by simp⟩
    rw [htext, read] at h
    exact (settled_of_readAtRule h (.inl rfl)).1
  | statement name params =>
    by_cases hparams : params = []
    · subst hparams
      exact ⟨fun hne => absurd rfl hne,
        (Scan.Passes.nil stops).unnested_append (by decide) (by decide) []⟩
    · have htext : text (.statement name params) ++ rest =
          '@' :: (name ++ ' ' :: (params ++ ';' :: rest)) := by
        simp [text, AtRule.print, hparams]
      rw [htext, read] at h
      obtain ⟨hname, front, ending, hextent, htrim⟩ := settled_of_readAtRule h (.inr rfl)
      exact ⟨fun _ => hname, found_of_extent hformed.2 htrim (.nil stops) hextent⟩
  | declaration property value important =>
    rintro rfl
    have htext : text (.declaration property value false) ++ rest =
        property ++ [':'] ++ ' ' :: (value ++ ';' :: rest) := by
      simp [text, Declaration.print]
    rw [htext] at h
    obtain ⟨front, ending, hextent, hitem⟩ := declaration_of_read h
    obtain ⟨-, hcolon, hident, hvalue, -⟩ := hformed
    exact found_of_declaration? hcolon hident hvalue hextent hitem
  | close => trivial
  | semicolon => trivial
  | comment content => trivial

/-- The text of an item that was read does not begin with a space or a semicolon. -/
theorem head?_text {item : Item} (hformed : item.Formed) (hitem : item ≠ .semicolon) :
    ∃ c tail, item.text = c :: tail ∧ Text.isSpace c = false ∧ c ≠ ';' := by
  have hprint : ∀ (head : AtRule) (rest : Text), ∃ c tail, head.print ++ rest = c :: tail ∧
      Text.isSpace c = false ∧ c ≠ ';' := by
    intro head rest
    obtain ⟨tail, htail⟩ := List.head?_eq_some_iff.1 (head?_print head rest)
    exact ⟨'@', tail, htail, by decide, by decide⟩
  cases item with
  | openRule selector =>
    obtain ⟨hne, htrim, hfound⟩ := hformed
    obtain ⟨c, tail, rfl⟩ := List.exists_cons_of_ne_nil hne
    exact ⟨c, _, rfl, Text.isSpace_eq_false_of_trim htrim rfl,
      ne_of_found hfound (by decide) (by decide) (by decide)⟩
  | openBlock name params => exact hprint _ _
  | statement name params => exact hprint _ _
  | declaration property value important =>
    obtain ⟨htrim, -, hident, -⟩ := hformed
    obtain ⟨c, tail, rfl, hstart⟩ :=
      (Ident.isName_of_read?_eq_some (beq_iff_eq.1 hident)).exists_cons
    refine ⟨c, _, rfl, Text.isSpace_eq_false_of_trim htrim rfl, ?_⟩
    rintro rfl
    rcases hstart with hchar | ⟨hslash, -⟩
    · exact absurd hchar (by decide)
    · exact absurd hslash (by decide)
  | close => exact ⟨'}', [], rfl, by decide, by decide⟩
  | semicolon => exact absurd rfl hitem
  | comment content => exact ⟨'/', _, rfl, by decide, by decide⟩

end Item

end Sheet

/-! ## Positions are not printed -/

namespace Node

mutual

theorem items_unplaced : (node : Node) → node.unplaced.items = node.items
  | .rule _ body => by rw [unplaced, items, itemsAll_unplacedAll body, items]
  | .block _ body => by rw [unplaced, items, itemsAll_unplacedAll body, items]
  | .statement _ => rfl
  | .declaration _ => rfl
  | .comment _ _ => rfl

theorem itemsAll_unplacedAll : (nodes : List Node) → itemsAll (unplacedAll nodes) = itemsAll nodes
  | [] => rfl
  | node :: nodes => by
    rw [unplacedAll, itemsAll, items_unplaced node, itemsAll_unplacedAll nodes, itemsAll]

end

theorem itemsAll_eq_of_unplacedAll_eq {first second : List Node}
    (h : unplacedAll first = unplacedAll second) : itemsAll first = itemsAll second := by
  rw [← itemsAll_unplacedAll first, h, itemsAll_unplacedAll]

mutual

theorem print_unplaced (depth : Nat) : (node : Node) → node.unplaced.print depth = node.print depth
  | .rule _ body => by
    have hempty : (unplacedAll body).isEmpty = body.isEmpty := by cases body <;> rfl
    rw [unplaced, print, printAll_unplacedAll (depth + 1) body, print, printBlock, printBlock,
      hempty]
  | .block _ body => by
    have hempty : (unplacedAll body).isEmpty = body.isEmpty := by cases body <;> rfl
    rw [unplaced, print, printAll_unplacedAll (depth + 1) body, print, printBlock, printBlock,
      hempty]
    rfl
  | .statement _ => rfl
  | .declaration _ => rfl
  | .comment _ _ => rfl

theorem printAll_unplacedAll (depth : Nat) : (nodes : List Node) →
    printAll depth (unplacedAll nodes) = printAll depth nodes
  | [] => rfl
  | node :: nodes => by
    rw [unplacedAll, printAll, print_unplaced depth node, printAll_unplacedAll depth nodes,
      printAll]

end

end Node

/-! ## Style sheets that are read back are settled -/

namespace Sheet

/-- The reader reads the item at the start of a text and goes on behind it. -/
theorem exists_read_of_readItems {builder : Builder} {position : Position} {text tail : Text}
    {c : Char} {nodes : List Node} (hskip : text.skipSpace = c :: tail)
    (h : readItems builder position text = .ok nodes) :
    ∃ item rest here next, Item.read builder.isNested (c :: tail) = .ok (item, rest) ∧
      readItems (builder.add here item) next rest = .ok nodes := by
  rw [readItems.eq_def] at h
  split at h
  · simp_all
  · next heq =>
    obtain ⟨rfl, rfl⟩ := List.cons.inj (hskip.symm.trans heq)
    split at h
    · simp at h
    · next item rest hitem => exact ⟨item, rest, _, _, hitem, h⟩

/-- If the next item of the style sheet that is read in the end is printed at the start of a text,
it is settled. -/
theorem settled_item {item : Item} (hformed : item.Formed) (hitem : item ≠ .semicolon)
    {builder : Builder} {position : Position} {gap rest : Text} {nodes : List Node}
    {more : List Item} (hgap : ∀ c ∈ gap, Text.isSpace c = true)
    (hitems : Node.itemsAll nodes = builder.items ++ item :: more)
    (h : readItems builder position (gap ++ (item.text ++ rest)) = .ok nodes) : item.Settled := by
  obtain ⟨c, tail, htext, hspace, hsemicolon⟩ := Item.head?_text hformed hitem
  have hskip : Text.skipSpace (gap ++ (item.text ++ rest)) = c :: (tail ++ rest) := by
    rw [htext]
    exact Text.skipSpace_append hgap (by simpa using hspace)
  obtain ⟨other, after, here, next, hread, hafter⟩ := exists_read_of_readItems hskip h
  have hprefix := items_prefix_of_readItems hafter
  rcases items_add_of_read hread here with ⟨rfl, -⟩ | hadd
  · exact absurd (Option.some.inj (Item.head?_of_read_eq_semicolon hread)) hsemicolon
  · rw [hadd, hitems, List.prefix_append_right_inj] at hprefix
    obtain ⟨rfl, -⟩ := List.cons_prefix_cons.1 hprefix
    rw [← List.cons_append, ← htext] at hread
    exact Item.settled_of_read hformed hread

/-- The head of a block and the nodes in it are settled if they are read back. -/
theorem settled_block {item : Item} (hformed : item.Formed) (hitem : item ≠ .semicolon)
    (hinner : item.isInner = false) {heading : Text} (htext : item.text = heading ++ [' ', '{'])
    {depth : Nat} {body : List Node} {builder : Builder} {position : Position}
    {gap rest : Text} {nodes : List Node} {more : List Item}
    (hgap : ∀ c ∈ gap, Text.isSpace c = true)
    (hitems : Node.itemsAll nodes = builder.items ++ item :: (Node.itemsAll body ++ more))
    (h : readItems builder position (gap ++ (Node.indent depth ++ heading ++
      Node.printBlock depth body (Node.printAll (depth + 1) body) ++ rest)) = .ok nodes)
    (hbody : ∀ (here next : Position) (gap rest : Text), (∀ c ∈ gap, Text.isSpace c = true) →
      Node.itemsAll nodes = (builder.add here item).items ++ (Node.itemsAll body ++ more) →
      readItems (builder.add here item) next
        (gap ++ (Node.printAll (depth + 1) body ++ rest)) = .ok nodes →
      ∀ inner ∈ Node.itemsAll body, inner.Settled) :
    ∀ inner ∈ item :: (Node.itemsAll body ++ [.close]), inner.Settled := by
  obtain ⟨front, back, hfront, hback, hblock⟩ := exists_printBlock depth body
  have hspace : ∀ c ∈ gap ++ Node.indent depth, Text.isSpace c = true :=
    List.forall_mem_append.2 ⟨hgap, isSpace_of_mem_indent depth⟩
  have hsplit : gap ++ (Node.indent depth ++ heading ++
      Node.printBlock depth body (Node.printAll (depth + 1) body) ++ rest) =
      gap ++ Node.indent depth ++ (item.text ++
        (front ++ (Node.printAll (depth + 1) body ++ (back ++ '}' :: '\n' :: rest)))) := by
    rw [hblock, htext]
    simp
  rw [hsplit] at h
  have hsettled := settled_item hformed hitem hspace hitems h
  have hopen : Reads builder item.text _ :=
    reads_item (Item.legible_of_settled hformed hsettled) (by simp [hinner])
  obtain ⟨_, next, left, ⟨here, rfl⟩, hleft, hreads⟩ := hopen position _ _ hspace
  rw [hreads, ← List.append_assoc left] at h
  rw [List.forall_mem_cons, List.forall_mem_append, List.forall_mem_singleton]
  refine ⟨hsettled, hbody here next _ _ (List.forall_mem_append.2 ⟨hleft, hfront⟩) ?_ h, trivial⟩
  rw [hitems, Builder.items_add here hitem (by simp [hinner]), List.append_assoc]
  rfl

/-- A node without a body is settled if it is read back. -/
theorem settled_line {item : Item} (hformed : item.Formed) (hitem : item ≠ .semicolon)
    {depth : Nat} {line : Text} {builder : Builder} {position : Position} {gap rest : Text}
    {nodes : List Node} {more : List Item} (hgap : ∀ c ∈ gap, Text.isSpace c = true)
    (hitems : Node.itemsAll nodes = builder.items ++ item :: more)
    (hline : line = Node.indent depth ++ (item.text ++ ['\n']))
    (h : readItems builder position (gap ++ (line ++ rest)) = .ok nodes) : item.Settled := by
  have hsplit : gap ++ (line ++ rest) =
      gap ++ Node.indent depth ++ (item.text ++ '\n' :: rest) := by
    rw [hline]
    simp
  rw [hsplit] at h
  exact settled_item hformed hitem
    (List.forall_mem_append.2 ⟨hgap, isSpace_of_mem_indent depth⟩) hitems h

mutual

/-- A node is settled if it is read back from its text. -/
theorem settled_node (depth : Nat) (builder : Builder) {position : Position} {gap rest : Text}
    {nodes : List Node} {more : List Item} (hgap : ∀ c ∈ gap, Text.isSpace c = true) :
    (node : Node) → (∀ item ∈ node.items, item.Formed) →
    Node.itemsAll nodes = builder.items ++ (node.items ++ more) →
    readItems builder position (gap ++ (node.print depth ++ rest)) = .ok nodes →
    ∀ item ∈ node.items, item.Settled
  | .rule head body, hformed, hitems, h => by
    rw [Node.items, List.forall_mem_cons, List.forall_mem_append] at hformed
    rw [Node.items, List.cons_append, List.append_assoc] at hitems
    rw [Node.print] at h
    refine settled_block hformed.1 nofun rfl rfl hgap hitems h ?_
    intro here next gap rest hgap hitems h
    exact settled_nodes (depth + 1) _ hgap body hformed.2.1 (fun _ _ => rfl) hitems h
  | .block head body, hformed, hitems, h => by
    rw [Node.items, List.forall_mem_cons, List.forall_mem_append] at hformed
    rw [Node.items, List.cons_append, List.append_assoc] at hitems
    rw [Node.print] at h
    refine settled_block hformed.1 nofun rfl rfl hgap hitems h ?_
    intro here next gap rest hgap hitems h
    exact settled_nodes (depth + 1) _ hgap body hformed.2.1 (fun _ _ => rfl) hitems h
  | .statement head, hformed, hitems, h =>
    List.forall_mem_singleton.2 (settled_line (List.forall_mem_singleton.1 hformed) nofun hgap
      hitems (by rw [Node.print, Item.text, List.append_assoc, List.append_assoc]; rfl) h)
  | .declaration content, hformed, hitems, h =>
    List.forall_mem_singleton.2 (settled_line (List.forall_mem_singleton.1 hformed) nofun hgap
      hitems (by rw [Node.print, Item.text, List.append_assoc, List.append_assoc]; rfl) h)
  | .comment _ _, _, _, _ => List.forall_mem_singleton.2 trivial

/-- Nodes are settled if they are read back from their text. -/
theorem settled_nodes (depth : Nat) (builder : Builder) {position : Position} {gap rest : Text}
    {nodes : List Node} {more : List Item} (hgap : ∀ c ∈ gap, Text.isSpace c = true) :
    (printed : List Node) → (∀ item ∈ Node.itemsAll printed, item.Formed) →
    (∀ content, .declaration content ∈ printed → builder.isNested = true) →
    Node.itemsAll nodes = builder.items ++ (Node.itemsAll printed ++ more) →
    readItems builder position (gap ++ (Node.printAll depth printed ++ rest)) = .ok nodes →
    ∀ item ∈ Node.itemsAll printed, item.Settled
  | [], _, _, _, _ => List.forall_mem_nil _
  | first :: others, hformed, hnested, hitems, h => by
    rw [Node.itemsAll, List.forall_mem_append] at hformed ⊢
    rw [Node.itemsAll, List.append_assoc] at hitems
    rw [Node.printAll, List.append_assoc] at h
    have hfirst := settled_node depth builder hgap first hformed.1 hitems h
    have hlegible : ∀ item ∈ first.items, item.Legible := fun item hitem =>
      Item.legible_of_settled (hformed.1 item hitem) (hfirst item hitem)
    have hreads := reads_node_of_legible depth builder first hlegible (by
      rintro content rfl
      exact hnested content List.mem_cons_self)
    obtain ⟨_, next, left, ⟨placed, hplaced, rfl⟩, hleft, hsame⟩ := hreads position gap _ hgap
    have hrest : Node.itemsAll nodes =
        (builder.pushAll placed).items ++ (Node.itemsAll others ++ more) := by
      rw [Builder.items_pushAll, Node.itemsAll_eq_of_unplacedAll_eq hplaced,
        Node.itemsAll_singleton, hitems, List.append_assoc]
    rw [hsame] at h
    refine ⟨hfirst, settled_nodes depth _ hleft others hformed.2 ?_ hrest h⟩
    intro content hcontent
    exact hnested content (List.mem_cons_of_mem first hcontent)

end

/-! ## Reading what was printed -/

/-- Every item of the style sheet is settled. -/
def Settled (sheet : Sheet) : Prop :=
  ∀ item ∈ Node.itemsAll sheet, item.Settled

instance (sheet : Sheet) : Decidable sheet.Settled :=
  inferInstanceAs (Decidable (∀ item ∈ Node.itemsAll sheet, item.Settled))

theorem settled_of_parse_print {sheet again : Sheet}
    (hformed : ∀ item ∈ Node.itemsAll sheet, item.Formed)
    (htop : ∀ content, .declaration content ∉ sheet) (h : parse sheet.print = .ok again)
    (hsame : Node.unplacedAll again = Node.unplacedAll sheet) : sheet.Settled := by
  have hnested : ∀ content, .declaration content ∈ sheet → Builder.empty.isNested = true :=
    fun content hcontent => absurd hcontent (htop content)
  have hitems : Node.itemsAll again = Builder.empty.items ++ (Node.itemsAll sheet ++ []) := by
    rw [List.append_nil, Node.itemsAll_eq_of_unplacedAll_eq hsame]
    rfl
  have hread : readItems .empty .start ([] ++ (Node.printAll 0 sheet ++ [])) = .ok again := by
    rw [List.append_nil]
    exact h
  exact settled_nodes 0 .empty (List.forall_mem_nil _) sheet hformed hnested hitems hread

/-- The text that is printed for what is read from a source. -/
def reprint? (source : Text) : Option Text :=
  (parse source).toOption.map print

/-- Printing is not stable in general: when an escaped blank at the end of a value is trimmed, the
backslash that is left hides the semicolon behind it. -/
theorem printing_not_stable :
    ¬∀ source text, reprint? source = some text → reprint? text = some text := by
  intro h
  have hfirst : reprint? ".a \x7b b: c\\ ; \x7d".toList =
      some ".a \x7b\n  b: c\\;\n\x7d\n".toList := by
    decide +kernel
  exact absurd (h _ _ hfirst) (by decide +kernel)

/-- A style sheet that was parsed is read back from its text, and then printed in the same way,
exactly if it is settled. -/
theorem settled_iff_read_back {source : Text} {sheet : Sheet} (h : parse source = .ok sheet) :
    sheet.Settled ↔ ∃ again, parse sheet.print = .ok again ∧
      Node.unplacedAll again = Node.unplacedAll sheet ∧ again.print = sheet.print := by
  have hformed := formed_of_parse h
  have htop := declaration_not_mem_of_parse h
  constructor
  · intro hsettled
    obtain ⟨again, hparse, hsame⟩ := parse_print_of_legible
      (fun item hitem => Item.legible_of_settled (hformed item hitem) (hsettled item hitem)) htop
    refine ⟨again, hparse, hsame, ?_⟩
    rw [Sheet.print, ← Node.printAll_unplacedAll, hsame, Node.printAll_unplacedAll, Sheet.print]
  · rintro ⟨again, hparse, hsame, -⟩
    exact settled_of_parse_print hformed htop hparse hsame

/-- A source with an escaped blank at the end of a selector and of an important value, and with stop
characters in a string and in a comment. -/
def settledSource : Text :=
  "@media(a)\x7b.x\\ \x7bb:\"\x7d\";c:d\\ !important\x7d/* ; */\x7d@import \"a\\\"b\"".toList

theorem settled_iff_read_back_sample : ∃ sheet, parse settledSource = .ok sheet ∧ sheet.Settled ∧
    ∃ again, parse sheet.print = .ok again ∧
      Node.unplacedAll again = Node.unplacedAll sheet ∧ again.print = sheet.print := by
  have hchecked : (parse settledSource).toOption.map (fun sheet => decide sheet.Settled) =
      some true := by
    decide +kernel
  cases h : parse settledSource with
  | error error =>
    rw [h] at hchecked
    cases hchecked
  | ok sheet =>
    rw [h] at hchecked
    have hsettled : sheet.Settled := of_decide_eq_true (Option.some.inj hchecked)
    exact ⟨sheet, rfl, hsettled, (settled_iff_read_back h).1 hsettled⟩

end Sheet

end ScopedCss
