import ScopedCss.Proofs.ItemSpelling
import ScopedCss.Proofs.SheetPrinting

/-!
# What is read from a source

`Item.Formed` says what is sure about an item that was read: its texts are trimmed, its names are
names, and a space behind a text that may not be closed is enough to close it.  A style sheet that
was parsed is the list of items that were read, put into a tree: `Builder.items` is the list of the
items so far, and each step of the reader adds one item to its end (`Builder.items_add`).  So the
items of a parsed style sheet are formed, and what has been read is the start of what is read in the
end.
-/

namespace ScopedCss

namespace Sheet

namespace Item

/-! ## Items that were read -/

/-- What is sure about an item that was read. -/
def Formed : Item → Prop
  | .openRule selector =>
    selector ≠ [] ∧ selector.trim = selector ∧
      Scan.unnested stops (selector ++ [' ', '{']) = .found '{' []
  | .openBlock name params =>
    Ident.IsName name ∧ params.trim = params ∧
      Scan.unnested stops (params ++ [' ', '{']) = .found '{' []
  | .statement name params => Ident.IsName name ∧ params.trim = params
  | .declaration property value important =>
    property.trim = property ∧ ':' ∉ property ∧ Ident.isIdent property = true ∧
      value.trim = value ∧
      (important = true →
        Scan.unnested stops (value ++ (importance important ++ [';'])) = .found ';' []) ∧
      (important = false → ∀ pair ∈ value.splitLast? '!',
        Text.eqIgnoringCase (Text.trim pair.2) "important".toList = false)
  | .comment content => ¬['*', '/'] <:+: content
  | .close => True
  | .semicolon => True

theorem isBlank_eq_false_of_mem_stops : ∀ c ∈ stops, Text.isBlank c = false := by
  rw [stops, List.forall_mem_cons, List.forall_mem_cons, List.forall_mem_singleton]
  decide

/-- Behind the trimmed text of a construct, a space is enough to find the brace. -/
theorem Ended.unnested_trim {front : Text} {ending : Ending} (h : Ended front ending)
    (hending : ending ≠ .outer []) :
    Scan.unnested stops (front.trim ++ [' ', '{']) = .found '{' [] := by
  obtain ⟨stop, after, -, hmem, hfound⟩ := h.found hending
  have hspace : ∀ c ∈ [' '], Scan.isOrdinary c = true ∧ c ∉ stops :=
    Scan.ordinary_of_all (by decide)
  exact (Scan.unnested_trim hfound (isBare_of_mem_stops stop hmem) isBlank_eq_false_of_mem_stops
    hspace ['{']).trans ((Scan.Passes.nil stops).unnested_append (by decide) (by decide) [])

/-! ## Declarations that were read -/

theorem ordinary_of_important {word : Text}
    (h : Text.eqIgnoringCase word "important".toList = true) :
    ∀ c ∈ word, Scan.isOrdinary c = true ∧ c ∉ stops := by
  intro c hc
  have hlower : c.toLower ∈ Text.lower "important".toList := by
    rw [← beq_iff_eq.1 h]
    exact List.mem_map_of_mem hc
  have hne : ∀ d : Char, d.toLower ∉ Text.lower "important".toList → c ≠ d := by
    rintro d hd rfl
    exact hd hlower
  refine ⟨Scan.isOrdinary_iff.2 ⟨hne _ (by decide), hne _ (by decide), ?_, hne _ (by decide),
    hne _ (by decide), hne _ (by decide), hne _ (by decide)⟩, ?_⟩
  · simp only [Scan.isQuote, Bool.or_eq_false_iff, beq_eq_false_iff_ne]
    exact ⟨hne _ (by decide), hne _ (by decide)⟩
  · simp only [stops, List.mem_cons, List.not_mem_nil, or_false, not_or]
    exact ⟨hne _ (by decide), hne _ (by decide), hne _ (by decide)⟩

/-- A text around a trimmed word is passed over if the word is. -/
theorem ordinary_of_trim {text : Text}
    (h : ∀ c ∈ text.trim, Scan.isOrdinary c = true ∧ c ∉ stops) :
    ∀ c ∈ text, Scan.isOrdinary c = true ∧ c ∉ stops := by
  obtain ⟨front, back, hfront, hback, htext⟩ := Text.exists_append_trim_append text
  rw [htext, List.forall_mem_append, List.forall_mem_append]
  exact ⟨Scan.ordinary_of_blank isBlank_eq_false_of_mem_stops hfront, h,
    Scan.ordinary_of_blank isBlank_eq_false_of_mem_stops hback⟩

/-- The text of a property, with the blanks around it, is passed over. -/
theorem passes_property {front : Text} (h : Ident.isIdent front.trim = true) :
    Scan.Passes stops front := by
  obtain ⟨lead, back, hlead, hback, htext⟩ := Text.exists_append_trim_append front
  have hname := Ident.ends_of_read?_eq_some (beq_iff_eq.1 h)
  have hblank : ∀ gap : Text, (∀ c ∈ gap, Text.isBlank c = true) → Scan.Passes stops gap :=
    fun gap hgap => Scan.passes_of_forall
      (Scan.ordinary_of_blank isBlank_eq_false_of_mem_stops hgap)
  rw [htext]
  exact (hblank lead hlead).append
    ((Scan.passes_of_ends hname (by decide)).append (hblank back hback))

theorem splitImportant_cases (value : Text) :
    (∃ front back, value = front ++ '!' :: back ∧
      Text.eqIgnoringCase (Text.trim back) "important".toList = true ∧
      splitImportant value = (Text.trimEnd front, true)) ∨
    (splitImportant value = (value, false) ∧ ∀ pair ∈ value.splitLast? '!',
      Text.eqIgnoringCase (Text.trim pair.2) "important".toList = false) := by
  unfold splitImportant
  split
  · next front back hsplit =>
    split
    · next himportant =>
      exact .inl ⟨front, back, Text.append_of_splitLast?_eq_some hsplit, himportant, rfl⟩
    · next himportant =>
      refine .inr ⟨rfl, fun pair hpair => ?_⟩
      obtain rfl := Option.some.inj (hsplit.symm.trans hpair)
      simpa using himportant
  · next hsplit => exact .inr ⟨rfl, fun pair hpair => nomatch hsplit.symm.trans hpair⟩

/-- Behind a value that was split from its mark of importance, the mark is passed over. -/
theorem unnested_importance {front back lead mark after : Text} {stop : Char}
    (h : Scan.unnested stops (front ++ ':' :: back ++ stop :: after) = .found stop after)
    (hproperty : Ident.isIdent front.trim = true) (hvalue : back.trim = lead ++ '!' :: mark)
    (hmark : Text.eqIgnoringCase (Text.trim mark) "important".toList = true) :
    Scan.unnested stops (lead.trimEnd ++ (importance true ++ [';'])) = .found ';' [] := by
  have hbare := isBare_of_mem_stops stop (Scan.scan_eq_found h).1
  obtain ⟨start, rest, hstart, hrest, hback⟩ := Text.exists_append_trim_append back
  obtain ⟨gap, hgap, hlead⟩ := Text.exists_trimEnd_append lead
  generalize lead.trimEnd = value at hlead ⊢
  subst hlead
  have hpasses : Scan.Passes stops (front ++ ':' :: start) :=
    (passes_property hproperty).append (Scan.passes_of_forall
      (List.forall_mem_cons.2 ⟨by decide,
        Scan.ordinary_of_blank isBlank_eq_false_of_mem_stops hstart⟩))
  have hcut : ∀ c ∈ gap ++ '!' :: (mark ++ rest), Scan.isOrdinary c = true ∧ c ∉ stops := by
    rw [List.forall_mem_append, List.forall_mem_cons, List.forall_mem_append]
    exact ⟨Scan.ordinary_of_blank isBlank_eq_false_of_mem_stops hgap, by decide,
      ordinary_of_trim (ordinary_of_important hmark),
      Scan.ordinary_of_blank isBlank_eq_false_of_mem_stops hrest⟩
  have htext : front ++ ':' :: back ++ stop :: after = front ++ ':' :: start ++
      (value ++ (gap ++ '!' :: (mark ++ rest) ++ stop :: after)) := by
    rw [hback, hvalue]
    simp
  have hword : ∀ c ∈ ' ' :: "!important".toList, Scan.isOrdinary c = true ∧ c ∉ stops :=
    Scan.ordinary_of_all (by decide)
  rw [htext, Scan.unnested, hpasses stops [] _ fun _ c hc => hc] at h
  exact (Scan.scan_cut h hbare rfl hcut hword rfl [';']).trans
    ((Scan.Passes.nil stops).unnested_append (by decide) (by decide) [])

theorem formed_declaration {property value after : Text} {stop : Char} (hcolon : ':' ∉ property)
    (hident : Ident.isIdent property.trim = true)
    (hfound : Scan.unnested stops (property ++ ':' :: value ++ stop :: after) =
      .found stop after) :
    Formed (.declaration property.trim (splitImportant value.trim).1
      (splitImportant value.trim).2) := by
  refine ⟨Text.trim_trim property, fun hmem => hcolon (Text.mem_of_mem_trim hmem), hident, ?_⟩
  rcases splitImportant_cases value.trim with ⟨lead, mark, hvalue, hmark, hcase⟩ | ⟨hcase, hplain⟩
  · have hlead : lead.trimStart = lead := by
      have hstart := Text.trimStart_eq_self_iff.1 (Text.trim_eq_self (Text.trim_trim value)).1
      rw [hvalue] at hstart
      refine Text.trimStart_eq_self_iff.2 fun c hc => hstart c ?_
      cases lead with
      | nil => simp at hc
      | cons d lead => exact hc
    rw [hcase]
    exact ⟨Text.trim_trimEnd hlead,
      fun _ => unnested_importance hfound hident hvalue hmark, nofun⟩
  · rw [hcase]
    exact ⟨Text.trim_trim value, nofun, fun _ => hplain⟩

/-- An item that was read is formed, if a declaration does not end with the text. -/
theorem formed_of_read {nested : Bool} {text rest : Text} {item : Item}
    (h : read nested text = .ok (item, rest))
    (hrest : ∀ property value important, item = .declaration property value important → rest ≠ []) :
    item.Formed := by
  cases spelled_of_read h with
  | close => trivial
  | semicolon => trivial
  | comment hcontent => exact hcontent
  | openBlock hname hended =>
    exact ⟨Ident.isName_of_read?_eq_some hname, Text.trim_trim _, hended.unnested_trim nofun⟩
  | statement hname => exact ⟨Ident.isName_of_read?_eq_some hname, Text.trim_trim _⟩
  | openRule _ hended hne => exact ⟨hne, Text.trim_trim _, hended.unnested_trim nofun⟩
  | declaration _ hended hcases hcolon hident =>
    -- A declaration that ends with the text is not followed by the end of its block.
    obtain ⟨stop, after, -, -, hfound⟩ := hended.found (by
      rintro rfl
      rcases hcases with heq | heq
      · cases heq
      · exact hrest _ _ _ rfl (Ending.outer.inj heq).symm)
    exact formed_declaration hcolon hident hfound

/-- Braces that close and declarations are read inside blocks only. -/
theorem nested_of_isInner {nested : Bool} {text rest : Text} {item : Item}
    (h : read nested text = .ok (item, rest)) (hinner : item.isInner = true) : nested = true := by
  cases spelled_of_read h with
  | close => rfl
  | declaration => rfl
  | semicolon => simp [isInner] at hinner
  | comment => simp [isInner] at hinner
  | openBlock => simp [isInner] at hinner
  | statement => simp [isInner] at hinner
  | openRule => simp [isInner] at hinner

theorem head?_of_read_eq_semicolon {nested : Bool} {text rest : Text}
    (h : read nested text = .ok (.semicolon, rest)) : text.head? = some ';' := by
  cases spelled_of_read h with
  | semicolon => rfl

end Item

end Sheet

/-! ## The items in a builder -/

/-- Something that is listed for nodes in the order in which they are read.  What is listed for a
block has its own part in front of what is listed for its body, and a part behind it. -/
structure Listing (α : Type) where
  nodes : List Node → List α
  opening : BlockHead → List α
  closing : List α
  nodes_append : ∀ first second, nodes (first ++ second) = nodes first ++ nodes second
  nodes_block : ∀ head body, nodes [head.toNode body] = opening head ++ (nodes body ++ closing)

theorem Listing.nodes_nil {α : Type} (listing : Listing α) : listing.nodes [] = [] := by
  have htwice := listing.nodes_append [] []
  simpa using htwice

namespace Sheet.Builder

variable {α : Type} (listing : Listing α)

/-- What is listed for all that was added to the builder. -/
def listed (builder : Builder) : List α :=
  (builder.frames.reverse.flatMap fun frame =>
    listing.nodes frame.earlier.reverse ++ listing.opening frame.head) ++
    listing.nodes builder.done.reverse

theorem listed_pushAll (builder : Builder) (nodes : List Node) :
    (builder.pushAll nodes).listed listing = builder.listed listing ++ listing.nodes nodes := by
  simp [listed, pushAll, listing.nodes_append]

theorem listed_openBlock (builder : Builder) (head : BlockHead) :
    (builder.openBlock head).listed listing = builder.listed listing ++ listing.opening head := by
  simp [listed, openBlock, listing.nodes_nil]

theorem listed_close {builder : Builder} (h : builder.isNested = true) :
    builder.close.listed listing = builder.listed listing ++ listing.closing := by
  obtain ⟨done, frames⟩ := builder
  cases frames with
  | nil => simp [isNested] at h
  | cons frame outer => simp [listed, close, listing.nodes_append, listing.nodes_block]

theorem listed_of_isNested_eq_false {builder : Builder} (h : builder.isNested = false) :
    builder.listed listing = listing.nodes builder.done.reverse := by
  have hframes : builder.frames = [] := by simpa [isNested] using h
  rw [listed, hframes]
  rfl

end Sheet.Builder

theorem Node.itemsAll_append (first second : List Node) :
    itemsAll (first ++ second) = itemsAll first ++ itemsAll second := by
  induction first with
  | nil => rfl
  | cons node first ih => rw [List.cons_append, itemsAll, itemsAll, ih, List.append_assoc]

theorem Node.itemsAll_singleton (node : Node) : itemsAll [node] = node.items :=
  List.append_nil _

/-- The item that opens the block with the given head. -/
def BlockHead.item : BlockHead → Sheet.Item
  | .rule head => .openRule head.selector
  | .block head => .openBlock head.name head.params

theorem BlockHead.items_toNode (head : BlockHead) (body : List Node) :
    (head.toNode body).items = head.item :: (Node.itemsAll body ++ [.close]) := by
  cases head <;> rfl

/-- The items of nodes. -/
def itemListing : Listing Sheet.Item where
  nodes := Node.itemsAll
  opening head := [head.item]
  closing := [.close]
  nodes_append := Node.itemsAll_append
  nodes_block head body := by rw [Node.itemsAll_singleton, BlockHead.items_toNode]; rfl

namespace Sheet

namespace Builder

/-- The items that were added to the builder, in order. -/
def items (builder : Builder) : List Item :=
  builder.listed itemListing

theorem items_pushAll (builder : Builder) (nodes : List Node) :
    (builder.pushAll nodes).items = builder.items ++ Node.itemsAll nodes :=
  builder.listed_pushAll itemListing nodes

theorem items_push (builder : Builder) (node : Node) :
    (builder.push node).items = builder.items ++ node.items := by
  rw [← Node.itemsAll_singleton, ← items_pushAll]
  rfl

theorem items_openBlock (builder : Builder) (head : BlockHead) :
    (builder.openBlock head).items = builder.items ++ [head.item] :=
  builder.listed_openBlock itemListing head

theorem items_close {builder : Builder} (h : builder.isNested = true) :
    builder.close.items = builder.items ++ [.close] :=
  listed_close itemListing h

/-- Adding an item to a builder adds it to the end of the items. -/
theorem items_add {builder : Builder} (position : Position) {item : Item}
    (hitem : item ≠ .semicolon) (hinner : item.isInner = true → builder.isNested = true) :
    (builder.add position item).items = builder.items ++ [item] := by
  cases item with
  | openRule selector => exact builder.items_openBlock _
  | openBlock name params => exact builder.items_openBlock _
  | close => exact items_close (hinner rfl)
  | semicolon => exact absurd rfl hitem
  | statement name params => exact builder.items_push _
  | declaration property value important => exact builder.items_push _
  | comment content => exact builder.items_push _

/-- The nodes outside all blocks, last first. -/
def top (builder : Builder) : List Node :=
  match builder.frames.getLast? with
  | some frame => frame.earlier
  | none => builder.done

theorem top_openBlock (builder : Builder) (head : BlockHead) :
    (builder.openBlock head).top = builder.top := by
  obtain ⟨done, frames⟩ := builder
  cases frames with
  | nil => rfl
  | cons frame outer => simp [top, openBlock, List.getLast?_cons]

theorem mem_top_push {builder : Builder} {node other : Node} (h : other ∈ (builder.push node).top) :
    other ∈ builder.top ∨ (other = node ∧ builder.isNested = false) := by
  obtain ⟨done, frames⟩ := builder
  cases frames with
  | nil => exact (List.mem_cons.1 h).symm.imp id fun heq => ⟨heq, rfl⟩
  | cons frame outer => exact .inl h

theorem mem_top_close {builder : Builder} {other : Node} (h : other ∈ builder.close.top) :
    other ∈ builder.top ∨ ∃ head body, other = BlockHead.toNode head body := by
  obtain ⟨done, frames⟩ := builder
  rcases frames with _ | ⟨frame, _ | ⟨next, outer⟩⟩
  · exact .inl h
  · exact (List.mem_cons.1 h).symm.imp id fun heq => ⟨_, _, heq⟩
  · refine .inl ?_
    simpa [top, close, List.getLast?_cons] using h

end Builder

/-! ## Invariants of the reader -/

/-- What holds of the builder at the start and is kept by every item holds at the end.  The text that
has been read goes along, and each item is added at the place behind it and the spaces that are
skipped. -/
theorem readItems_run {origin : Position} {source : Text} {invariant : Text → Builder → Prop}
    (hstep : ∀ (front gap consumed rest : Text) (builder : Builder) (item : Item),
      source = front ++ gap ++ (consumed ++ rest) → invariant front builder →
      Item.read builder.isNested (consumed ++ rest) = .ok (item, rest) →
      ((builder.add (origin.advance (front ++ gap)) item).isNested = true → rest ≠ []) →
      invariant (front ++ gap ++ consumed) (builder.add (origin.advance (front ++ gap)) item))
    {front text : Text} {builder : Builder} {position : Position} {nodes : List Node}
    (hsource : source = front ++ text) (hposition : position = origin.advance front)
    (h : readItems builder position text = .ok nodes) (hstart : invariant front builder) :
    ∃ (front : Text) (last : Builder),
      invariant front last ∧ last.isNested = false ∧ nodes = last.done.reverse := by
  revert front
  fun_induction readItems builder position text with
  | case1 => simp at h
  | case2 builder position text hskip hnested =>
    intro front _ _ hstart
    obtain rfl := Except.ok.inj h
    exact ⟨front, builder, hstart, by simpa using hnested, rfl⟩
  | case3 => simp at h
  | case4 builder position text here c tail hskip item rest hitem ih =>
    intro front hsource hposition hstart
    obtain ⟨consumed, hconsumed⟩ := (Item.spelled_of_read hitem).suffix
    have hhere : here = origin.advance (front ++ text.leadingSpace) := by
      rw [Position.advance_append, ← hposition]
    have htext : text = text.leadingSpace ++ (consumed ++ rest) := by
      rw [hconsumed, ← hskip, Text.leadingSpace_append_skipSpace]
    have hplace : source = front ++ text.leadingSpace ++ (consumed ++ rest) := by
      rw [List.append_assoc, ← htext, hsource]
    have hrest : (builder.add here item).isNested = true → rest ≠ [] := by
      rintro hnested rfl
      exact absurd (hnested.symm.trans (readItems_nil_eq_ok h).1) (by decide)
    rw [← hconsumed] at hitem h ih
    rw [Text.before_append] at h ih
    refine @ih h (front ++ text.leadingSpace ++ consumed) ?_ ?_ ?_
    · rw [hplace, ← List.append_assoc]
    · rw [Position.advance_append _ _ consumed, hhere]
    · rw [hhere] at hrest ⊢
      exact hstep front text.leadingSpace consumed rest builder item hplace hstart hitem hrest

/-- What holds of the builder at the start and is kept by every item holds at the end. -/
theorem readItems_eq_ok {invariant : Builder → Prop}
    (hstep : ∀ (builder : Builder) (position : Position) (text rest : Text) (item : Item),
      invariant builder → Item.read builder.isNested text = .ok (item, rest) →
      ((builder.add position item).isNested = true → rest ≠ []) →
      invariant (builder.add position item))
    {builder : Builder} {position : Position} {text : Text} {nodes : List Node}
    (h : readItems builder position text = .ok nodes) (hstart : invariant builder) :
    ∃ last : Builder, invariant last ∧ last.isNested = false ∧ nodes = last.done.reverse := by
  obtain ⟨-, last, hlast⟩ := @readItems_run position text (fun _ => invariant)
    (fun _ _ _ _ builder item _ => hstep builder _ _ _ item) [] text builder position nodes rfl rfl
    h hstart
  exact ⟨last, hlast⟩

theorem items_of_isNested_eq_false {builder : Builder} (h : builder.isNested = false) :
    builder.items = Node.itemsAll builder.done.reverse :=
  Builder.listed_of_isNested_eq_false itemListing h

/-- An item that was read is added to the end of the items, unless it is a lone semicolon. -/
theorem items_add_of_read {builder : Builder} {text rest : Text} {item : Item}
    (h : Item.read builder.isNested text = .ok (item, rest)) (position : Position) :
    (item = .semicolon ∧ builder.add position item = builder) ∨
      (builder.add position item).items = builder.items ++ [item] := by
  by_cases hitem : item = .semicolon
  · exact .inl ⟨hitem, by rw [hitem]; rfl⟩
  · exact .inr (Builder.items_add position hitem (Item.nested_of_isInner h))

/-- The items of a parsed style sheet are formed. -/
theorem formed_of_parse {source : Text} {sheet : Sheet} (h : parse source = .ok sheet) :
    ∀ item ∈ Node.itemsAll sheet, item.Formed := by
  have hstep : ∀ (builder : Builder) (position : Position) (text rest : Text) (item : Item),
      (∀ other ∈ builder.items, other.Formed) →
      Item.read builder.isNested text = .ok (item, rest) →
      ((builder.add position item).isNested = true → rest ≠ []) →
      ∀ other ∈ (builder.add position item).items, other.Formed := by
    intro builder position text rest item hformed hread hrest
    rcases items_add_of_read hread position with ⟨-, hsame⟩ | hitems
    · rw [hsame]
      exact hformed
    · rw [hitems, List.forall_mem_append, List.forall_mem_singleton]
      refine ⟨hformed, Item.formed_of_read hread ?_⟩
      rintro property value important rfl
      exact hrest (Item.nested_of_isInner hread rfl)
  obtain ⟨last, hformed, hnested, rfl⟩ :=
    @readItems_eq_ok (fun builder => ∀ other ∈ builder.items, other.Formed) hstep _ _ _ _ h
      (List.forall_mem_nil _)
  rwa [items_of_isNested_eq_false hnested] at hformed

/-- Outside all blocks a parsed style sheet has no declarations. -/
theorem declaration_not_mem_of_parse {source : Text} {sheet : Sheet}
    (h : parse source = .ok sheet) (content : Declaration) : .declaration content ∉ sheet := by
  have hstep : ∀ (builder : Builder) (position : Position) (text rest : Text) (item : Item),
      .declaration content ∉ builder.top →
      Item.read builder.isNested text = .ok (item, rest) →
      ((builder.add position item).isNested = true → rest ≠ []) →
      .declaration content ∉ (builder.add position item).top := by
    intro builder position text rest item htop hread _ hmem
    have hpush : ∀ node, .declaration content ∈ (builder.push node).top →
        .declaration content = node ∧ builder.isNested = false :=
      fun node hnode => (Builder.mem_top_push hnode).resolve_left htop
    cases item with
    | openRule selector =>
      exact htop (by rwa [Builder.add, Builder.top_openBlock] at hmem)
    | openBlock name params =>
      exact htop (by rwa [Builder.add, Builder.top_openBlock] at hmem)
    | close =>
      obtain ⟨head, body, hnode⟩ := (Builder.mem_top_close hmem).resolve_left htop
      cases head <;> simp [BlockHead.toNode] at hnode
    | semicolon => exact htop hmem
    | statement name params => cases (hpush _ hmem).1
    | declaration property value important =>
      have hnested := Item.nested_of_isInner hread rfl
      exact absurd (hnested.symm.trans (hpush _ hmem).2) (by decide)
    | comment text => cases (hpush _ hmem).1
  obtain ⟨last, htop, hnested, rfl⟩ :=
    @readItems_eq_ok (fun builder => .declaration content ∉ builder.top) hstep _ _ _ _ h
      List.not_mem_nil
  have hframes : last.frames = [] := by simpa [Builder.isNested] using hnested
  rw [Builder.top, hframes] at htop
  simpa using htop

/-- What has been read is the start of what is read in the end. -/
theorem items_prefix_of_readItems {builder : Builder} {position : Position} {text : Text}
    {nodes : List Node} (h : readItems builder position text = .ok nodes) :
    builder.items <+: Node.itemsAll nodes := by
  have hstep : ∀ (next : Builder) (position : Position) (text rest : Text) (item : Item),
      builder.items <+: next.items → Item.read next.isNested text = .ok (item, rest) →
      ((next.add position item).isNested = true → rest ≠ []) →
      builder.items <+: (next.add position item).items := by
    intro next position text rest item hprefix hread _
    rcases items_add_of_read hread position with ⟨-, hsame⟩ | hitems
    · rwa [hsame]
    · rw [hitems]
      exact hprefix.trans (List.prefix_append _ _)
  obtain ⟨last, hprefix, hnested, rfl⟩ :=
    @readItems_eq_ok (fun next => builder.items <+: next.items) hstep _ _ _ _ h
      (List.prefix_refl _)
  rwa [items_of_isNested_eq_false hnested] at hprefix

end Sheet

end ScopedCss
