import ScopedCss.Proofs.SelectorRenaming

/-!
# Spliced selectors

Scoping replaces `:local(X)` and `:global(X)` by `X`, whatever the shape of `X`, so a compound may
have a whole chain for a part.  `flatten` is the tree with the levels of the grammar restored:
`Same` says that it has the same text, the same leaves and the same seams, and `spliced_of_formed`
that it is formed again.

The text of a spliced selector puts the argument directly next to its neighbours.  Whether the text
denotes the spliced tree is decided at the seams alone, and there are selectors for which it does
not: a class in front of a spliced type selector is printed as one longer class.
-/

namespace ScopedCss

namespace Selector

/-! ## Trees with the same text -/

/-- The trees have the same text, the same leaves and the same seams. -/
structure Same (first second : Selector) : Prop where
  render : first.render = second.render
  leaves : first.leaves = second.leaves
  seams : ∀ follow, first.seams follow = second.seams follow

namespace Same

variable {first second third : Selector}

theorem refl (tree : Selector) : Same tree tree :=
  ⟨rfl, rfl, fun _ => rfl⟩

theorem trans (h : Same first second) (h' : Same second third) : Same first third :=
  ⟨h.render.trans h'.render, h.leaves.trans h'.leaves,
    fun follow => (h.seams follow).trans (h'.seams follow)⟩

theorem query (h : Same first second) (head : Pseudo) (argument other : Text) :
    Same (.query head argument first) (.query head other second) :=
  ⟨by rw [Selector.render, Selector.render, h.render], h.leaves, fun _ => h.seams []⟩

theorem relative (h : Same first second) (combinator : Text) :
    Same (.relative combinator first) (.relative combinator second) :=
  ⟨by rw [Selector.render, Selector.render, h.render], h.leaves, h.seams⟩

theorem complex {left right : Selector} (hleft : Same first left) (combinator : Text)
    (hright : Same second right) :
    Same (.complex first combinator second) (.complex left combinator right) where
  render := by rw [Selector.render, Selector.render, hleft.render, hright.render]
  leaves := by rw [Selector.leaves, Selector.leaves, hleft.leaves, hright.leaves]
  seams := fun follow => by
    rw [Selector.seams, Selector.seams, hright.render, hleft.seams, hright.seams]

theorem part {parts others : List Selector} (h : Same first second)
    (hparts : Same (.compound parts) (.compound others)) :
    Same (.compound (first :: parts)) (.compound (second :: others)) where
  render := congrArg₂ (· ++ ·) h.render hparts.render
  leaves := congrArg₂ (· ++ ·) h.leaves hparts.leaves
  seams := fun follow => by
    have hrender : renderParts parts = renderParts others := hparts.render
    have hseams : seamsParts follow parts = seamsParts follow others := hparts.seams follow
    rw [Selector.seams, Selector.seams, seamsParts, seamsParts, h.seams, hrender, hseams]

theorem pair {front back : Selector} (hfront : Same first front) (hback : Same second back) :
    Same (.compound [first, second]) (.compound [front, back]) :=
  hfront.part (hback.part (refl _))

end Same

theorem renderParts_append (first second : List Selector) :
    renderParts (first ++ second) = renderParts first ++ renderParts second := by
  simp [renderParts_eq_flatMap]

theorem leavesAll_append (first second : List Selector) :
    leavesAll (first ++ second) = leavesAll first ++ leavesAll second := by
  simp [leavesAll_eq_flatMap]

theorem seamsParts_append (follow : Text) (first second : List Selector) :
    seamsParts follow (first ++ second) =
      seamsParts (renderParts second ++ follow) first ++ seamsParts follow second := by
  induction first with
  | nil => rfl
  | cons part first ih =>
    simp [seamsParts, renderParts_append, ih, List.append_assoc]

/-- A compound in front of others may give up its parts to them. -/
theorem same_compound_append (first second : List Selector) :
    Same (.compound (first ++ second)) (.compound [.compound first, .compound second]) where
  render := by simp [render, renderParts, renderParts_append]
  leaves := by simp [leaves, leavesAll, leavesAll_append]
  seams := fun follow => by simp [seams, seamsParts, render, renderParts, seamsParts_append]

theorem same_compound_singleton (tree : Selector) : Same (.compound [tree]) tree where
  render := by simp [render, renderParts]
  leaves := by simp [leaves, leavesAll]
  seams := fun follow => by simp [seams, seamsParts, renderParts]

/-- Parts in front of a chain belong to its first compound. -/
theorem same_compound_complex (front left right : Selector) (combinator : Text) :
    Same (.complex (.compound [front, left]) combinator right)
      (.compound [front, .complex left combinator right]) where
  render := by simp [render, renderParts]
  leaves := by simp [leaves, leavesAll]
  seams := fun follow => by simp [seams, seamsParts, render, renderParts]

/-- Parts behind a chain belong to its last compound. -/
theorem same_complex_compound (left right back : Selector) (combinator : Text) :
    Same (.complex left combinator (.compound [right, back]))
      (.compound [.complex left combinator right, back]) where
  render := by simp [render, renderParts]
  leaves := by simp [leaves, leavesAll]
  seams := fun follow => by simp [seams, seamsParts, render, renderParts]

/-- Chains are grouped to the left or to the right with the same text. -/
theorem same_complex_assoc (left middle right : Selector) (first second : Text) :
    Same (.complex (.complex left first middle) second right)
      (.complex left first (.complex middle second right)) where
  render := by simp [render]
  leaves := by simp [leaves]
  seams := fun follow => by simp [seams, render]

/-! ## Flat trees -/

/-- The parts of a compound; any other selector is its only part. -/
def parts : Selector → List Selector
  | .compound parts => parts
  | tree => [tree]

/-- The chain with further parts in its last compound. -/
def extend (more : List Selector) : Selector → Selector
  | .complex left combinator right => .complex left combinator (right.extend more)
  | tree => .compound (tree.parts ++ more)

/-- The chain with its first compound changed. -/
def mapFirst (change : Selector → Selector) : Selector → Selector
  | .complex left combinator right => .complex (left.mapFirst change) combinator right
  | tree => change tree

mutual

/-- The tree with the parts of a chain that stands in a compound moved into the compounds next to
it, and with chains grouped to the left. -/
def flatten : Selector → Selector
  | .typeName name => .typeName name
  | .universal => .universal
  | .nesting => .nesting
  | .className name => .className name
  | .idName name => .idName name
  | .attr condition => .attr condition
  | .pseudo head => .pseudo head
  | .function head argument => .function head argument
  | .query head argument inner => .query head argument inner.flatten
  | .compound parts => flattenParts parts
  | .complex left combinator right => right.flatten.mapFirst (.complex left.flatten combinator)
  | .list items => .list (flattenItems items)
  | .relative combinator selector => .relative combinator selector.flatten

/-- The chain that the parts of a compound make up. -/
def flattenParts : List Selector → Selector
  | [] => .compound []
  | part :: parts => (flattenParts parts).mapFirst fun first => part.flatten.extend first.parts

/-- The items of a list, each of them flat. -/
def flattenItems : List Selector → List Selector
  | [] => []
  | item :: items => item.flatten :: flattenItems items

end

theorem flattenItems_eq_map (items : List Selector) : flattenItems items = items.map flatten := by
  induction items with
  | nil => rfl
  | cons item items ih => rw [flattenItems, ih, List.map_cons]

theorem same_parts (tree : Selector) : Same (.compound tree.parts) tree := by
  cases tree with
  | compound parts => exact .refl _
  | _ => exact same_compound_singleton _

theorem same_extend (more : List Selector) : (tree : Selector) →
    Same (tree.extend more) (.compound [tree, .compound more])
  | .complex left combinator right => by
    have hright := same_extend more right
    exact ((Same.refl left).complex combinator hright).trans (same_complex_compound _ _ _ _)
  | .typeName _ | .universal | .nesting | .className _ | .idName _ | .attr _ | .pseudo _
  | .function _ _ | .query _ _ _ | .compound _ | .list _ | .relative _ _ => by
    exact (same_compound_append _ more).trans ((same_parts _).pair (.refl _))

/-- A change of the first compound that puts `front` before it puts `front` before the chain. -/
theorem same_mapFirst_extend (front : Selector) : (tree : Selector) →
    Same (tree.mapFirst fun first => front.extend first.parts) (.compound [front, tree])
  | .complex left combinator right => by
    have hleft := same_mapFirst_extend front left
    exact (hleft.complex combinator (.refl right)).trans (same_compound_complex _ _ _ _)
  | .typeName _ | .universal | .nesting | .className _ | .idName _ | .attr _ | .pseudo _
  | .function _ _ | .query _ _ _ | .compound _ | .list _ | .relative _ _ => by
    exact (same_extend _ front).trans ((Same.refl front).pair (same_parts _))

theorem same_mapFirst_complex (left : Selector) (combinator : Text) : (tree : Selector) →
    Same (tree.mapFirst (.complex left combinator)) (.complex left combinator tree)
  | .complex middle second right => by
    have hmiddle := same_mapFirst_complex left combinator middle
    exact (hmiddle.complex second (.refl right)).trans (same_complex_assoc _ _ _ _ _)
  | .typeName _ | .universal | .nesting | .className _ | .idName _ | .attr _ | .pseudo _
  | .function _ _ | .query _ _ _ | .compound _ | .list _ | .relative _ _ => .refl _

theorem renderMore_congr {items others : List Selector} (hlength : items.length = others.length)
    (h : renderItems items = renderItems others) : renderMore items = renderMore others := by
  match items, others, hlength with
  | [], [], _ => rfl
  | _ :: _, _ :: _, _ => exact congrArg (',' :: ·) h

theorem same_item {first second : Selector} (h : Same first second) {items others : List Selector}
    (hlength : items.length = others.length) (hitems : Same (.list items) (.list others)) :
    Same (.list (first :: items)) (.list (second :: others)) where
  render := by
    rw [render, render, renderItems_cons, renderItems_cons, h.render,
      renderMore_congr hlength hitems.render]
  leaves := congrArg₂ (· ++ ·) h.leaves hitems.leaves
  seams := fun follow => by
    have hseams : seamsItems follow items = seamsItems follow others := hitems.seams follow
    rw [seams, seams, seamsItems, seamsItems, h.seams, renderMore_congr hlength hitems.render,
      hseams]

mutual

/-- A flat tree has the text, the leaves and the seams of the tree. -/
theorem same_flatten : (tree : Selector) → Same tree.flatten tree
  | .typeName _ => .refl _
  | .universal => .refl _
  | .nesting => .refl _
  | .className _ => .refl _
  | .idName _ => .refl _
  | .attr _ => .refl _
  | .pseudo _ => .refl _
  | .function _ _ => .refl _
  | .query head argument inner => (same_flatten inner).query head argument argument
  | .compound parts => same_flattenParts parts
  | .complex left combinator right => by
    rw [flatten]
    refine (same_mapFirst_complex _ combinator _).trans ?_
    exact (same_flatten left).complex combinator (same_flatten right)
  | .list items => same_flattenItems items
  | .relative combinator selector => (same_flatten selector).relative combinator

theorem same_flattenParts : (parts : List Selector) → Same (flattenParts parts) (.compound parts)
  | [] => .refl _
  | part :: parts => by
    have hparts := (same_flatten part).pair (same_flattenParts parts)
    have hcons : Same (.compound [part, .compound parts]) (.compound (part :: parts)) :=
      ⟨by simp [render, renderParts], by simp [leaves, leavesAll],
        fun follow => by simp [seams, seamsParts, render, renderParts]⟩
    rw [flattenParts]
    exact ((same_mapFirst_extend _ _).trans hparts).trans hcons

theorem same_flattenItems : (items : List Selector) →
    Same (.list (flattenItems items)) (.list items)
  | [] => .refl _
  | item :: items => by
    have hlength : (flattenItems items).length = items.length := by
      rw [flattenItems_eq_map, List.length_map]
    rw [flattenItems]
    exact same_item (same_flatten item) hlength (same_flattenItems items)

end

theorem length_refreshAll (trees : List Selector) : (refreshAll trees).length = trees.length := by
  induction trees with
  | nil => rfl
  | cons first rest ih => rw [refreshAll, List.length_cons, ih, List.length_cons]

mutual

/-- The text of an argument is not printed, so a tree with other arguments is the same. -/
theorem same_refresh : (tree : Selector) → Same tree.refresh tree
  | .typeName _ => .refl _
  | .universal => .refl _
  | .nesting => .refl _
  | .className _ => .refl _
  | .idName _ => .refl _
  | .attr _ => .refl _
  | .pseudo _ => .refl _
  | .function _ _ => .refl _
  | .query head argument inner => (same_refresh inner).query head inner.render argument
  | .compound parts => same_refreshParts parts
  | .complex left combinator right => (same_refresh left).complex combinator (same_refresh right)
  | .list items => same_refreshItems items
  | .relative combinator selector => (same_refresh selector).relative combinator

theorem same_refreshParts : (parts : List Selector) →
    Same (.compound (refreshAll parts)) (.compound parts)
  | [] => .refl _
  | part :: parts => (same_refresh part).part (same_refreshParts parts)

theorem same_refreshItems : (items : List Selector) →
    Same (.list (refreshAll items)) (.list items)
  | [] => .refl _
  | item :: items =>
    same_item (same_refresh item) (length_refreshAll items) (same_refreshItems items)

end

/-! ## The shape of flat trees -/

theorem formed_mapFirst {change : Selector → Selector}
    (h : ∀ first, Formed .compound first → Formed .chain (change first)) {tree : Selector} :
    Formed .chain tree → Formed .chain (tree.mapFirst change)
  | .start hcompound => by
    cases hcompound with
    | compound hne hparts => exact h _ (.compound hne hparts)
  | .complex hleft hlink hright => .complex (formed_mapFirst h hleft) hlink hright

theorem formed_compound_append {parts more : List Selector} (hne : parts ≠ [])
    (hparts : ∀ part ∈ parts, Formed .simple part) (hmore : ∀ part ∈ more, Formed .simple part) :
    Formed .compound (.compound (parts ++ more)) :=
  .compound (by simp [hne]) (List.forall_mem_append.2 ⟨hparts, hmore⟩)

theorem formed_extend_chain {tree : Selector} {more : List Selector} (h : Formed .chain tree)
    (hmore : ∀ part ∈ more, Formed .simple part) : Formed .chain (tree.extend more) := by
  cases h with
  | start hcompound =>
    cases hcompound with
    | compound hne hparts => exact .start (formed_compound_append hne hparts hmore)
  | complex hleft hlink hright =>
    cases hright with
    | compound hne hparts =>
      exact .complex hleft hlink (formed_compound_append hne hparts hmore)

theorem formed_extend_simple {tree : Selector} {more : List Selector} (h : Formed .simple tree)
    (hmore : ∀ part ∈ more, Formed .simple part) : Formed .chain (tree.extend more) := by
  have hextend : tree.extend more = .compound ([tree] ++ more) := by
    cases h <;> rfl
  rw [hextend]
  exact .start (formed_compound_append (List.cons_ne_nil _ _) (List.forall_mem_singleton.2 h) hmore)

/-- The shape that a spliced tree has, by the level of the tree it comes from.  A simple selector
may have become a chain. -/
def FormedFlat : Level → Selector → Prop
  | .simple, tree => Formed .simple tree ∨ Formed .chain tree
  | .compound, tree => Formed .chain tree
  | .chain, tree => Formed .chain tree
  | .branch mode, tree => Formed (.branch mode) tree
  | .whole mode, tree => Formed (.whole mode) tree

theorem formed_extend {tree : Selector} {more : List Selector} (h : FormedFlat .simple tree)
    (hmore : ∀ part ∈ more, Formed .simple part) : Formed .chain (tree.extend more) := by
  rcases h with hsimple | hchain
  · exact formed_extend_simple hsimple hmore
  · exact formed_extend_chain hchain hmore

theorem formed_flattenParts {parts : List Selector} (hne : parts ≠ [])
    (h : ∀ part ∈ parts, FormedFlat .simple part.flatten) : Formed .chain (flattenParts parts) := by
  induction parts with
  | nil => exact absurd rfl hne
  | cons part parts ih =>
    rw [List.forall_mem_cons] at h
    rw [flattenParts]
    cases parts with
    | nil =>
      rw [flattenParts]
      exact formed_extend h.1 (List.forall_mem_nil _)
    | cons next parts =>
      refine formed_mapFirst (fun first hfirst => ?_) (ih (List.cons_ne_nil _ _) h.2)
      cases hfirst with
      | compound _ hparts => exact formed_extend h.1 hparts

/-! ## Splicing -/

/-- Nothing is wrong with the scopes of the tree. -/
def ScopesAllowed (tree : Selector) : Prop :=
  ∀ inside ∈ tree.subtrees, inside.badScope? = none

theorem isList_of_scopesAllowed {head : Pseudo} {argument : Text} {inner : Selector}
    (h : (Selector.query head argument inner).ScopesAllowed) (hscope : head.isScope = true) :
    inner.isList = false := by
  have hbad := h _ (by rw [subtrees]; exact List.mem_cons_self)
  simpa [badScope?, hscope] using hbad

/-- The branches of the argument of a scope do not begin with a combinator. -/
theorem argumentMode_of_isScope {head : Pseudo} (h : head.isScope = true) :
    argumentMode head = .plain := by
  simp only [Pseudo.isScope, Pseudo.isGlobal, Bool.or_eq_true, Bool.and_eq_true, beq_iff_eq,
    Text.eqIgnoringCase] at h
  have hname : head.takesRelative = false := by
    rcases h with ⟨hkind, hname⟩ | ⟨hkind, hname⟩
    all_goals
      simp only [Pseudo.takesRelative, Text.eqIgnoringCase, hkind, hname]
      decide
  rw [argumentMode, hname]
  rfl

theorem Formed.isList_chain {tree : Selector} (h : Formed .chain tree) : tree.isList = false := by
  cases h with
  | start hcompound =>
    cases hcompound
    rfl
  | complex => rfl

/-- A whole selector that is no list and has no leading combinator is a chain. -/
theorem Formed.chain_of_whole {tree : Selector} (h : Formed (.whole .plain) tree)
    (hlist : tree.isList = false) : Formed .chain tree := by
  cases h with
  | whole hbranch _ =>
    cases hbranch with
    | branch _ hchain => exact hchain
  | list => exact absurd hlist (by simp [isList])

/-- What is known of a tree after its scopes have been replaced by their arguments. -/
structure Spliced (rename : Text → Text) (level : Level) (tree : Selector) : Prop where
  formed : FormedFlat level (tree.substitute rename).flatten
  trimmed : Trimmed tree.render → Trimmed (tree.substitute rename).render
  isList : tree.isList = false → (tree.substitute rename).flatten.isList = false

section Levels

variable {rename : Text → Text}

theorem trimmed_append {text : Text} (hne : text ≠ []) {rest : Text} :
    Trimmed (text ++ rest) ↔ Trimmed text := by
  obtain ⟨c, tail, rfl⟩ := List.exists_cons_of_ne_nil hne
  exact Iff.rfl

theorem FormedFlat.begins {tree : Selector} (h : FormedFlat .simple tree) : Begins tree.render := by
  rcases h with hsimple | hchain
  · exact hsimple.begins_simple
  · exact hchain.begins_chain

/-- A selector begins as its first part does. -/
theorem trimmed_substitute {part : Selector} {level : Level} (hspliced : Spliced rename level part)
    (hne : part.render ≠ []) (hflat : (part.substitute rename).flatten.render ≠ [])
    {rest other : Text} (h : Trimmed (part.render ++ rest)) :
    Trimmed ((part.substitute rename).render ++ other) := by
  rw [(same_flatten _).render] at hflat
  rw [trimmed_append hne] at h
  rw [trimmed_append hflat]
  exact hspliced.trimmed h

theorem spliced_compound {parts : List Selector} (hne : parts ≠ [])
    (hformed : ∀ part ∈ parts, Formed .simple part)
    (ih : ∀ part ∈ parts, Spliced rename .simple part) :
    Spliced rename .compound (.compound parts) := by
  have hchain : Formed .chain ((Selector.compound parts).substitute rename).flatten := by
    rw [substitute, flatten]
    refine formed_flattenParts ?_
      (forall_mem_substituteAll.2 fun part hpart => (ih part hpart).formed)
    rwa [substituteAll_eq_map, ne_eq, List.map_eq_nil_iff]
  refine ⟨hchain, fun htrimmed => ?_, fun _ => hchain.isList_chain⟩
  obtain ⟨part, parts, rfl⟩ := List.exists_cons_of_ne_nil hne
  have hpart := ih part List.mem_cons_self
  exact trimmed_substitute hpart (hformed part List.mem_cons_self).begins_simple.ne_nil
    hpart.formed.begins.ne_nil htrimmed

theorem spliced_complex {left right : Selector} {combinator : Text} (hlink : IsLink combinator)
    (hleft : Formed .chain left) (ihleft : Spliced rename .chain left)
    (ihright : Spliced rename .compound right) :
    Spliced rename .chain (.complex left combinator right) := by
  have hleftFlat : Formed .chain (left.substitute rename).flatten := ihleft.formed
  have hchain :
      Formed .chain ((Selector.complex left combinator right).substitute rename).flatten := by
    rw [substitute, flatten]
    exact formed_mapFirst (fun first hfirst => .complex hleftFlat hlink hfirst) ihright.formed
  refine ⟨hchain, fun htrimmed => ?_, fun _ => hchain.isList_chain⟩
  rw [render, List.append_assoc] at htrimmed
  rw [substitute, render, List.append_assoc]
  exact trimmed_substitute ihleft hleft.begins_chain.ne_nil hleftFlat.begins_chain.ne_nil htrimmed

/-- A scope is replaced by its argument, which is a chain. -/
theorem spliced_scope {head : Pseudo} {argument : Text} {inner : Selector}
    (hscope : head.isScope = true) (hlist : inner.isList = false)
    (ih : Spliced (if head.isGlobal then id else rename) (.whole (argumentMode head)) inner) :
    Spliced rename .simple (.query head argument inner) := by
  have hsubstitute : (Selector.query head argument inner).substitute rename =
      inner.substitute (if head.isGlobal then id else rename) := by
    rw [substitute, hscope]
    cases head.isGlobal <;> rfl
  have hflat := ih.isList hlist
  have hformed := ih.formed
  rw [argumentMode_of_isScope hscope] at hformed
  have hwhole : Formed (.whole .plain) _ := hformed
  have hchain := hwhole.chain_of_whole hflat
  rw [← hsubstitute] at hflat hchain hwhole
  refine ⟨.inr hchain, fun _ => ?_, fun _ => hflat⟩
  obtain ⟨c, rest, hrender, hc⟩ := hwhole.exists_cons_whole
  rw [(same_flatten _).render] at hrender
  rw [hrender]
  intro d hd
  obtain rfl : c = d := Option.some.inj hd
  exact hc

theorem spliced_list {mode : Mode} {items : List Selector} (hlength : 2 ≤ items.length)
    (hformed : ∀ item ∈ items, Formed (.branch mode) item) (htrimmed : Trimmed (renderItems items))
    (ih : ∀ item ∈ items, Spliced rename (.branch mode) item) :
    Spliced rename (.whole mode) (.list items) := by
  have hflat : ((Selector.list items).substitute rename).flatten =
      .list (items.map fun item => (item.substitute rename).flatten) := by
    rw [substitute, flatten, flattenItems_eq_map, substituteAll_eq_map, List.map_map]
    rfl
  have hkept : Trimmed (renderItems (substituteAll rename items)) := by
    cases items with
    | nil => exact htrimmed
    | cons item items =>
      obtain ⟨c, rest, hrender, -⟩ := (hformed item List.mem_cons_self).exists_cons_branch
      have hitem := ih item List.mem_cons_self
      have hbranch : Formed (.branch mode) (item.substitute rename).flatten := hitem.formed
      obtain ⟨d, tail, hrenderFlat, -⟩ := hbranch.exists_cons_branch
      rw [renderItems_cons] at htrimmed
      rw [substituteAll, renderItems_cons]
      exact trimmed_substitute hitem (by simp [hrender]) (by simp [hrenderFlat]) htrimmed
  refine ⟨?_, fun _ => hkept, fun hlist => absurd hlist (by simp [isList])⟩
  have hrender := (same_flatten ((Selector.list items).substitute rename)).render
  rw [hflat] at hrender ⊢
  refine .list (by rwa [List.length_map]) (List.forall_mem_map.2 fun item hitem => ?_) ?_
  · exact (ih item hitem).formed
  · rw [render] at hrender
    rw [hrender]
    exact hkept

/-- Replacing the scopes of a formed tree by their arguments gives a tree whose flat form is formed
again. -/
theorem spliced_of_formed {level : Level} {tree : Selector} (h : Formed level tree)
    (hallowed : tree.ScopesAllowed) : ∀ {rename : Text → Text}, KeepsEnds rename →
    Spliced rename level tree := by
  -- Below `:global` no name is changed, so the induction is for all renamings at once.
  induction h with
  | typeName hname => exact fun _ => ⟨.inl (.typeName hname), id, fun _ => rfl⟩
  | universal => exact fun _ => ⟨.inl .universal, id, fun _ => rfl⟩
  | nesting => exact fun _ => ⟨.inl .nesting, id, fun _ => rfl⟩
  | className hname =>
    exact fun hrename => ⟨.inl (.className (hrename.isName hname)), id, fun _ => rfl⟩
  | idName hname =>
    exact fun hrename => ⟨.inl (.idName (hrename.isName hname)), id, fun _ => rfl⟩
  | attr hsteady => exact fun _ => ⟨.inl (.attr hsteady), id, fun _ => rfl⟩
  | pseudo hname => exact fun _ => ⟨.inl (.pseudo hname), id, fun _ => rfl⟩
  | function hname hfound hplain =>
    exact fun _ => ⟨.inl (.function hname hfound hplain), id, fun _ => rfl⟩
  | @query head inner argument hname htakes _ ih =>
    intro rename hrename
    have hinner : inner.ScopesAllowed := fun inside hinside =>
      hallowed inside (by rw [subtrees]; exact List.mem_cons_of_mem _ hinside)
    cases hscope : head.isScope with
    | true =>
      refine spliced_scope hscope (isList_of_scopesAllowed hallowed hscope) (ih hinner ?_)
      split
      · exact keepsEnds_id
      · exact hrename
    | false =>
      have hsubstitute := substitute_query hscope rename argument inner
      have hformed : Formed (.whole (argumentMode head)) _ := (ih hinner hrename).formed
      have hne := (begins_pseudo head).ne_nil
      refine ⟨?_, fun htrimmed => ?_, fun _ => ?_⟩
      · rw [hsubstitute]
        exact .inl (.query argument hname htakes hformed)
      · rw [render, trimmed_append hne] at htrimmed
        rw [hsubstitute, render, trimmed_append hne]
        exact htrimmed
      · rw [hsubstitute]
        rfl
  | compound hne hparts ih =>
    intro rename hrename
    exact spliced_compound hne hparts fun part hpart => ih part hpart
      (fun inside hinside => hallowed inside (subtrees_subset_compound hpart hinside)) hrename
  | start _ ih =>
    intro rename hrename
    obtain ⟨hformed, htrimmed, hlist⟩ := ih hallowed hrename
    exact ⟨hformed, htrimmed, hlist⟩
  | complex hleft hlink _ ihleft ihright =>
    intro rename hrename
    rw [ScopesAllowed, subtrees, List.forall_mem_cons, List.forall_mem_append] at hallowed
    exact spliced_complex hlink hleft (ihleft hallowed.2.1 hrename) (ihright hallowed.2.2 hrename)
  | branch mode _ ih =>
    intro rename hrename
    obtain ⟨hformed, htrimmed, hlist⟩ := ih hallowed hrename
    exact ⟨.branch mode hformed, htrimmed, hlist⟩
  | relative hanchor _ ih =>
    intro rename hrename
    obtain ⟨hformed, htrimmed, hlist⟩ := ih (fun inside hinside =>
      hallowed inside (List.mem_cons_of_mem _ hinside)) hrename
    refine ⟨.relative hanchor hformed, ?_, fun _ => rfl⟩
    cases hanchor
    exact id
  | whole _ htrimmed ih =>
    intro rename hrename
    obtain ⟨hformed, htrimmedKept, hlist⟩ := ih hallowed hrename
    refine ⟨.whole hformed ?_, htrimmedKept, hlist⟩
    rw [(same_flatten _).render]
    exact htrimmedKept htrimmed
  | list hlength hitems htrimmed ih =>
    intro rename hrename
    exact spliced_list hlength hitems htrimmed fun item hitem => ih item hitem
      (fun inside hinside => hallowed inside (subtrees_subset_list hitem hinside)) hrename

end Levels

/-- A type, class or id selector. -/
def isNamed : Selector → Bool
  | .typeName _ => true
  | .className _ => true
  | .idName _ => true
  | _ => false

/-- The type, class and id selectors of a tree, from left to right. -/
def named (tree : Selector) : List Selector :=
  tree.leaves.filter isNamed

end Selector

/-! ## Scoping the selector of a rule -/

namespace Scoping

open Selector (Mode)

/-- A rule that is scoped gets the text of the spliced tree. -/
theorem scopeRule_eq_ok {mode : Mode} {head result : Rule} {tree : Selector} {namer : Namer}
    {state later : State} (hparse : Selector.parse mode head.selector = .ok tree)
    (hstate : Registry.Reached namer state.registry)
    (hscope : scopeRule namer mode head state = (.ok result, later)) :
    tree.ScopesAllowed ∧ ∃ uses, later.registry = Registry.ofUses namer uses ∧
      result.selector = (tree.substitute later.registry.rename).render := by
  obtain ⟨before, hbefore⟩ := hstate.exists_uses
  have hfault : selectorFault? mode head = none := by
    rcases scopeRule_stops mode head state with ⟨_, -, hnone⟩ | ⟨error, herror, -⟩
    · exact hnone
    · rw [hscope] at herror
      cases herror
  have hagrees := Registry.agrees_rename_ofUses namer (before ++ tree.localNames.map .refer)
  obtain ⟨last, hlast, hregistry⟩ := scopeRule_yields hparse hfault hagrees state hbefore
  obtain ⟨hrule, rfl⟩ := Prod.mk.inj (hscope.symm.trans hlast)
  obtain rfl := Except.ok.inj hrule
  refine ⟨?_, _, hregistry, by rw [hregistry]⟩
  rw [selectorFault?, hparse] at hfault
  have hbad : tree.subtrees.filterMap Selector.badScope? = [] := by
    rw [← List.head?_eq_none_iff]
    exact Option.map_eq_none_iff.1 hfault
  exact List.filterMap_eq_nil_iff.1 hbad

/-- The text that scoping gives a rule denotes the tree with every `:local(X)` and `:global(X)`
replaced by `X` and every class and id outside `:global(...)` renamed, with its type, class and id
selectors in order, exactly if each name of that tree ends where the text behind it begins. -/
theorem parse_scopeRule_iff {mode : Mode} {head result : Rule} {tree : Selector}
    {strategy : Strategy} {path : Option Text} {state later : State}
    (hparse : Selector.parse mode head.selector = .ok tree) (hsteady : tree.Steady)
    (hstate : Registry.Reached (strategy.generate · path) state.registry)
    (hscope : scopeRule (strategy.generate · path) mode head state = (.ok result, later)) :
    (tree.substitute later.registry.rename).Apart [] ↔
      ∃ reread, Selector.parse mode result.selector = .ok reread ∧
        reread = (tree.substitute later.registry.rename).flatten.refresh ∧
        reread.named = (tree.substitute later.registry.rename).named := by
  obtain ⟨hallowed, uses, hregistry, hselector⟩ := scopeRule_eq_ok hparse hstate hscope
  have hkeeps : KeepsEnds later.registry.rename := by
    rw [hregistry]
    exact Registry.keepsEnds_rename_ofUses strategy path uses
  generalize later.registry.rename = rename at hkeeps hselector ⊢
  have hspliced := Selector.spliced_of_formed ((Selector.formed_of_parse hparse).1 hsteady)
    hallowed hkeeps
  have hflat := Selector.same_flatten (tree.substitute rename)
  have hfresh := (Selector.same_refresh (tree.substitute rename).flatten).trans hflat
  constructor
  · intro hapart
    refine ⟨_, ?_, rfl, congrArg (List.filter Selector.isNamed) hfresh.leaves⟩
    have happartFlat : (tree.substitute rename).flatten.Apart [] := by
      rwa [Selector.Apart, hflat.seams]
    rw [hselector, ← hflat.render, Selector.parse_eq_ok_iff]
    exact Selector.read_render hspliced.formed happartFlat
  · rintro ⟨reread, hreread, rfl, -⟩
    have hapart := (Selector.formed_of_parse hreread).2
    rwa [Selector.Apart, hfresh.seams] at hapart

/-- What scoping a rule gives, with the long names of a file without a path. -/
def longScoped (source : Text) : Except Error Rule × State :=
  scopeRule (Strategy.long.generate · none) .plain ⟨source, none⟩ .empty

theorem longScoped_eq {source text : Text}
    (h : (longScoped source).1.toOption.map Rule.selector = some text) :
    ∃ result, scopeRule (Strategy.long.generate · none) .plain ⟨source, none⟩ .empty =
      (.ok result, (longScoped source).2) ∧ result.selector = text := by
  obtain ⟨result, hresult, htext⟩ := Selector.exists_ok_of_map h
  exact ⟨result, Prod.ext hresult rfl, htext⟩

/-- A rule with a chain for a part of a compound. -/
def splicedSource : Text :=
  ".a:global(.b > c:not([x])):local(#d) e".toList

theorem parse_scopeRule_iff_sample :
    ∃ tree result, Selector.parse .plain splicedSource = .ok tree ∧ tree.Steady ∧
      scopeRule (Strategy.long.generate · none) .plain ⟨splicedSource, none⟩ .empty =
        (.ok result, (longScoped splicedSource).2) ∧
      result.selector = ".a_1B2M2Y.b > c:not([x])#d_1B2M2Y e".toList ∧
      (tree.substitute (longScoped splicedSource).2.registry.rename).Apart [] ∧
      ∃ reread, Selector.parse .plain result.selector = .ok reread ∧
        reread = (tree.substitute (longScoped splicedSource).2.registry.rename).flatten.refresh ∧
        reread.named = (tree.substitute (longScoped splicedSource).2.registry.rename).named := by
  let rename := (longScoped splicedSource).2.registry.rename
  let view (tree : Selector) :=
    (decide tree.Steady, decide ((tree.substitute rename).Apart []))
  obtain ⟨tree, hparse, hview⟩ :
      ∃ tree, Selector.parse .plain splicedSource = .ok tree ∧ view tree = (true, true) :=
    Selector.exists_ok_of_map (by decide +kernel)
  obtain ⟨hsteady, hapart⟩ := Prod.mk.inj hview
  have hsteady := of_decide_eq_true hsteady
  have hapart := of_decide_eq_true hapart
  have htext : (longScoped splicedSource).1.toOption.map Rule.selector =
      some ".a_1B2M2Y.b > c:not([x])#d_1B2M2Y e".toList := by decide +kernel
  obtain ⟨result, hresult, hselector⟩ := longScoped_eq htext
  refine ⟨tree, result, hparse, hsteady, hresult, hselector, hapart, ?_⟩
  exact (parse_scopeRule_iff hparse hsteady .empty hresult).1 hapart

/-- A rule in which a type selector follows a class once its scope has been replaced. -/
def joinedSource : Text :=
  ".a:global(b)".toList

/-- The class and the type selector are printed next to each other and read as one class. -/
theorem scopeRule_joins_names :
    ∃ tree result reread, Selector.parse .plain joinedSource = .ok tree ∧ tree.Steady ∧
      scopeRule (Strategy.long.generate · none) .plain ⟨joinedSource, none⟩ .empty =
        (.ok result, (longScoped joinedSource).2) ∧
      Selector.parse .plain result.selector = .ok reread ∧
      reread.named ≠ (tree.substitute (longScoped joinedSource).2.registry.rename).named := by
  let rename := (longScoped joinedSource).2.registry.rename
  let view (tree : Selector) := (decide tree.Steady, (tree.substitute rename).named.length)
  obtain ⟨tree, hparse, hview⟩ :
      ∃ tree, Selector.parse .plain joinedSource = .ok tree ∧ view tree = (true, 2) :=
    Selector.exists_ok_of_map (by decide +kernel)
  obtain ⟨hsteady, htwo⟩ := Prod.mk.inj hview
  have htext : (longScoped joinedSource).1.toOption.map Rule.selector =
      some ".a_1B2M2Yb".toList := by decide +kernel
  obtain ⟨result, hresult, hselector⟩ := longScoped_eq htext
  obtain ⟨reread, hreread, hone⟩ : ∃ reread,
      Selector.parse .plain ".a_1B2M2Yb".toList = .ok reread ∧ reread.named.length = 1 :=
    Selector.exists_ok_of_map (by decide +kernel)
  rw [← hselector] at hreread
  refine ⟨tree, result, reread, hparse, of_decide_eq_true hsteady, hresult, hreread, ?_⟩
  intro heq
  rw [heq] at hone
  exact absurd (hone.symm.trans htwo) (by decide)

end Scoping

end ScopedCss
