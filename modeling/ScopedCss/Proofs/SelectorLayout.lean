import ScopedCss.Proofs.SelectorDerivations

/-!
# How selectors are laid out

The text of a tree puts the texts of its parts one behind the other.  Whether it can be read again
is a matter of two things that are kept apart here.

* `Formed level tree`: each piece of the tree can be read by itself, and each level has the shape
  that the grammar gives it.
* `Apart follow tree`: in the text of the tree, and in front of `follow`, every name ends where it
  is said to.  `seams` lists what has to be looked at, so the condition can be evaluated.

Trees do not keep the text of arguments when they are printed.  `refresh` is the tree with the
arguments that its own text has.
-/

namespace ScopedCss

open Ident (IsName)

namespace Selector

/-! ## Leaves and arguments -/

mutual

/-- The simple selectors that have no selector inside, from left to right. -/
def leaves : Selector → List Selector
  | .typeName name => [.typeName name]
  | .universal => [.universal]
  | .nesting => [.nesting]
  | .className name => [.className name]
  | .idName name => [.idName name]
  | .attr condition => [.attr condition]
  | .pseudo head => [.pseudo head]
  | .function head argument => [.function head argument]
  | .query _ _ inner => inner.leaves
  | .compound parts => leavesAll parts
  | .complex left _ right => left.leaves ++ right.leaves
  | .list items => leavesAll items
  | .relative _ selector => selector.leaves

/-- The leaves of selectors, from left to right. -/
def leavesAll : List Selector → List Selector
  | [] => []
  | first :: rest => first.leaves ++ leavesAll rest

end

mutual

/-- The tree with the text of every argument that was read replaced by the text that is printed. -/
def refresh : Selector → Selector
  | .typeName name => .typeName name
  | .universal => .universal
  | .nesting => .nesting
  | .className name => .className name
  | .idName name => .idName name
  | .attr condition => .attr condition
  | .pseudo head => .pseudo head
  | .function head argument => .function head argument
  | .query head _ inner => .query head inner.render inner.refresh
  | .compound parts => .compound (refreshAll parts)
  | .complex left combinator right => .complex left.refresh combinator right.refresh
  | .list items => .list (refreshAll items)
  | .relative combinator selector => .relative combinator selector.refresh

/-- The selectors, each with its arguments replaced. -/
def refreshAll : List Selector → List Selector
  | [] => []
  | first :: rest => first.refresh :: refreshAll rest

end

theorem leavesAll_eq_flatMap (trees : List Selector) : leavesAll trees = trees.flatMap leaves := by
  induction trees with
  | nil => rfl
  | cons first rest ih => rw [leavesAll, ih, List.flatMap_cons]

/-- The condition of an attribute selector. -/
def condition? : Selector → Option Attribute
  | .attr condition => some condition
  | _ => none

/-- The conditions of the attribute selectors of a tree, from left to right. -/
def conditions (tree : Selector) : List Attribute :=
  tree.leaves.filterMap condition?

/-- What is printed behind an item of a list that `items` follow. -/
def renderMore : List Selector → Text
  | [] => []
  | items => ',' :: renderItems items

theorem renderItems_cons (item : Selector) (items : List Selector) :
    renderItems (item :: items) = item.render ++ renderMore items := by
  cases items with
  | nil => rw [renderItems, renderMore, List.append_nil]
  | cons next items =>
    rw [renderItems, renderMore] <;> simp

mutual

/-- New arguments do not change the text. -/
theorem render_refresh : (tree : Selector) → tree.refresh.render = tree.render
  | .typeName _ => rfl
  | .universal => rfl
  | .nesting => rfl
  | .className _ => rfl
  | .idName _ => rfl
  | .attr _ => rfl
  | .pseudo _ => rfl
  | .function _ _ => rfl
  | .query head argument inner => by rw [refresh, render, render, render_refresh inner]
  | .compound parts => by rw [refresh, render, render, renderParts_refreshAll parts]
  | .complex left combinator right => by
    rw [refresh, render, render, render_refresh left, render_refresh right]
  | .list items => by rw [refresh, render, render, renderItems_refreshAll items]
  | .relative combinator selector => by rw [refresh, render, render, render_refresh selector]

theorem renderParts_refreshAll : (parts : List Selector) →
    renderParts (refreshAll parts) = renderParts parts
  | [] => rfl
  | part :: parts => by
    rw [refreshAll, renderParts, renderParts, render_refresh part, renderParts_refreshAll parts]

theorem renderItems_refreshAll : (items : List Selector) →
    renderItems (refreshAll items) = renderItems items
  | [] => rfl
  | [item] => by rw [refreshAll, refreshAll, renderItems, renderItems, render_refresh item]
  | item :: next :: items => by
    have ih := renderItems_refreshAll (next :: items)
    rw [refreshAll] at ih
    rw [refreshAll, refreshAll, renderItems_cons, renderItems_cons, render_refresh item, renderMore,
      renderMore, ih] <;> simp

end

end Selector

/-- The text of the condition is read as this condition again. -/
def Attribute.Steady (condition : Attribute) : Prop :=
  Selector.Grammar.simple Selector.read condition.render = .read (.attr condition) []

/-- The text of every condition in the tree is read as the condition again. -/
def Selector.Steady (tree : Selector) : Prop :=
  ∀ condition ∈ tree.conditions, condition.Steady

namespace Selector

/-- The text does not begin with a blank. -/
def Trimmed (text : Text) : Prop :=
  ∀ c ∈ text.head?, Text.isBlank c = false

/-- The trees whose pieces can be read and whose levels have the shape of the grammar. -/
inductive Formed : Level → Selector → Prop where
  | typeName {name : Text} : IsName name → Formed .simple (.typeName name)
  | universal : Formed .simple .universal
  | nesting : Formed .simple .nesting
  | className {name : Text} : IsName name → Formed .simple (.className name)
  | idName {name : Text} : IsName name → Formed .simple (.idName name)
  | attr {condition : Attribute} : condition.Steady → Formed .simple (.attr condition)
  | pseudo {head : Pseudo} : IsName head.name → Formed .simple (.pseudo head)
  | function {head : Pseudo} {argument : Text} :
    IsName head.name → Scan.unnested [')'] (argument ++ [')']) = .found ')' [] →
    (head.takesSelector = true → argument.isBlankText = true) →
    Formed .simple (.function head argument)
  | query {head : Pseudo} {inner : Selector} (argument : Text) :
    IsName head.name → head.takesSelector = true → Formed (.whole (argumentMode head)) inner →
    Formed .simple (.query head argument inner)
  | compound {parts : List Selector} :
    parts ≠ [] → (∀ part ∈ parts, Formed .simple part) → Formed .compound (.compound parts)
  | start {tree : Selector} : Formed .compound tree → Formed .chain tree
  | complex {left right : Selector} {combinator : Text} :
    Formed .chain left → IsLink combinator → Formed .compound right →
    Formed .chain (.complex left combinator right)
  | branch {tree : Selector} (mode : Mode) : Formed .chain tree → Formed (.branch mode) tree
  | relative {tree : Selector} {combinator : Text} :
    IsAnchor combinator → Formed .chain tree →
    Formed (.branch .relative) (.relative combinator tree)
  | whole {mode : Mode} {tree : Selector} :
    Formed (.branch mode) tree → Trimmed tree.render → Formed (.whole mode) tree
  | list {mode : Mode} {items : List Selector} :
    2 ≤ items.length → (∀ item ∈ items, Formed (.branch mode) item) →
    Trimmed (renderItems items) → Formed (.whole mode) (.list items)

/-! ## Seams -/

mutual

/-- The names of a tree, each with the text that is printed behind it: in the argument in which it
stands, or in front of `follow`.  Names in front of a parenthesis end there and are left out. -/
def seams (follow : Text) : Selector → List (Text × Text)
  | .typeName name => [(name, follow)]
  | .universal => []
  | .nesting => []
  | .className name => [(name, follow)]
  | .idName name => [(name, follow)]
  | .attr _ => []
  | .pseudo head => [(head.name, follow)]
  | .function _ _ => []
  | .query _ _ inner => inner.seams []
  | .compound parts => seamsParts follow parts
  | .complex left combinator right =>
    left.seams (combinator ++ (right.render ++ follow)) ++ right.seams follow
  | .list items => seamsItems follow items
  | .relative _ selector => selector.seams follow

/-- The seams of the parts of a compound. -/
def seamsParts (follow : Text) : List Selector → List (Text × Text)
  | [] => []
  | part :: parts => part.seams (renderParts parts ++ follow) ++ seamsParts follow parts

/-- The seams of the items of a list. -/
def seamsItems (follow : Text) : List Selector → List (Text × Text)
  | [] => []
  | item :: items => item.seams (renderMore items ++ follow) ++ seamsItems follow items

end

/-- At each seam, the name is read up to the seam. -/
def SeamsHold (seams : List (Text × Text)) : Prop :=
  ∀ seam ∈ seams, Ident.read? (seam.1 ++ seam.2) = some seam

instance (seams : List (Text × Text)) : Decidable (SeamsHold seams) :=
  inferInstanceAs (Decidable (∀ seam ∈ seams, Ident.read? (seam.1 ++ seam.2) = some seam))

/-- In front of `follow`, every name of the tree ends where it is said to. -/
def Apart (follow : Text) (tree : Selector) : Prop :=
  SeamsHold (tree.seams follow)

instance (follow : Text) (tree : Selector) : Decidable (Apart follow tree) :=
  inferInstanceAs (Decidable (SeamsHold (tree.seams follow)))

theorem SeamsHold.nil : SeamsHold [] := by
  simp [SeamsHold]

theorem seamsHold_append {first second : List (Text × Text)} :
    SeamsHold (first ++ second) ↔ SeamsHold first ∧ SeamsHold second :=
  List.forall_mem_append

theorem seamsHold_singleton {name behind : Text} :
    SeamsHold [(name, behind)] ↔ Ident.read? (name ++ behind) = some (name, behind) :=
  List.forall_mem_singleton

/-! ## How the text of a tree begins -/

/-- The text begins as simple selectors do. -/
def Begins (text : Text) : Prop :=
  ∃ c rest, text = c :: rest ∧ isStart c = true ∧ (c = '\\' → rest ≠ [])

theorem Begins.append {text : Text} (h : Begins text) (rest : Text) : Begins (text ++ rest) := by
  obtain ⟨c, tail, rfl, hc, hescape⟩ := h
  exact ⟨c, tail ++ rest, rfl, hc, fun hslash => by simp [hescape hslash]⟩

theorem Begins.ne_backslash {text : Text} (h : Begins text) : text ≠ ['\\'] := by
  obtain ⟨c, rest, rfl, -, hescape⟩ := h
  rintro heq
  obtain ⟨rfl, rfl⟩ := List.cons.inj heq
  exact hescape rfl rfl

theorem Begins.ne_nil {text : Text} (h : Begins text) : text ≠ [] := by
  obtain ⟨c, rest, rfl, -⟩ := h
  exact List.cons_ne_nil c rest

theorem head?_append_congr {first second : Text} (h : first.head? = second.head?)
    (hne : second ≠ []) (rest other : Text) :
    (first ++ rest).head? = (second ++ other).head? := by
  obtain ⟨c, tail, rfl⟩ := List.exists_cons_of_ne_nil hne
  rw [List.head?_append, h]
  rfl

theorem Begins.head?_append {text : Text} (h : Begins text) (rest : Text) :
    (text ++ rest).head? = text.head? := by
  simpa using head?_append_congr rfl h.ne_nil rest []

theorem begins_name {name : Text} (h : IsName name) : Begins name := by
  obtain ⟨c, rest, rfl, hc⟩ := h.exists_cons
  refine ⟨c, rest, rfl, ?_, ?_⟩
  · rcases hc with hc | ⟨rfl, -⟩
    · simp [isStart, hc]
    · decide
  · rintro rfl
    rcases hc with hc | ⟨-, hrest⟩
    · exact absurd hc (by decide)
    · exact hrest

theorem begins_cons {c : Char} (hstart : isStart c = true) (hescape : c ≠ '\\') (rest : Text) :
    Begins (c :: rest) :=
  ⟨c, rest, rfl, hstart, fun h => absurd h hescape⟩

theorem begins_pseudo (head : Pseudo) : Begins head.render := by
  unfold Pseudo.render
  split <;> exact begins_cons (by decide) (by decide) _

theorem begins_attribute (condition : Attribute) : Begins condition.render := by
  unfold Attribute.render
  split <;> exact begins_cons (by decide) (by decide) _

namespace Formed

variable {tree : Selector}

theorem begins_simple (h : Formed .simple tree) : Begins tree.render := by
  cases h with
  | typeName hname => exact begins_name hname
  | universal => exact begins_cons (by decide) (by decide) _
  | nesting => exact begins_cons (by decide) (by decide) _
  | className => exact begins_cons (by decide) (by decide) _
  | idName => exact begins_cons (by decide) (by decide) _
  | attr => exact begins_attribute _
  | pseudo => exact begins_pseudo _
  | function => exact (begins_pseudo _).append _
  | query => exact (begins_pseudo _).append _

theorem begins_compound (h : Formed .compound tree) : Begins tree.render := by
  cases h with
  | @compound parts hne hparts =>
    obtain ⟨part, parts, rfl⟩ := List.exists_cons_of_ne_nil hne
    exact (hparts part List.mem_cons_self).begins_simple.append _

theorem begins_chain {tree : Selector} : Formed .chain tree → Begins tree.render
  | .start hcompound => hcompound.begins_compound
  | .complex hleft _ _ => by
    rw [render, List.append_assoc]
    exact hleft.begins_chain.append _

/-- A branch begins with a simple selector or with a combinator. -/
theorem exists_cons_branch {mode : Mode} (h : Formed (.branch mode) tree) :
    ∃ c rest, tree.render = c :: rest ∧ (isStart c = true ∨ Grammar.isCombinator c = true) := by
  cases h with
  | branch _ hchain =>
    obtain ⟨c, rest, hrender, hc, -⟩ := hchain.begins_chain
    exact ⟨c, rest, hrender, .inl hc⟩
  | relative hanchor _ =>
    cases hanchor with
    | intro hc _ => exact ⟨_, _, rfl, .inr hc⟩

theorem exists_cons_items {mode : Mode} {items : List Selector} (hne : items ≠ [])
    (h : ∀ item ∈ items, Formed (.branch mode) item) :
    ∃ c rest, renderItems items = c :: rest ∧
      (isStart c = true ∨ Grammar.isCombinator c = true) := by
  obtain ⟨item, items, rfl⟩ := List.exists_cons_of_ne_nil hne
  obtain ⟨c, rest, hrender, hc⟩ := (h item List.mem_cons_self).exists_cons_branch
  exact ⟨c, rest ++ renderMore items, by rw [renderItems_cons, hrender]; rfl, hc⟩

/-- The text of a whole selector is not empty and does not begin with a blank. -/
theorem exists_cons_whole {mode : Mode} (h : Formed (.whole mode) tree) :
    ∃ c rest, tree.render = c :: rest ∧ Text.isBlank c = false := by
  cases h with
  | whole hbranch htrimmed =>
    obtain ⟨c, rest, hrender, -⟩ := hbranch.exists_cons_branch
    exact ⟨c, rest, hrender, htrimmed c (by rw [hrender]; rfl)⟩
  | @list _ items hlength hitems htrimmed =>
    have hne : items ≠ [] := by
      rintro rfl
      simp at hlength
    obtain ⟨c, rest, hrender, -⟩ := exists_cons_items hne hitems
    exact ⟨c, rest, hrender, htrimmed c (by rw [hrender]; rfl)⟩

theorem isBlankText_render {mode : Mode} (h : Formed (.whole mode) tree) :
    tree.render.isBlankText = false := by
  obtain ⟨c, rest, hrender, hc⟩ := h.exists_cons_whole
  simp [Text.isBlankText, hrender, hc]

end Formed

/-! ## What the search for a closing parenthesis passes over -/

theorem passes_spaces {gap : Text} (h : ∀ c ∈ gap, Text.isSpace c = true) :
    Scan.Passes [')'] gap := by
  refine Scan.passes_of_forall fun c hc => ?_
  have hspace := h c hc
  simp only [Text.isSpace, Bool.or_eq_true, beq_iff_eq] at hspace
  rcases hspace with ((rfl | rfl) | rfl) | rfl <;> decide

theorem passes_mark {c : Char} (h : Scan.isOrdinary c = true ∧ c ∉ [')']) :
    Scan.Passes [')'] [c] :=
  Scan.passes_of_forall (List.forall_mem_singleton.2 h)

theorem passes_combinator {c : Char} (h : Grammar.isCombinator c = true) :
    Scan.Passes [')'] [c] := by
  refine passes_mark ?_
  simp only [Grammar.isCombinator, Bool.or_eq_true, beq_iff_eq] at h
  rcases h with (rfl | rfl) | rfl <;> decide

theorem passes_name {name : Text} (h : IsName name) : Scan.Passes [')'] name := by
  obtain ⟨-, _, hends⟩ := h
  exact Scan.passes_of_ends hends (by decide)

theorem IsLink.passes {combinator : Text} (h : IsLink combinator) :
    Scan.Passes [')'] combinator := by
  cases h with
  | explicit hgap hc hafter =>
    exact (passes_spaces hgap).append ((passes_combinator hc).append (passes_spaces hafter))
  | descendant _ hgap => exact passes_spaces hgap

theorem IsAnchor.passes {combinator : Text} (h : IsAnchor combinator) :
    Scan.Passes [')'] combinator := by
  cases h with
  | intro hc hafter => exact (passes_combinator hc).append (passes_spaces hafter)

theorem passes_pseudo {head : Pseudo} (h : IsName head.name) : Scan.Passes [')'] head.render := by
  have hcolon : Scan.Passes [')'] [':'] := passes_mark (by decide)
  unfold Pseudo.render
  split
  · exact hcolon.append (passes_name h)
  · exact hcolon.append (hcolon.append (passes_name h))

/-- Whether a condition is steady is a matter of its text as a lexeme. -/
theorem steady_iff_spelled {condition : Attribute} :
    condition.Steady ↔ Spelled condition.render (.leaf (.attr condition)) [] := by
  rw [Attribute.Steady, Grammar.simple_eq_read_iff]
  refine ⟨?_, .inl⟩
  rintro (hspelled | ⟨_, _, _, htree, -, -⟩)
  · exact hspelled
  · cases htree

instance (condition : Attribute) : Decidable condition.Steady :=
  let steady : Bool :=
    match Lexeme.read condition.render with
    | .read (.leaf (.attr other)) [] => other == condition
    | _ => false
  decidable_of_iff (steady = true) <| by
    rw [steady_iff_spelled, ← Lexeme.read_eq_read_iff]
    simp only [steady]
    split
    · next hread => simp [hread]
    · next hread => simpa using hread condition

instance (tree : Selector) : Decidable tree.Steady :=
  inferInstanceAs (Decidable (∀ condition ∈ tree.conditions, condition.Steady))

/-- The text of a steady condition is a group, and its content is read as the condition. -/
theorem exists_content_of_steady {condition : Attribute} (h : condition.Steady) :
    ∃ content, condition.render = '[' :: (content ++ [']']) ∧
      Scan.unnested [']'] (content ++ [']']) = .found ']' [] ∧
      Lexeme.attribute? content = .ok condition := by
  rw [steady_iff_spelled] at h
  generalize htext : condition.render = text at h
  cases h with
  | @attr content _ _ hfound hcondition => exact ⟨content, rfl, hfound, hcondition⟩

theorem passes_renderParts {parts : List Selector}
    (h : ∀ part ∈ parts, Scan.Passes [')'] part.render) :
    Scan.Passes [')'] (renderParts parts) := by
  induction parts with
  | nil => exact .nil _
  | cons part parts ih =>
    rw [List.forall_mem_cons] at h
    exact h.1.append (ih h.2)

theorem passes_renderItems {items : List Selector}
    (h : ∀ item ∈ items, Scan.Passes [')'] item.render) :
    Scan.Passes [')'] (renderItems items) := by
  induction items with
  | nil => exact .nil _
  | cons item items ih =>
    rw [List.forall_mem_cons] at h
    rw [renderItems_cons]
    refine h.1.append ?_
    cases items with
    | nil => exact .nil _
    | cons next items => exact (passes_mark (by decide)).append (ih h.2)

/-- The search for the closing parenthesis passes over the text of a tree. -/
theorem Formed.passes {level : Level} {tree : Selector} (h : Formed level tree) :
    Scan.Passes [')'] tree.render := by
  induction h with
  | typeName hname => exact passes_name hname
  | universal => exact passes_mark (by decide)
  | nesting => exact passes_mark (by decide)
  | className hname => exact (passes_mark (by decide)).append (passes_name hname)
  | idName hname => exact (passes_mark (by decide)).append (passes_name hname)
  | attr hsteady =>
    obtain ⟨content, hrender, hfound, -⟩ := exists_content_of_steady hsteady
    rw [render, hrender]
    exact Scan.passes_group (.inr ⟨rfl, rfl⟩) (by decide) hfound
  | pseudo hname => exact passes_pseudo hname
  | function hname hfound _ =>
    exact (passes_pseudo hname).append (Scan.passes_group (.inl ⟨rfl, rfl⟩) (by decide) hfound)
  | query _ hname _ _ ih =>
    have hfound := ih.unnested_append (List.mem_singleton.2 rfl) (by decide) []
    exact (passes_pseudo hname).append (Scan.passes_group (.inl ⟨rfl, rfl⟩) (by decide) hfound)
  | compound _ _ ih => exact passes_renderParts ih
  | start _ ih => exact ih
  | complex _ hlink _ ihleft ihright => exact (ihleft.append hlink.passes).append ihright
  | branch _ _ ih => exact ih
  | relative hanchor _ ih => exact hanchor.passes.append ih
  | whole _ _ ih => exact ih
  | list _ _ _ ih => exact passes_renderItems ih

end Selector

end ScopedCss
