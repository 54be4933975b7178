import ScopedCss.Proofs.Steps
import ScopedCss.Scoping.Selectors

/-!
# The scoping of one selector

The names of a selector are registered while its tree is rebuilt.  Here the same is said in three
separate functions of the tree, none of which knows a registry:

* `Selector.localNames`: the names that are looked up, in the order in which they are;
* `Selector.substitute`: the tree that is built, for a given renaming;
* `Selector.subtrees` and `Selector.badScope?`: where `:local(...)` and `:global(...)` are wrong.

`scopeTree_stops` and `scopeTree_yields` say that scoping a tree is no more than these.
-/

namespace ScopedCss

open Registry (Use Agrees)

namespace Selector

mutual

/-- The classes and ids outside every `:global(...)`, from left to right. -/
def localNames : Selector → List Text
  | .typeName _ => []
  | .universal => []
  | .nesting => []
  | .className name => [name]
  | .idName name => [name]
  | .attr _ => []
  | .pseudo _ => []
  | .function _ _ => []
  | .query head _ inner => if head.isGlobal then [] else inner.localNames
  | .compound parts => localNamesAll parts
  | .complex left _ right => left.localNames ++ right.localNames
  | .list items => localNamesAll items
  | .relative _ selector => selector.localNames

/-- The classes and ids of selectors outside every `:global(...)`, from left to right. -/
def localNamesAll : List Selector → List Text
  | [] => []
  | first :: rest => first.localNames ++ localNamesAll rest

end

mutual

/-- The selector with every `:local(X)` and `:global(X)` replaced by `X`, and with every class and
id outside `:global(...)` renamed. -/
def substitute (rename : Text → Text) : Selector → Selector
  | .typeName name => .typeName name
  | .universal => .universal
  | .nesting => .nesting
  | .className name => .className (rename name)
  | .idName name => .idName (rename name)
  | .attr condition => .attr condition
  | .pseudo head => .pseudo head
  | .function head argument => .function head argument
  | .query head argument inner =>
    if head.isGlobal then inner.substitute id
    else if head.isScope then inner.substitute rename
    else .query head argument (inner.substitute rename)
  | .compound parts => .compound (substituteAll rename parts)
  | .complex left combinator right =>
    .complex (left.substitute rename) combinator (right.substitute rename)
  | .list items => .list (substituteAll rename items)
  | .relative combinator selector => .relative combinator (selector.substitute rename)

/-- The selectors, each with its names renamed. -/
def substituteAll (rename : Text → Text) : List Selector → List Selector
  | [] => []
  | first :: rest => first.substitute rename :: substituteAll rename rest

end

mutual

/-- The tree and all trees inside it, from the outside in and from left to right. -/
def subtrees : Selector → List Selector
  | .typeName name => [.typeName name]
  | .universal => [.universal]
  | .nesting => [.nesting]
  | .className name => [.className name]
  | .idName name => [.idName name]
  | .attr condition => [.attr condition]
  | .pseudo head => [.pseudo head]
  | .function head argument => [.function head argument]
  | .query head argument inner => .query head argument inner :: inner.subtrees
  | .compound parts => .compound parts :: subtreesAll parts
  | .complex left combinator right =>
    .complex left combinator right :: (left.subtrees ++ right.subtrees)
  | .list items => .list items :: subtreesAll items
  | .relative combinator selector => .relative combinator selector :: selector.subtrees

/-- The trees of selectors and all trees inside them. -/
def subtreesAll : List Selector → List Selector
  | [] => []
  | first :: rest => first.subtrees ++ subtreesAll rest

end

/-- The pseudo of a `:local(...)` or `:global(...)` that does not have one selector for its
argument. -/
def badScope? : Selector → Option Pseudo
  | .function head argument => if head.isScope && !argument.isEmpty then some head else none
  | .query head _ inner => if head.isScope && inner.isList then some head else none
  | _ => none

/-- The first `:local(...)` or `:global(...)` of the tree that is wrong. -/
def firstBadScope? (tree : Selector) : Option Pseudo :=
  (tree.subtrees.filterMap badScope?).head?

/-- The first `:local(...)` or `:global(...)` of the trees that is wrong. -/
def firstBadScopeOf? (trees : List Selector) : Option Pseudo :=
  ((subtreesAll trees).filterMap badScope?).head?

end Selector

theorem Pseudo.isGlobal_eq_false_of_isScope_eq_false {head : Pseudo} (h : head.isScope = false) :
    head.isGlobal = false := by
  rw [Pseudo.isScope, Bool.or_eq_false_iff] at h
  exact h.1

namespace Scoping

open Selector (firstBadScope? firstBadScopeOf?)

variable {namer : Namer} {rename : Text → Text} {location : Location}

/-! ## Failures -/

section Faults

/-- The error for the first wrong `:local(...)` or `:global(...)`. -/
def scopeFault (location : Location) (pseudo : Option Pseudo) : Option Error :=
  pseudo.map fun head => scopePseudoError head location

theorem scopeFault_or (first second : Option Pseudo) :
    scopeFault location (first.or second) =
      (scopeFault location first).or (scopeFault location second) := by
  cases first <;> rfl

/-- A wrong pseudo comes before everything inside it. -/
theorem head?_filterMap_cons (tree : Selector) (inside : List Selector) :
    ((tree :: inside).filterMap Selector.badScope?).head? =
      (Selector.badScope? tree).or (inside.filterMap Selector.badScope?).head? := by
  cases h : Selector.badScope? tree with
  | none => rw [List.filterMap_cons_none h, Option.none_or]
  | some head => rw [List.filterMap_cons_some h, List.head?_cons, Option.some_or]

mutual

/-- Scoping a tree fails at its first wrong `:local(...)` or `:global(...)`. -/
theorem scopeTree_stops (unscoped : Bool) : (tree : Selector) →
    Stops (scopeTree namer location unscoped tree) (scopeFault location (firstBadScope? tree))
  | .typeName _ => Stops.pure _
  | .universal => Stops.pure _
  | .nesting => Stops.pure _
  | .className name => by
    rw [scopeTree]
    cases unscoped with
    | true => exact Stops.pure _
    | false => exact Stops.bind_left (Stops.localName namer name) fun _ => Stops.pure _
  | .idName name => by
    rw [scopeTree]
    cases unscoped with
    | true => exact Stops.pure _
    | false => exact Stops.bind_left (Stops.localName namer name) fun _ => Stops.pure _
  | .attr _ => Stops.pure _
  | .pseudo _ => Stops.pure _
  | .function head argument => by
    rw [scopeTree, firstBadScope?, Selector.subtrees, head?_filterMap_cons, Selector.badScope?]
    cases head.isScope && !argument.isEmpty with
    | true => exact Stops.throw _
    | false => exact Stops.pure _
  | .query head argument inner => by
    rw [scopeTree, firstBadScope?, Selector.subtrees, head?_filterMap_cons, Selector.badScope?]
    cases hscope : head.isScope with
    | true =>
      cases hlist : inner.isList with
      | true => exact Stops.throw _
      | false => exact scopeTree_stops (unscoped || head.isGlobal) inner
    | false => exact Stops.bind_left (scopeTree_stops unscoped inner) fun _ => Stops.pure _
  | .compound parts => by
    rw [scopeTree, firstBadScope?, Selector.subtrees, head?_filterMap_cons]
    exact Stops.bind_left (scopeTrees_stops unscoped parts) fun _ => Stops.pure _
  | .complex left combinator right => by
    have hhead : Selector.badScope? (.complex left combinator right) = none := rfl
    rw [scopeTree, firstBadScope?, Selector.subtrees, head?_filterMap_cons, hhead, Option.none_or,
      List.filterMap_append, List.head?_append, scopeFault_or]
    refine Stops.bind (scopeTree_stops unscoped left) fun _ => ?_
    exact Stops.bind_left (scopeTree_stops unscoped right) fun _ => Stops.pure _
  | .list items => by
    rw [scopeTree, firstBadScope?, Selector.subtrees, head?_filterMap_cons]
    exact Stops.bind_left (scopeTrees_stops unscoped items) fun _ => Stops.pure _
  | .relative combinator selector => by
    rw [scopeTree, firstBadScope?, Selector.subtrees, head?_filterMap_cons]
    exact Stops.bind_left (scopeTree_stops unscoped selector) fun _ => Stops.pure _

/-- Scoping trees fails at the first wrong `:local(...)` or `:global(...)` of all of them. -/
theorem scopeTrees_stops (unscoped : Bool) : (trees : List Selector) →
    Stops (scopeTrees namer location unscoped trees) (scopeFault location (firstBadScopeOf? trees))
  | [] => Stops.pure _
  | first :: rest => by
    rw [scopeTrees, firstBadScopeOf?, Selector.subtreesAll, List.filterMap_append,
      List.head?_append, scopeFault_or]
    refine Stops.bind (scopeTree_stops unscoped first) fun _ => ?_
    exact Stops.bind_left (scopeTrees_stops unscoped rest) fun _ => Stops.pure _

end

end Faults

/-! ## Results -/

section Results

/-- The renaming inside a selector: none inside `:global(...)`. -/
def renameIn (unscoped : Bool) (rename : Text → Text) : Text → Text :=
  if unscoped then id else rename

/-- The references that scoping makes for names: none inside `:global(...)`. -/
def referIn (unscoped : Bool) (names : List Text) : List Use :=
  if unscoped then [] else names.map .refer

theorem referIn_append (unscoped : Bool) (first second : List Text) :
    referIn unscoped (first ++ second) = referIn unscoped first ++ referIn unscoped second := by
  cases unscoped <;> simp [referIn]

theorem referIn_nil (unscoped : Bool) : referIn unscoped [] = [] := by
  cases unscoped <;> rfl

theorem badScope_query {head : Pseudo} {argument : Text} {inner : Selector}
    (h : (Selector.query head argument inner).subtrees.filterMap Selector.badScope? = []) :
    (head.isScope = true → inner.isList = false) ∧
      inner.subtrees.filterMap Selector.badScope? = [] := by
  rw [Selector.subtrees, List.filterMap_cons] at h
  cases hbad : Selector.badScope? (.query head argument inner) with
  | some pseudo => simp [hbad] at h
  | none =>
    rw [hbad] at h
    refine ⟨fun hscope => ?_, h⟩
    simpa [Selector.badScope?, hscope] using hbad

theorem localName_yields {before : List Use} {name : Text}
    (hagrees : Agrees namer rename (before ++ [.refer name])) :
    Yields namer (localName namer name) before (rename name) [.refer name] := by
  rw [hagrees name (by simp)]
  exact Yields.localName name

mutual

/-- Scoping a tree without a wrong `:local(...)` or `:global(...)` refers to its names and
substitutes their scoped names. -/
theorem scopeTree_yields (unscoped : Bool) (before : List Use) : (tree : Selector) →
    Agrees namer rename (before ++ referIn unscoped tree.localNames) →
    tree.subtrees.filterMap Selector.badScope? = [] →
    Yields namer (scopeTree namer location unscoped tree) before
      (tree.substitute (renameIn unscoped rename)) (referIn unscoped tree.localNames)
  | .typeName _, _, _ => by
    cases unscoped <;> exact Yields.pure _
  | .universal, _, _ => by
    cases unscoped <;> exact Yields.pure _
  | .nesting, _, _ => by
    cases unscoped <;> exact Yields.pure _
  | .className name, hagrees, _ => by
    rw [scopeTree]
    cases unscoped with
    | true => exact Yields.pure _
    | false => exact Yields.map _ (localName_yields hagrees)
  | .idName name, hagrees, _ => by
    rw [scopeTree]
    cases unscoped with
    | true => exact Yields.pure _
    | false => exact Yields.map _ (localName_yields hagrees)
  | .attr _, _, _ => by
    cases unscoped <;> exact Yields.pure _
  | .pseudo _, _, _ => by
    cases unscoped <;> exact Yields.pure _
  | .function head argument, _, hbad => by
    have hhead : (head.isScope && !argument.isEmpty) = false := by
      by_contra htrue
      rw [Bool.not_eq_false] at htrue
      simp [Selector.subtrees, Selector.badScope?, htrue] at hbad
    rw [scopeTree, hhead]
    cases unscoped <;> exact Yields.pure _
  | .query head argument inner, hagrees, hbad => by
    obtain ⟨hlist, hinner⟩ := badScope_query hbad
    rw [Selector.localNames] at hagrees ⊢
    rw [scopeTree, Selector.substitute]
    cases hscope : head.isScope with
    | false =>
      rw [Pseudo.isGlobal_eq_false_of_isScope_eq_false hscope] at hagrees ⊢
      exact Yields.map _ (scopeTree_yields unscoped before inner hagrees hinner)
    | true =>
      rw [hlist hscope]
      cases hglobal : head.isGlobal with
      | false =>
        rw [hglobal] at hagrees
        rw [Bool.or_false]
        exact scopeTree_yields unscoped before inner hagrees hinner
      | true =>
        -- Inside `:global(...)` no name is looked up, whatever stands around it.
        simp only [Bool.or_true, Bool.false_eq_true, ↓reduceIte, referIn_nil]
        refine scopeTree_yields true before inner ?_ hinner
        rw [referIn, if_pos rfl, List.append_nil]
        exact Agrees.of_append hagrees
  | .compound parts, hagrees, hbad => by
    rw [scopeTree, Selector.substitute, Selector.localNames]
    exact Yields.map _ (scopeTrees_yields unscoped before parts hagrees hbad)
  | .complex left combinator right, hagrees, hbad => by
    rw [Selector.localNames, referIn_append] at hagrees ⊢
    rw [Selector.subtrees, List.filterMap_cons_none rfl, List.filterMap_append,
      List.append_eq_nil_iff] at hbad
    have hleft := scopeTree_yields unscoped before left
      (Agrees.of_append (by rwa [← List.append_assoc] at hagrees)) hbad.1
    have hright := scopeTree_yields unscoped (before ++ referIn unscoped left.localNames) right
      (by rwa [List.append_assoc]) hbad.2
    exact hleft.bind (hright.map _)
  | .list items, hagrees, hbad => by
    rw [scopeTree, Selector.substitute, Selector.localNames]
    exact Yields.map _ (scopeTrees_yields unscoped before items hagrees hbad)
  | .relative combinator selector, hagrees, hbad => by
    rw [scopeTree, Selector.substitute, Selector.localNames]
    exact Yields.map _ (scopeTree_yields unscoped before selector hagrees hbad)

/-- Scoping trees refers to their names from left to right. -/
theorem scopeTrees_yields (unscoped : Bool) (before : List Use) : (trees : List Selector) →
    Agrees namer rename (before ++ referIn unscoped (Selector.localNamesAll trees)) →
    (Selector.subtreesAll trees).filterMap Selector.badScope? = [] →
    Yields namer (scopeTrees namer location unscoped trees) before
      (Selector.substituteAll (renameIn unscoped rename) trees)
      (referIn unscoped (Selector.localNamesAll trees))
  | [], _, _ => by
    cases unscoped <;> exact Yields.pure _
  | first :: rest, hagrees, hbad => by
    rw [Selector.localNamesAll, referIn_append] at hagrees ⊢
    rw [Selector.subtreesAll, List.filterMap_append, List.append_eq_nil_iff] at hbad
    have hfirst := scopeTree_yields unscoped before first
      (Agrees.of_append (by rwa [← List.append_assoc] at hagrees)) hbad.1
    have hrest := scopeTrees_yields unscoped (before ++ referIn unscoped first.localNames) rest
      (by rwa [List.append_assoc]) hbad.2
    exact hfirst.bind (hrest.map _)

end

end Results

end Scoping

end ScopedCss
