import ScopedCss.Text.Basic

/-!
# Selectors

The tree of a selector follows how it is written, not what it matches.  Simple selectors stand in
compounds, compounds are joined into complex selectors by combinators, and complex selectors are
the branches of a list.  Nothing in the type forces these levels: a tree may be put together by
hand, and replacing a pseudo-class by its argument puts a whole selector where a simple one stood.

Main definitions:

* `Selector.render`: the text of a tree;
* `Selector.branches`: the selectors of a list;
* `Pseudo.takesSelector`: the pseudos whose argument is itself a selector.
-/

namespace ScopedCss

/-- Pseudo-classes have one colon, pseudo-elements two. -/
inductive PseudoKind where
  | pseudoClass
  | pseudoElement
deriving Repr, DecidableEq

/-- What a pseudo selector is called. -/
structure Pseudo where
  kind : PseudoKind
  name : Text
deriving Repr, DecidableEq

/-- The condition of an attribute selector on the value, such as `|="en"`.  The value keeps its
quotes and any flag behind them. -/
structure AttributeTest where
  operator : Text
  value : Text
deriving Repr, DecidableEq

/-- An attribute selector, such as `[href]` or `[lang|="en"]`. -/
structure Attribute where
  name : Text
  test : Option AttributeTest
deriving Repr, DecidableEq

/-- A selector. -/
inductive Selector where
  | typeName (name : Text)
  | universal
  | nesting
  | className (name : Text)
  | idName (name : Text)
  | attr (condition : Attribute)
  /-- A pseudo without parentheses. -/
  | pseudo (head : Pseudo)
  /-- A pseudo with an argument that is kept as text. -/
  | function (head : Pseudo) (argument : Text)
  /-- A pseudo with an argument that is a selector; `argument` is the text it was read from. -/
  | query (head : Pseudo) (argument : Text) (inner : Selector)
  /-- Simple selectors without anything between them. -/
  | compound (parts : List Selector)
  /-- Two selectors joined by a combinator, whose text includes the spaces around it. -/
  | complex (left : Selector) (combinator : Text) (right : Selector)
  | list (items : List Selector)
  /-- A selector behind a leading combinator, whose text includes the spaces after it. -/
  | relative (combinator : Text) (selector : Selector)

namespace Pseudo

/-- The pseudo-classes whose argument is a selector. -/
def selectorClasses : List Text :=
  ["local".toList, "global".toList, "not".toList, "is".toList, "where".toList, "has".toList,
    "matches".toList, "any".toList, "-webkit-any".toList, "-moz-any".toList, "host".toList,
    "host-context".toList]

/-- The pseudo-elements whose argument is a selector. -/
def selectorElements : List Text :=
  ["slotted".toList, "cue".toList]

/-- The argument of the pseudo is a selector.  Case does not matter in the name. -/
def takesSelector (head : Pseudo) : Bool :=
  match head.kind with
  | .pseudoClass => selectorClasses.contains head.name.lower
  | .pseudoElement => selectorElements.contains head.name.lower

/-- The branches of the argument may begin with a combinator, as in `:has(> img)`. -/
def takesRelative (head : Pseudo) : Bool :=
  head.kind == .pseudoClass && head.name.eqIgnoringCase "has".toList

/-- The pseudo without its argument. -/
def render (head : Pseudo) : Text :=
  match head.kind with
  | .pseudoClass => ':' :: head.name
  | .pseudoElement => ':' :: ':' :: head.name

end Pseudo

namespace Attribute

/-- The text of an attribute selector. -/
def render (condition : Attribute) : Text :=
  match condition.test with
  | none => '[' :: (condition.name ++ [']'])
  | some test => '[' :: (condition.name ++ test.operator ++ test.value ++ [']'])

end Attribute

namespace Selector

mutual

/-- The text of a selector.  A parsed argument is printed from its tree. -/
def render : Selector → Text
  | .typeName name => name
  | .universal => ['*']
  | .nesting => ['&']
  | .className name => '.' :: name
  | .idName name => '#' :: name
  | .attr condition => condition.render
  | .pseudo head => head.render
  | .function head argument => head.render ++ '(' :: (argument ++ [')'])
  | .query head _ inner => head.render ++ '(' :: (inner.render ++ [')'])
  | .compound parts => renderParts parts
  | .complex left combinator right => left.render ++ combinator ++ right.render
  | .list items => renderItems items
  | .relative combinator selector => combinator ++ selector.render

/-- The text of the parts of a compound. -/
def renderParts : List Selector → Text
  | [] => []
  | part :: parts => part.render ++ renderParts parts

/-- The text of the items of a list, with a comma between them. -/
def renderItems : List Selector → Text
  | [] => []
  | [item] => item.render
  | item :: items => item.render ++ ',' :: renderItems items

end

/-- The items of a list; any other selector is its only branch. -/
def branches : Selector → List Selector
  | .list items => items
  | selector => [selector]

theorem renderParts_eq_flatMap (parts : List Selector) :
    renderParts parts = parts.flatMap render := by
  induction parts with
  | nil => simp [renderParts]
  | cons part parts ih => simp [renderParts, ih]

theorem renderItems_eq_intercalate (items : List Selector) :
    renderItems items = [','].intercalate (items.map render) := by
  induction items with
  | nil => simp [renderItems]
  | cons item items ih =>
    cases items with
    | nil => simp [renderItems]
    | cons next items =>
      simp only [renderItems, List.map_cons] at ih ⊢
      rw [ih]
      simp [List.intercalate, List.intersperse]

end Selector

end ScopedCss
