import ScopedCss.Proofs.SelectorScoping
import ScopedCss.Proofs.Walks
import ScopedCss.Scoping.Animation
import ScopedCss.Scoping.Composes

/-!
# The names that a style sheet refers to

A style sheet refers to names in four ways: keyframes declare one, a `composes` declaration has a
composed name and its targets, `animation-name` has one for its value, and the selectors of rules
have classes and ids.  Every site has at most one of these kinds; `Sheet.references` puts the names
of a whole style sheet into the order in which a run looks them up, one kind after the other.
-/

namespace ScopedCss

open Registry (Use)

/-! ## Names of keyframes and animations -/

/-- The name that keyframes declare, if it is not blank. -/
def AtRule.keyframesName? (head : AtRule) : Option Text :=
  if head.isKeyframes && !head.params.trim.isEmpty then some head.params.trim else none

/-- The name that an `animation-name` declaration has for its value, if it is not blank. -/
def Declaration.animationName? (content : Declaration) : Option Text :=
  match Scoping.animationProperty? content.property with
  | some .name => if content.value.trim.isEmpty then none else some content.value.trim
  | _ => none

/-- No animation property is called `composes`. -/
theorem Declaration.animationProperty?_of_isComposes {content : Declaration}
    (h : content.isComposes = true) : Scoping.animationProperty? content.property = none := by
  rw [Scoping.animationProperty?, isComposes_iff.1 h]
  decide

theorem Declaration.animationName?_of_isComposes {content : Declaration}
    (h : content.isComposes = true) : content.animationName? = none := by
  rw [animationName?, animationProperty?_of_isComposes h]

/-! ## Compositions -/

/-- The name of the same style sheet that a reference composes. -/
def Reference.ownName? (reference : Reference) : Option Text :=
  match reference.origin with
  | .own => some reference.name
  | _ => none

/-- The composition for a reference. -/
def Reference.composition (rename : Text → Text) (reference : Reference) : Composition :=
  match reference.origin with
  | .own => .own reference.name (rename reference.name)
  | .global => .global reference.name
  | .dependency specifier => .dependency reference.name specifier

/-- The branches of the selector of a rule; there are none if it cannot be read. -/
def Rule.branches (head : Rule) : List Selector :=
  match Selector.parse .plain head.selector with
  | .ok tree => tree.branches
  | .error _ => []

/-- The names of the branches that are a single class or id. -/
def Rule.targetNames (head : Rule) : List Text :=
  head.branches.filterMap Scoping.singleName?

/-! ## The names at a site -/

namespace Site

/-- The name that keyframes declare at the site. -/
def keyframesName? : Site → Option Text
  | .atRule head => head.keyframesName?
  | _ => none

/-- The rule and the reference of a `composes` declaration that stands directly in a rule of the top
level. -/
def composes? : Site → Option (Rule × Reference)
  | .declaration [.rule head] content =>
    if content.isComposes then (Reference.parse? content.value).map (head, ·) else none
  | _ => none

/-- The value of an `animation-name` declaration at the site. -/
def animationName? : Site → Option Text
  | .declaration _ content => content.animationName?
  | _ => none

/-- The selector of a rule at the site that is for elements, if it can be read. -/
def selector? : Site → Option Selector
  | .rule above head =>
    if Scoping.insideKeyframes above then none
    else (Selector.parse (Scoping.selectorMode above) head.selector).toOption
  | _ => none

end Site

/-- The names of a `composes` declaration: the composed one, if it is of the same style sheet, and
the targets. -/
def composesNames (pair : Rule × Reference) : List Text :=
  pair.2.ownName?.toList ++ pair.1.targetNames

namespace Sheet

/-- The names that keyframes declare. -/
def keyframesNames (sheet : Sheet) : List Text :=
  sheet.sites.filterMap Site.keyframesName?

/-- The `composes` declarations, each as its rule and its reference. -/
def compositions (sheet : Sheet) : List (Rule × Reference) :=
  sheet.sites.filterMap Site.composes?

/-- The values of `animation-name` declarations. -/
def animationNames (sheet : Sheet) : List Text :=
  sheet.sites.filterMap Site.animationName?

/-- The selectors of all rules that are for elements. -/
def selectors (sheet : Sheet) : List Selector :=
  sheet.sites.filterMap Site.selector?

/-- All names that the style sheet refers to: those of keyframes, of `composes` declarations, of
animations and of selectors, each kind in document order. -/
def references (sheet : Sheet) : List Text :=
  sheet.keyframesNames ++ sheet.compositions.flatMap composesNames ++ sheet.animationNames ++
    sheet.selectors.flatMap Selector.localNames

end Sheet

end ScopedCss
