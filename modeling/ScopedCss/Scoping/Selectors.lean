import ScopedCss.Scoping.Walk
import ScopedCss.Selector.Parser

/-!
# Scoping selectors

The classes and ids of every rule are scoped.  `:global(X)` stands for `X` with its names left as
they are, and `:local(X)` for `X`; both are replaced by their argument.  The rules directly inside
keyframes are not for elements and stay as they are.
-/

namespace ScopedCss

/-- The pseudo-class `:global`. -/
def Pseudo.isGlobal (head : Pseudo) : Bool :=
  head.kind == .pseudoClass && head.name.eqIgnoringCase "global".toList

/-- The pseudo-classes `:local` and `:global`. -/
def Pseudo.isScope (head : Pseudo) : Bool :=
  head.isGlobal || (head.kind == .pseudoClass && head.name.eqIgnoringCase "local".toList)

/-- The selector is a list. -/
def Selector.isList : Selector → Bool
  | .list _ => true
  | _ => false

namespace Scoping

/-- The error for a `:local` or `:global` without a single selector. -/
def scopePseudoError (head : Pseudo) (location : Location) : Error :=
  .invalidScopePseudo head.name.lower location

mutual

/-- Scopes the names of a selector.  `unscoped` is set inside `:global(...)`. -/
def scopeTree (namer : Namer) (location : Location) (unscoped : Bool) :
    Selector → ScopeM Selector
  | .typeName name => return .typeName name
  | .universal => return .universal
  | .nesting => return .nesting
  | .className name =>
    if unscoped then return .className name else return .className (← localName namer name)
  | .idName name =>
    if unscoped then return .idName name else return .idName (← localName namer name)
  | .attr condition => return .attr condition
  | .pseudo head => return .pseudo head
  | .function head argument =>
    if head.isScope && !argument.isEmpty then throw (scopePseudoError head location)
    else return .function head argument
  | .query head argument inner =>
    if head.isScope then
      if inner.isList then throw (scopePseudoError head location)
      else scopeTree namer location (unscoped || head.isGlobal) inner
    else return .query head argument (← scopeTree namer location unscoped inner)
  | .compound parts => return .compound (← scopeTrees namer location unscoped parts)
  | .complex left combinator right => do
    let left ← scopeTree namer location unscoped left
    let right ← scopeTree namer location unscoped right
    return .complex left combinator right
  | .list items => return .list (← scopeTrees namer location unscoped items)
  | .relative combinator selector =>
    return .relative combinator (← scopeTree namer location unscoped selector)

/-- Scopes the names of selectors, from left to right. -/
def scopeTrees (namer : Namer) (location : Location) (unscoped : Bool) :
    List Selector → ScopeM (List Selector)
  | [] => return []
  | first :: rest => do
    let first ← scopeTree namer location unscoped first
    let rest ← scopeTrees namer location unscoped rest
    return first :: rest

end

/-- Scopes the selector of a rule. -/
def scopeRule (namer : Namer) (mode : Selector.Mode) (head : Rule) : ScopeM Rule := do
  let location : Location := ⟨head.position, head.selector⟩
  match Selector.parse mode head.selector with
  | .error error => throw (.selectorParse error location)
  | .ok selector =>
    let scopedSelector ← scopeTree namer location false selector
    let text := scopedSelector.render
    record .trace (head.selector ++ " -> ".toList ++ text)
    return { head with selector := text }

/-- The node stands directly inside keyframes. -/
def insideKeyframes : List BlockHead → Bool
  | .block head :: _ => head.isKeyframes
  | _ => false

/-- The innermost block around the node is a block of keyframes. -/
theorem insideKeyframes_iff {above : List BlockHead} :
    insideKeyframes above = true ↔
      ∃ head outer, above = .block head :: outer ∧ head.isKeyframes = true := by
  constructor
  · intro h
    unfold insideKeyframes at h
    split at h
    · next head outer => exact ⟨head, outer, rfl, h⟩
    · cases h
  · rintro ⟨head, outer, rfl, hkeyframes⟩
    exact hkeyframes

/-- Below another rule, a selector may begin with a combinator. -/
def selectorMode (above : List BlockHead) : Selector.Mode :=
  if above.any fun head => head matches .rule _ then .relative else .plain

/-- Scopes the selector of a rule unless it stands directly inside keyframes. -/
def scopeSelector (namer : Namer) (above : List BlockHead) (head : Rule) : ScopeM Rule :=
  if insideKeyframes above then return head
  else scopeRule namer (selectorMode above) head

/-- Scopes the selectors of all rules. -/
def selectorsPass (namer : Namer) : Visitor where
  rule := scopeSelector namer

end Scoping

end ScopedCss
