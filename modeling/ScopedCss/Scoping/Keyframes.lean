import ScopedCss.Scoping.Walk
import ScopedCss.Text.Blank

/-!
# Names of keyframes

`@keyframes` names an animation; the name is scoped like a class.
-/

namespace ScopedCss.Scoping

/-- Scopes the name of a keyframes at-rule, if it has one. -/
def scopeKeyframes (namer : Namer) (head : AtRule) : ScopeM AtRule := do
  let name := head.params.trim
  if head.isKeyframes && !name.isEmpty then
    let scopedName ← localName namer name
    record .trace ('@' :: (head.name ++ ' ' :: name ++ " -> ".toList ++ scopedName))
    return { head with params := scopedName }
  else
    return head

/-- Scopes the names of all keyframes. -/
def keyframesPass (namer : Namer) : Visitor where
  atRule := scopeKeyframes namer

end ScopedCss.Scoping
