import ScopedCss.Scoping.Walk
import ScopedCss.Selector.Parser

/-!
# Resolving `composes`

A `composes` declaration says that the classes and ids of its rule also stand for another name.  It
is recorded for each of them and taken out of the style sheet.  It may only stand directly in a
rule of the top level whose selector lists single classes and ids.
-/

namespace ScopedCss

/-- The declaration is a `composes` declaration. -/
def Declaration.isComposes (content : Declaration) : Bool :=
  content.property.eqIgnoringCase "composes".toList

/-- The property is `composes`, in letters of either case. -/
theorem Declaration.isComposes_iff {content : Declaration} :
    content.isComposes = true ↔ content.property.lower = "composes".toList := by
  have hlower : Text.lower "composes".toList = "composes".toList := by decide
  rw [isComposes, Text.eqIgnoringCase, beq_iff_eq, hlower]

namespace Scoping

/-- Where a declaration is. -/
def declarationLocation (content : Declaration) : Location :=
  ⟨content.position, content.property ++ ':' :: ' ' :: content.value⟩

/-- Where a rule is. -/
def ruleLocation (head : Rule) : Location :=
  ⟨head.position, head.selector⟩

/-- The name of a branch that is a single class or id. -/
def singleName? : Selector → Option Text
  | .compound [.className name] => some name
  | .compound [.idName name] => some name
  | _ => none

/-- The names of a rule that composes. -/
def targets (head : Rule) : Except Error (List Text) :=
  match Selector.parse .plain head.selector with
  | .error error => .error (.selectorParse error (ruleLocation head))
  | .ok selector =>
    match selector.branches.mapM singleName? with
    | some names => .ok names
    | none => .error (.complexSelector (ruleLocation head))

/-- The composition for a reference. -/
def resolve (namer : Namer) (reference : Reference) : ScopeM Composition := do
  match reference.origin with
  | .own => return .own reference.name (← localName namer reference.name)
  | .global => return .global reference.name
  | .dependency specifier => return .dependency reference.name specifier

/-- Records a `composes` declaration of the rule with the given head. -/
def recordComposes (namer : Namer) (head : Rule) (content : Declaration) : ScopeM Unit := do
  let names ← liftExcept (targets head)
  match Reference.parse? content.value with
  | none => throw (.invalidComposes (declarationLocation content))
  | some reference =>
    let composition ← resolve namer reference
    record .debug
      (", ".toList.intercalate names ++ " composes ".toList ++ composition.describe)
    names.forM fun name => compose namer name composition

/-- Records a `composes` declaration and takes it out. -/
def resolveComposes (namer : Namer) (above : List BlockHead) (content : Declaration) :
    ScopeM (Option Declaration) := do
  if content.isComposes then
    match above with
    | [.rule head] =>
      recordComposes namer head content
      return none
    | _ => throw (.nestedRule (declarationLocation content))
  else
    return some content

/-- Records all `composes` declarations and takes them out. -/
def composesPass (namer : Namer) : Visitor where
  declaration := resolveComposes namer

end Scoping

end ScopedCss
