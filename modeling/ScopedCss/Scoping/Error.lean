import ScopedCss.Position
import ScopedCss.Selector.Error

/-!
# Scoping errors
-/

namespace ScopedCss.Scoping

/-- Where an error is: the place of the node, if it has one, and its text. -/
structure Location where
  position : Option Position
  fragment : Text
deriving Repr, DecidableEq

/-- The wording of a location. -/
def Location.render (location : Location) : String :=
  let fragment := "`" ++ String.ofList location.fragment ++ "`"
  match location.position with
  | some position => fragment ++ " at " ++ position.render
  | none => fragment

/-- Why a style sheet cannot be scoped. -/
inductive Error where
  /-- A `composes` declaration that is not directly in a rule of the top level. -/
  | nestedRule (location : Location)
  /-- A `composes` declaration in a rule for something other than single classes and ids. -/
  | complexSelector (location : Location)
  /-- A `composes` declaration with a value that is no reference. -/
  | invalidComposes (location : Location)
  /-- A rule with a selector that cannot be read. -/
  | selectorParse (source : Selector.Error) (location : Location)
  /-- A `:local(...)` or `:global(...)` whose argument is not one selector. -/
  | invalidScopePseudo (pseudo : Text) (location : Location)
deriving Repr, DecidableEq

namespace Error

/-- Where the error is. -/
def location : Error → Location
  | .nestedRule location => location
  | .complexSelector location => location
  | .invalidComposes location => location
  | .selectorParse _ location => location
  | .invalidScopePseudo _ location => location

/-- The wording of an error. -/
def message : Error → String
  | .nestedRule location => "composition is not allowed in nested rules: " ++ location.render
  | .complexSelector location =>
    "composition is only allowed when the selector is a single class or id name: " ++
      location.render
  | .invalidComposes location => "invalid composes value: " ++ location.render
  | .selectorParse source location => source.message ++ " in " ++ location.render
  | .invalidScopePseudo pseudo location =>
    ":" ++ String.ofList pseudo ++ "(...) expected a single selector as argument: " ++
      location.render

end Error

end ScopedCss.Scoping
