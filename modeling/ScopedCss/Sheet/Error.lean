import ScopedCss.Position

/-!
# Style sheet errors
-/

namespace ScopedCss.Sheet

/-- What is wrong with a style sheet text. -/
inductive Cause where
  | unexpectedEnd
  | unexpectedClose
  | unterminatedComment
  | expectedAtName
  | unbalanced
  | expectedSelector
  | expectedBlock
  | expectedColon
  | invalidProperty (property : Text)
deriving Repr, DecidableEq

/-- The wording of a cause. -/
def Cause.message : Cause → String
  | .unexpectedEnd => "unexpected end of input, expected `\x7d`"
  | .unexpectedClose => "unexpected `\x7d`"
  | .unterminatedComment => "unterminated comment"
  | .expectedAtName => "expected at-rule name after `@`"
  | .unbalanced => "unbalanced brackets or unterminated string"
  | .expectedSelector => "expected a selector before `\x7b`"
  | .expectedBlock => "expected `\x7b` after selector"
  | .expectedColon => "expected `:` in declaration"
  | .invalidProperty property => "invalid property name `" ++ String.ofList property ++ "`"

/-- A failure at a suffix of the text that is being read. -/
structure Failure where
  cause : Cause
  rest : Text
deriving Repr, DecidableEq

/-- Why and where a style sheet text was refused. -/
structure Error where
  position : Position
  cause : Cause
deriving Repr, DecidableEq

/-- The wording of an error. -/
def Error.message (error : Error) : String :=
  s!"CSS syntax error at {error.position.render}: {error.cause.message}"

end ScopedCss.Sheet
