import ScopedCss.Text.Basic

/-!
# Selector errors

While a selector is read, a failure is a place in the text that is being read.  An argument of a
pseudo is read as a text of its own, so a failure inside it records the rest of that argument and,
apart from it, the text beyond; both together are the place in the text around the argument.
-/

namespace ScopedCss.Selector

/-- What is wrong with a selector text. -/
inductive Cause where
  | expectedIdentifier
  | expectedSelector
  | expectedAfterCombinator
  | expectedAfterComma
  | unbalancedParentheses
  | unterminatedAttribute
  | malformedAttribute
  | expectedAttributeName
  | unexpected (c : Char)
deriving Repr, DecidableEq

/-- The wording of a cause. -/
def Cause.message : Cause → String
  | .expectedIdentifier => "expected an identifier"
  | .expectedSelector => "expected a selector"
  | .expectedAfterCombinator => "expected a selector after combinator"
  | .expectedAfterComma => "expected a selector after `,`"
  | .unbalancedParentheses => "unbalanced parentheses"
  | .unterminatedAttribute => "unterminated attribute selector"
  | .malformedAttribute => "malformed attribute selector"
  | .expectedAttributeName => "expected attribute name"
  | .unexpected c => s!"unexpected `{c}`"

/-- A failure at a suffix of the text that is being read.  `rest` is that suffix up to the end of
the outermost argument around the failure, and `beyond` is what follows that argument. -/
structure Failure where
  cause : Cause
  rest : Text
  beyond : Text
deriving Repr, DecidableEq

namespace Failure

/-- A failure outside every argument. -/
def here (cause : Cause) (rest : Text) : Failure :=
  ⟨cause, rest, []⟩

/-- The whole text from the failure on. -/
def tail (failure : Failure) : Text :=
  failure.rest ++ failure.beyond

/-- A failure of an argument, seen from the text around it.  `after` is the text behind the
closing parenthesis. -/
def enclose (failure : Failure) (after : Text) : Failure :=
  ⟨failure.cause, failure.tail, ')' :: after⟩

end Failure

/-- Why and at which byte offset a selector text was refused. -/
structure Error where
  offset : Nat
  cause : Cause
deriving Repr, DecidableEq

/-- The wording of an error. -/
def Error.message (error : Error) : String :=
  s!"invalid selector at offset {error.offset}: {error.cause.message}"

/-- The error for a failure while `source` was read. -/
def Failure.toError (source : Text) (failure : Failure) : Error :=
  ⟨source.offsetOf failure.tail, failure.cause⟩

/-- The reply of a reader: a value with the rest of the text, nothing of this kind at the start of
the text, or a failure after a part of it was read. -/
inductive Reply (α : Type) where
  | read (value : α) (rest : Text)
  | absent
  | failed (failure : Failure)

end ScopedCss.Selector
