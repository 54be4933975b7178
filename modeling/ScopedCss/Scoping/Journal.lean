import ScopedCss.Text.Basic

/-!
# The journal

What a run did, one record for each step that is worth telling.
-/

namespace ScopedCss.Scoping

/-- How much detail a record belongs to. -/
inductive Level where
  | info
  | debug
  | trace
deriving Repr, DecidableEq

namespace Level

/-- The level in capitals. -/
def word : Level → Text
  | .info => "INFO".toList
  | .debug => "DEBUG".toList
  | .trace => "TRACE".toList

/-- The more detail, the higher. -/
def rank : Level → Nat
  | .info => 0
  | .debug => 1
  | .trace => 2

end Level

/-- A line of the journal. -/
structure Record where
  level : Level
  message : Text
deriving Repr, DecidableEq

namespace Record

/-- The line with its level in front. -/
def render (line : Record) : Text :=
  line.level.word ++ ' ' :: line.message

/-- The records that are shown at a level: those of this level and of less detail. -/
def shownAt (level : Level) (lines : List Record) : List Record :=
  lines.filter fun line => line.level.rank ≤ level.rank

end Record

/-- How the journal names a file: by its path, if it has one. -/
def fileLabel (path : Option Text) : Text :=
  path.getD "<anonymous>".toList

end ScopedCss.Scoping
