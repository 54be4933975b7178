import ScopedCss.Text.Basic

/-!
# Paths of source files

A path is a text with slashes.  It is compared by components: a leading slash, a leading `.`, and
the segments in between that are neither empty nor `.`.  `below?` gives the part of a path below a
root, as it is written, without slashes and `.` segments at its two ends.
-/

namespace ScopedCss.SourcePath

/-- A component of a path. -/
inductive Component where
  | root
  | current
  | segment (name : Text)
deriving Repr, DecidableEq

/-- A segment, the text from it on, and the text behind the slash that ends it. -/
structure Segment where
  name : Text
  start : Text
  rest : Text
deriving Repr, DecidableEq

/-- The segment counts as a component. -/
def Segment.isComponent (segment : Segment) : Bool :=
  !segment.name.isEmpty && segment.name != ['.']

/-- The segments of a text, the empty ones included. -/
def segments (text : Text) : List Segment :=
  match text with
  | [] => []
  | c :: tail =>
    let name := (c :: tail).takeWhile (· != '/')
    let rest := ((c :: tail).dropWhile (· != '/')).drop 1
    ⟨name, c :: tail, rest⟩ :: segments rest
termination_by text.length
decreasing_by
  have hle := (List.dropWhile_sublist (l := c :: tail) (· != '/')).length_le
  simp only [List.length_drop, List.length_cons] at hle ⊢
  omega

/-- Splits the slash or the `.` component off the start of a path. -/
def anchor : Text → Option Component × Text × Text
  | '/' :: rest => (some .root, ['/'], rest)
  | ['.'] => (some .current, ['.'], [])
  | '.' :: '/' :: rest => (some .current, ['.'], '/' :: rest)
  | text => (none, [], text)

/-- The components of a path, each with the text that follows it. -/
def components (path : Text) : List (Component × Text) :=
  let (first, _, body) := anchor path
  let named := (segments body).filter Segment.isComponent
  (first.toList.map fun component => (component, body)) ++
    named.map fun segment => (.segment segment.name, segment.rest)

/-- The text from its first component on. -/
def trimStart (text : Text) : Text :=
  match (segments text).find? Segment.isComponent with
  | some segment => segment.start
  | none => []

/-- The text up to its last component. -/
def trimEnd (text : Text) : Text :=
  (trimStart text.reverse).reverse

/-- The part of `path` below `root`, if the components of `root` are the first ones of `path`.  The
empty root takes nothing away, so then only the end of the path is trimmed. -/
def below? (root path : Text) : Option Text :=
  let wanted := (components root).map Prod.fst
  let given := components path
  if wanted.isPrefixOf (given.map Prod.fst) then
    match (given.take wanted.length).getLast? with
    | some (_, rest) => some (trimEnd (trimStart rest))
    | none =>
      let (_, start, body) := anchor path
      some (start ++ trimEnd body)
  else none

end ScopedCss.SourcePath
