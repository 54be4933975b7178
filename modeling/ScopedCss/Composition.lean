import ScopedCss.Text.Blank
import ScopedCss.Text.Ident
import ScopedCss.Text.Quoted
import ScopedCss.Text.Scan

/-!
# Compositions

A `composes` declaration refers to a name: of the same style sheet, of the global scope
(`reset from global`), or of another style sheet (`title from "./type.css"`).  `Reference` is the
value as it is written; `Composition` is what is recorded for the class that composes.
-/

namespace ScopedCss

/-- Where a composed name comes from. -/
inductive Origin where
  | own
  | global
  | dependency (specifier : Text)
deriving Repr, DecidableEq

/-- The value of a `composes` declaration. -/
structure Reference where
  name : Text
  origin : Origin
deriving Repr, DecidableEq

namespace Reference

/-- The text behind at least one space. -/
def skipGap? (text : Text) : Option Text :=
  if text.leadingSpace.isEmpty then none else some text.skipSpace

/-- The specifier of a style sheet: a text in quotes that is not empty, and nothing behind it. -/
def specifier? : Text → Option Text
  | quote :: body =>
    if Scan.isQuote quote then
      match Text.splitFirst? quote body with
      | some (specifier, []) => if specifier.isEmpty then none else some specifier
      | _ => none
    else none
  | [] => none

/-- The origin that follows a composed name. -/
def origin? (tail : Text) : Option Origin :=
  if tail.isEmpty then some .own
  else do
    let word ← skipGap? tail
    let after ← "from".toList.isPrefixOf? word
    let source ← skipGap? after
    if source == "global".toList then return .global
    else return .dependency (← specifier? source)

/-- Reads the value of a `composes` declaration. -/
def parse? (value : Text) : Option Reference := do
  let (name, tail) ← Ident.read? value.trim
  return ⟨name, ← origin? tail⟩

end Reference

/-- A composed name, as it is recorded for the class that composes it. -/
inductive Composition where
  /-- A name of the same style sheet and its scoped name. -/
  | own (name localName : Text)
  | global (name : Text)
  /-- A name that another style sheet exports. -/
  | dependency (name specifier : Text)
deriving Repr, DecidableEq

namespace Composition

/-- The composed name. -/
def name : Composition → Text
  | .own name _ => name
  | .global name => name
  | .dependency name _ => name

/-- The composition as log lines show it. -/
def describe : Composition → Text
  | .own name localName =>
    "Local \x7b name: ".toList ++ name.quoted ++ ", local: ".toList ++ localName.quoted ++
      " \x7d".toList
  | .global name => "Global \x7b name: ".toList ++ name.quoted ++ " \x7d".toList
  | .dependency name specifier =>
    "Dependency \x7b name: ".toList ++ name.quoted ++ ", specifier: ".toList ++ specifier.quoted ++
      " \x7d".toList

end Composition

end ScopedCss
