import ScopedCss.Options
import ScopedCss.Scoping.Animation
import ScopedCss.Scoping.Composes
import ScopedCss.Scoping.Keyframes
import ScopedCss.Scoping.Selectors

/-!
# A run over a style sheet

A run makes four passes over a style sheet: names of keyframes, `composes` declarations, names of
animations, selectors.  Every pass sees the names that the passes before it referred to.  At the
end the registry becomes the export record of the run.
-/

namespace ScopedCss

/-- What a run exports: the names of the style sheet with their entries, in the order in which they
were first referred to. -/
structure ExportRecord where
  locals : List (Text × Entry)
deriving Repr, DecidableEq

namespace ExportRecord

/-- The scoped name of an exported name. -/
def localName? (exports : ExportRecord) (name : Text) : Option Text :=
  (exports.locals.lookup name).map Entry.localName

/-- What an exported name composes. -/
def composes (exports : ExportRecord) (name : Text) : List Composition :=
  match exports.locals.lookup name with
  | some entry => entry.composes
  | none => []

end ExportRecord

/-- A style sheet and the export records of the runs over it. -/
structure Document where
  sheet : Sheet
  exports : List ExportRecord

/-- No nodes, and no runs so far. -/
def Document.empty : Document := ⟨[], []⟩

namespace Scoping

/-- The names that the generator of the options makes for a file. -/
def namerFor (options : Options) (path : Option Text) : Namer :=
  let generatorPath := path.map options.generatorPath
  fun name index => options.generator name generatorPath index

/-- The passes of a run, in order. -/
def passes (namer : Namer) : List Visitor :=
  [keyframesPass namer, composesPass namer, animationPass namer, selectorsPass namer]

/-- Makes the passes over a style sheet. -/
def scopeSheet (namer : Namer) (sheet : Sheet) : StateM Progress Sheet :=
  (passes namer).foldlM (fun sheet pass => pass.sheet sheet) sheet

/-- What a run leaves behind. -/
structure Report where
  document : Document
  failure : Option Error
  journal : List Record

/-- Scopes the style sheet of a document.  A run that succeeds adds its export record; a run that
fails leaves the style sheet as far as it was scoped. -/
def run (options : Options) (path : Option Text) (document : Document) : Report :=
  let (sheet, progress) := scopeSheet (namerFor options path) document.sheet .start
  let registry := progress.state.registry
  let journal := progress.state.journal.reverse
  match progress.failure with
  | some error => ⟨⟨sheet, document.exports⟩, some error, journal⟩
  | none =>
    let line : Record :=
      ⟨.debug, "scoped ".toList ++ Nat.toDigits 10 registry.size ++ " local names in ".toList ++
        fileLabel path⟩
    ⟨⟨sheet, document.exports ++ [⟨registry.entries⟩]⟩, none, journal ++ [line]⟩

end Scoping

end ScopedCss
