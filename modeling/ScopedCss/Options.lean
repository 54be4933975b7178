import ScopedCss.Naming
import ScopedCss.SourcePath
import ScopedCss.Text.Quoted

/-!
# Options

`Options` is what a run needs to know: how names are made, and the root that file paths are taken
relative to.  `Config` is the part of it that can be written in a settings file.
-/

namespace ScopedCss

/-- The options of a run. -/
structure Options where
  generator : Generator
  root : Option Text

namespace Options

/-- The standard strategy and no root. -/
def standard : Options := ⟨Strategy.standard.generate, none⟩

/-- The path that the generator gets for a file: relative to the root, if the file is below it, and
with slashes for backslashes. -/
def generatorPath (options : Options) (path : Text) : Text :=
  let relative := (options.root.bind fun root => SourcePath.below? root path).getD path
  relative.map fun c => if c = '\\' then '/' else c

/-- The options as log lines show them.  A generator has no text of its own. -/
def describe (options : Options) : String :=
  let root :=
    match options.root with
    | some root => "Some(" ++ String.ofList root.quoted ++ ")"
    | none => "None"
  "ScopeOptions \x7b generate_scoped_name: \"<generator>\", root: " ++ root ++ " \x7d"

end Options

/-- The settings that choose a strategy and a root. -/
structure Config where
  strategy : Strategy := .standard
  root : Option Text := none
deriving Repr, DecidableEq

/-- The options for a configuration. -/
def Config.toOptions (config : Config) : Options :=
  ⟨config.strategy.generate, config.root⟩

end ScopedCss
