import ScopedCss.Text.Basic
import ScopedCss.Text.Blank
import ScopedCss.Text.Ident
import ScopedCss.Text.Scan
import ScopedCss.Position
import ScopedCss.Selector.Basic
import ScopedCss.Selector.Error
import ScopedCss.Selector.Lexeme
import ScopedCss.Selector.Grammar
import ScopedCss.Selector.Parser
import ScopedCss.Sheet.Basic
import ScopedCss.Sheet.Printer
import ScopedCss.Sheet.Error
import ScopedCss.Sheet.Item
import ScopedCss.Sheet.Parser
import ScopedCss.Composition
import ScopedCss.Digest.Base64Url
import ScopedCss.Digest.Md5
import ScopedCss.Naming
import ScopedCss.Options
import ScopedCss.Registry
import ScopedCss.SourcePath
import ScopedCss.Text.Quoted
import ScopedCss.Process
import ScopedCss.Scoping.Animation
import ScopedCss.Scoping.Composes
import ScopedCss.Scoping.Error
import ScopedCss.Scoping.Journal
import ScopedCss.Scoping.Keyframes
import ScopedCss.Scoping.Monad
import ScopedCss.Scoping.Run
import ScopedCss.Scoping.Selectors
import ScopedCss.Scoping.Walk
import ScopedCss.Text.Unseen
import ScopedCss.Proofs.Identifiers
import ScopedCss.Proofs.Scanning
import ScopedCss.Proofs.Blanks
import ScopedCss.Proofs.TrimmedTexts
import ScopedCss.Proofs.SearchGrammar
import ScopedCss.Proofs.IdentifierSearch
import ScopedCss.Proofs.RegistryUses
import ScopedCss.Proofs.RegistrySessions
import ScopedCss.Proofs.Steps
import ScopedCss.Proofs.Walks
import ScopedCss.Proofs.StoppedWalks
import ScopedCss.Proofs.SelectorScoping
import ScopedCss.Proofs.References
import ScopedCss.Proofs.Substitution
import ScopedCss.Proofs.Faults
import ScopedCss.Proofs.Passes
import ScopedCss.Proofs.Runs
import ScopedCss.Proofs.RelocatedFiles
import ScopedCss.Proofs.FailedRuns
import ScopedCss.Proofs.Exports
import ScopedCss.Proofs.Collisions
import ScopedCss.Proofs.Admission
import ScopedCss.Proofs.Compositions
import ScopedCss.Proofs.Reordering
import ScopedCss.Proofs.SelectorLayout
import ScopedCss.Proofs.Lexemes
import ScopedCss.Proofs.SelectorReading
import ScopedCss.Proofs.SelectorPrinting
import ScopedCss.Proofs.SelectorRenaming
import ScopedCss.Proofs.SelectorSplicing
import ScopedCss.Proofs.SheetItems
import ScopedCss.Proofs.ItemSpelling
import ScopedCss.Proofs.SheetPrinting
import ScopedCss.Proofs.ParsedSheets
import ScopedCss.Proofs.StablePrinting
import ScopedCss.Proofs.SourcePositions
import ScopedCss.Proofs.SheetConcatenation
import ScopedCss.Proofs.Attributes
import ScopedCss.Proofs.SelectorDerivations
import ScopedCss.Proofs.SelectorSource
import ScopedCss.Proofs.SelectorShape
import ScopedCss.Proofs.ClosedGaps
import ScopedCss.Proofs.AttributePrinting
import ScopedCss.Proofs.SelectorErrors
import ScopedCss.Proofs.JoinedSelectors
import ScopedCss.Proofs.CompositionGrammar
