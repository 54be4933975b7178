import ScopedCss.Scoping.Run
import ScopedCss.Sheet.Parser
import ScopedCss.Sheet.Printer

/-!
# Processing a source

`process` reads a style sheet, scopes it and prints it.
-/

namespace ScopedCss

/-- A scoped style sheet as text, with the export records. -/
structure Processed where
  css : Text
  exports : List ExportRecord
deriving Repr, DecidableEq

/-- Why a source cannot be processed. -/
inductive ProcessError where
  | syntaxError (error : Sheet.Error)
  | scopingError (error : Scoping.Error)
deriving Repr, DecidableEq

/-- The wording of an error. -/
def ProcessError.message : ProcessError → String
  | .syntaxError error => "CSS parse error: " ++ error.message
  | .scopingError error => "Scoping error: " ++ error.message

/-- Reads, scopes and prints a style sheet; also gives the journal of the run. -/
def process (source : Text) (path : Option Text) (options : Options) :
    Except ProcessError Processed × List Scoping.Record :=
  match Sheet.parse source with
  | .error error => (.error (.syntaxError error), [])
  | .ok sheet =>
    let report := Scoping.run options path ⟨sheet, []⟩
    match report.failure with
    | some error => (.error (.scopingError error), report.journal)
    | none =>
      let scopedSheet := report.document.sheet
      let line : Scoping.Record :=
        ⟨.info, "processed ".toList ++ Scoping.fileLabel path ++ " (".toList ++
          Nat.toDigits 10 scopedSheet.length ++ " nodes)".toList⟩
      (.ok ⟨scopedSheet.print, report.document.exports⟩, report.journal ++ [line])

end ScopedCss
