import ScopedCss.Scoping.Monad
import ScopedCss.Sheet.Basic

/-!
# Walks over a style sheet

A walk visits every node of a style sheet in document order, a head before its body, and puts what
the visitor makes of it in its place.  When a visit fails, the node that was visited and all nodes
after it stay as they are, so what a failed walk leaves is the visited part followed by the rest.
-/

namespace ScopedCss.Scoping

/-- How far a run has come: its state, and the error that stopped it, if one did. -/
structure Progress where
  state : State
  failure : Option Error
deriving Repr, DecidableEq

/-- The start of a run. -/
def Progress.start : Progress := ⟨.empty, none⟩

/-- Takes a step unless the run was stopped.  A step that fails stops the run; `kept` stands for
the result of a step that failed or was not taken. -/
def attempt {α : Type} (step : ScopeM α) (kept : α) : StateM Progress α := fun progress =>
  match progress.failure with
  | some _ => (kept, progress)
  | none =>
    match step progress.state with
    | (.ok value, state) => (value, ⟨state, none⟩)
    | (.error error, state) => (kept, ⟨state, some error⟩)

/-- Nothing happens after a failure. -/
theorem attempt_of_failure {α : Type} {progress : Progress} {error : Error} (step : ScopeM α)
    (kept : α) (h : progress.failure = some error) :
    attempt step kept progress = (kept, progress) := by
  simp [attempt, h]

/-- What a walk makes of the heads and the declarations of a style sheet.  The list holds the heads
around a node as they were before the walk, innermost first.  A declaration may be taken out. -/
structure Visitor where
  rule : List BlockHead → Rule → ScopeM Rule := fun _ head => pure head
  atRule : AtRule → ScopeM AtRule := pure
  declaration : List BlockHead → Declaration → ScopeM (Option Declaration) :=
    fun _ content => pure (some content)

namespace Visitor

mutual

/-- Visits a node and the nodes in it; gives no node if it was taken out. -/
def node (visitor : Visitor) (above : List BlockHead) : Node → StateM Progress (List Node)
  | .rule head body => do
    let visited ← attempt (visitor.rule above head) head
    let body ← visitor.nodes (.rule head :: above) body
    return [.rule visited body]
  | .block head body => do
    let visited ← attempt (visitor.atRule head) head
    let body ← visitor.nodes (.block head :: above) body
    return [.block visited body]
  | .statement head => do
    let head ← attempt (visitor.atRule head) head
    return [.statement head]
  | .declaration content => do
    let content ← attempt (visitor.declaration above content) (some content)
    return content.toList.map .declaration
  | .comment content position => return [.comment content position]

/-- Visits nodes one after the other. -/
def nodes (visitor : Visitor) (above : List BlockHead) : List Node → StateM Progress (List Node)
  | [] => return []
  | first :: rest => do
    let first ← visitor.node above first
    let rest ← visitor.nodes above rest
    return first ++ rest

end

theorem nodes_cons (visitor : Visitor) (above : List BlockHead) (first : Node) (rest : List Node)
    (progress : Progress) :
    visitor.nodes above (first :: rest) progress =
      let front := visitor.node above first progress
      let back := visitor.nodes above rest front.2
      (front.1 ++ back.1, back.2) := rfl

/-- Visits a whole style sheet. -/
def sheet (visitor : Visitor) (sheet : Sheet) : StateM Progress Sheet :=
  visitor.nodes [] sheet

end Visitor

end ScopedCss.Scoping
