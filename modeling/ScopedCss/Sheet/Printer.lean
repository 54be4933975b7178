import ScopedCss.Sheet.Basic

/-!
# Printing style sheets

Every node takes at least one line and is indented by two spaces a level.
-/

namespace ScopedCss

namespace AtRule

/-- The at-rule up to its block or its semicolon. -/
def print (head : AtRule) : Text :=
  if head.params.isEmpty then '@' :: head.name
  else '@' :: (head.name ++ ' ' :: head.params)

end AtRule

namespace Declaration

/-- The declaration up to its semicolon. -/
def print (content : Declaration) : Text :=
  content.property ++ ':' :: ' ' :: content.value ++
    if content.important then " !important".toList else []

end Declaration

namespace Node

/-- The spaces in front of a node at the given depth. -/
def indent (depth : Nat) : Text :=
  List.replicate (2 * depth) ' '

/-- A block behind its head: `inside` are the printed nodes of `body`. -/
def printBlock (depth : Nat) (body : List Node) (inside : Text) : Text :=
  if body.isEmpty then [' ', '{', '}', '\n']
  else ' ' :: '{' :: '\n' :: (inside ++ indent depth ++ ['}', '\n'])

mutual

/-- The text of a node at the given depth. -/
def print (depth : Nat) : Node → Text
  | .rule head body =>
    indent depth ++ head.selector ++ printBlock depth body (printAll (depth + 1) body)
  | .block head body =>
    indent depth ++ head.print ++ printBlock depth body (printAll (depth + 1) body)
  | .statement head => indent depth ++ head.print ++ [';', '\n']
  | .declaration content => indent depth ++ content.print ++ [';', '\n']
  | .comment content _ => indent depth ++ '/' :: '*' :: (content ++ ['*', '/', '\n'])

/-- The text of nodes at the given depth. -/
def printAll (depth : Nat) : List Node → Text
  | [] => []
  | node :: nodes => node.print depth ++ printAll depth nodes

end

end Node

/-- The text of a style sheet. -/
def Sheet.print (sheet : Sheet) : Text :=
  Node.printAll 0 sheet

theorem Node.printAll_eq_flatMap (depth : Nat) (nodes : List Node) :
    printAll depth nodes = nodes.flatMap (Node.print depth) := by
  induction nodes with
  | nil => simp [printAll]
  | cons node nodes ih => simp [printAll, ih]

end ScopedCss
