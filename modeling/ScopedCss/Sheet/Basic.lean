import ScopedCss.Position

/-!
# Style sheets

A style sheet is a list of nodes.  Style rules and at-rules with a block have nodes of their own.
A node that was read from a source remembers where it began; a node made by hand does not.
-/

namespace ScopedCss

/-- The head of a style rule: its selector, as text. -/
structure Rule where
  selector : Text
  position : Option Position
deriving Repr, DecidableEq

/-- The head of an at-rule: `@name params`. -/
structure AtRule where
  name : Text
  params : Text
  position : Option Position
deriving Repr, DecidableEq

/-- A declaration: `property: value`, possibly with `!important`. -/
structure Declaration where
  property : Text
  value : Text
  important : Bool
  position : Option Position
deriving Repr, DecidableEq

/-- A node of a style sheet. -/
inductive Node where
  | rule (head : Rule) (body : List Node)
  /-- An at-rule with a block, such as `@media`. -/
  | block (head : AtRule) (body : List Node)
  /-- An at-rule without a block, such as `@import`. -/
  | statement (head : AtRule)
  | declaration (content : Declaration)
  /-- A comment, without its delimiters. -/
  | comment (content : Text) (position : Option Position)

/-- The head of a node that has a body. -/
inductive BlockHead where
  | rule (head : Rule)
  | block (head : AtRule)
deriving Repr, DecidableEq

/-- The node with the given head and body. -/
def BlockHead.toNode (head : BlockHead) (body : List Node) : Node :=
  match head with
  | .rule head => .rule head body
  | .block head => .block head body

/-- A style sheet. -/
abbrev Sheet := List Node

/-- The at-rule is `@keyframes` or a vendor's spelling of it, such as `@-webkit-keyframes`. -/
def AtRule.isKeyframes (head : AtRule) : Bool :=
  match head.name.lower with
  | '-' :: vendored =>
    match Text.splitFirst? '-' vendored with
    | some (_, name) => name == "keyframes".toList
    | none => false
  | name => name == "keyframes".toList

/-- Keyframes have their name in letters of either case, alone or behind the prefix of a vendor,
which may be empty. -/
theorem AtRule.isKeyframes_iff {head : AtRule} :
    head.isKeyframes = true ↔
      head.name.lower = "keyframes".toList ∨
        ∃ vendor, '-' ∉ vendor ∧
          head.name.lower = '-' :: (vendor ++ '-' :: "keyframes".toList) := by
  unfold isKeyframes
  constructor
  · intro h
    split at h
    · next vendored hlower =>
      split at h
      · next vendor name hsplit =>
        obtain ⟨rfl, hdash⟩ := Text.append_of_splitFirst?_eq_some hsplit
        rw [beq_iff_eq] at h
        exact .inr ⟨vendor, hdash, by rw [hlower, h]⟩
      · cases h
    · exact .inl (beq_iff_eq.1 h)
  · rintro (hlower | ⟨vendor, hdash, hlower⟩)
    · rw [hlower]
      decide
    · simp only [hlower, Text.splitFirst?_append hdash, beq_self_eq_true]

/-- The declarations among `nodes`, without those inside their blocks. -/
def Node.declarations (nodes : List Node) : List Declaration :=
  nodes.filterMap fun
    | .declaration content => some content
    | _ => none

end ScopedCss
