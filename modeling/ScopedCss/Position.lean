import ScopedCss.Text.Basic

/-!
# Source positions

A position is carried along while text is read: `Position.advance` moves it over the text that
was consumed.  `Position.ofOffset` gives the position of a byte offset from scratch.
-/

namespace ScopedCss

/-- A place in a source text.  Lines and columns count from one, columns in characters and
offsets in bytes. -/
structure Position where
  offset : Nat
  line : Nat
  column : Nat
deriving Repr, DecidableEq

namespace Position

/-- The place in front of the first character. -/
def start : Position := ⟨0, 1, 1⟩

/-- The place behind the character `c`. -/
def next (position : Position) (c : Char) : Position :=
  if c = '\n' then ⟨position.offset + c.utf8Size, position.line + 1, 1⟩
  else ⟨position.offset + c.utf8Size, position.line, position.column + 1⟩

/-- The place behind the text `consumed`. -/
def advance (position : Position) (consumed : Text) : Position :=
  consumed.foldl next position

@[simp] theorem advance_nil (position : Position) : position.advance [] = position := rfl

@[simp] theorem advance_append (position : Position) (first second : Text) :
    position.advance (first ++ second) = (position.advance first).advance second := by
  simp [advance]

@[simp] theorem offset_advance (position : Position) (consumed : Text) :
    (position.advance consumed).offset = position.offset + consumed.byteSize := by
  induction consumed generalizing position with
  | nil => rfl
  | cons c consumed ih =>
    have hnext : (position.next c).offset = position.offset + c.utf8Size := by
      unfold next
      split <;> rfl
    have := ih (position.next c)
    simp only [advance, List.foldl_cons] at this ⊢
    rw [this, hnext, Text.byteSize_cons]
    omega

/-- The place of a byte offset in `source`; an offset past the end stands for the end. -/
def ofOffset (source : Text) (offset : Nat) : Position :=
  start.advance (source.takeBytes offset)

/-- The line and the column, as messages show them. -/
def render (position : Position) : String :=
  s!"{position.line}:{position.column}"

end Position

end ScopedCss
