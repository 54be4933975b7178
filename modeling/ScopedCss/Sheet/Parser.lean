import ScopedCss.Sheet.Basic
import ScopedCss.Sheet.Item

/-!
# Reading style sheets

The items of a source are read one after the other and put into a `Builder`, which holds the nodes
finished so far and the blocks that are still open.  The position of the text that is left to read
goes along.
-/

namespace ScopedCss.Sheet

/-- A block that is still open, and the nodes in front of it on its level, last first. -/
structure Frame where
  head : BlockHead
  earlier : List Node

/-- The nodes of the innermost open block, last first, and the open blocks, innermost first. -/
structure Builder where
  done : List Node
  frames : List Frame

namespace Builder

/-- Nothing has been read. -/
def empty : Builder := ⟨[], []⟩

/-- Some block is open. -/
def isNested (builder : Builder) : Bool :=
  !builder.frames.isEmpty

/-- Adds a finished node. -/
def push (builder : Builder) (node : Node) : Builder :=
  { builder with done := node :: builder.done }

/-- Opens a block. -/
def openBlock (builder : Builder) (head : BlockHead) : Builder :=
  ⟨[], ⟨head, builder.done⟩ :: builder.frames⟩

/-- Closes the innermost block, if there is one. -/
def close (builder : Builder) : Builder :=
  match builder.frames with
  | [] => builder
  | frame :: outer => ⟨frame.head.toNode builder.done.reverse :: frame.earlier, outer⟩

/-- Adds an item that begins at `position`. -/
def add (builder : Builder) (position : Position) : Item → Builder
  | .openRule selector => builder.openBlock (.rule ⟨selector, some position⟩)
  | .openBlock name params => builder.openBlock (.block ⟨name, params, some position⟩)
  | .close => builder.close
  | .semicolon => builder
  | .statement name params => builder.push (.statement ⟨name, params, some position⟩)
  | .declaration property value important =>
    builder.push (.declaration ⟨property, value, important, some position⟩)
  | .comment content => builder.push (.comment content (some position))

end Builder

/-- Reads all items of the text, which begins at `position`. -/
def readItems (builder : Builder) (position : Position) (text : Text) : Except Error Sheet :=
  let here := position.advance text.leadingSpace
  match _hstart : text.skipSpace with
  | [] => if builder.isNested then .error ⟨here, .unexpectedEnd⟩ else .ok builder.done.reverse
  | c :: tail =>
    match _hitem : Item.read builder.isNested (c :: tail) with
    | .error failure =>
      .error ⟨here.advance (Text.before (c :: tail) failure.rest), failure.cause⟩
    | .ok (item, rest) =>
      readItems (builder.add here item) (here.advance (Text.before (c :: tail) rest)) rest
termination_by text.length
decreasing_by
  have hlt := Item.length_lt_of_read_eq_ok _hitem
  have hle := Text.length_skipSpace_le text
  rw [_hstart] at hle
  omega

/-- Parses a style sheet. -/
def parse (source : Text) : Except Error Sheet :=
  readItems .empty .start source

end ScopedCss.Sheet
