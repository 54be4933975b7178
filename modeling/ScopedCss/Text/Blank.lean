import ScopedCss.Text.Basic

/-!
# Blanks

Two classes of white space.  `isBlank` is the Unicode property `White_Space`; it decides what
trimming removes and where words end.  `isSpace` is the four characters that may stand between
the parts of a style sheet or a selector.
-/

namespace ScopedCss.Text

/-- The characters with the Unicode property `White_Space`. -/
def isBlank (c : Char) : Bool :=
  let code := c.toNat
  (0x09 ≤ code && code ≤ 0x0D) || code == 0x20 || code == 0x85 || code == 0xA0 ||
    code == 0x1680 || (0x2000 ≤ code && code ≤ 0x200A) || code == 0x2028 || code == 0x2029 ||
    code == 0x202F || code == 0x205F || code == 0x3000

/-- Space, tab, line feed and carriage return. -/
def isSpace (c : Char) : Bool :=
  c == ' ' || c == '\t' || c == '\n' || c == '\r'

theorem isBlank_of_isSpace {c : Char} (h : isSpace c = true) : isBlank c = true := by
  simp only [isSpace, Bool.or_eq_true, beq_iff_eq] at h
  rcases h with ((rfl | rfl) | rfl) | rfl <;> decide

/-- The text without its leading blanks. -/
def trimStart (text : Text) : Text :=
  text.dropWhile isBlank

/-- The text without its trailing blanks. -/
def trimEnd (text : Text) : Text :=
  (text.reverse.dropWhile isBlank).reverse

/-- The text without the blanks at its two ends. -/
def trim (text : Text) : Text :=
  trimEnd (trimStart text)

/-- A text of blanks only. -/
def isBlankText (text : Text) : Bool :=
  text.all isBlank

/-- The maximal runs of characters that are no blanks. -/
def words (text : Text) : List Text :=
  (text.splitOnP isBlank).filter fun word => !word.isEmpty

/-- The spaces at the start of the text. -/
def leadingSpace (text : Text) : Text :=
  text.takeWhile isSpace

/-- The text behind its leading spaces. -/
def skipSpace (text : Text) : Text :=
  text.dropWhile isSpace

@[simp] theorem leadingSpace_append_skipSpace (text : Text) :
    leadingSpace text ++ skipSpace text = text :=
  List.takeWhile_append_dropWhile

theorem length_skipSpace_le (text : Text) : (skipSpace text).length ≤ text.length :=
  (List.dropWhile_sublist _).length_le

end ScopedCss.Text
