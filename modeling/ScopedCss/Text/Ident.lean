import ScopedCss.Text.Basic

/-!
# Identifiers

An identifier is a run of identifier characters and escapes.  An escape is a backslash with
either one to six hexadecimal digits and an optional terminator, or any single character.  The
spelling is kept: `sm\:flex` and `\31 0` are identifiers of eight and five characters.
-/

namespace ScopedCss.Ident

/-- ASCII letters and digits, `-`, `_` and every character outside ASCII. -/
def isIdentChar (c : Char) : Bool :=
  c.isAlphanum || c == '-' || c == '_' || 0x80 ≤ c.toNat

/-- The hexadecimal digits in either case. -/
def isHexDigit (c : Char) : Bool :=
  c.isDigit || ('a' ≤ c && c ≤ 'f') || ('A' ≤ c && c ≤ 'F')

/-- The length of the white space that ends a hexadecimal escape. -/
def terminatorLength : Text → Nat
  | '\r' :: '\n' :: _ => 2
  | c :: _ => if c == ' ' || c == '\t' || c == '\n' || c == '\r' || c == '\x0c' then 1 else 0
  | [] => 0

/-- The length of the escape whose backslash stands in front of the text. -/
def escapeLength (text : Text) : Nat :=
  match ((text.take 6).takeWhile isHexDigit).length with
  | 0 => 1
  | digits => digits + terminatorLength (text.drop digits)

/-- Splits off the longest run of identifier characters and escapes.  A backslash that ends the
text escapes nothing and stays in the rest. -/
def span (text : Text) : Text × Text :=
  match text with
  | [] => ([], [])
  | [c] => if isIdentChar c then ([c], []) else ([], [c])
  | c :: next :: rest =>
    if c = '\\' then
      let size := escapeLength (next :: rest)
      let (name, after) := span ((next :: rest).drop size)
      (c :: ((next :: rest).take size ++ name), after)
    else if isIdentChar c then
      let (name, after) := span (next :: rest)
      (c :: name, after)
    else ([], c :: next :: rest)
termination_by text.length
decreasing_by all_goals simp; try omega

/-- Reads the identifier at the start of the text and gives it with the rest of the text. -/
def read? (text : Text) : Option (Text × Text) :=
  match span text with
  | ([], _) => none
  | (name, rest) => some (name, rest)

/-- The whole text is one identifier. -/
def isIdent (text : Text) : Bool :=
  read? text == some (text, [])

theorem span_append (text : Text) : (span text).1 ++ (span text).2 = text := by
  fun_induction span text with
  | case1 => rfl
  | case2 => simp
  | case3 => simp
  | case4 next rest size name after hspan ih =>
    simp only [hspan] at ih
    simp [ih, size]
  | case5 c next rest hslash hchar name after hspan ih =>
    simp only [hspan] at ih
    simp [ih]
  | case6 => simp

/-- An identifier and the rest make up the text. -/
theorem append_of_read?_eq_some {text name rest : Text} (h : read? text = some (name, rest)) :
    text = name ++ rest := by
  have hsplit := span_append text
  simp only [read?] at h
  split at h
  · simp at h
  · next hspan =>
    simp only [Option.some.injEq, Prod.mk.injEq] at h
    rw [hspan, h.1, h.2] at hsplit
    exact hsplit.symm

theorem ne_nil_of_read?_eq_some {text name rest : Text} (h : read? text = some (name, rest)) :
    name ≠ [] := by
  simp only [read?] at h
  split at h
  · simp at h
  · next hne _ =>
    simp only [Option.some.injEq, Prod.mk.injEq] at h
    exact fun hnil => hne (h.1.trans hnil)

/-- Reading an identifier uses up text. -/
theorem length_lt_of_read?_eq_some {text name rest : Text} (h : read? text = some (name, rest)) :
    rest.length < text.length := by
  have hpos : 0 < name.length := List.length_pos_iff.2 (ne_nil_of_read?_eq_some h)
  rw [append_of_read?_eq_some h, List.length_append]
  omega

end ScopedCss.Ident
