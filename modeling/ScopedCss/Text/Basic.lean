/-!
# Text

Source and output text is a list of characters, and a reader hands back the suffix of the text
that it left.  A place in a text is therefore a suffix; `offsetOf` turns a suffix into the number
of UTF-8 bytes in front of it, which is how places are reported.
-/

namespace ScopedCss

/-- A piece of source or output text. -/
abbrev Text := List Char

namespace Text

/-- The number of bytes that the text takes in UTF-8. -/
def byteSize : Text → Nat
  | [] => 0
  | c :: rest => c.utf8Size + byteSize rest

@[simp] theorem byteSize_nil : byteSize [] = 0 := rfl

@[simp] theorem byteSize_cons (c : Char) (rest : Text) :
    byteSize (c :: rest) = c.utf8Size + byteSize rest := rfl

@[simp] theorem byteSize_append (first second : Text) :
    byteSize (first ++ second) = byteSize first + byteSize second := by
  induction first with
  | nil => simp
  | cons c first ih => simp [ih, Nat.add_assoc]

/-- The part of `text` in front of its suffix `rest`. -/
def before (text rest : Text) : Text :=
  text.take (text.length - rest.length)

@[simp] theorem before_append (consumed rest : Text) :
    before (consumed ++ rest) rest = consumed := by
  simp [before]

/-- The byte offset at which the suffix `rest` of `text` begins. -/
def offsetOf (text rest : Text) : Nat :=
  text.byteSize - rest.byteSize

@[simp] theorem offsetOf_append (consumed rest : Text) :
    offsetOf (consumed ++ rest) rest = consumed.byteSize := by
  simp [offsetOf]

/-- The longest start of the text that takes at most `size` bytes. -/
def takeBytes (size : Nat) : Text → Text
  | [] => []
  | c :: rest => if c.utf8Size ≤ size then c :: takeBytes (size - c.utf8Size) rest else []

/-- The text with its ASCII letters in lower case. -/
def lower (text : Text) : Text :=
  text.map Char.toLower

/-- Equality up to the case of ASCII letters. -/
def eqIgnoringCase (first second : Text) : Bool :=
  first.lower == second.lower

/-- The text in front of the first `mark` and the text behind it. -/
def splitFirst? (mark : Char) : Text → Option (Text × Text)
  | [] => none
  | c :: rest =>
    if c = mark then some ([], rest)
    else (splitFirst? mark rest).map fun (front, back) => (c :: front, back)

theorem splitFirst?_append {mark : Char} {front : Text} (h : mark ∉ front) (back : Text) :
    splitFirst? mark (front ++ mark :: back) = some (front, back) := by
  induction front with
  | nil => simp [splitFirst?]
  | cons c front ih =>
    rw [List.mem_cons, not_or] at h
    rw [List.cons_append, splitFirst?, if_neg (Ne.symm h.1), ih h.2]
    rfl

theorem splitFirst?_eq_none {mark : Char} {text : Text} (h : mark ∉ text) :
    splitFirst? mark text = none := by
  induction text with
  | nil => rfl
  | cons c text ih =>
    rw [List.mem_cons, not_or] at h
    rw [splitFirst?, if_neg (Ne.symm h.1), ih h.2]
    rfl

theorem append_of_splitFirst?_eq_some {mark : Char} {text front back : Text}
    (h : splitFirst? mark text = some (front, back)) :
    text = front ++ mark :: back ∧ mark ∉ front := by
  induction text generalizing front with
  | nil => simp [splitFirst?] at h
  | cons c text ih =>
    rw [splitFirst?] at h
    split at h
    · next hc =>
      obtain ⟨rfl, rfl⟩ := Prod.mk.inj (Option.some.inj h)
      exact ⟨by rw [hc, List.nil_append], List.not_mem_nil⟩
    · next hc =>
      obtain ⟨⟨inner, rest⟩, hinner, heq⟩ := Option.map_eq_some_iff.1 h
      obtain ⟨rfl, rfl⟩ := Prod.mk.inj heq
      obtain ⟨rfl, hmark⟩ := ih hinner
      exact ⟨rfl, by simp [hmark, Ne.symm hc]⟩

/-- The text in front of the last `mark` and the text behind it. -/
def splitLast? (mark : Char) : Text → Option (Text × Text)
  | [] => none
  | c :: rest =>
    match splitLast? mark rest with
    | some (front, back) => some (c :: front, back)
    | none => if c = mark then some ([], rest) else none

theorem append_of_splitLast?_eq_some {mark : Char} {text front back : Text}
    (h : splitLast? mark text = some (front, back)) : text = front ++ mark :: back := by
  induction text generalizing front with
  | nil => simp [splitLast?] at h
  | cons c text ih =>
    rw [splitLast?] at h
    split at h
    · next inner rest hinner =>
      obtain ⟨rfl, rfl⟩ := Prod.mk.inj (Option.some.inj h)
      rw [ih hinner, List.cons_append]
    · split at h
      · next hc =>
        obtain ⟨rfl, rfl⟩ := Prod.mk.inj (Option.some.inj h)
        rw [hc, List.nil_append]
      · simp at h

theorem splitLast?_eq_none {mark : Char} {text : Text} (h : mark ∉ text) :
    splitLast? mark text = none := by
  induction text with
  | nil => rfl
  | cons c text ih =>
    rw [List.mem_cons, not_or] at h
    rw [splitLast?, ih h.2]
    exact if_neg (Ne.symm h.1)

theorem splitLast?_append {mark : Char} {back : Text} (h : mark ∉ back) (front : Text) :
    splitLast? mark (front ++ mark :: back) = some (front, back) := by
  induction front with
  | nil =>
    rw [List.nil_append, splitLast?, splitLast?_eq_none h]
    exact if_pos rfl
  | cons c front ih => rw [List.cons_append, splitLast?, ih]

end Text

end ScopedCss
