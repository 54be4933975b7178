import ScopedCss.Text.Basic

/-!
# Base64 for file names and URLs

Three bytes become four characters of an alphabet of letters, digits, `-` and `_`.  There is no
padding: one or two bytes at the end become two or three characters.
-/

namespace ScopedCss.Base64Url

/-- The sixty-four characters, in order. -/
def alphabet : Text :=
  "ABCDEFGHIJKLMNOPQRSTUVWXYZabcdefghijklmnopqrstuvwxyz0123456789-_".toList

/-- The character for the lowest six bits of a number. -/
def character (value : Nat) : Char :=
  alphabet.getD (value % 64) 'A'

/-- The text of a byte sequence. -/
def encode : List UInt8 → Text
  | b0 :: b1 :: b2 :: rest =>
    character (b0.toNat / 4) :: character (b0.toNat * 16 + b1.toNat / 16) ::
      character (b1.toNat * 4 + b2.toNat / 64) :: character b2.toNat :: encode rest
  | [b0, b1] =>
    [character (b0.toNat / 4), character (b0.toNat * 16 + b1.toNat / 16),
      character (b1.toNat * 4)]
  | [b0] => [character (b0.toNat / 4), character (b0.toNat * 16)]
  | [] => []

theorem character_mem_alphabet (value : Nat) : character value ∈ alphabet := by
  have hlength : alphabet.length = 64 := by decide
  have hlt : value % 64 < alphabet.length := hlength ▸ Nat.mod_lt value (by decide)
  rw [character, List.getD_eq_getElem?_getD, List.getElem?_eq_getElem hlt]
  exact List.getElem_mem hlt

/-- The characters of an encoded text belong to the alphabet. -/
theorem mem_alphabet_of_mem_encode {bytes : List UInt8} {c : Char} (h : c ∈ encode bytes) :
    c ∈ alphabet := by
  fun_induction encode bytes with
  | case1 b0 b1 b2 rest ih =>
    simp only [List.mem_cons] at h
    rcases h with rfl | rfl | rfl | rfl | h
    · exact character_mem_alphabet _
    · exact character_mem_alphabet _
    · exact character_mem_alphabet _
    · exact character_mem_alphabet _
    · exact ih h
  | case2 b0 b1 =>
    simp only [List.mem_cons, List.not_mem_nil, or_false] at h
    rcases h with rfl | rfl | rfl <;> exact character_mem_alphabet _
  | case3 b0 =>
    simp only [List.mem_cons, List.not_mem_nil, or_false] at h
    rcases h with rfl | rfl <;> exact character_mem_alphabet _
  | case4 => simp at h

/-- Every six bits take one character. -/
theorem length_encode (bytes : List UInt8) :
    (encode bytes).length = (4 * bytes.length + 2) / 3 := by
  fun_induction encode bytes with
  | case1 b0 b1 b2 rest ih =>
    simp only [List.length_cons, ih]
    omega
  | case2 => simp
  | case3 => simp
  | case4 => rfl

end ScopedCss.Base64Url
