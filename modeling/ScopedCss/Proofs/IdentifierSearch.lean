import ScopedCss.Proofs.SearchGrammar

/-!
# Identifiers under the search

Two readers go over the same text.  The reader of identifiers takes an escape as a whole, up to six
hexadecimal digits with the white space that ends them; the search takes the backslash with one
character and looks at the rest.  They stay aligned because digits and white space are nothing that
the search reacts to, unless it is for them (`Scan.passes_of_ends_of_forall`).

So an identifier in front of a text only moves what the search finds there, by the bytes that it
takes (`locate_append`).
-/

namespace ScopedCss

theorem Text.offsetOf_append_of_suffix {text rest : Text} (front : Text) (h : rest <:+ text) :
    offsetOf (front ++ text) rest = front.byteSize + offsetOf text rest := by
  obtain ⟨consumed, rfl⟩ := h
  rw [← List.append_assoc, offsetOf_append, offsetOf_append, byteSize_append]

namespace Scan

/-- The answer of a search in a text with `size` bytes in front of it. -/
def shifted (size : Nat) : Except Nat (Option Nat) → Except Nat (Option Nat)
  | .ok (some index) => .ok (some (size + index))
  | .ok none => .ok none
  | .error index => .error (size + index)

/-- A text that is passed over moves what is found behind it. -/
theorem Passes.locate_append {stops : List Char} {text : Text} (h : Passes stops text)
    (rest : Text) : locate stops (text ++ rest) = shifted text.byteSize (locate stops rest) := by
  have hsame : unnested stops (text ++ rest) = unnested stops rest :=
    h stops [] rest fun _ c hc => hc
  rw [locate, locate, hsame]
  cases houtcome : unnested stops rest with
  | found stop after =>
    have hsuffix := (scan_eq_found houtcome).2
    simp only [shifted, Text.offsetOf_append_of_suffix text hsuffix]
  | absent => rfl
  | unbalanced after =>
    have hsuffix := (unnested_eq_unbalanced houtcome).1
    simp only [shifted, Text.offsetOf_append_of_suffix text hsuffix]

end Scan

namespace Ident

/-- What stands behind an identifier does not go on with it. -/
theorem rest_of_read?_eq_some {text name rest : Text} (h : read? text = some (name, rest)) :
    rest = [] ∨ rest = ['\\'] ∨
      ∃ c tail, rest = c :: tail ∧ isIdentChar c = false ∧ c ≠ '\\' := by
  refine (span_eq_nil_iff.1 (ends_of_read?_eq_some h).span_rest).imp id (Or.imp id ?_)
  intro ⟨c, hhead, hslash, hchar⟩
  obtain ⟨tail, htail⟩ := List.head?_eq_some_iff.1 hhead
  exact ⟨c, tail, htail, hchar, hslash⟩

/-- An identifier is a start of the text, it is an identifier by itself, and the text behind it does
not go on with it.  In front of any other text, the search for stops that are neither identifier
characters nor white space finds what it finds in that text, so it sees no escaped character of the
identifier.  Only the white space that may end an escape has to be kept out of the stops. -/
theorem read?_maximal_and_unseen {text name rest : Text} (h : read? text = some (name, rest)) :
    text = name ++ rest ∧ name ≠ [] ∧ read? name = some (name, []) ∧
    (rest = [] ∨ rest = ['\\'] ∨
      ∃ c tail, rest = c :: tail ∧ isIdentChar c = false ∧ c ≠ '\\') ∧
    ∀ (more : Text) (stops : List Char),
      (∀ c ∈ stops, isIdentChar c = false ∧ isTerminator c = false) →
      Scan.locate stops (name ++ more) = Scan.shifted name.byteSize (Scan.locate stops more) := by
  have halone : read? (name ++ []) = some (name, []) :=
    (isName_of_read?_eq_some h).read?_append (by simp)
  rw [List.append_nil] at halone
  refine ⟨append_of_read?_eq_some h, ne_nil_of_read?_eq_some h, halone,
    rest_of_read?_eq_some h, ?_⟩
  intro more stops hstops
  have hpasses := Scan.passes_of_ends_of_forall (ends_of_read?_eq_some h) hstops
  exact hpasses.locate_append more

theorem read?_maximal_and_unseen_sample :
    read? ['a', '\\', ';', '\\', '3', '1', '\r', '\n', '\\', '(', '\\'] =
      some (['a', '\\', ';', '\\', '3', '1', '\r', '\n', '\\', '('], ['\\']) ∧
    read? ['a', '\\', ';', '\\', '3', '1', '\r', '\n', '\\', '('] =
      some (['a', '\\', ';', '\\', '3', '1', '\r', '\n', '\\', '('], []) ∧
    Scan.locate [';', '\\'] (['a', '\\', ';', '\\', '3', '1', '\r', '\n', '\\', '('] ++ ['é', ';']) =
      Scan.shifted 10 (Scan.locate [';', '\\'] ['é', ';']) := by
  have hread : read? ['a', '\\', ';', '\\', '3', '1', '\r', '\n', '\\', '(', '\\'] =
      some (['a', '\\', ';', '\\', '3', '1', '\r', '\n', '\\', '('], ['\\']) := by
    decide +kernel
  have hstops : ∀ c ∈ [';', '\\'], isIdentChar c = false ∧ isTerminator c = false :=
    List.forall_mem_cons.2 ⟨by decide, List.forall_mem_singleton.2 (by decide)⟩
  have hfacts := read?_maximal_and_unseen hread
  exact ⟨hread, hfacts.2.2.1, hfacts.2.2.2.2 ['é', ';'] [';', '\\'] hstops⟩

end Ident

end ScopedCss
