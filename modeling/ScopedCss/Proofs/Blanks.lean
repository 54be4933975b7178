import Mathlib.Data.List.TakeWhile
import ScopedCss.Text.Blank

/-!
# Blanks around a text

What a printer puts around a text is taken off again by a reader: spaces between the parts are
skipped, and blanks at the ends are trimmed.
-/

namespace ScopedCss.Text

/-! ## Skipping -/

theorem leadingSpace_append {gap rest : Text} (hgap : ∀ c ∈ gap, isSpace c = true)
    (hrest : ∀ c ∈ rest.head?, isSpace c = false) : leadingSpace (gap ++ rest) = gap := by
  rw [leadingSpace, List.takeWhile_append_of_pos hgap]
  cases rest with
  | nil => simp
  | cons c rest => simp [hrest c rfl]

theorem skipSpace_append {gap rest : Text} (hgap : ∀ c ∈ gap, isSpace c = true)
    (hrest : ∀ c ∈ rest.head?, isSpace c = false) : skipSpace (gap ++ rest) = rest := by
  rw [skipSpace, List.dropWhile_append_of_pos hgap]
  cases rest with
  | nil => rfl
  | cons c rest => simp [hrest c rfl]

theorem head?_skipSpace {text : Text} : ∀ c ∈ text.skipSpace.head?, isSpace c = false := by
  intro c hc
  have hspace := List.head?_dropWhile_not isSpace text
  rw [skipSpace] at hc
  rw [hc] at hspace
  exact hspace

/-- Text that does not begin with a space is not skipped. -/
theorem skipSpace_append_of_head? {follow : Text} (h : ∀ c ∈ follow.head?, isSpace c = false)
    (text : Text) : skipSpace (text ++ follow) = text.skipSpace ++ follow := by
  have hgap : ∀ c ∈ text.leadingSpace, isSpace c = true := fun _ => List.mem_takeWhile_imp
  have hhead : ∀ c ∈ (text.skipSpace ++ follow).head?, isSpace c = false := by
    intro c hc
    rw [List.head?_append] at hc
    rcases Option.or_eq_some_iff.1 hc with hc | ⟨-, hc⟩
    · exact head?_skipSpace c hc
    · exact h c hc
  have htext : text ++ follow = text.leadingSpace ++ (text.skipSpace ++ follow) := by
    rw [← List.append_assoc, leadingSpace_append_skipSpace]
  rw [htext, skipSpace_append hgap hhead]

/-! ## Trimming -/

theorem trimStart_append {gap : Text} (hgap : ∀ c ∈ gap, isBlank c = true) (text : Text) :
    trimStart (gap ++ text) = trimStart text :=
  List.dropWhile_append_of_pos hgap

theorem trimEnd_append {gap : Text} (hgap : ∀ c ∈ gap, isBlank c = true) (text : Text) :
    trimEnd (text ++ gap) = trimEnd text := by
  rw [trimEnd, List.reverse_append, List.dropWhile_append_of_pos (by simpa using hgap), trimEnd]

theorem trimStart_append_of_ne_nil {text : Text} (hne : text ≠ []) (h : text.trimStart = text)
    (back : Text) : trimStart (text ++ back) = text ++ back := by
  rw [trimStart] at h ⊢
  rw [List.dropWhile_append, h, if_neg (by simpa using hne)]

theorem trimEnd_append_of_ne_nil {text : Text} (hne : text ≠ []) (h : text.trimEnd = text)
    (front : Text) : trimEnd (front ++ text) = front ++ text := by
  rw [trimEnd, List.reverse_eq_iff] at h ⊢
  rw [List.reverse_append, List.dropWhile_append, h, if_neg (by simpa using hne)]

/-- A text that is its own trim has no blank at either end. -/
theorem trim_eq_self {text : Text} (h : text.trim = text) :
    text.trimStart = text ∧ text.trimEnd = text := by
  have hend : text.trim.length ≤ text.trimStart.length := by
    rw [trim, trimEnd, List.length_reverse]
    exact ((List.dropWhile_sublist _).length_le).trans_eq List.length_reverse
  have hsuffix : text.trimStart <:+ text := List.dropWhile_suffix _
  have hstart : text.trimStart = text := by
    rw [h] at hend
    exact hsuffix.eq_of_length (le_antisymm hsuffix.length_le hend)
  rw [trim, hstart] at h
  exact ⟨hstart, h⟩

theorem exists_append_trimStart (text : Text) :
    ∃ gap, (∀ c ∈ gap, isBlank c = true) ∧ text = gap ++ text.trimStart :=
  ⟨text.takeWhile isBlank, fun _ hc => List.mem_takeWhile_imp hc,
    List.takeWhile_append_dropWhile.symm⟩

theorem exists_trimEnd_append (text : Text) :
    ∃ gap, (∀ c ∈ gap, isBlank c = true) ∧ text = text.trimEnd ++ gap := by
  obtain ⟨gap, hgap, hreverse⟩ := exists_append_trimStart text.reverse
  refine ⟨gap.reverse, by simpa using hgap, ?_⟩
  have hback := congrArg List.reverse hreverse
  rw [List.reverse_reverse, List.reverse_append] at hback
  exact hback

/-- Trimming takes blanks off both ends. -/
theorem exists_append_trim_append (text : Text) :
    ∃ front back, (∀ c ∈ front, isBlank c = true) ∧ (∀ c ∈ back, isBlank c = true) ∧
      text = front ++ (text.trim ++ back) := by
  obtain ⟨front, hfront, hstart⟩ := exists_append_trimStart text
  obtain ⟨back, hback, hend⟩ := exists_trimEnd_append text.trimStart
  refine ⟨front, back, hfront, hback, ?_⟩
  rw [trim, ← hend]
  exact hstart

theorem mem_of_mem_trim {text : Text} {c : Char} (h : c ∈ text.trim) : c ∈ text := by
  obtain ⟨front, back, -, -, hsplit⟩ := exists_append_trim_append text
  rw [hsplit]
  exact List.mem_append_right front (List.mem_append_left back h)

theorem trimStart_eq_self_iff {text : Text} :
    text.trimStart = text ↔ ∀ c ∈ text.head?, isBlank c = false := by
  cases text with
  | nil => simp [trimStart]
  | cons c text =>
    have hhead : (∀ d ∈ (c :: text).head?, isBlank d = false) ↔ isBlank c = false := by simp
    rw [hhead, trimStart]
    cases hc : isBlank c with
    | false => simp [hc]
    | true =>
      have hlt : ((c :: text).dropWhile isBlank).length < (c :: text).length := by
        rw [List.dropWhile_cons_of_pos hc, List.length_cons]
        exact Nat.lt_succ_of_le (List.dropWhile_sublist _).length_le
      simp only [Bool.true_eq_false, iff_false]
      intro heq
      rw [heq] at hlt
      exact absurd hlt (Nat.lt_irrefl _)

theorem head?_trimStart {text : Text} : ∀ c ∈ text.trimStart.head?, isBlank c = false := by
  intro c hc
  have hblank := List.head?_dropWhile_not isBlank text
  rw [trimStart] at hc
  rw [hc] at hblank
  exact hblank

theorem trimStart_trimStart (text : Text) : text.trimStart.trimStart = text.trimStart :=
  trimStart_eq_self_iff.2 head?_trimStart

theorem trimEnd_trimEnd (text : Text) : text.trimEnd.trimEnd = text.trimEnd := by
  rw [trimEnd, trimEnd, List.reverse_reverse]
  exact congrArg List.reverse (trimStart_trimStart text.reverse)

/-- What trimming leaves of the end of a text begins as the text does. -/
theorem trimStart_trimEnd {text : Text} (h : text.trimStart = text) :
    text.trimEnd.trimStart = text.trimEnd := by
  obtain ⟨gap, -, hgap⟩ := exists_trimEnd_append text
  rw [trimStart_eq_self_iff] at h ⊢
  intro c hc
  refine h c ?_
  rw [hgap]
  obtain ⟨tail, htail⟩ := List.head?_eq_some_iff.1 hc
  rw [htail]
  rfl

theorem trim_trimEnd {text : Text} (h : text.trimStart = text) :
    text.trimEnd.trim = text.trimEnd := by
  rw [trim, trimStart_trimEnd h, trimEnd_trimEnd]

theorem trim_trim (text : Text) : text.trim.trim = text.trim :=
  trim_trimEnd (trimStart_trimStart text)

theorem isSpace_eq_false_of_trim {text : Text} {c : Char} (h : text.trim = text)
    (hc : text.head? = some c) : isSpace c = false := by
  have hblank := trimStart_eq_self_iff.1 (trim_eq_self h).1 c hc
  by_contra hspace
  rw [Bool.not_eq_false] at hspace
  exact absurd ((isBlank_of_isSpace hspace).symm.trans hblank) (by decide)

/-- Blanks around a trimmed text do not matter. -/
theorem trim_append {front back text : Text} (hfront : ∀ c ∈ front, isBlank c = true)
    (hback : ∀ c ∈ back, isBlank c = true) (h : text.trim = text) :
    trim (front ++ (text ++ back)) = text := by
  obtain ⟨hstart, hend⟩ := trim_eq_self h
  rw [trim, trimStart_append hfront]
  by_cases hne : text = []
  · subst hne
    rw [List.nil_append, ← List.append_nil back, trimStart_append hback]
    rfl
  · rw [trimStart_append_of_ne_nil hne hstart, trimEnd_append hback, hend]

/-- A trimmed word ends the trimming of the text in front of it. -/
theorem trim_append_of_ne_nil {word : Text} (hne : word ≠ []) (h : word.trim = word)
    (front : Text) : trim (front ++ word) = trimStart front ++ word := by
  obtain ⟨hstart, hend⟩ := trim_eq_self h
  have hfront : trimStart (front ++ word) = trimStart front ++ word := by
    rw [trimStart] at hstart
    rw [trimStart, trimStart, List.dropWhile_append, hstart]
    split <;> simp_all
  rw [trim, hfront, trimEnd_append_of_ne_nil hne hend]

end ScopedCss.Text
