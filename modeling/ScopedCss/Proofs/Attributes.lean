import ScopedCss.Proofs.Blanks
import ScopedCss.Proofs.Lexemes

/-!
# The text between the brackets of a condition

`Worded content condition` lists the two ways in which the condition of an attribute selector is
written: a name alone, or a name and a value around the first `=`, with the character in front of it
if that is an operator mark.  Reading a condition follows exactly these rules
(`Lexeme.attribute?_eq_ok_iff`).
-/

namespace ScopedCss

namespace Selector

/-- The texts of a condition.  The name and the value are what trimming leaves. -/
inductive Worded : Text → Attribute → Prop where
  | bare {content : Text} :
    '=' ∉ content → content.trim ≠ [] → Worded content ⟨content.trim, none⟩
  | tested {front mark back : Text} :
    '=' ∉ front ++ mark → Lexeme.operatorMark (front ++ mark) = mark → front.trim ≠ [] →
    back.trim ≠ [] →
    Worded (front ++ mark ++ '=' :: back) ⟨front.trim, some ⟨mark ++ ['='], back.trim⟩⟩

namespace Lexeme

theorem operatorMark_append_singleton (front : Text) (c : Char) :
    operatorMark (front ++ [c]) = if isOperatorMark c then [c] else [] := by
  simp [operatorMark]

/-- An operator mark is the last character of the text, or there is none. -/
theorem exists_append_operatorMark (text : Text) :
    ∃ front, text = front ++ operatorMark text := by
  rcases List.eq_nil_or_concat text with rfl | ⟨front, c, rfl⟩
  · exact ⟨[], rfl⟩
  · rw [List.concat_eq_append, operatorMark_append_singleton]
    split
    · exact ⟨front, rfl⟩
    · exact ⟨front ++ [c], by simp⟩

theorem operatorMark_cases (text : Text) :
    operatorMark text = [] ∨ ∃ c, isOperatorMark c = true ∧ operatorMark text = [c] := by
  unfold operatorMark
  split
  · next c _ =>
    cases hc : isOperatorMark c with
    | false => simp
    | true => exact .inr ⟨c, hc, by simp⟩
  · exact .inl rfl

theorem attribute?_bare {content : Text} (h : '=' ∉ content) :
    attribute? content =
      if content.trim.isEmpty then .error .expectedAttributeName
      else .ok ⟨content.trim, none⟩ := by
  rw [attribute?, Text.splitFirst?_eq_none h]

theorem attribute?_tested {front mark back : Text} (h : '=' ∉ front ++ mark)
    (hmark : operatorMark (front ++ mark) = mark) :
    attribute? (front ++ mark ++ '=' :: back) =
      if front.trim.isEmpty || back.trim.isEmpty then .error .malformedAttribute
      else .ok ⟨front.trim, some ⟨mark ++ ['='], back.trim⟩⟩ := by
  have hfront : (front ++ mark).take ((front ++ mark).length - mark.length) = front := by simp
  rw [attribute?, Text.splitFirst?_append h back]
  simp only [hmark, hfront]

/-- Reading a condition follows the rules of its wording. -/
theorem attribute?_eq_ok_iff {content : Text} {condition : Attribute} :
    attribute? content = .ok condition ↔ Worded content condition := by
  constructor
  · intro h
    by_cases hmem : '=' ∈ content
    · obtain ⟨front, back, rfl, hfirst⟩ := List.eq_append_cons_of_mem hmem
      obtain ⟨name, hname⟩ := exists_append_operatorMark front
      generalize hmark : operatorMark front = mark at hname
      subst hname
      rw [attribute?_tested hfirst hmark] at h
      split at h
      · simp at h
      · next hne =>
        obtain rfl := Except.ok.inj h
        simp only [Bool.or_eq_true, List.isEmpty_iff, not_or] at hne
        exact .tested hfirst hmark hne.1 hne.2
    · rw [attribute?_bare hmem] at h
      split at h
      · simp at h
      · next hne =>
        obtain rfl := Except.ok.inj h
        exact .bare hmem (by simpa using hne)
  · intro h
    cases h with
    | bare hmem hne => rw [attribute?_bare hmem, if_neg (by simpa using hne)]
    | tested hfirst hmark hname hvalue =>
      rw [attribute?_tested hfirst hmark, if_neg (by simp [hname, hvalue])]

end Lexeme

end Selector

/-- The parts of a condition that was read: a trimmed name and, if there is a test, an operator that
ends with `=` and a trimmed value. -/
structure Attribute.Shaped (condition : Attribute) : Prop where
  name_ne_nil : condition.name ≠ []
  trim_name : condition.name.trim = condition.name
  operator : ∀ test ∈ condition.test, test.operator = ['='] ∨
    ∃ c, Selector.Lexeme.isOperatorMark c = true ∧ test.operator = [c, '=']
  value_ne_nil : ∀ test ∈ condition.test, test.value ≠ []
  trim_value : ∀ test ∈ condition.test, test.value.trim = test.value

theorem Selector.Worded.shaped {content : Text} {condition : Attribute}
    (h : Worded content condition) : condition.Shaped := by
  cases h with
  | bare _ hname => exact ⟨hname, Text.trim_trim _, nofun, nofun, nofun⟩
  | @tested front mark back _ hmark hname hvalue =>
    have hoperator : mark ++ ['='] = ['='] ∨
        ∃ c, Selector.Lexeme.isOperatorMark c = true ∧ mark ++ ['='] = [c, '='] := by
      rw [← hmark]
      rcases Selector.Lexeme.operatorMark_cases (front ++ mark) with hnone | ⟨c, hc, hone⟩
      · exact .inl (by rw [hnone, List.nil_append])
      · exact .inr ⟨c, hc, by rw [hone, List.singleton_append]⟩
    refine ⟨hname, Text.trim_trim _, ?_, ?_, ?_⟩
    · rintro _ ⟨⟩
      exact hoperator
    · rintro _ ⟨⟩
      exact hvalue
    · rintro _ ⟨⟩
      exact Text.trim_trim _

end ScopedCss
