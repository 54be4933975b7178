import ScopedCss.Proofs.Attributes
import ScopedCss.Proofs.ClosedGaps
import ScopedCss.Proofs.SelectorReading

/-!
# Conditions that are read back from their text

The printer puts the name, the operator and the value of a condition side by side.  Blanks that
stood between them are gone, so the text may be read in another way: a mark at the end of the name
joins a plain `=`, a backslash whose blank was trimmed escapes the closing bracket, and a `/` in
front of `*=` may begin a comment.  `Attribute.Sealed` says that none of this happens.

For a condition that was read, this is all that can go wrong
(`Selector.simple_render_attr_iff_sealed`).  The content is read back by `Worded`, and the closing
bracket is found by closing one gap of the source after the other with `Scan.unnested_closed`.
-/

namespace ScopedCss

namespace Attribute

/-- The text between the brackets. -/
def inside (condition : Attribute) : Text :=
  match condition.test with
  | none => condition.name
  | some test => condition.name ++ test.operator ++ test.value

/-- The piece in front of the closing bracket. -/
def ending (condition : Attribute) : Text :=
  match condition.test with
  | none => condition.name
  | some test => test.value

theorem inside_test (name mark value : Text) :
    inside ⟨name, some ⟨mark ++ ['='], value⟩⟩ = name ++ mark ++ '=' :: value := by
  simp [inside]

theorem render_eq_inside : (condition : Attribute) →
    condition.render = '[' :: (condition.inside ++ [']'])
  | ⟨_, none⟩ => rfl
  | ⟨_, some _⟩ => rfl

/-- The pieces of the condition make nothing new where they meet. -/
structure Sealed (condition : Attribute) : Prop where
  /-- A plain `=` does not stand behind a mark. -/
  mark : ∀ test ∈ condition.test, test.operator = ['='] →
    Selector.Lexeme.operatorMark condition.name = []
  /-- The closing bracket is not escaped. -/
  escape : Scan.hangs condition.ending = false
  /-- A `/` in front of `*=` begins no comment, or one that ends in front of the closing bracket. -/
  comment : ∀ test ∈ condition.test, test.operator = ['*', '='] →
    condition.name.getLast? = some '/' →
    Scan.unnested [']'] (condition.inside ++ [']']) = .found ']' []

instance (condition : Attribute) : Decidable condition.Sealed :=
  decidable_of_iff
    ((∀ test ∈ condition.test, test.operator = ['='] →
        Selector.Lexeme.operatorMark condition.name = []) ∧
      Scan.hangs condition.ending = false ∧
      ∀ test ∈ condition.test, test.operator = ['*', '='] → condition.name.getLast? = some '/' →
        Scan.unnested [']'] (condition.inside ++ [']']) = .found ']' [])
    ⟨fun ⟨mark, escape, comment⟩ => ⟨mark, escape, comment⟩,
      fun ⟨mark, escape, comment⟩ => ⟨mark, escape, comment⟩⟩

end Attribute

namespace Selector

/-! ## The content -/

/-- A name, an operator and a value are read as such if the name has no mark of its own. -/
theorem attribute?_joined_iff {name mark value : Text} (hfree : '=' ∉ name ++ mark)
    (hname : name.trim = name) (hvalue : value.trim = value) (hne : name ≠ [])
    (hvalueNe : value ≠ []) :
    Lexeme.attribute? (name ++ mark ++ '=' :: value) =
        .ok ⟨name, some ⟨mark ++ ['='], value⟩⟩ ↔
      Lexeme.operatorMark (name ++ mark) = mark := by
  rw [Lexeme.attribute?_eq_ok_iff]
  constructor
  · intro h
    generalize htext : name ++ mark ++ '=' :: value = text at h
    generalize hcondition : (⟨name, some ⟨mark ++ ['='], value⟩⟩ : Attribute) = condition at h
    cases h with
    | bare => simp at hcondition
    | @tested front other back hother hmark =>
      simp only [Attribute.mk.injEq, Option.some.injEq, AttributeTest.mk.injEq,
        List.append_cancel_right_eq] at hcondition
      obtain ⟨-, rfl, -⟩ := hcondition
      -- The first `=` stands behind both names.
      have hsplit := Text.splitFirst?_append hfree value
      rw [htext, Text.splitFirst?_append hother] at hsplit
      rw [← (Prod.mk.inj (Option.some.inj hsplit)).1]
      exact hmark
  · intro hmark
    have hworded : Worded (name ++ mark ++ '=' :: value)
        ⟨name.trim, some ⟨mark ++ ['='], value.trim⟩⟩ :=
      .tested hfree hmark (hname.symm ▸ hne) (hvalue.symm ▸ hvalueNe)
    rw [hname, hvalue] at hworded
    exact hworded

/-- The printed content has the same wording unless the name ends with a mark of its own. -/
theorem attribute?_inside_iff {content : Text} {condition : Attribute}
    (h : Worded content condition) :
    Lexeme.attribute? condition.inside = .ok condition ↔
      ∀ test ∈ condition.test, test.operator = ['='] →
        Lexeme.operatorMark condition.name = [] := by
  cases h with
  | bare hfree hname =>
    refine ⟨fun _ => nofun, fun _ => Lexeme.attribute?_eq_ok_iff.2 ?_⟩
    have hworded := Worded.bare (fun hmem => hfree (Text.mem_of_mem_trim hmem))
      ((Text.trim_trim content).symm ▸ hname)
    rw [Text.trim_trim] at hworded
    exact hworded
  | @tested front mark back hfree hmark hname hvalue =>
    rw [List.mem_append, not_or] at hfree
    have hjoined : '=' ∉ front.trim ++ mark := by
      rw [List.mem_append, not_or]
      exact ⟨fun hmem => hfree.1 (Text.mem_of_mem_trim hmem), hfree.2⟩
    have hread := attribute?_joined_iff hjoined (Text.trim_trim front) (Text.trim_trim back)
      hname hvalue
    rw [Attribute.inside_test, hread]
    rcases Lexeme.operatorMark_cases (front ++ mark) with hnone | ⟨c, hc, hone⟩
    · obtain rfl : mark = [] := hmark.symm.trans hnone
      simp
    · obtain rfl : mark = [c] := hmark.symm.trans hone
      simp [Lexeme.operatorMark_append_singleton, hc]

/-! ## The closing bracket -/

variable {content rest : Text} {condition : Attribute}

theorem not_isBlank_bracket : ∀ c ∈ [']'], Text.isBlank c = false :=
  List.forall_mem_singleton.2 (by decide)

theorem unnested_blanks {gap : Text} (hgap : ∀ c ∈ gap, Text.isBlank c = true) (text : Text) :
    Scan.unnested [']'] (gap ++ text) = Scan.unnested [']'] text :=
  Scan.passes_of_forall (Scan.ordinary_of_blank not_isBlank_bracket hgap) [']'] [] text
    fun _ _ hc => hc

/-- Blanks in front of the closing bracket do not matter if the text does not hang. -/
theorem unnested_bracket {text gap : Text} (hgap : ∀ c ∈ gap, Text.isBlank c = true)
    (hhangs : Scan.hangs text = false)
    (h : Scan.unnested [']'] (text ++ (gap ++ ']' :: rest)) = .found ']' rest) :
    Scan.unnested [']'] (text ++ [']']) = .found ']' [] := by
  have hclosed : Scan.unnested [']'] (text ++ ']' :: rest) = .found ']' rest :=
    Scan.unnested_closed (by decide) not_isBlank_bracket hgap h List.suffix_rfl
      (.of_head hhangs (by decide) (by decide) rest)
  exact Scan.unnested_congr_of_found hclosed (by decide) []

/-- The operator of a condition begins with an ordinary character. -/
theorem exists_cons_operator {front mark : Text} (h : Lexeme.operatorMark front = mark)
    (back : Text) :
    ∃ c tail, mark ++ '=' :: back = c :: tail ∧ Scan.isOrdinary c = true ∧ c ∉ [']'] ∧ c ≠ '\n' ∧
      (c = '*' → mark = ['*']) := by
  rcases Lexeme.operatorMark_cases front with hnone | ⟨c, hc, hone⟩
  · obtain rfl : mark = [] := h.symm.trans hnone
    exact ⟨'=', back, rfl, by decide⟩
  · obtain rfl : mark = [c] := h.symm.trans hone
    refine ⟨c, '=' :: back, rfl, ?_⟩
    simp only [Lexeme.isOperatorMark, Bool.or_eq_true, beq_iff_eq] at hc
    rcases hc with (((rfl | rfl) | rfl) | rfl) | rfl <;> decide

/-- Closing the gaps around an operator. -/
theorem unnested_joined {name mark front value gap after : Text}
    (hmark : Lexeme.operatorMark front = mark)
    (hcomment : mark = ['*'] → name.getLast? ≠ some '/')
    (hgap : ∀ c ∈ gap, Text.isBlank c = true) (hafter : ∀ c ∈ after, Text.isBlank c = true)
    (hrest : ']' :: rest <:+ value)
    (h : Scan.unnested [']'] (name ++ (gap ++ (mark ++ '=' :: (after ++ value)))) =
      .found ']' rest) :
    Scan.unnested [']'] (name ++ mark ++ '=' :: value) = .found ']' rest := by
  obtain ⟨c, tail, hoperator, hc, hstop, hline, hstar⟩ :=
    exists_cons_operator hmark (after ++ value)
  have hbehind : ']' :: rest <:+ mark ++ '=' :: (after ++ value) := by
    refine hrest.trans ⟨mark ++ '=' :: after, ?_⟩
    simp
  have hfirst : Scan.unnested [']'] (name ++ (mark ++ '=' :: (after ++ value))) =
      .found ']' rest := by
    refine Scan.unnested_closed (by decide) not_isBlank_bracket hgap h hbehind ?_
    rw [hoperator]
    exact .of_ordinary hc hstop hline (fun hc => hcomment (hstar hc)) tail
  have hsecond : Scan.unnested [']'] (name ++ mark ++ ['='] ++ value) = .found ']' rest := by
    refine Scan.unnested_closed (by decide) not_isBlank_bracket hafter ?_ hrest
      (.of_last (by decide) (name ++ mark) value)
    simpa using hfirst
  simpa using hsecond

theorem hangs_inside (h : Worded content condition) :
    Scan.hangs condition.inside = Scan.hangs condition.ending := by
  cases h with
  | bare => rfl
  | tested =>
    rw [Attribute.inside_test, Scan.hangs_append_cons (by decide)]
    rfl

/-- The closing bracket is found behind the printed content. -/
theorem unnested_inside (h : Worded content condition)
    (hfound : Scan.unnested [']'] (content ++ ']' :: rest) = .found ']' rest)
    (hhangs : Scan.hangs condition.ending = false)
    (hcomment : ∀ test ∈ condition.test, test.operator = ['*', '='] →
      condition.name.getLast? ≠ some '/') :
    Scan.unnested [']'] (condition.inside ++ [']']) = .found ']' [] := by
  rw [← hangs_inside h] at hhangs
  cases h with
  | bare =>
    obtain ⟨front, gap, hfront, hgap, hcontent⟩ := Text.exists_append_trim_append content
    rw [hcontent, List.append_assoc, List.append_assoc, unnested_blanks hfront] at hfound
    exact unnested_bracket hgap hhangs hfound
  | @tested front mark back hfree hmark hname hvalue =>
    obtain ⟨before, gap, hbefore, hgap, hfront⟩ := Text.exists_append_trim_append front
    obtain ⟨after, behind, hafter, hbehind, hback⟩ := Text.exists_append_trim_append back
    have hslash : mark = ['*'] → front.trim.getLast? ≠ some '/' := by
      rintro rfl
      exact hcomment _ rfl rfl
    have hjoined : Scan.unnested [']']
        (front.trim ++ mark ++ '=' :: (back.trim ++ (behind ++ ']' :: rest))) =
          .found ']' rest := by
      refine unnested_joined hmark hslash hgap hafter ⟨back.trim ++ behind, by simp⟩ ?_
      rw [← unnested_blanks hbefore]
      generalize front.trim = name at hfront ⊢
      generalize back.trim = value at hback ⊢
      subst hfront hback
      simpa using hfound
    rw [Attribute.inside_test] at hhangs ⊢
    rw [← List.cons_append, ← List.append_assoc] at hjoined
    exact unnested_bracket hbehind hhangs hjoined

/-- What makes the printed content end at its closing bracket. -/
theorem unnested_inside_iff (h : Worded content condition)
    (hfound : Scan.unnested [']'] (content ++ ']' :: rest) = .found ']' rest) :
    Scan.unnested [']'] (condition.inside ++ [']']) = .found ']' [] ↔
      Scan.hangs condition.ending = false ∧
      ∀ test ∈ condition.test, test.operator = ['*', '='] → condition.name.getLast? = some '/' →
        Scan.unnested [']'] (condition.inside ++ [']']) = .found ']' [] := by
  constructor
  · intro hinside
    refine ⟨?_, fun _ _ _ _ => hinside⟩
    rw [← hangs_inside h]
    exact Scan.hangs_eq_false_of_scan_eq_found hinside rfl
  · rintro ⟨hhangs, hcomment⟩
    by_contra hlost
    refine hlost (unnested_inside h hfound hhangs fun test htest hoperator hslash => ?_)
    exact hlost (hcomment test htest hoperator hslash)

/-! ## Reading a printed condition -/

theorem steady_iff_inside :
    condition.Steady ↔
      Scan.unnested [']'] (condition.inside ++ [']']) = .found ']' [] ∧
      Lexeme.attribute? condition.inside = .ok condition := by
  constructor
  · intro h
    obtain ⟨content, hrender, hfound, hcondition⟩ := exists_content_of_steady h
    rw [Attribute.render_eq_inside] at hrender
    obtain rfl : condition.inside = content :=
      List.append_cancel_right (List.cons.inj hrender).2
    exact ⟨hfound, hcondition⟩
  · rintro ⟨hfound, hcondition⟩
    rw [steady_iff_spelled, Attribute.render_eq_inside]
    exact .attr hfound hcondition

theorem steady_iff_sealed (h : Worded content condition)
    (hfound : Scan.unnested [']'] (content ++ ']' :: rest) = .found ']' rest) :
    condition.Steady ↔ condition.Sealed := by
  rw [steady_iff_inside, unnested_inside_iff h hfound, attribute?_inside_iff h]
  constructor
  · rintro ⟨⟨hescape, hcomment⟩, hmark⟩
    exact ⟨hmark, hescape, hcomment⟩
  · rintro ⟨hmark, hescape, hcomment⟩
    exact ⟨⟨hescape, hcomment⟩, hmark⟩

theorem steady_iff_forall_follow :
    condition.Steady ↔ ∀ follow, Grammar.simple read (condition.render ++ follow) =
      .read (.attr condition) follow := by
  refine ⟨fun h follow => Grammar.simple_eq_read_iff.2 (.inl (spelled_attr h follow)), ?_⟩
  intro h
  rw [Attribute.Steady, ← List.append_nil condition.render]
  exact h []

/-- A condition that was read is read back from its text, whatever follows it, exactly if its pieces
make nothing new where they meet. -/
theorem simple_render_attr_iff_sealed {text : Text}
    (h : Grammar.simple read text = .read (.attr condition) rest) :
    (∀ follow, Grammar.simple read (condition.render ++ follow) =
        .read (.attr condition) follow) ↔
      condition.Sealed := by
  rcases Grammar.simple_eq_read_iff.1 h with hspelled | ⟨_, _, _, htree, -, -⟩
  · cases hspelled with
    | attr hfound hcondition =>
      rw [← steady_iff_forall_follow]
      exact steady_iff_sealed (Lexeme.attribute?_eq_ok_iff.1 hcondition) hfound
  · cases htree

/-- The `/` in front of `*=` stands in a string that the value ends. -/
theorem simple_render_attr_iff_sealed_sample :
    ∃ condition : Attribute,
      Grammar.simple read "[ \"]/ *= x\\ y\" ] .b".toList = .read (.attr condition) " .b".toList ∧
      condition.render = "[\"]/*=x\\ y\"]".toList ∧ condition.Sealed ∧
      ∀ follow, Grammar.simple read (condition.render ++ follow) =
        .read (.attr condition) follow := by
  have hfound : Scan.unnested [']'] (" \"]/ *= x\\ y\" ".toList ++ ']' :: " .b".toList) =
      .found ']' " .b".toList := by
    decide +kernel
  have hread : Grammar.simple read "[ \"]/ *= x\\ y\" ] .b".toList =
      .read (.attr ⟨"\"]/".toList, some ⟨"*=".toList, "x\\ y\"".toList⟩⟩) " .b".toList :=
    Grammar.simple_eq_read_iff.2 (.inl (.attr hfound (by decide +kernel)))
  have hsealed : Attribute.Sealed ⟨"\"]/".toList, some ⟨"*=".toList, "x\\ y\"".toList⟩⟩ := by
    decide +kernel
  exact ⟨_, hread, by decide +kernel, hsealed, (simple_render_attr_iff_sealed hread).2 hsealed⟩

/-- Trimming cuts the escaped blank at the end of a name, and the bracket is escaped instead. -/
theorem simple_render_attr_escaped_blank :
    ∃ condition : Attribute,
      Grammar.simple read "[a\\ ]".toList = .read (.attr condition) [] ∧
      condition.render = "[a\\]".toList ∧
      Grammar.simple read condition.render =
        .failed (.here .unterminatedAttribute "[a\\]".toList) := by
  have hfound : Scan.unnested [']'] ("a\\ ".toList ++ [']']) = .found ']' [] := by
    decide +kernel
  have hread : Grammar.simple read "[a\\ ]".toList = .read (.attr ⟨"a\\".toList, none⟩) [] :=
    Grammar.simple_eq_read_iff.2 (.inl (.attr hfound (by decide +kernel)))
  have hrender : Attribute.render ⟨"a\\".toList, none⟩ = "[a\\]".toList := by
    decide +kernel
  have hlost : Scan.unnested [']'] ['a', '\\', ']'] = .absent := by
    decide +kernel
  refine ⟨_, hread, hrender, ?_⟩
  rw [hrender, show "[a\\]".toList = ['[', 'a', '\\', ']'] by decide +kernel, Grammar.simple,
    Lexeme.read, Lexeme.readAttribute, hlost]

end Selector

end ScopedCss
