import ScopedCss.Selector.Grammar

/-!
# Reading selectors

`Selector.read` ties the levels of the grammar together: the argument of a pseudo is a selector
text of its own, shorter than the text around it.  The main statement is `read_eq_complete`: the
reader of arguments is the reader of whole texts.
-/

namespace ScopedCss.Selector

/-- Reads a whole selector text.  Arguments are shorter than the text they stand in, so the test
on their length never fails. -/
def read (mode : Mode) (source : Text) : Except Failure Selector :=
  let size := source.length
  Grammar.complete (fun inner argument =>
    if argument.length < size then read inner argument
    else .error (.here .expectedSelector [])) mode source
termination_by source.length

/-- Parses a whole selector text. -/
def parse (mode : Mode) (source : Text) : Except Error Selector :=
  match read mode source with
  | .ok selector => .ok selector
  | .error failure => .error (failure.toError source)

/-! ## Readers that agree on short arguments -/

/-- Two readers that answer alike on all texts of fewer than `size` characters. -/
def AgreeBelow (size : Nat) (first second : Reader) : Prop :=
  ∀ (mode : Mode) (argument : Text), argument.length < size →
    first mode argument = second mode argument

namespace Grammar

variable {size : Nat} {first second : Reader}

theorem simple_congr (hagree : AgreeBelow size first second) {text : Text}
    (hsize : text.length ≤ size) : simple first text = simple second text := by
  simp only [simple]
  split
  · rfl
  · rfl
  · rfl
  · next head argument rest hlexeme =>
    have hlt := Lexeme.argument_length_lt_of_read_eq_read hlexeme
    rw [hagree _ _ (Nat.lt_of_lt_of_le hlt hsize)]

theorem simples_congr (hagree : AgreeBelow size first second) {text : Text}
    (hsize : text.length ≤ size) : simples first text = simples second text := by
  fun_induction simples first text with
  | case1 text hsimple =>
    rw [simple_congr hagree hsize] at hsimple
    rw [simples_of_absent hsimple]
  | case2 text failure hsimple =>
    rw [simple_congr hagree hsize] at hsimple
    rw [simples_of_failed hsimple]
  | case3 text part rest hsimple parts after hparts ih =>
    have hlt := length_lt_of_simple_eq_read hsimple
    rw [simple_congr hagree hsize] at hsimple
    rw [simples_of_read hsimple, ← ih (by omega), hparts]
  | case4 text part rest hsimple failure hparts ih =>
    have hlt := length_lt_of_simple_eq_read hsimple
    rw [simple_congr hagree hsize] at hsimple
    rw [simples_of_read hsimple, ← ih (by omega), hparts]

theorem compound_congr (hagree : AgreeBelow size first second) {text : Text}
    (hsize : text.length ≤ size) : compound first text = compound second text := by
  simp only [compound, simples_congr hagree hsize]

theorem chain_congr (hagree : AgreeBelow size first second) {left : Selector} {text : Text}
    (hsize : text.length ≤ size) : chain first left text = chain second left text := by
  induction hlength : text.length using Nat.strongRecOn generalizing left text with
  | ind length ih =>
    rcases link_cases text with hlink | ⟨combinator, rest, hlink⟩
    · rw [chain_of_none hlink, chain_of_none hlink]
    · obtain ⟨missing, hstep⟩ := exists_chain_of_link left hlink
      have hle := length_le_of_link hlink
      rw [hstep first, hstep second, compound_congr hagree (by omega)]
      split
      · next hright =>
        have hlt := length_lt_of_compound_eq_read hright
        exact ih _ (by omega) (by omega) rfl
      · rfl
      · rfl

theorem complex_congr (hagree : AgreeBelow size first second) {text : Text}
    (hsize : text.length ≤ size) : complex first text = complex second text := by
  simp only [complex, compound_congr hagree hsize]
  split
  · rfl
  · rfl
  · next hfirst =>
    have hlt := length_lt_of_compound_eq_read hfirst
    rw [chain_congr hagree (by omega)]

theorem branch_congr (hagree : AgreeBelow size first second) {mode : Mode} {text : Text}
    (hsize : text.length ≤ size) : branch first mode text = branch second mode text := by
  cases mode with
  | plain => exact complex_congr hagree hsize
  | relative =>
    cases text with
    | nil => exact complex_congr hagree hsize
    | cons c after =>
      have hle := Text.length_skipSpace_le after
      rw [List.length_cons] at hsize
      simp only [branch, relative, anchored]
      rw [complex_congr hagree (show (Text.skipSpace after).length ≤ size by omega),
        complex_congr hagree (show (c :: after).length ≤ size from hsize)]

theorem branches_congr (hagree : AgreeBelow size first second) {mode : Mode} {text : Text}
    (hsize : text.length ≤ size) : branches first mode text = branches second mode text := by
  induction hlength : text.length using Nat.strongRecOn generalizing text with
  | ind length ih =>
    cases hcomma : comma? text with
    | none => rw [branches_of_none hcomma, branches_of_none hcomma]
    | some start =>
      have hstart := length_lt_of_comma?_eq_some hcomma
      rw [branches_of_some hcomma, branches_of_some hcomma, branch_congr hagree (by omega)]
      split
      · rfl
      · rfl
      · next item rest hbranch =>
        have hrest := length_lt_of_branch_eq_read hbranch
        rw [ih rest.length (by omega) (by omega) rfl]

theorem complete_congr {mode : Mode} {source : Text}
    (hagree : AgreeBelow source.length first second) :
    complete first mode source = complete second mode source := by
  have hstart : source.trimStart.length ≤ source.length :=
    (List.dropWhile_sublist _).length_le
  have hlist : list first mode source.trimStart = list second mode source.trimStart := by
    simp only [list, branch_congr hagree hstart]
    split
    · rfl
    · rfl
    · next hfirst =>
      have hlt := length_lt_of_branch_eq_read hfirst
      rw [branches_congr hagree (by omega)]
  simp only [complete, hlist]

end Grammar

/-- Reading a text reads the arguments in it in the same way. -/
theorem read_eq_complete (mode : Mode) (source : Text) :
    read mode source = Grammar.complete read mode source := by
  rw [read]
  refine Grammar.complete_congr fun inner argument hlt => ?_
  rw [if_pos hlt]

end ScopedCss.Selector
