import ScopedCss.Selector.Lexeme

/-!
# The levels of the selector grammar

A compound is a run of simple selectors, a complex selector is a chain of compounds, a relative
selector may begin with a combinator, and a list has commas between its branches.  Every level
takes the reader of pseudo arguments as a parameter, so the levels themselves do not call back.

A level replies `absent` only when no simple selector stands at the start of its text; once a
combinator or a comma has been read, a missing selector is a failure.

A reader that calls itself has one equation for each outcome of its first step, such as
`chain_of_none`; proofs rewrite with these instead of opening the reader.
-/

namespace ScopedCss.Selector

/-- Whether the branches of a selector may begin with a combinator. -/
inductive Mode where
  | plain
  | relative
deriving Repr, DecidableEq

/-- How the argument of a pseudo is read. -/
def argumentMode (head : Pseudo) : Mode :=
  if head.takesRelative then .relative else .plain

/-- A reader of whole selector texts. -/
abbrev Reader := Mode → Text → Except Failure Selector

namespace Grammar

/-- The combinators that are written with a character. -/
def isCombinator (c : Char) : Bool :=
  c == '>' || c == '+' || c == '~'

/-- Reads a simple selector, its argument with `nested`. -/
def simple (nested : Reader) (text : Text) : Reply Selector :=
  match Lexeme.read text with
  | .absent => .absent
  | .failed failure => .failed failure
  | .read (.leaf selector) rest => .read selector rest
  | .read (.query head argument) rest =>
    match nested (argumentMode head) argument with
    | .ok inner => .read (.query head argument inner) rest
    | .error failure => .failed (failure.enclose rest)

theorem length_lt_of_simple_eq_read {nested : Reader} {text rest : Text} {selector : Selector}
    (h : simple nested text = .read selector rest) : rest.length < text.length := by
  simp only [simple] at h
  split at h
  · simp at h
  · simp at h
  · next hlexeme =>
    simp only [Reply.read.injEq] at h
    exact h.2 ▸ Lexeme.length_lt_of_read_eq_read hlexeme
  · next hlexeme =>
    split at h
    · simp only [Reply.read.injEq] at h
      exact h.2 ▸ Lexeme.length_lt_of_read_eq_read hlexeme
    · simp at h

/-- Reads simple selectors as long as there are any. -/
def simples (nested : Reader) (text : Text) : Except Failure (List Selector × Text) :=
  match _hsimple : simple nested text with
  | .absent => .ok ([], text)
  | .failed failure => .error failure
  | .read part rest =>
    match simples nested rest with
    | .ok (parts, after) => .ok (part :: parts, after)
    | .error failure => .error failure
termination_by text.length
decreasing_by exact length_lt_of_simple_eq_read _hsimple

theorem simples_of_absent {nested : Reader} {text : Text} (h : simple nested text = .absent) :
    simples nested text = .ok ([], text) := by
  rw [simples.eq_def]
  split
  · rfl
  · next hsimple => cases h.symm.trans hsimple
  · next hsimple => cases h.symm.trans hsimple

theorem simples_of_failed {nested : Reader} {text : Text} {failure : Failure}
    (h : simple nested text = .failed failure) : simples nested text = .error failure := by
  rw [simples.eq_def]
  split
  · next hsimple => cases h.symm.trans hsimple
  · next hsimple => rw [Reply.failed.inj (h.symm.trans hsimple)]
  · next hsimple => cases h.symm.trans hsimple

theorem simples_of_read {nested : Reader} {text rest : Text} {part : Selector}
    (h : simple nested text = .read part rest) :
    simples nested text =
      match simples nested rest with
      | .ok (parts, after) => .ok (part :: parts, after)
      | .error failure => .error failure := by
  rw [simples.eq_def]
  split
  · next hsimple => cases h.symm.trans hsimple
  · next hsimple => cases h.symm.trans hsimple
  · next hsimple =>
    obtain ⟨rfl, rfl⟩ := Reply.read.inj (h.symm.trans hsimple)
    rfl

/-- Reads a compound: one or more simple selectors. -/
def compound (nested : Reader) (text : Text) : Reply Selector :=
  match simples nested text with
  | .ok ([], _) => .absent
  | .ok (parts, rest) => .read (.compound parts) rest
  | .error failure => .failed failure

theorem length_le_of_simples_eq_ok {nested : Reader} {text rest : Text} {parts : List Selector}
    (h : simples nested text = .ok (parts, rest)) :
    rest.length ≤ text.length ∧ (parts ≠ [] → rest.length < text.length) := by
  fun_induction simples nested text generalizing parts with
  | case1 text hsimple =>
    simp only [Except.ok.injEq, Prod.mk.injEq] at h
    obtain ⟨rfl, rfl⟩ := h
    simp
  | case2 => simp at h
  | case3 text part after hsimple more last hsimples ih =>
    simp only [Except.ok.injEq, Prod.mk.injEq] at h
    obtain ⟨rfl, rfl⟩ := h
    have hpart := length_lt_of_simple_eq_read hsimple
    have hmore := (ih hsimples).1
    exact ⟨by omega, fun _ => by omega⟩
  | case4 => simp at h

theorem length_lt_of_compound_eq_read {nested : Reader} {text rest : Text} {selector : Selector}
    (h : compound nested text = .read selector rest) : rest.length < text.length := by
  simp only [compound] at h
  split at h
  · simp at h
  · next parts after hne hsimples =>
    simp only [Reply.read.injEq] at h
    exact h.2 ▸ (length_le_of_simples_eq_ok hsimples).2 hne
  · simp at h

/-- What stands between two compounds of a chain. -/
inductive Link where
  /-- A combinator character with the spaces around it. -/
  | explicit (combinator rest : Text)
  /-- Spaces alone. -/
  | descendant (combinator rest : Text)
  | none
deriving Repr, DecidableEq

/-- Reads the combinator at the start of the text. -/
def link (text : Text) : Link :=
  match text.leadingSpace, text.skipSpace with
  | gap, c :: after =>
    if isCombinator c then .explicit (gap ++ c :: Text.leadingSpace after) (Text.skipSpace after)
    else if gap.isEmpty then .none
    else .descendant gap (c :: after)
  | gap, [] => if gap.isEmpty then .none else .descendant gap []

theorem link_eq_explicit {text combinator rest : Text} (h : link text = .explicit combinator rest) :
    text = combinator ++ rest := by
  have hsplit := Text.leadingSpace_append_skipSpace text
  simp only [link] at h
  split at h
  · next c after hskip =>
    split at h
    · simp only [Link.explicit.injEq] at h
      rw [hskip] at hsplit
      rw [← h.1, ← h.2]
      simp [hsplit]
    · split at h <;> simp at h
  · split at h <;> simp at h

theorem link_eq_descendant {text combinator rest : Text}
    (h : link text = .descendant combinator rest) : text = combinator ++ rest := by
  have hsplit := Text.leadingSpace_append_skipSpace text
  simp only [link] at h
  split at h
  · next c after hskip =>
    split at h
    · simp at h
    · split at h
      · simp at h
      · simp only [Link.descendant.injEq] at h
        rw [← h.1, ← h.2, ← hskip, hsplit]
  · next hskip =>
    split at h
    · simp at h
    · simp only [Link.descendant.injEq] at h
      rw [← h.1, ← h.2, ← hskip, hsplit]

theorem link_cases (text : Text) :
    link text = .none ∨ ∃ combinator rest,
      link text = .explicit combinator rest ∨ link text = .descendant combinator rest := by
  cases h : link text with
  | none => exact .inl rfl
  | explicit combinator rest => exact .inr ⟨combinator, rest, .inl rfl⟩
  | descendant combinator rest => exact .inr ⟨combinator, rest, .inr rfl⟩

theorem length_le_of_link {text combinator rest : Text}
    (h : link text = .explicit combinator rest ∨ link text = .descendant combinator rest) :
    rest.length ≤ text.length := by
  have hsplit : text = combinator ++ rest := h.elim link_eq_explicit link_eq_descendant
  rw [hsplit, List.length_append]
  exact Nat.le_add_left _ _

/-- Extends the chain `left` by the combinators and compounds that follow it.  Spaces that no
compound follows are left in the rest. -/
def chain (nested : Reader) (left : Selector) (text : Text) : Except Failure (Selector × Text) :=
  match _hlink : link text with
  | .none => .ok (left, text)
  | .explicit combinator rest =>
    match _hright : compound nested rest with
    | .read right after => chain nested (.complex left combinator right) after
    | .absent => .error (.here .expectedAfterCombinator rest)
    | .failed failure => .error failure
  | .descendant combinator rest =>
    match _hright : compound nested rest with
    | .read right after => chain nested (.complex left combinator right) after
    | .absent => .ok (left, text)
    | .failed failure => .error failure
termination_by text.length
decreasing_by
  · have hlt := length_lt_of_compound_eq_read _hright
    exact Nat.lt_of_lt_of_le hlt (length_le_of_link (.inl _hlink))
  · have hlt := length_lt_of_compound_eq_read _hright
    exact Nat.lt_of_lt_of_le hlt (length_le_of_link (.inr _hlink))

theorem chain_of_none {nested : Reader} {left : Selector} {text : Text} (h : link text = .none) :
    chain nested left text = .ok (left, text) := by
  rw [chain.eq_def]
  split
  · rfl
  · next hlink => cases h.symm.trans hlink
  · next hlink => cases h.symm.trans hlink

theorem chain_of_explicit {nested : Reader} {left : Selector} {text combinator rest : Text}
    (h : link text = .explicit combinator rest) :
    chain nested left text =
      match compound nested rest with
      | .read right after => chain nested (.complex left combinator right) after
      | .absent => .error (.here .expectedAfterCombinator rest)
      | .failed failure => .error failure := by
  rw [chain.eq_def]
  split
  · next hlink => cases h.symm.trans hlink
  · next hlink =>
    obtain ⟨rfl, rfl⟩ := Link.explicit.inj (h.symm.trans hlink)
    split
    · next hright => rw [hright]
    · next hright => rw [hright]
    · next hright => rw [hright]
  · next hlink => cases h.symm.trans hlink

theorem chain_of_descendant {nested : Reader} {left : Selector} {text combinator rest : Text}
    (h : link text = .descendant combinator rest) :
    chain nested left text =
      match compound nested rest with
      | .read right after => chain nested (.complex left combinator right) after
      | .absent => .ok (left, text)
      | .failed failure => .error failure := by
  rw [chain.eq_def]
  split
  · next hlink => cases h.symm.trans hlink
  · next hlink => cases h.symm.trans hlink
  · next hlink =>
    obtain ⟨rfl, rfl⟩ := Link.descendant.inj (h.symm.trans hlink)
    split
    · next hright => rw [hright]
    · next hright => rw [hright]
    · next hright => rw [hright]

/-- Behind a combinator of either kind a compound is read.  What it means that none is there depends
on the combinator, but not on the reader of arguments. -/
theorem exists_chain_of_link (left : Selector) {text combinator rest : Text}
    (h : link text = .explicit combinator rest ∨ link text = .descendant combinator rest) :
    ∃ missing, ∀ nested, chain nested left text =
      match compound nested rest with
      | .read right after => chain nested (.complex left combinator right) after
      | .absent => missing
      | .failed failure => .error failure := by
  rcases h with h | h
  · exact ⟨_, fun _ => chain_of_explicit h⟩
  · exact ⟨_, fun _ => chain_of_descendant h⟩

theorem length_le_of_chain_eq_ok {nested : Reader} {left selector : Selector} {text rest : Text}
    (h : chain nested left text = .ok (selector, rest)) : rest.length ≤ text.length := by
  fun_induction chain nested left text with
  | case1 =>
    simp only [Except.ok.injEq, Prod.mk.injEq] at h
    exact h.2 ▸ Nat.le_refl _
  | case2 left text combinator after hlink right last hright ih =>
    have hlt := length_lt_of_compound_eq_read hright
    have hlink := length_le_of_link (.inl hlink)
    have hle := ih h
    omega
  | case3 => simp at h
  | case4 => simp at h
  | case5 left text combinator after hlink right last hright ih =>
    have hlt := length_lt_of_compound_eq_read hright
    have hlink := length_le_of_link (.inr hlink)
    have hle := ih h
    omega
  | case6 =>
    simp only [Except.ok.injEq, Prod.mk.injEq] at h
    exact h.2 ▸ Nat.le_refl _
  | case7 => simp at h

/-- Reads a complex selector: compounds joined by combinators, grouped to the left. -/
def complex (nested : Reader) (text : Text) : Reply Selector :=
  match compound nested text with
  | .absent => .absent
  | .failed failure => .failed failure
  | .read first rest =>
    match chain nested first rest with
    | .ok (selector, after) => .read selector after
    | .error failure => .failed failure

theorem length_lt_of_complex_eq_read {nested : Reader} {text rest : Text} {selector : Selector}
    (h : complex nested text = .read selector rest) : rest.length < text.length := by
  simp only [complex] at h
  split at h
  · simp at h
  · simp at h
  · next hfirst =>
    have hlt := length_lt_of_compound_eq_read hfirst
    split at h
    · next hchain =>
      have hle := length_le_of_chain_eq_ok hchain
      simp only [Reply.read.injEq] at h
      rw [← h.2]
      omega
    · simp at h

/-- Reads a complex selector behind a leading combinator. -/
def anchored (nested : Reader) (combinator rest : Text) : Reply Selector :=
  match complex nested rest with
  | .read selector after => .read (.relative combinator selector) after
  | .absent => .failed (.here .expectedAfterCombinator rest)
  | .failed failure => .failed failure

/-- Reads a complex selector with an optional leading combinator. -/
def relative (nested : Reader) : Text → Reply Selector
  | c :: after =>
    if isCombinator c then anchored nested (c :: Text.leadingSpace after) (Text.skipSpace after)
    else complex nested (c :: after)
  | [] => complex nested []

/-- Reads one branch of a list. -/
def branch (nested : Reader) : Mode → Text → Reply Selector
  | .plain => complex nested
  | .relative => relative nested

theorem length_lt_of_relative_eq_read {nested : Reader} {text rest : Text} {selector : Selector}
    (h : relative nested text = .read selector rest) : rest.length < text.length := by
  unfold relative at h
  split at h
  · next c after =>
    split at h
    · simp only [anchored] at h
      split at h
      · next hcomplex =>
        have hlt := length_lt_of_complex_eq_read hcomplex
        have hle := Text.length_skipSpace_le after
        simp only [Reply.read.injEq] at h
        rw [← h.2, List.length_cons]
        omega
      · simp at h
      · simp at h
    · exact length_lt_of_complex_eq_read h
  · exact length_lt_of_complex_eq_read h

theorem length_lt_of_branch_eq_read {nested : Reader} {mode : Mode} {text rest : Text}
    {selector : Selector} (h : branch nested mode text = .read selector rest) :
    rest.length < text.length := by
  cases mode with
  | plain => exact length_lt_of_complex_eq_read h
  | relative => exact length_lt_of_relative_eq_read h

/-- The text behind a comma and the spaces around it. -/
def comma? (text : Text) : Option Text :=
  match text.skipSpace with
  | ',' :: after => some (Text.skipSpace after)
  | _ => none

theorem length_lt_of_comma?_eq_some {text rest : Text} (h : comma? text = some rest) :
    rest.length < text.length := by
  simp only [comma?] at h
  split at h
  · next after hskip =>
    simp only [Option.some.injEq] at h
    have houter := Text.length_skipSpace_le text
    have hinner := Text.length_skipSpace_le after
    rw [hskip, List.length_cons] at houter
    rw [← h]
    omega
  · simp at h

/-- Reads the branches that follow the first one. -/
def branches (nested : Reader) (mode : Mode) (text : Text) :
    Except Failure (List Selector × Text) :=
  match _hcomma : comma? text with
  | none => .ok ([], text)
  | some start =>
    match _hbranch : branch nested mode start with
    | .absent => .error (.here .expectedAfterComma start)
    | .failed failure => .error failure
    | .read item rest =>
      match branches nested mode rest with
      | .ok (items, after) => .ok (item :: items, after)
      | .error failure => .error failure
termination_by text.length
decreasing_by
  exact Nat.lt_trans (length_lt_of_branch_eq_read _hbranch) (length_lt_of_comma?_eq_some _hcomma)

theorem branches_of_none {nested : Reader} {mode : Mode} {text : Text} (h : comma? text = none) :
    branches nested mode text = .ok ([], text) := by
  rw [branches.eq_def]
  split
  · rfl
  · next hcomma => cases h.symm.trans hcomma

theorem branches_of_some {nested : Reader} {mode : Mode} {text start : Text}
    (h : comma? text = some start) :
    branches nested mode text =
      match branch nested mode start with
      | .absent => .error (.here .expectedAfterComma start)
      | .failed failure => .error failure
      | .read item rest =>
        match branches nested mode rest with
        | .ok (items, after) => .ok (item :: items, after)
        | .error failure => .error failure := by
  rw [branches.eq_def]
  split
  · next hcomma => cases h.symm.trans hcomma
  · next hcomma =>
    obtain rfl := Option.some.inj (h.symm.trans hcomma)
    split
    · next hbranch => rw [hbranch]
    · next hbranch => rw [hbranch]
    · next hbranch => rw [hbranch]

/-- Reads a list of branches.  A single branch is not made a list. -/
def list (nested : Reader) (mode : Mode) (text : Text) : Except Failure (Selector × Text) :=
  match branch nested mode text with
  | .absent => .error (.here .expectedSelector text)
  | .failed failure => .error failure
  | .read first rest =>
    match branches nested mode rest with
    | .ok ([], after) => .ok (first, after)
    | .ok (items, after) => .ok (.list (first :: items), after)
    | .error failure => .error failure

/-- Reads a whole text as a list, with blanks at its two ends. -/
def complete (nested : Reader) (mode : Mode) (source : Text) : Except Failure Selector :=
  if source.isBlankText then .error (.here .expectedSelector [])
  else
    match list nested mode source.trimStart with
    | .error failure => .error failure
    | .ok (selector, rest) =>
      match rest.trimStart with
      | [] => .ok selector
      | c :: after => .error (.here (.unexpected c) (c :: after))

end Grammar

end ScopedCss.Selector
