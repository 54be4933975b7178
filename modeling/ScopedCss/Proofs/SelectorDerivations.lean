import ScopedCss.Proofs.Lexemes
import ScopedCss.Selector.Parser

/-!
# Derivations of selectors

`Derives level text tree rest` is the grammar as a relation: at a level, the tree is read at the
start of the text, and the rest is left.  A derivation names the text of every piece, so a fact
about all that is read is proved by one induction on it, without a look at the readers.
`Grammar.derives_of_simple` and its companions say that the readers follow the relation.
-/

namespace ScopedCss.Selector

/-- The levels of the grammar. -/
inductive Level where
  | simple
  | compound
  | chain
  | branch (mode : Mode)
  | whole (mode : Mode)

/-- The text of a combinator between two compounds, with the spaces that belong to it. -/
inductive IsLink : Text → Prop where
  | explicit {gap after : Text} {c : Char} :
    (∀ d ∈ gap, Text.isSpace d = true) → Grammar.isCombinator c = true →
    (∀ d ∈ after, Text.isSpace d = true) → IsLink (gap ++ c :: after)
  | descendant {gap : Text} : gap ≠ [] → (∀ d ∈ gap, Text.isSpace d = true) → IsLink gap

/-- The text of a combinator in front of a branch. -/
inductive IsAnchor : Text → Prop where
  | intro {after : Text} {c : Char} :
    Grammar.isCombinator c = true → (∀ d ∈ after, Text.isSpace d = true) → IsAnchor (c :: after)

/-- How a tree is read at the start of a text, level by level.  A list is read without the blanks
around it; what stands behind it is left. -/
inductive Derives : Level → Text → Selector → Text → Prop where
  | leaf {text rest : Text} {tree : Selector} :
    Spelled text (.leaf tree) rest → Derives .simple text tree rest
  | query {text rest argument back : Text} {head : Pseudo} {inner : Selector} :
    Spelled text (.query head argument) rest → parse (argumentMode head) argument = .ok inner →
    Derives (.whole (argumentMode head)) argument.trimStart inner back →
    Derives .simple text (.query head argument inner) rest
  | single {text rest : Text} {part : Selector} :
    Derives .simple text part rest → Derives .compound text (.compound [part]) rest
  | cons {text middle rest : Text} {part : Selector} {parts : List Selector} :
    Derives .simple text part middle → Derives .compound middle (.compound parts) rest →
    Derives .compound text (.compound (part :: parts)) rest
  | start {text rest : Text} {tree : Selector} :
    Derives .compound text tree rest → Derives .chain text tree rest
  | complex {text combinator middle rest : Text} {left right : Selector} :
    Derives .chain text left (combinator ++ middle) → IsLink combinator →
    Derives .compound middle right rest → Derives .chain text (.complex left combinator right) rest
  | branch {text rest : Text} {tree : Selector} (mode : Mode) :
    Derives .chain text tree rest → Derives (.branch mode) text tree rest
  | relative {combinator middle rest : Text} {tree : Selector} :
    IsAnchor combinator → Derives .chain middle tree rest →
    Derives (.branch .relative) (combinator ++ middle) (.relative combinator tree) rest
  | one {mode : Mode} {text rest : Text} {tree : Selector} :
    Derives (.branch mode) text tree rest → Derives (.whole mode) text tree rest
  | pair {mode : Mode} {text middle start rest : Text} {first second : Selector} :
    Derives (.branch mode) text first middle → Grammar.comma? middle = some start →
    Derives (.branch mode) start second rest →
    Derives (.whole mode) text (.list [first, second]) rest
  | more {mode : Mode} {text middle start rest : Text} {first : Selector} {items : List Selector} :
    Derives (.branch mode) text first middle → Grammar.comma? middle = some start →
    Derives (.whole mode) start (.list items) rest →
    Derives (.whole mode) text (.list (first :: items)) rest

/-! ## The readers follow the derivations -/

theorem parse_eq_ok_iff {mode : Mode} {source : Text} {tree : Selector} :
    parse mode source = .ok tree ↔ read mode source = .ok tree := by
  unfold parse
  split <;> simp_all

/-- A reader whose trees are parsed trees with a derivation. -/
def Reader.Derived (nested : Reader) : Prop :=
  ∀ {mode : Mode} {argument : Text} {tree : Selector}, nested mode argument = .ok tree →
    parse mode argument = .ok tree ∧ ∃ back, Derives (.whole mode) argument.trimStart tree back

namespace Grammar

variable {nested : Reader} {mode : Mode} {text rest : Text} {tree : Selector}

theorem isSpace_of_mem_leadingSpace : ∀ c ∈ text.leadingSpace, Text.isSpace c = true :=
  fun _ hc => List.mem_takeWhile_imp hc

/-- Where the character of an explicit combinator stands. -/
theorem exists_of_link_eq_explicit {combinator : Text} (h : link text = .explicit combinator rest) :
    ∃ gap c after, text = gap ++ c :: after ∧ combinator = gap ++ c :: Text.leadingSpace after ∧
      rest = Text.skipSpace after ∧ (∀ d ∈ gap, Text.isSpace d = true) ∧
      isCombinator c = true := by
  have hsplit := Text.leadingSpace_append_skipSpace text
  unfold link at h
  split at h
  · next c after hskip =>
    split at h
    · next hc =>
      obtain ⟨rfl, rfl⟩ := Link.explicit.inj h
      rw [hskip] at hsplit
      exact ⟨_, c, after, hsplit.symm, rfl, rfl, isSpace_of_mem_leadingSpace, hc⟩
    · split at h <;> simp at h
  · split at h <;> simp at h

theorem isLink_of_explicit {combinator : Text} (h : link text = .explicit combinator rest) :
    IsLink combinator := by
  obtain ⟨gap, c, after, -, rfl, -, hgap, hc⟩ := exists_of_link_eq_explicit h
  exact .explicit hgap hc isSpace_of_mem_leadingSpace

theorem isLink_of_descendant {combinator : Text} (h : link text = .descendant combinator rest) :
    IsLink combinator := by
  have hgap : ∀ gap : Text, ¬gap.isEmpty = true → gap ≠ [] := by
    rintro gap hgap rfl
    exact hgap rfl
  unfold link at h
  split at h
  · split at h
    · simp at h
    · split at h
      · simp at h
      · next hne =>
        obtain ⟨rfl, -⟩ := Link.descendant.inj h
        exact .descendant (hgap _ hne) isSpace_of_mem_leadingSpace
  · split at h
    · simp at h
    · next hne =>
      obtain ⟨rfl, -⟩ := Link.descendant.inj h
      exact .descendant (hgap _ hne) isSpace_of_mem_leadingSpace

theorem derives_of_simple (hnested : nested.Derived) (h : simple nested text = .read tree rest) :
    Derives .simple text tree rest := by
  rcases simple_eq_read_iff.1 h with hleaf | ⟨head, argument, inner, rfl, hquery, hinner⟩
  · exact .leaf hleaf
  · obtain ⟨hparse, back, hderives⟩ := hnested hinner
    exact .query hquery hparse hderives

theorem derives_of_simples (hnested : nested.Derived) {parts : List Selector}
    (h : simples nested text = .ok (parts, rest)) :
    parts = [] ∧ rest = text ∨ Derives .compound text (.compound parts) rest := by
  fun_induction simples nested text generalizing parts rest with
  | case1 =>
    obtain ⟨rfl, rfl⟩ := Prod.mk.inj (Except.ok.inj h)
    exact .inl ⟨rfl, rfl⟩
  | case2 => simp at h
  | case3 text part middle hpart parts after hparts ih =>
    obtain ⟨rfl, rfl⟩ := Prod.mk.inj (Except.ok.inj h)
    have hderives := derives_of_simple hnested hpart
    right
    rcases ih hparts with ⟨rfl, rfl⟩ | hmore
    · exact .single hderives
    · exact .cons hderives hmore
  | case4 => simp at h

theorem derives_of_compound (hnested : nested.Derived)
    (h : compound nested text = .read tree rest) : Derives .compound text tree rest := by
  simp only [compound] at h
  split at h
  · simp at h
  · next parts after hne hsimples =>
    obtain ⟨rfl, rfl⟩ := Reply.read.inj h
    rcases derives_of_simples hnested hsimples with ⟨rfl, -⟩ | hderives
    · exact absurd rfl hne
    · exact hderives
  · simp at h

theorem derives_of_chain (hnested : nested.Derived) {source : Text} {left : Selector}
    (hleft : Derives .chain source left text) (h : chain nested left text = .ok (tree, rest)) :
    Derives .chain source tree rest := by
  fun_induction chain nested left text with
  | case1 =>
    obtain ⟨rfl, rfl⟩ := Prod.mk.inj (Except.ok.inj h)
    exact hleft
  | case2 left text combinator middle hlink right after hright ih =>
    obtain rfl := link_eq_explicit hlink
    exact ih (.complex hleft (isLink_of_explicit hlink) (derives_of_compound hnested hright)) h
  | case3 => simp at h
  | case4 => simp at h
  | case5 left text combinator middle hlink right after hright ih =>
    obtain rfl := link_eq_descendant hlink
    exact ih (.complex hleft (isLink_of_descendant hlink) (derives_of_compound hnested hright)) h
  | case6 =>
    obtain ⟨rfl, rfl⟩ := Prod.mk.inj (Except.ok.inj h)
    exact hleft
  | case7 => simp at h

theorem derives_of_complex (hnested : nested.Derived) (h : complex nested text = .read tree rest) :
    Derives .chain text tree rest := by
  simp only [complex] at h
  split at h
  · simp at h
  · simp at h
  · next hfirst =>
    split at h
    · next hchain =>
      obtain ⟨rfl, rfl⟩ := Reply.read.inj h
      exact derives_of_chain hnested (.start (derives_of_compound hnested hfirst)) hchain
    · simp at h

theorem derives_of_relative (hnested : nested.Derived)
    (h : relative nested text = .read tree rest) : Derives (.branch .relative) text tree rest := by
  unfold relative at h
  split at h
  · next c after =>
    split at h
    · next hc =>
      simp only [anchored] at h
      split at h
      · next hcomplex =>
        obtain ⟨rfl, rfl⟩ := Reply.read.inj h
        have hanchor : IsAnchor (c :: Text.leadingSpace after) :=
          .intro hc isSpace_of_mem_leadingSpace
        have hderives := Derives.relative hanchor (derives_of_complex hnested hcomplex)
        rwa [List.cons_append, Text.leadingSpace_append_skipSpace] at hderives
      · simp at h
      · simp at h
    · exact .branch .relative (derives_of_complex hnested h)
  · exact .branch .relative (derives_of_complex hnested h)

theorem derives_of_branch (hnested : nested.Derived)
    (h : branch nested mode text = .read tree rest) : Derives (.branch mode) text tree rest := by
  cases mode with
  | plain => exact .branch .plain (derives_of_complex hnested h)
  | relative => exact derives_of_relative hnested h

theorem derives_of_branches (hnested : nested.Derived) {source : Text} {first : Selector}
    {items : List Selector} (hfirst : Derives (.branch mode) source first text)
    (h : branches nested mode text = .ok (items, rest)) :
    items = [] ∧ rest = text ∨
      items ≠ [] ∧ Derives (.whole mode) source (.list (first :: items)) rest := by
  fun_induction branches nested mode text generalizing source first items rest with
  | case1 =>
    obtain ⟨rfl, rfl⟩ := Prod.mk.inj (Except.ok.inj h)
    exact .inl ⟨rfl, rfl⟩
  | case2 => simp at h
  | case3 => simp at h
  | case4 text start hcomma item after hitem items last hitems ih =>
    obtain ⟨rfl, rfl⟩ := Prod.mk.inj (Except.ok.inj h)
    have hbranch := derives_of_branch hnested hitem
    refine .inr ⟨List.cons_ne_nil item items, ?_⟩
    rcases ih hbranch hitems with ⟨rfl, rfl⟩ | ⟨-, hmore⟩
    · exact .pair hfirst hcomma hbranch
    · exact .more hfirst hcomma hmore
  | case5 => simp at h

theorem derives_of_list (hnested : nested.Derived) (h : list nested mode text = .ok (tree, rest)) :
    Derives (.whole mode) text tree rest := by
  simp only [list] at h
  split at h
  · simp at h
  · simp at h
  · next hfirst =>
    have hbranch := derives_of_branch hnested hfirst
    split at h
    · next hitems =>
      obtain ⟨rfl, rfl⟩ := Prod.mk.inj (Except.ok.inj h)
      rcases derives_of_branches hnested hbranch hitems with ⟨-, rfl⟩ | ⟨hne, -⟩
      · exact .one hbranch
      · exact absurd rfl hne
    · next items after hne hitems =>
      obtain ⟨rfl, rfl⟩ := Prod.mk.inj (Except.ok.inj h)
      rcases derives_of_branches hnested hbranch hitems with ⟨hnil, -⟩ | ⟨-, hlist⟩
      · exact absurd hnil hne
      · exact hlist
    · simp at h

/-- A whole text is read as a list if only blanks are left behind the list. -/
theorem complete_eq_ok_iff {source : Text} :
    complete nested mode source = .ok tree ↔
      source.isBlankText = false ∧
        ∃ back, list nested mode source.trimStart = .ok (tree, back) ∧ back.trimStart = [] := by
  simp only [complete]
  split
  · next hblank => simp [hblank]
  · next hblank =>
    rw [Bool.not_eq_true] at hblank
    split
    · next hlist => simp [hlist]
    · next found back hlist =>
      split
      · next hback =>
        simp only [Except.ok.injEq, hblank, hlist, Prod.mk.injEq, true_and]
        constructor
        · rintro rfl
          exact ⟨back, ⟨rfl, rfl⟩, hback⟩
        · rintro ⟨_, ⟨htree, -⟩, -⟩
          exact htree
      · next c after hback =>
        simp only [reduceCtorEq, hlist, Except.ok.injEq, Prod.mk.injEq, false_iff]
        rintro ⟨-, _, ⟨-, rfl⟩, hnil⟩
        simp [hback] at hnil

theorem derives_of_complete (hnested : nested.Derived) {source : Text}
    (h : complete nested mode source = .ok tree) :
    ∃ back, Derives (.whole mode) source.trimStart tree back := by
  obtain ⟨-, back, hlist, -⟩ := complete_eq_ok_iff.1 h
  exact ⟨back, derives_of_list hnested hlist⟩

end Grammar

theorem derives_of_read {mode : Mode} {source : Text} {tree : Selector}
    (h : read mode source = .ok tree) :
    ∃ back, Derives (.whole mode) source.trimStart tree back := by
  rw [read] at h
  refine Grammar.derives_of_complete ?_ h
  intro inner argument subtree hinner
  dsimp only at hinner
  split at hinner
  · exact ⟨parse_eq_ok_iff.2 hinner, derives_of_read hinner⟩
  · simp at hinner
termination_by source.length

theorem derives_of_parse {mode : Mode} {source : Text} {tree : Selector}
    (h : parse mode source = .ok tree) :
    ∃ back, Derives (.whole mode) source.trimStart tree back :=
  derives_of_read (parse_eq_ok_iff.1 h)

/-- The reader of whole texts reads what the grammar derives. -/
theorem derived_read : Reader.Derived read :=
  fun h => ⟨parse_eq_ok_iff.2 h, derives_of_read h⟩

/-! ## The rest is a suffix -/

theorem Spelled.suffix {text rest : Text} {lexeme : Lexeme} (h : Spelled text lexeme rest) :
    rest <:+ text := by
  cases h with
  | typeName => exact List.suffix_append _ _
  | universal => exact List.suffix_cons _ _
  | nesting => exact List.suffix_cons _ _
  | className => exact (List.suffix_append _ _).trans (List.suffix_cons _ _)
  | idName => exact (List.suffix_append _ _).trans (List.suffix_cons _ _)
  | @attr content => exact ⟨'[' :: (content ++ [']']), by simp⟩
  | pseudo => exact List.suffix_append _ _
  | @function head argument => exact ⟨head.render ++ '(' :: (argument ++ [')']), by simp⟩
  | @query head argument => exact ⟨head.render ++ '(' :: (argument ++ [')']), by simp⟩

/-- Where the comma stands. -/
theorem Grammar.comma?_eq_some {text start : Text} (h : comma? text = some start) :
    ∃ gap after, text = gap ++ ',' :: after ∧ (∀ c ∈ gap, Text.isSpace c = true) ∧
      start = Text.skipSpace after := by
  have hsplit := Text.leadingSpace_append_skipSpace text
  unfold comma? at h
  split at h
  · next after hskip =>
    rw [hskip] at hsplit
    exact ⟨_, after, hsplit.symm, isSpace_of_mem_leadingSpace, (Option.some.inj h).symm⟩
  · cases h

theorem Grammar.suffix_of_comma? {text rest : Text} (h : comma? text = some rest) :
    rest <:+ text := by
  obtain ⟨gap, after, rfl, -, rfl⟩ := comma?_eq_some h
  have hcomma : ',' :: after <:+ gap ++ ',' :: after := List.suffix_append _ _
  exact (List.dropWhile_suffix _).trans ((List.suffix_cons _ _).trans hcomma)

theorem Derives.suffix {level : Level} {text rest : Text} {tree : Selector}
    (h : Derives level text tree rest) : rest <:+ text := by
  induction h with
  | leaf hspelled => exact hspelled.suffix
  | query hspelled => exact hspelled.suffix
  | single _ ih => exact ih
  | cons _ _ ihpart ihparts => exact ihparts.trans ihpart
  | start _ ih => exact ih
  | complex _ _ _ ihleft ihright =>
    exact ihright.trans ((List.suffix_append _ _).trans ihleft)
  | branch _ _ ih => exact ih
  | relative _ _ ih => exact ih.trans (List.suffix_append _ _)
  | one _ ih => exact ih
  | pair _ hcomma _ ihfirst ihsecond =>
    exact ihsecond.trans ((Grammar.suffix_of_comma? hcomma).trans ihfirst)
  | more _ hcomma _ ihfirst ihitems =>
    exact ihitems.trans ((Grammar.suffix_of_comma? hcomma).trans ihfirst)

/-! ## Replies that can be evaluated -/

/-- A result whose view can be evaluated is a success with that view. -/
theorem exists_ok_of_map {ε α β : Type} {result : Except ε α} {view : α → β} {value : β}
    (h : result.toOption.map view = some value) : ∃ a, result = .ok a ∧ view a = value := by
  cases result with
  | error error => simp [Except.toOption] at h
  | ok a => exact ⟨a, rfl, by simpa [Except.toOption] using h⟩

theorem eq_error_of_map {ε α : Type} {result : Except ε α} {error : ε}
    (h : (result.map fun _ => ()) = .error error) : result = .error error := by
  cases result with
  | error other => exact congrArg _ (Except.error.inj h)
  | ok a => simp [Except.map] at h

/-- A reply whose view can be evaluated is a reading with that view. -/
theorem exists_read_of_view {α β : Type} {reply : Reply α} {view : α → Text → β} {value : β}
    (h : (match reply with
      | .read a rest => some (view a rest)
      | _ => none) = some value) : ∃ a rest, reply = .read a rest ∧ view a rest = value := by
  split at h
  · next a rest => exact ⟨a, rest, rfl, Option.some.inj h⟩
  · simp at h

end ScopedCss.Selector
