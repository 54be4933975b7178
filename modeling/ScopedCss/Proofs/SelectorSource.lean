import ScopedCss.Proofs.SelectorLayout

/-!
# The source text of a selector

Reading loses no text: whichever part of the grammar is read, the text is what was read and what is
left, character by character (`text_eq_raw_append`).  A tree keeps its arguments both as text and as
trees; `raw` prints the text, so an argument stands in it as it was written.
-/

namespace ScopedCss.Selector

mutual

/-- The tree in which no argument has been read. -/
def unread : Selector → Selector
  | .query head argument _ => .function head argument
  | .compound parts => .compound (unreadAll parts)
  | .complex left combinator right => .complex left.unread combinator right.unread
  | .list items => .list (unreadAll items)
  | .relative combinator selector => .relative combinator selector.unread
  | tree => tree

/-- The selectors, each with its arguments unread. -/
def unreadAll : List Selector → List Selector
  | [] => []
  | first :: rest => first.unread :: unreadAll rest

end

/-- The text of a selector with every argument as it was written. -/
def raw (tree : Selector) : Text :=
  tree.unread.render

/-- The conditions of attribute selectors that stand outside every argument. -/
def outerConditions (tree : Selector) : List Attribute :=
  tree.unread.conditions

theorem raw_compound_cons (part : Selector) (parts : List Selector) :
    (Selector.compound (part :: parts)).raw = part.raw ++ (Selector.compound parts).raw := by
  simp only [raw, unread, unreadAll, render, renderParts]

theorem outerConditions_compound_cons (part : Selector) (parts : List Selector) :
    (Selector.compound (part :: parts)).outerConditions =
      part.outerConditions ++ (Selector.compound parts).outerConditions := by
  simp only [outerConditions, conditions, unread, unreadAll, leaves, leavesAll,
    List.filterMap_append]

theorem outerConditions_complex (left right : Selector) (combinator : Text) :
    (Selector.complex left combinator right).outerConditions =
      left.outerConditions ++ right.outerConditions := by
  simp only [outerConditions, conditions, unread, leaves, List.filterMap_append]

/-- A simple selector is spelled as it is printed, except for a condition. -/
theorem Spelled.text_eq {text rest : Text} {tree : Selector} (h : Spelled text (.leaf tree) rest)
    (hfree : tree.outerConditions = []) : text = tree.raw ++ rest := by
  cases h with
  | typeName => rfl
  | universal => rfl
  | nesting => rfl
  | className => rfl
  | idName => rfl
  | attr => simp [outerConditions, conditions, unread, leaves, condition?] at hfree
  | pseudo => rfl
  | function => simp [raw, unread, render]

/-- What was read and what is left are the text, below the level of lists. -/
theorem Derives.text_eq {level : Level} {text rest : Text} {tree : Selector}
    (h : Derives level text tree rest) (hlevel : ∀ mode, level ≠ .whole mode)
    (hfree : tree.outerConditions = []) : text = tree.raw ++ rest := by
  induction h with
  | leaf hspelled => exact hspelled.text_eq hfree
  | query hspelled =>
    cases hspelled with
    | query => simp [raw, unread, render]
  | single _ ih =>
    rw [outerConditions_compound_cons, List.append_eq_nil_iff] at hfree
    rw [raw_compound_cons, List.append_assoc]
    exact ih nofun hfree.1
  | cons _ _ ihpart ihparts =>
    rw [outerConditions_compound_cons, List.append_eq_nil_iff] at hfree
    rw [raw_compound_cons, List.append_assoc, ← ihparts nofun hfree.2]
    exact ihpart nofun hfree.1
  | start _ ih => exact ih nofun hfree
  | @complex text combinator middle rest left right _ _ _ ihleft ihright =>
    rw [outerConditions_complex, List.append_eq_nil_iff] at hfree
    calc
      text = left.raw ++ (combinator ++ middle) := ihleft nofun hfree.1
      _ = left.raw ++ (combinator ++ (right.raw ++ rest)) := by rw [← ihright nofun hfree.2]
      _ = (Selector.complex left combinator right).raw ++ rest := by simp [raw, unread, render]
  | branch _ _ ih => exact ih nofun hfree
  | @relative combinator middle rest tree _ _ ih =>
    calc
      combinator ++ middle = combinator ++ (tree.raw ++ rest) := by rw [← ih nofun hfree]
      _ = (Selector.relative combinator tree).raw ++ rest := by simp [raw, unread, render]
  | one => exact absurd rfl (hlevel _)
  | pair => exact absurd rfl (hlevel _)
  | more => exact absurd rfl (hlevel _)

/-- Reading loses no text: whichever part of the grammar is read, the text is what was read, with
every argument as it was written, and what is left.  Only a condition does not keep the blanks
between its brackets. -/
theorem text_eq_raw_append {reader : Text → Reply Selector} {text rest : Text} {tree : Selector}
    (hreader : reader ∈ [Grammar.simple read, Grammar.compound read, Grammar.complex read,
      Grammar.relative read])
    (h : reader text = .read tree rest) (hfree : tree.outerConditions = []) :
    text = tree.raw ++ rest := by
  simp only [List.mem_cons, List.not_mem_nil, or_false] at hreader
  rcases hreader with rfl | rfl | rfl | rfl
  · exact (Grammar.derives_of_simple derived_read h).text_eq nofun hfree
  · exact (Grammar.derives_of_compound derived_read h).text_eq nofun hfree
  · exact (Grammar.derives_of_complex derived_read h).text_eq nofun hfree
  · exact (Grammar.derives_of_relative derived_read h).text_eq nofun hfree

theorem text_eq_raw_append_sample :
    ∃ tree, Grammar.relative read ">  .\\31  b:not( [x = y] , .q )~#c:lang( en )  , d".toList =
        .read tree "  , d".toList ∧
      tree.outerConditions = [] ∧
      tree.render = ">  .\\31  b:not([x=y],.q)~#c:lang( en )".toList ∧
      ">  .\\31  b:not( [x = y] , .q )~#c:lang( en )  , d".toList = tree.raw ++ "  , d".toList := by
  let view (tree : Selector) (rest : Text) := (tree.outerConditions, tree.render, rest)
  obtain ⟨tree, rest, hread, hview⟩ : ∃ tree rest,
      Grammar.relative read ">  .\\31  b:not( [x = y] , .q )~#c:lang( en )  , d".toList =
        .read tree rest ∧ view tree rest =
      ([], ">  .\\31  b:not([x=y],.q)~#c:lang( en )".toList, "  , d".toList) :=
    exists_read_of_view (by decide +kernel)
  simp only [view, Prod.mk.injEq] at hview
  obtain ⟨hfree, hrender, rfl⟩ := hview
  exact ⟨tree, hread, hfree, hrender, text_eq_raw_append (by simp) hread hfree⟩

end ScopedCss.Selector
