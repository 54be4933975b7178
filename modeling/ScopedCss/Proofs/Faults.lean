import ScopedCss.Proofs.References

/-!
# What is wrong with a style sheet

The faults of a style sheet are the errors that a run can stop with, one for each `composes`
declaration and each rule that is wrong.  `ComposesAllowed` says of a `composes` declaration what it
takes not to be wrong.
-/

namespace ScopedCss

namespace Scoping

/-- What is wrong with a `composes` declaration below the given heads. -/
def composesFault? (above : List BlockHead) (content : Declaration) : Option Error :=
  match above with
  | [.rule head] =>
    match Selector.parse .plain head.selector with
    | .error error => some (.selectorParse error (ruleLocation head))
    | .ok tree =>
      if tree.branches.any fun branch => (singleName? branch).isNone then
        some (.complexSelector (ruleLocation head))
      else if (Reference.parse? content.value).isNone then
        some (.invalidComposes (declarationLocation content))
      else none
  | _ => some (.nestedRule (declarationLocation content))

/-- A `composes` declaration below the given heads is allowed: it stands directly in a rule of the
top level, each branch of the selector of this rule is a single class or id, and its value is a
reference. -/
def ComposesAllowed (above : List BlockHead) (content : Declaration) : Prop :=
  ∃ head tree, above = [.rule head] ∧ Selector.parse .plain head.selector = .ok tree ∧
    (∀ branch ∈ tree.branches, ∃ name,
      branch = .compound [.className name] ∨ branch = .compound [.idName name]) ∧
    (Reference.parse? content.value).isSome = true

theorem singleName?_eq_some_iff {branch : Selector} {name : Text} :
    singleName? branch = some name ↔
      branch = .compound [.className name] ∨ branch = .compound [.idName name] := by
  constructor
  · intro h
    unfold singleName? at h
    split at h
    · exact .inl (by rw [Option.some.inj h])
    · exact .inr (by rw [Option.some.inj h])
    · simp at h
  · rintro (rfl | rfl) <;> rfl

theorem any_isNone_singleName?_eq_false_iff {branches : List Selector} :
    (branches.any fun branch => (singleName? branch).isNone) = false ↔
      ∀ branch ∈ branches, ∃ name,
        branch = .compound [.className name] ∨ branch = .compound [.idName name] := by
  simp only [List.any_eq_false, Bool.not_eq_true, Option.isNone_eq_false_iff,
    Option.isSome_iff_exists, singleName?_eq_some_iff]

/-- Nothing is wrong with a `composes` declaration exactly if it is allowed. -/
theorem composesFault?_eq_none_iff {above : List BlockHead} {content : Declaration} :
    composesFault? above content = none ↔ ComposesAllowed above content := by
  constructor
  · intro h
    unfold composesFault? at h
    split at h
    · next head =>
      split at h
      · simp at h
      · next tree hparse =>
        split at h
        · simp at h
        · next hbranches =>
          split at h
          · simp at h
          · next hreference =>
            rw [Bool.not_eq_true] at hbranches
            exact ⟨head, tree, rfl, hparse, any_isNone_singleName?_eq_false_iff.1 hbranches,
              Option.isSome_iff_ne_none.2 (by simpa using hreference)⟩
    · simp at h
  · rintro ⟨head, tree, rfl, hparse, hbranches, hreference⟩
    have hsingle := any_isNone_singleName?_eq_false_iff.2 hbranches
    simp [composesFault?, hparse, hsingle, Option.isSome_iff_ne_none.1 hreference]

theorem exists_of_composesFault?_eq_none {above : List BlockHead} {content : Declaration}
    (h : composesFault? above content = none) :
    ∃ head reference, above = [.rule head] ∧ Reference.parse? content.value = some reference := by
  obtain ⟨head, -, habove, -, -, hsome⟩ := composesFault?_eq_none_iff.1 h
  obtain ⟨reference, hreference⟩ := Option.isSome_iff_exists.1 hsome
  exact ⟨head, reference, habove, hreference⟩

/-- What is wrong with the selector of a rule. -/
def selectorFault? (mode : Selector.Mode) (head : Rule) : Option Error :=
  match Selector.parse mode head.selector with
  | .error error => some (.selectorParse error (ruleLocation head))
  | .ok tree => scopeFault (ruleLocation head) tree.firstBadScope?

end Scoping

namespace Site

/-- What is wrong with a `composes` declaration at the site. -/
def composesFault? : Site → Option Scoping.Error
  | .declaration above content =>
    if content.isComposes then Scoping.composesFault? above content else none
  | _ => none

/-- What is wrong with the selector of a rule at the site, if it is for elements. -/
def selectorFault? : Site → Option Scoping.Error
  | .rule above head =>
    if Scoping.insideKeyframes above then none
    else Scoping.selectorFault? (Scoping.selectorMode above) head
  | _ => none

end Site

namespace Sheet

/-- What is wrong with the `composes` declarations, in document order. -/
def composesFaults (sheet : Sheet) : List Scoping.Error :=
  sheet.sites.filterMap Site.composesFault?

/-- What is wrong with the selectors of rules, in document order. -/
def selectorFaults (sheet : Sheet) : List Scoping.Error :=
  sheet.sites.filterMap Site.selectorFault?

end Sheet

end ScopedCss
