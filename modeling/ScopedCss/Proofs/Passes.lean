import ScopedCss.Proofs.Faults
import ScopedCss.Proofs.Substitution
import ScopedCss.Scoping.Keyframes

/-!
# The four passes

Each pass follows an outline: keyframes and animations never fail and refer to the names of their
kind, `composes` declarations also add compositions, and selectors are substituted.
-/

namespace ScopedCss.Scoping

open Registry (Use Agrees)

variable {namer : Namer} {rename : Text → Text}

/-! ## Keyframes -/

/-- What the pass over keyframes does. -/
def keyframesOutline (rename : Text → Text) : Outline where
  uses := fun site => site.keyframesName?.toList.map .refer
  atRule := AtRule.substitute rename

theorem scopeKeyframes_of_none {head : AtRule} (h : head.keyframesName? = none) :
    scopeKeyframes namer head = pure head := by
  rw [AtRule.keyframesName?, ite_eq_right_iff] at h
  exact if_neg fun hname => nomatch h hname

theorem scopeKeyframes_of_some {head : AtRule} {name : Text} (h : head.keyframesName? = some name) :
    scopeKeyframes namer head = do
      let scopedName ← localName namer name
      record .trace ('@' :: (head.name ++ ' ' :: name ++ " -> ".toList ++ scopedName))
      return { head with params := scopedName } := by
  rw [AtRule.keyframesName?, Option.ite_none_right_eq_some, Option.some.injEq] at h
  obtain ⟨hname, rfl⟩ := h
  exact if_pos hname

theorem keyframesPass_follows :
    (keyframesPass namer).Follows namer rename (keyframesOutline rename) where
  rule_stops := fun _ head => Stops.pure head
  atRule_stops := by
    intro head
    show Stops (scopeKeyframes namer head) none
    cases hname : head.keyframesName? with
    | none =>
      rw [scopeKeyframes_of_none hname]
      exact Stops.pure head
    | some name =>
      rw [scopeKeyframes_of_some hname]
      refine Stops.bind_right (Stops.localName namer name) fun _ => ?_
      exact Stops.bind_right (Stops.record _ _) fun _ => Stops.pure _
  declaration_stops := fun _ content => Stops.pure (some content)
  rule_yields := fun _ _ head _ _ => Yields.pure head
  atRule_yields := by
    intro before head hagrees _
    simp only [keyframesOutline, Site.keyframesName?, AtRule.substitute] at hagrees ⊢
    show Yields namer (scopeKeyframes namer head) _ _ _
    cases hname : head.keyframesName? with
    | none =>
      rw [scopeKeyframes_of_none hname]
      exact Yields.pure head
    | some name =>
      rw [hname] at hagrees
      rw [scopeKeyframes_of_some hname]
      refine Yields.bind_left (localName_yields hagrees) ?_
      exact Yields.bind_right (Yields.record _ _) (Yields.pure _)
  declaration_yields := fun _ _ content _ _ => Yields.pure (some content)

/-! ## Animations -/

/-- What the pass over animations does. -/
def animationOutline (rename : Text → Text) : Outline where
  uses := fun site => site.animationName?.toList.map .refer
  declaration := fun known content => some (content.substitute rename known)

theorem scopeWord_ofUses {before : List Use} (hagrees : Agrees namer rename before) (word : Text) :
    scopeWord (Registry.ofUses namer before) word =
      if word ∈ before.map Use.name then rename word else word := by
  unfold scopeWord
  rw [Registry.find?_ofUses]
  by_cases hword : word ∈ before.map Use.name
  · rw [if_pos hword, if_pos hword, hagrees word hword]
    rfl
  · rw [if_neg hword, if_neg hword]

theorem scopeAnimation_stops (content : Declaration) :
    Stops (scopeAnimation namer content) none := by
  unfold scopeAnimation
  split
  · dsimp only
    split
    · exact Stops.pure content
    · refine Stops.bind_right (Stops.localName namer _) fun _ => ?_
      exact Stops.bind_right (Stops.record _ _) fun _ => Stops.pure _
  · refine Stops.bind_get fun _ => ?_
    exact Stops.bind_right (Stops.record _ _) fun _ => Stops.pure _
  · exact Stops.pure content

theorem scopeAnimation_yields {before : List Use} (content : Declaration)
    (hagrees : Agrees namer rename (before ++ content.animationName?.toList.map .refer)) :
    Yields namer (scopeAnimation namer content) before
      (content.substitute rename (before.map Use.name))
      (content.animationName?.toList.map .refer) := by
  unfold scopeAnimation
  rw [Declaration.animationName?] at hagrees ⊢
  rw [Declaration.substitute]
  cases hproperty : animationProperty? content.property with
  | none => exact Yields.pure content
  | some property =>
    rw [hproperty] at hagrees
    cases property with
    | name =>
      dsimp only at hagrees ⊢
      by_cases hblank : content.value.trim.isEmpty
      · simp only [if_pos hblank]
        exact Yields.pure content
      · simp only [if_neg hblank] at hagrees ⊢
        refine Yields.bind_left (localName_yields hagrees) ?_
        exact Yields.bind_right (Yields.record _ _) (Yields.pure _)
    | shorthand =>
      refine Yields.bind_get fun state hstate => ?_
      rw [hstate, funext (scopeWord_ofUses (Agrees.of_append hagrees))]
      exact Yields.bind_right (Yields.record _ _) (Yields.pure _)

theorem animationPass_follows :
    (animationPass namer).Follows namer rename (animationOutline rename) where
  rule_stops := fun _ head => Stops.pure head
  atRule_stops := fun head => Stops.pure head
  declaration_stops := fun _ content => Stops.map some (scopeAnimation_stops content)
  rule_yields := fun _ _ head _ _ => Yields.pure head
  atRule_yields := fun _ head _ _ => Yields.pure head
  declaration_yields := fun _ _ content hagrees _ =>
    Yields.map some (scopeAnimation_yields content hagrees)

/-! ## `composes` declarations -/

/-- The uses that a `composes` declaration makes of the registry: the composed name is looked up,
and then the composition is added to every target. -/
def composesUses (rename : Text → Text) (pair : Rule × Reference) : List Use :=
  pair.2.ownName?.toList.map .refer ++
    pair.1.targetNames.map fun name => .add name (pair.2.composition rename)

/-- What the pass over `composes` declarations does. -/
def composesOutline (rename : Text → Text) : Outline where
  fault := Site.composesFault?
  uses := fun site => site.composes?.toList.flatMap (composesUses rename)
  declaration := fun _ content => if content.isComposes then none else some content

theorem mapM_singleName? (branches : List Selector) :
    branches.mapM singleName? =
      if branches.any fun branch => (singleName? branch).isNone then none
      else some (branches.filterMap singleName?) := by
  induction branches with
  | nil => rfl
  | cons branch branches ih =>
    rw [List.mapM_cons, ih, List.any_cons]
    cases hbranch : singleName? branch with
    | none => simp
    | some name =>
      rw [List.filterMap_cons_some hbranch]
      cases branches.any fun branch => (singleName? branch).isNone <;> rfl

/-- The targets of a rule are the names of its branches, if each has one. -/
theorem targets_eq (head : Rule) :
    targets head =
      match Selector.parse .plain head.selector with
      | .error error => .error (.selectorParse error (ruleLocation head))
      | .ok tree =>
        if tree.branches.any fun branch => (singleName? branch).isNone then
          .error (.complexSelector (ruleLocation head))
        else .ok head.targetNames := by
  rw [targets]
  cases hparse : Selector.parse .plain head.selector with
  | error error => rfl
  | ok tree =>
    dsimp only
    rw [mapM_singleName?, Rule.targetNames, Rule.branches, hparse]
    cases tree.branches.any fun branch => (singleName? branch).isNone <;> rfl

theorem resolve_stops (reference : Reference) : Stops (resolve namer reference) none := by
  unfold resolve
  split
  · exact Stops.bind_right (Stops.localName namer _) fun _ => Stops.pure _
  · exact Stops.pure _
  · exact Stops.pure _

theorem resolve_yields {before : List Use} (reference : Reference)
    (hagrees : Agrees namer rename (before ++ reference.ownName?.toList.map .refer)) :
    Yields namer (resolve namer reference) before (reference.composition rename)
      (reference.ownName?.toList.map .refer) := by
  unfold resolve
  rw [Reference.ownName?] at hagrees ⊢
  rw [Reference.composition]
  cases horigin : reference.origin with
  | own =>
    rw [horigin] at hagrees
    exact Yields.map _ (localName_yields hagrees)
  | global => exact Yields.pure _
  | dependency specifier => exact Yields.pure _

/-- A declaration in a rule of the top level is wrong if the rule has no targets or the value is no
reference. -/
theorem composesFault?_rule (head : Rule) (content : Declaration) :
    composesFault? [.rule head] content =
      match targets head with
      | .error error => some error
      | .ok _ =>
        if (Reference.parse? content.value).isNone then
          some (.invalidComposes (declarationLocation content))
        else none := by
  rw [targets_eq, composesFault?]
  cases Selector.parse .plain head.selector with
  | error error => rfl
  | ok tree =>
    dsimp only
    cases tree.branches.any fun branch => (singleName? branch).isNone <;> rfl

theorem eq_targetNames_of_targets_eq_ok {head : Rule} {names : List Text}
    (h : targets head = .ok names) : names = head.targetNames := by
  rw [targets_eq] at h
  split at h
  · simp at h
  · split at h
    · simp at h
    · exact (Except.ok.inj h).symm

theorem recordComposes_stops (head : Rule) (content : Declaration) :
    Stops (recordComposes namer head content) (composesFault? [.rule head] content) := by
  rw [composesFault?_rule]
  unfold recordComposes
  cases targets head with
  | error error => exact Stops.bind_of_some _ (Stops.throw error)
  | ok names =>
    refine Stops.bind_right (Stops.pure names) fun names => ?_
    cases Reference.parse? content.value with
    | none => exact Stops.throw _
    | some reference =>
      refine Stops.bind_right (resolve_stops reference) fun composition => ?_
      refine Stops.bind_right (Stops.record _ _) fun _ => ?_
      exact Stops.forM names fun name => Stops.compose namer name composition

theorem recordComposes_yields {before : List Use} {head : Rule} {content : Declaration}
    {reference : Reference} (hfault : composesFault? [.rule head] content = none)
    (hreference : Reference.parse? content.value = some reference)
    (hagrees : Agrees namer rename (before ++ composesUses rename (head, reference))) :
    Yields namer (recordComposes namer head content) before ()
      (composesUses rename (head, reference)) := by
  rw [composesUses, ← List.append_assoc] at hagrees
  rw [composesFault?_rule] at hfault
  unfold recordComposes
  cases htargets : targets head with
  | error error => simp [htargets] at hfault
  | ok names =>
    rw [eq_targetNames_of_targets_eq_ok htargets, hreference]
    refine Yields.bind_right (Yields.pure head.targetNames) ?_
    refine Yields.bind (resolve_yields reference hagrees.of_append) ?_
    exact Yields.bind_right (Yields.record _ _) (Yields.forM_compose _ _)

theorem composesPass_follows :
    (composesPass namer).Follows namer rename (composesOutline rename) where
  rule_stops := fun _ head => Stops.pure head
  atRule_stops := fun head => Stops.pure head
  declaration_stops := by
    intro above content
    show Stops (resolveComposes namer above content)
      (if content.isComposes then composesFault? above content else none)
    unfold resolveComposes
    cases content.isComposes with
    | false => exact Stops.pure (some content)
    | true =>
      simp only [↓reduceIte]
      split
      · exact Stops.bind_left (recordComposes_stops _ content) fun _ => Stops.pure none
      · rw [composesFault?]
        · exact Stops.throw _
        · assumption
  rule_yields := fun _ _ head _ _ => Yields.pure head
  atRule_yields := fun _ head _ _ => Yields.pure head
  declaration_yields := by
    intro before above content hagrees hfault
    show Yields namer (resolveComposes namer above content) _ _ _
    simp only [composesOutline, Site.composesFault?] at hagrees hfault ⊢
    unfold resolveComposes
    cases hcomposes : content.isComposes with
    | false =>
      have hsite : (Site.declaration above content).composes? = none := by
        unfold Site.composes?
        split
        · simp_all
        · rfl
      rw [hsite]
      exact Yields.pure (some content)
    | true =>
      rw [hcomposes] at hfault
      obtain ⟨head, reference, rfl, hreference⟩ := exists_of_composesFault?_eq_none hfault
      have hsite : (Site.declaration [.rule head] content).composes? = some (head, reference) := by
        simp [Site.composes?, hcomposes, hreference]
      simp only [hsite, Option.toList_some, List.flatMap_cons, List.flatMap_nil, List.append_nil]
        at hagrees ⊢
      exact Yields.bind_left (recordComposes_yields hfault hreference hagrees) (Yields.pure none)

/-! ## Selectors -/

/-- What the pass over selectors does. -/
def selectorsOutline (rename : Text → Text) : Outline where
  fault := Site.selectorFault?
  uses := fun site => site.selector?.toList.flatMap fun tree => tree.localNames.map .refer
  rule := fun above head => head.substitute rename above

theorem scopeRule_stops (mode : Selector.Mode) (head : Rule) :
    Stops (scopeRule namer mode head) (selectorFault? mode head) := by
  unfold scopeRule selectorFault?
  cases Selector.parse mode head.selector with
  | error error => exact Stops.throw _
  | ok tree =>
    refine Stops.bind_left (scopeTree_stops false tree) fun _ => ?_
    exact Stops.bind_right (Stops.record _ _) fun _ => Stops.pure _

theorem scopeRule_yields {before : List Use} {mode : Selector.Mode} {head : Rule}
    {tree : Selector} (hparse : Selector.parse mode head.selector = .ok tree)
    (hfault : selectorFault? mode head = none)
    (hagrees : Agrees namer rename (before ++ tree.localNames.map .refer)) :
    Yields namer (scopeRule namer mode head) before
      { head with selector := (tree.substitute rename).render } (tree.localNames.map .refer) := by
  rw [selectorFault?, hparse] at hfault
  have hbad : tree.subtrees.filterMap Selector.badScope? = [] := by
    rw [← List.head?_eq_none_iff]
    exact Option.map_eq_none_iff.1 hfault
  unfold scopeRule
  rw [hparse]
  refine Yields.bind_left (scopeTree_yields false before tree hagrees hbad) ?_
  exact Yields.bind_right (Yields.record _ _) (Yields.pure _)

theorem selectorsPass_follows :
    (selectorsPass namer).Follows namer rename (selectorsOutline rename) where
  rule_stops := by
    intro above head
    show Stops (scopeSelector namer above head)
      (if insideKeyframes above then none else selectorFault? (selectorMode above) head)
    unfold scopeSelector
    cases insideKeyframes above with
    | true => exact Stops.pure head
    | false => exact scopeRule_stops (selectorMode above) head
  atRule_stops := fun head => Stops.pure head
  declaration_stops := fun _ content => Stops.pure (some content)
  rule_yields := by
    intro before above head hagrees hfault
    show Yields namer (scopeSelector namer above head) _ _ _
    simp only [selectorsOutline, Site.selectorFault?, Site.selector?, Rule.substitute]
      at hagrees hfault ⊢
    unfold scopeSelector
    cases hinside : insideKeyframes above with
    | true => exact Yields.pure head
    | false =>
      rw [hinside] at hagrees hfault
      cases hparse : Selector.parse (selectorMode above) head.selector with
      | error error => simp [selectorFault?, hparse] at hfault
      | ok tree =>
        rw [hparse] at hagrees
        simp only [Except.toOption, Bool.false_eq_true, ↓reduceIte, Option.toList_some,
          List.flatMap_cons, List.flatMap_nil, List.append_nil] at hagrees ⊢
        exact scopeRule_yields hparse hfault hagrees
  atRule_yields := fun _ head _ _ => Yields.pure head
  declaration_yields := fun _ _ content _ _ => Yields.pure (some content)

end ScopedCss.Scoping
