import ScopedCss.Proofs.Exports

/-!
# What a failed run leaves

A run that fails adds no export record, and it leaves its style sheet substituted up to the place
that stopped it.  The place is a `composes` declaration or, if all of these are right, the head of a
rule; `Frontier` says what has been done in front of it.  Since a step that fails puts nothing in
the place of what it visited, no selector is left half scoped.
-/

namespace ScopedCss

/-! ## What is in front of a frontier -/

namespace Site

/-- The `composes` declaration at the site. -/
def composesContent? : Site → Option Declaration
  | .declaration _ content => if content.isComposes then some content else none
  | _ => none

/-- The head of the rule at the site. -/
def ruleHead? : Site → Option Rule
  | .rule _ head => some head
  | _ => none

/-- The head of the rule at the site with its selector scoped. -/
def scopedHead? (rename : Text → Text) : Site → Option Rule
  | .rule above head => some (head.substitute rename above)
  | _ => none

theorem length_filterMap_composesContent? (sites : List Site) :
    (sites.filterMap composesContent?).length = sites.countP isComposes := by
  rw [List.length_filterMap_eq_countP]
  refine List.countP_congr fun site _ => ?_
  cases site with
  | rule above head => exact Iff.rfl
  | atRule head => exact Iff.rfl
  | declaration above content =>
    show (if content.isComposes then some content else none).isSome = true ↔
      content.isComposes = true
    cases content.isComposes <;> simp

theorem length_filterMap_ruleHead? (sites : List Site) :
    (sites.filterMap ruleHead?).length = sites.countP isRule := by
  rw [List.length_filterMap_eq_countP]
  refine List.countP_congr fun site _ => ?_
  cases site <;> exact Iff.rfl

theorem length_filterMap_scopedHead? (rename : Text → Text) (sites : List Site) :
    (sites.filterMap (scopedHead? rename)).length = sites.countP isRule := by
  rw [List.length_filterMap_eq_countP]
  refine List.countP_congr fun site _ => ?_
  cases site <;> exact Iff.rfl

end Site

namespace Sheet

/-- The `composes` declarations, in document order. -/
def composesContents (sheet : Sheet) : List Declaration :=
  sheet.sites.filterMap Site.composesContent?

/-- The heads of the rules, in document order. -/
def ruleHeads (sheet : Sheet) : List Rule :=
  sheet.sites.filterMap Site.ruleHead?

end Sheet

theorem Declaration.isComposes_substitute (rename : Text → Text) (known : List Text)
    (content : Declaration) :
    (content.substitute rename known).isComposes = content.isComposes := by
  have hproperty : (content.substitute rename known).property = content.property := by
    unfold Declaration.substitute
    split
    · split <;> rfl
    · rfl
    · rfl
  rw [Declaration.isComposes, hproperty, Declaration.isComposes]

namespace Frontier

/-- The `composes` declarations that are left of those at the sites. -/
def composesLeft (frontier : Frontier) (sites : List Site) : List Declaration :=
  match frontier with
  | .composes passed => (sites.filterMap Site.composesContent?).drop passed
  | .selectors _ => []

/-- What becomes of the heads of the rules at the sites. -/
def heads (rename : Text → Text) (frontier : Frontier) (sites : List Site) : List Rule :=
  match frontier with
  | .composes _ => sites.filterMap Site.ruleHead?
  | .selectors passed =>
    (sites.filterMap (Site.scopedHead? rename)).take passed ++
      (sites.filterMap Site.ruleHead?).drop passed

theorem composesLeft_append (frontier : Frontier) (first second : List Site) :
    frontier.composesLeft (first ++ second) =
      frontier.composesLeft first ++ (frontier.behind first).composesLeft second := by
  cases frontier with
  | composes passed =>
    simp only [composesLeft, behind, List.filterMap_append, List.drop_append,
      Site.length_filterMap_composesContent?]
  | selectors passed => rfl

theorem composesLeft_eq_nil (frontier : Frontier) {sites : List Site}
    (h : sites.filterMap Site.composesContent? = []) : frontier.composesLeft sites = [] := by
  cases frontier with
  | composes passed => rw [composesLeft, h, List.drop_nil]
  | selectors passed => rfl

theorem heads_append (rename : Text → Text) (frontier : Frontier) (first second : List Site) :
    frontier.heads rename (first ++ second) =
      frontier.heads rename first ++ (frontier.behind first).heads rename second := by
  cases frontier with
  | composes passed => simp only [heads, behind, List.filterMap_append]
  | selectors passed =>
    simp only [heads, behind, List.filterMap_append, List.drop_append, List.take_append,
      Site.length_filterMap_ruleHead?, Site.length_filterMap_scopedHead?]
    rcases Nat.le_total (first.countP Site.isRule) passed with hle | hle
    · -- Every rule of the first part is passed.
      have hdrop : (first.filterMap Site.ruleHead?).drop passed = [] := by
        rw [List.drop_eq_nil_iff, Site.length_filterMap_ruleHead?]
        exact hle
      simp only [hdrop, List.nil_append, List.append_nil, List.append_assoc]
    · -- No rule of the second part is passed.
      rw [Nat.sub_eq_zero_of_le hle]
      simp only [List.take_zero, List.append_nil, List.nil_append, List.append_assoc,
        List.drop_zero]

theorem heads_eq_nil (rename : Text → Text) (frontier : Frontier) {sites : List Site}
    (h : sites.countP Site.isRule = 0) : frontier.heads rename sites = [] := by
  have hplain : sites.filterMap Site.ruleHead? = [] := by
    rw [← List.length_eq_zero_iff, Site.length_filterMap_ruleHead?, h]
  have hscoped : sites.filterMap (Site.scopedHead? rename) = [] := by
    rw [← List.length_eq_zero_iff, Site.length_filterMap_scopedHead?, h]
  cases frontier with
  | composes passed => exact hplain
  | selectors passed => rw [heads, hplain, hscoped, List.take_nil, List.drop_nil, List.append_nil]

theorem heads_rule (rename : Text → Text) (frontier : Frontier) (above : List BlockHead)
    (head : Rule) :
    frontier.heads rename [.rule above head] = [head.substituteUpTo rename frontier above] := by
  rcases frontier with passed | _ | passed
  · rfl
  · rfl
  · simp [heads, Site.scopedHead?, Site.ruleHead?, Rule.substituteUpTo]

/-- What `view` sees of the sites after a substitution up to a frontier is `left`. -/
structure Leaves {α : Type} (rename : Text → Text) (view : Site → Option α)
    (left : Frontier → List Site → List α) : Prop where
  nil : ∀ frontier, left frontier [] = []
  append : ∀ frontier first second,
    left frontier (first ++ second) = left frontier first ++ left (frontier.behind first) second
  rule : ∀ frontier above above' head,
    (view (.rule above' (head.substituteUpTo rename frontier above))).toList =
      left frontier [.rule above head]
  atRule : ∀ frontier head,
    (view (.atRule (head.substitute rename))).toList = left frontier [.atRule head]
  declaration : ∀ frontier known above above' content,
    ((content.substituteUpTo rename frontier known).bind fun changed =>
      view (.declaration above' changed)).toList = left frontier [.declaration above content]

namespace Leaves

variable {α : Type} {rename : Text → Text} {view : Site → Option α}
  {left : Frontier → List Site → List α}

theorem filterMap_cons_eq_append (view : Site → Option α) (site : Site) (sites : List Site) :
    (site :: sites).filterMap view = (view site).toList ++ sites.filterMap view := by
  rw [List.filterMap_eq_flatMap_toList, List.flatMap_cons, ← List.filterMap_eq_flatMap_toList]

mutual

theorem filterMap_substituteUpTo (h : Leaves rename view left) (frontier : Frontier)
    (known : List Text) (above above' : List BlockHead) : (node : Node) →
    (Node.sitesAll above' (Node.substituteUpTo rename frontier known above node)).filterMap view =
      left frontier (Node.sites above node)
  | .rule head body => by
    have hbody := filterMap_substituteAllUpTo h (frontier.behind [.rule above head]) known
      (.rule head :: above) (.rule (head.substituteUpTo rename frontier above) :: above') body
    have happend := h.append frontier [.rule above head] (Node.sitesAll (.rule head :: above) body)
    rw [Node.substituteUpTo, Node.sitesAll, Node.sitesAll, List.append_nil, Node.sites,
      filterMap_cons_eq_append, hbody, h.rule frontier above above' head]
    exact happend.symm
  | .block head body => by
    have hbody := filterMap_substituteAllUpTo h (frontier.behind [.atRule head]) known
      (.block head :: above) (.block (head.substitute rename) :: above') body
    have happend := h.append frontier [.atRule head] (Node.sitesAll (.block head :: above) body)
    rw [Node.substituteUpTo, Node.sitesAll, Node.sitesAll, List.append_nil, Node.sites,
      filterMap_cons_eq_append, hbody, h.atRule frontier head]
    exact happend.symm
  | .statement head => by
    rw [Node.substituteUpTo, Node.sitesAll, Node.sitesAll, List.append_nil, Node.sites,
      Node.sites, filterMap_cons_eq_append, h.atRule frontier head]
    exact List.append_nil _
  | .declaration content => by
    rw [Node.substituteUpTo, Node.sites, ← h.declaration frontier known above above' content]
    cases content.substituteUpTo rename frontier known with
    | none => rfl
    | some changed => exact (filterMap_cons_eq_append view _ []).trans (List.append_nil _)
  | .comment _ _ => (h.nil frontier).symm

/-- What is seen of nodes after a substitution up to a frontier. -/
theorem filterMap_substituteAllUpTo (h : Leaves rename view left) (frontier : Frontier)
    (known : List Text) (above above' : List BlockHead) : (nodes : List Node) →
    (Node.sitesAll above' (Node.substituteAllUpTo rename frontier known above nodes)).filterMap
      view = left frontier (Node.sitesAll above nodes)
  | [] => (h.nil frontier).symm
  | first :: rest => by
    rw [Node.substituteAllUpTo, Node.sitesAll_append, List.filterMap_append, Node.sitesAll,
      h.append, filterMap_substituteUpTo h, filterMap_substituteAllUpTo h]

end

end Leaves

theorem leaves_composes (rename : Text → Text) :
    Leaves rename Site.composesContent? composesLeft where
  nil := fun frontier => frontier.composesLeft_eq_nil rfl
  append := composesLeft_append
  rule := fun frontier _ _ _ => (frontier.composesLeft_eq_nil rfl).symm
  atRule := fun frontier _ => (frontier.composesLeft_eq_nil rfl).symm
  declaration := by
    intro frontier known above above' content
    have hsubstitute := content.isComposes_substitute rename known
    rcases frontier with (_ | passed) | passed <;> cases hcomposes : content.isComposes <;>
      simp_all [Declaration.substituteUpTo, Frontier.composesLeft, Site.composesContent?]

theorem leaves_heads (rename : Text → Text) : Leaves rename Site.ruleHead? (heads rename) where
  nil := fun frontier => frontier.heads_eq_nil rename rfl
  append := heads_append rename
  rule := fun frontier above _ head => (frontier.heads_rule rename above head).symm
  atRule := fun frontier _ => (frontier.heads_eq_nil rename rfl).symm
  declaration := by
    intro frontier known above above' content
    rw [frontier.heads_eq_nil rename rfl]
    cases content.substituteUpTo rename frontier known <;> rfl

end Frontier

namespace Scoping

open Registry (Agrees)

/-! ## Where a run stops -/

theorem composesOutline_actsOn (rename : Text → Text) :
    (composesOutline rename).ActsOn Site.isComposes where
  fault := by
    intro site hmark
    cases site with
    | rule above head => rfl
    | atRule head => rfl
    | declaration above content => exact if_neg (Bool.eq_false_iff.1 hmark)
  rule := fun _ _ _ => rfl
  atRule := fun _ _ => rfl
  declaration := fun _ _ _ hmark => if_neg (Bool.eq_false_iff.1 hmark)

theorem selectorsOutline_actsOn (rename : Text → Text) :
    (selectorsOutline rename).ActsOn Site.isRule where
  fault := by
    intro site hmark
    cases site with
    | rule above head => exact Bool.noConfusion hmark
    | atRule head => rfl
    | declaration above content => rfl
  rule := fun _ _ hmark => Bool.noConfusion hmark
  atRule := fun _ _ => rfl
  declaration := fun _ _ _ _ => rfl

variable {namer : Namer} {rename : Text → Text} {sheet : Sheet}

/-- A run that is stopped in the pass over `composes` declarations has taken out those in front of
the first wrong one. -/
theorem scopeSheet_stopped_at_composes {error : Error} {faults : List Error}
    (h : sheet.composesFaults = error :: faults)
    (hagrees : Agrees namer rename (sheetUses rename sheet)) :
    (scopeSheet namer sheet .start).1 = sheet.substituteUpTo rename
      (.composes ((composesOutline rename).cleared Site.isComposes sheet.sites)) := by
  obtain ⟨state, hregistry, happly⟩ := scopeSheet_of_composesFaults_eq_cons h hagrees
  have huses := hagrees.of_append.of_append
  rw [← flatMap_uses_afterKeyframes] at huses
  have hwalk := composesPass_follows.nodes_upTo (composesOutline_actsOn rename) [] _ state
    hregistry (afterKeyframes rename sheet) huses
  have hview := filterMap_afterKeyframes rename sheet keyframesOutline_hides_composes_outcome?
  have hcleared : (composesOutline rename).cleared Site.isComposes
      (Node.sitesAll [] (afterKeyframes rename sheet)) =
      (composesOutline rename).cleared Site.isComposes sheet.sites := by
    rw [Outline.cleared_eq_length_outcome (composesOutline_actsOn rename),
      Outline.cleared_eq_length_outcome (composesOutline_actsOn rename), ← hview]
    rfl
  rw [happly, Visitor.sheet, hwalk, hcleared]
  exact laterPasses_nodes (.composes _) _ [] _ [] [] sheet

/-- A run that comes to the pass over selectors has scoped the selectors in front of the first wrong
one. -/
theorem scopeSheet_stopped_at_selectors (h : sheet.composesFaults = [])
    (hagrees : Agrees namer rename (sheetUses rename sheet)) :
    (scopeSheet namer sheet .start).1 = sheet.substituteUpTo rename
      (.selectors ((selectorsOutline rename).cleared Site.isRule sheet.sites)) := by
  obtain ⟨state, hregistry, happly⟩ := scopeSheet_of_composesFaults_eq_nil h hagrees
  rw [sheetUses, ← flatMap_uses_afterAnimations] at hagrees
  have hwalk := selectorsPass_follows.nodes_upTo (selectorsOutline_actsOn rename) [] _ state
    hregistry (afterAnimations rename sheet) hagrees
  have hview := filterMap_afterAnimations rename sheet keyframesOutline_hides_selectors_outcome?
    fun _ _ => rfl
  have hcleared : (selectorsOutline rename).cleared Site.isRule
      (Node.sitesAll [] (afterAnimations rename sheet)) =
      (selectorsOutline rename).cleared Site.isRule sheet.sites := by
    rw [Outline.cleared_eq_length_outcome (selectorsOutline_actsOn rename),
      Outline.cleared_eq_length_outcome (selectorsOutline_actsOn rename), ← hview]
    rfl
  rw [happly, Visitor.sheet, hwalk, hcleared]
  exact laterPasses_nodes (.selectors _) _ [] _ _ [] sheet

/-! ## The report of a failed run -/

theorem sheet_run (options : Options) (path : Option Text) (document : Document) :
    (run options path document).document.sheet =
      (scopeSheet (namerFor options path) document.sheet .start).1 := by
  unfold run
  generalize scopeSheet (namerFor options path) document.sheet .start = result
  obtain ⟨sheet, state, failure⟩ := result
  cases failure <;> rfl

theorem exports_run_of_failure {options : Options} {path : Option Text} {document : Document}
    {error : Error} (h : (run options path document).failure = some error) :
    (run options path document).document.exports = document.exports := by
  revert h
  unfold run
  generalize scopeSheet (namerFor options path) document.sheet .start = result
  obtain ⟨sheet, state, failure⟩ := result
  cases failure with
  | none => exact fun h => nomatch h
  | some error => exact fun _ => rfl

/-- `after` is what a run leaves of `before` that is stopped by a `composes` declaration: keyframes
are renamed, the `composes` declarations in front of it are taken out, and all else stays. -/
structure StoppedAtComposes (rename : Text → Text) (error : Error) (before after : Sheet)
    (front : List Site) (site : Site) (back : List Site) : Prop where
  sites : before.sites = front ++ site :: back
  fault : site.composesFault? = some error
  clear : ∀ earlier ∈ front, earlier.composesFault? = none
  sheet : after = before.substituteUpTo rename (.composes (front.countP Site.isComposes))
  composes : after.composesContents = (site :: back).filterMap Site.composesContent?
  heads : after.ruleHeads = before.ruleHeads

/-- `after` is what a run leaves of `before` that is stopped by the selector of a rule: keyframes
and animations are renamed, all `composes` declarations are taken out, and the rules in front of it
have their scoped selectors. -/
structure StoppedAtSelector (rename : Text → Text) (error : Error) (before after : Sheet)
    (front : List Site) (site : Site) (back : List Site) : Prop where
  sites : before.sites = front ++ site :: back
  allowed : before.composesFaults = []
  fault : site.selectorFault? = some error
  clear : ∀ earlier ∈ front, earlier.selectorFault? = none
  sheet : after = before.substituteUpTo rename (.selectors (front.countP Site.isRule))
  composes : after.composesContents = []
  heads : after.ruleHeads =
    front.filterMap (Site.scopedHead? rename) ++ (site :: back).filterMap Site.ruleHead?

/-- What a substitution up to a `composes` declaration leaves of them. -/
theorem composesContents_substituteUpTo {front : List Site} {site : Site} {back : List Site}
    (rename : Text → Text) (h : sheet.sites = front ++ site :: back) :
    (sheet.substituteUpTo rename (.composes (front.countP Site.isComposes))).composesContents =
      (site :: back).filterMap Site.composesContent? := by
  have hleft := (Frontier.leaves_composes rename).filterMap_substituteAllUpTo
    (.composes (front.countP Site.isComposes))
    (sheet.keyframesNames ++ sheet.compositions.flatMap composesNames) [] [] sheet
  rw [Sheet.composesContents, Sheet.sites, Sheet.substituteUpTo, hleft, Frontier.composesLeft,
    ← Sheet.sites, h, List.filterMap_append]
  exact List.drop_left' (Site.length_filterMap_composesContent? front)

/-- What a substitution up to a rule makes of the heads of rules. -/
theorem ruleHeads_substituteUpTo {front : List Site} {site : Site} {back : List Site}
    (rename : Text → Text) (h : sheet.sites = front ++ site :: back) :
    (sheet.substituteUpTo rename (.selectors (front.countP Site.isRule))).ruleHeads =
      front.filterMap (Site.scopedHead? rename) ++ (site :: back).filterMap Site.ruleHead? := by
  have hleft := (Frontier.leaves_heads rename).filterMap_substituteAllUpTo
    (.selectors (front.countP Site.isRule))
    (sheet.keyframesNames ++ sheet.compositions.flatMap composesNames) [] [] sheet
  rw [Sheet.ruleHeads, Sheet.sites, Sheet.substituteUpTo, hleft, Frontier.heads, ← Sheet.sites, h,
    List.filterMap_append, List.filterMap_append,
    List.take_left' (Site.length_filterMap_scopedHead? rename front),
    List.drop_left' (Site.length_filterMap_ruleHead? front)]

theorem exists_stoppedAtComposes {error : Error}
    (h : sheet.composesFaults.head? = some error)
    (hagrees : Agrees namer rename (sheetUses rename sheet)) :
    ∃ front site back, StoppedAtComposes rename error sheet
      (scopeSheet namer sheet .start).1 front site back := by
  obtain ⟨faults, hfaults⟩ := List.head?_eq_some_iff.1 h
  rw [Sheet.composesFaults, List.head?_filterMap] at h
  obtain ⟨front, site, back, hsites, hfault, hclear⟩ := List.findSome?_eq_some_iff.1 h
  have hcleared : (composesOutline rename).cleared Site.isComposes sheet.sites =
      front.countP Site.isComposes := by
    rw [hsites, Outline.cleared_append_of_clear _ hclear, Outline.cleared_cons_of_fault _ hfault,
      Nat.add_zero]
  have hsheet := scopeSheet_stopped_at_composes hfaults hagrees
  rw [hcleared] at hsheet
  refine ⟨front, site, back, hsites, hfault, hclear, hsheet, ?_, ?_⟩
  · rw [hsheet]
    exact composesContents_substituteUpTo rename hsites
  · rw [hsheet]
    exact (Frontier.leaves_heads rename).filterMap_substituteAllUpTo (.composes _) _ [] [] sheet

theorem exists_stoppedAtSelector {error : Error} (hallowed : sheet.composesFaults = [])
    (h : sheet.selectorFaults.head? = some error)
    (hagrees : Agrees namer rename (sheetUses rename sheet)) :
    ∃ front site back, StoppedAtSelector rename error sheet
      (scopeSheet namer sheet .start).1 front site back := by
  rw [Sheet.selectorFaults, List.head?_filterMap] at h
  obtain ⟨front, site, back, hsites, hfault, hclear⟩ := List.findSome?_eq_some_iff.1 h
  have hcleared : (selectorsOutline rename).cleared Site.isRule sheet.sites =
      front.countP Site.isRule := by
    rw [hsites, Outline.cleared_append_of_clear _ hclear, Outline.cleared_cons_of_fault _ hfault,
      Nat.add_zero]
  have hsheet := scopeSheet_stopped_at_selectors hallowed hagrees
  rw [hcleared] at hsheet
  refine ⟨front, site, back, hsites, hallowed, hfault, hclear, hsheet, ?_, ?_⟩
  · rw [hsheet]
    exact (Frontier.leaves_composes rename).filterMap_substituteAllUpTo (.selectors _) _ [] [] sheet
  · rw [hsheet]
    exact ruleHeads_substituteUpTo rename hsites

/-- A run that fails exports nothing and leaves its style sheet as far as it came: up to the first
wrong `composes` declaration, or else up to the first rule with a wrong selector. -/
theorem run_failed {options : Options} {path : Option Text} {document : Document} {error : Error}
    (h : (run options path document).failure = some error) :
    (run options path document).document.exports = document.exports ∧
      ∃ front site back,
        StoppedAtComposes (sheetRenaming (namerFor options path) document.sheet) error
          document.sheet (run options path document).document.sheet front site back ∨
        StoppedAtSelector (sheetRenaming (namerFor options path) document.sheet) error
          document.sheet (run options path document).document.sheet front site back := by
  refine ⟨exports_run_of_failure h, ?_⟩
  have hagrees := agrees_sheetRenaming (namerFor options path) document.sheet
    (sheetRenaming (namerFor options path) document.sheet)
  rw [failure_run] at h
  rw [sheet_run]
  cases hfaults : document.sheet.composesFaults with
  | cons first faults =>
    rw [hfaults, List.cons_append, List.head?_cons, Option.some.injEq] at h
    rw [h] at hfaults
    obtain ⟨front, site, back, hstopped⟩ := exists_stoppedAtComposes
      (by rw [hfaults, List.head?_cons]) hagrees
    exact ⟨front, site, back, .inl hstopped⟩
  | nil =>
    rw [hfaults, List.nil_append] at h
    obtain ⟨front, site, back, hstopped⟩ := exists_stoppedAtSelector hfaults h hagrees
    exact ⟨front, site, back, .inr hstopped⟩

/-- A style sheet whose second rule, inside an at-rule, has a wrong selector: the names in front of
the wrong `:local` are registered before the error is found. -/
def wrongSheet : Sheet :=
  [.block ⟨"keyframes".toList, "spin".toList, none⟩ [],
    .rule ⟨".a".toList, none⟩
      [.declaration ⟨"composes".toList, "b".toList, false, none⟩,
        .declaration ⟨"animation".toList, "spin 1s b".toList, false, none⟩],
    .block ⟨"media".toList, "print".toList, none⟩
      [.rule ⟨".c :local(.d, .e)".toList, none⟩ [.rule ⟨".f".toList, none⟩ []]],
    .rule ⟨".g".toList, none⟩ []]

theorem run_failed_sample :
    (run sampleOptions none ⟨wrongSheet, []⟩).failure =
        some (.invalidScopePseudo "local".toList ⟨none, ".c :local(.d, .e)".toList⟩) ∧
      (run sampleOptions none ⟨wrongSheet, []⟩).document.exports = [] ∧
      ∃ front site back,
        StoppedAtComposes (sheetRenaming (namerFor sampleOptions none) wrongSheet)
          (.invalidScopePseudo "local".toList ⟨none, ".c :local(.d, .e)".toList⟩) wrongSheet
          (run sampleOptions none ⟨wrongSheet, []⟩).document.sheet front site back ∨
        StoppedAtSelector (sheetRenaming (namerFor sampleOptions none) wrongSheet)
          (.invalidScopePseudo "local".toList ⟨none, ".c :local(.d, .e)".toList⟩) wrongSheet
          (run sampleOptions none ⟨wrongSheet, []⟩).document.sheet front site back := by
  have h : (run sampleOptions none ⟨wrongSheet, []⟩).failure =
      some (.invalidScopePseudo "local".toList ⟨none, ".c :local(.d, .e)".toList⟩) := by
    rw [failure_run]
    decide +kernel
  exact ⟨h, run_failed h⟩

end Scoping

end ScopedCss
