import ScopedCss.Proofs.Passes
import ScopedCss.Proofs.StoppedWalks
import ScopedCss.Scoping.Run

/-!
# Runs over a style sheet

The passes of a run see the style sheet as the passes before them left it.  What a later pass looks
at is not what an earlier one changes, so its faults, its uses of the registry and its part of the
result can be read off the style sheet before the run.
-/

namespace ScopedCss.Scoping

open Registry (Use Agrees ofUses)

variable {namer : Namer} {rename : Text → Text}

/-! ## What the passes do not see of each other -/

section Hidden

@[simp] theorem isKeyframes_substitute (head : AtRule) :
    (head.substitute rename).isKeyframes = head.isKeyframes := by
  unfold AtRule.substitute
  split <;> rfl

theorem map_blockHead_of_atRule {outline : Outline} (h : ∀ head, outline.atRule head = head)
    (above : List BlockHead) : above.map outline.blockHead = above := by
  refine List.map_id'' (fun head => ?_) above
  cases head with
  | rule head => rfl
  | block head => rw [Outline.blockHead, h]

theorem insideKeyframes_map (above : List BlockHead) :
    insideKeyframes (above.map (keyframesOutline rename).blockHead) = insideKeyframes above := by
  cases above with
  | nil => rfl
  | cons head above =>
    cases head with
    | rule head => rfl
    | block head => exact isKeyframes_substitute head

theorem selectorMode_map (above : List BlockHead) :
    selectorMode (above.map (keyframesOutline rename).blockHead) = selectorMode above := by
  unfold selectorMode
  rw [List.any_map]
  refine congrArg (fun test => if above.any test then Selector.Mode.relative else .plain) ?_
  funext head
  cases head <;> rfl

theorem composesFault?_map (above : List BlockHead) (content : Declaration) :
    composesFault? (above.map (keyframesOutline rename).blockHead) content =
      composesFault? above content := by
  rcases above with _ | ⟨head, _ | ⟨next, above⟩⟩
  · rfl
  · cases head <;> rfl
  · cases head <;> rfl

theorem keyframesOutline_hides_composesFault? :
    (keyframesOutline rename).Hides Site.composesFault? where
  keeps := fun _ _ => rfl
  rule := fun _ _ => rfl
  atRule := fun _ => rfl
  declaration := by
    intro _ above content
    show (if _ then composesFault? (above.map _) content else none) = _
    rw [composesFault?_map]
    rfl

theorem keyframesOutline_hides_composes? :
    (keyframesOutline rename).Hides Site.composes? where
  keeps := fun _ _ => rfl
  rule := fun _ _ => rfl
  atRule := fun _ => rfl
  declaration := by
    intro _ above content
    rcases above with _ | ⟨head, _ | ⟨next, above⟩⟩
    · rfl
    · cases head <;> rfl
    · cases head <;> rfl

theorem keyframesOutline_hides_animationName? :
    (keyframesOutline rename).Hides Site.animationName? where
  keeps := fun _ _ => rfl
  rule := fun _ _ => rfl
  atRule := fun _ => rfl
  declaration := fun _ _ _ => rfl

theorem keyframesOutline_hides_selectorFault? :
    (keyframesOutline rename).Hides Site.selectorFault? where
  keeps := fun _ _ => rfl
  rule := by
    intro above head
    simp only [Site.selectorFault?, insideKeyframes_map, selectorMode_map]
  atRule := fun _ => rfl
  declaration := fun _ _ _ => rfl

theorem keyframesOutline_hides_selector? :
    (keyframesOutline rename).Hides Site.selector? where
  keeps := fun _ _ => rfl
  rule := by
    intro above head
    simp only [Site.selector?, insideKeyframes_map, selectorMode_map]
  atRule := fun _ => rfl
  declaration := fun _ _ _ => rfl

theorem composesOutline_hides_animationName? :
    (composesOutline rename).Hides Site.animationName? where
  keeps := fun _ _ => rfl
  rule := fun _ _ => rfl
  atRule := fun _ => rfl
  declaration := by
    intro _ above content
    show Option.bind (if content.isComposes then none else some content) _ = _
    cases hcomposes : content.isComposes with
    | false => rfl
    | true => exact (Declaration.animationName?_of_isComposes hcomposes).symm

theorem keyframesOutline_hides_composes_outcome? :
    (keyframesOutline rename).Hides ((composesOutline rename).outcome? Site.isComposes) where
  keeps := fun _ _ => rfl
  rule := fun _ _ => rfl
  atRule := fun _ => rfl
  declaration := by
    intro known above content
    have hhides : (keyframesOutline rename).Hides Site.composesFault? :=
      keyframesOutline_hides_composesFault?
    have hfault := hhides.declaration known above content
    exact congrArg (fun fault => if content.isComposes then some fault else none) hfault

theorem keyframesOutline_hides_selectors_outcome? :
    (keyframesOutline rename).Hides ((selectorsOutline rename).outcome? Site.isRule) where
  keeps := fun _ _ => rfl
  rule := fun above head => congrArg some (keyframesOutline_hides_selectorFault?.rule above head)
  atRule := fun _ => rfl
  declaration := fun _ _ _ => rfl

/-- The passes over declarations do not change what is seen of rules alone. -/
theorem hides_of_declaration {α : Type} {outline : Outline} {view : Site → Option α}
    (hrule : ∀ above head, outline.rule above head = head)
    (hatRule : ∀ head, outline.atRule head = head)
    (hview : ∀ above content, view (.declaration above content) = none) :
    outline.Hides view where
  keeps := hrule
  rule := fun above _ => by rw [map_blockHead_of_atRule hatRule]
  atRule := fun head => by rw [hatRule]
  declaration := by
    intro known above content
    rw [hview]
    cases outline.declaration known content with
    | none => rfl
    | some changed => exact hview _ changed

end Hidden

/-! ## The uses of a run -/

section Uses

theorem flatMap_keyframesOutline_uses (rename : Text → Text) (sites : List Site) :
    sites.flatMap (keyframesOutline rename).uses =
      (sites.filterMap Site.keyframesName?).map .refer := by
  rw [List.filterMap_eq_flatMap_toList, List.map_flatMap]
  rfl

theorem flatMap_composesOutline_uses (rename : Text → Text) (sites : List Site) :
    sites.flatMap (composesOutline rename).uses =
      (sites.filterMap Site.composes?).flatMap (composesUses rename) := by
  rw [List.filterMap_eq_flatMap_toList, List.flatMap_assoc]
  rfl

theorem flatMap_animationOutline_uses (rename : Text → Text) (sites : List Site) :
    sites.flatMap (animationOutline rename).uses =
      (sites.filterMap Site.animationName?).map .refer := by
  rw [List.filterMap_eq_flatMap_toList, List.map_flatMap]
  rfl

theorem flatMap_selectorsOutline_uses (rename : Text → Text) (sites : List Site) :
    sites.flatMap (selectorsOutline rename).uses =
      (sites.filterMap Site.selector?).flatMap fun tree => tree.localNames.map .refer := by
  rw [List.filterMap_eq_flatMap_toList, List.flatMap_assoc]
  rfl

/-- The uses that the four passes make of the registry, in order. -/
def sheetUses (rename : Text → Text) (sheet : Sheet) : List Use :=
  sheet.keyframesNames.map .refer ++ sheet.compositions.flatMap (composesUses rename) ++
    sheet.animationNames.map .refer ++
    sheet.selectors.flatMap fun tree => tree.localNames.map .refer

theorem map_name_refer (names : List Text) : (names.map Use.refer).map Use.name = names := by
  rw [List.map_map]
  exact List.map_id'' (fun _ => rfl) names

theorem map_name_composesUses (pair : Rule × Reference) :
    (composesUses rename pair).map Use.name = composesNames pair := by
  have hadd : (pair.1.targetNames.map fun name => Use.add name (pair.2.composition rename)).map
      Use.name = pair.1.targetNames := by
    rw [List.map_map]
    exact List.map_id'' (fun _ => rfl) _
  rw [composesUses, List.map_append, map_name_refer, hadd, composesNames]

theorem map_name_flatMap_composesUses (pairs : List (Rule × Reference)) :
    (pairs.flatMap (composesUses rename)).map Use.name = pairs.flatMap composesNames := by
  rw [List.map_flatMap]
  exact List.flatMap_congr fun pair _ => map_name_composesUses pair

/-- The names that a run uses are those that the style sheet refers to. -/
theorem map_name_sheetUses (rename : Text → Text) (sheet : Sheet) :
    (sheetUses rename sheet).map Use.name = sheet.references := by
  have hselectors : (sheet.selectors.flatMap fun tree => tree.localNames.map Use.refer).map
      Use.name = sheet.selectors.flatMap Selector.localNames := by
    rw [List.map_flatMap]
    exact List.flatMap_congr fun tree _ => map_name_refer tree.localNames
  simp only [sheetUses, List.map_append]
  rw [map_name_refer, map_name_flatMap_composesUses, map_name_refer, hselectors, Sheet.references]

/-- The scoped names that a run gives to the names of a style sheet. -/
def sheetRenaming (namer : Namer) (sheet : Sheet) (name : Text) : Text :=
  namer name (sheet.references.eraseDups.idxOf name)

theorem scopedName_sheetUses (namer : Namer) (sheet : Sheet) (rename : Text → Text)
    (name : Text) :
    Registry.scopedName namer (sheetUses rename sheet) name = sheetRenaming namer sheet name := by
  rw [sheetRenaming, Registry.scopedName, Registry.namesOf, map_name_sheetUses]

theorem agrees_sheetRenaming (namer : Namer) (sheet : Sheet) (rename : Text → Text) :
    Agrees namer (sheetRenaming namer sheet) (sheetUses rename sheet) :=
  fun name _ => (scopedName_sheetUses namer sheet rename name).symm

end Uses

/-! ## The style sheet between the passes -/

section Stages

/-- The style sheet after the pass over keyframes. -/
def afterKeyframes (rename : Text → Text) (sheet : Sheet) : Sheet :=
  (keyframesOutline rename).nodes [] [] sheet

/-- The style sheet after the pass over `composes` declarations. -/
def afterComposes (rename : Text → Text) (sheet : Sheet) : Sheet :=
  (composesOutline rename).nodes sheet.keyframesNames [] (afterKeyframes rename sheet)

/-- The style sheet after the pass over animations. -/
def afterAnimations (rename : Text → Text) (sheet : Sheet) : Sheet :=
  (animationOutline rename).nodes
    (sheet.keyframesNames ++ sheet.compositions.flatMap composesNames) []
    (afterComposes rename sheet)

/-- The style sheet after the pass over selectors. -/
def afterSelectors (rename : Text → Text) (sheet : Sheet) : Sheet :=
  (selectorsOutline rename).nodes
    (sheet.keyframesNames ++ sheet.compositions.flatMap composesNames ++ sheet.animationNames) []
    (afterAnimations rename sheet)

variable {α : Type} {view : Site → Option α}

theorem filterMap_afterKeyframes (rename : Text → Text) (sheet : Sheet)
    (h : (keyframesOutline rename).Hides view) :
    (afterKeyframes rename sheet).sites.filterMap view = sheet.sites.filterMap view :=
  h.filterMap_nodes [] [] sheet

theorem filterMap_afterComposes (rename : Text → Text) (sheet : Sheet)
    (h : (keyframesOutline rename).Hides view) (h' : (composesOutline rename).Hides view) :
    (afterComposes rename sheet).sites.filterMap view = sheet.sites.filterMap view := by
  rw [← filterMap_afterKeyframes rename sheet h]
  exact h'.filterMap_nodes _ [] _

/-- The passes before the last one leave what is seen of rules alone. -/
theorem filterMap_afterAnimations (rename : Text → Text) (sheet : Sheet)
    (h : (keyframesOutline rename).Hides view)
    (hview : ∀ above content, view (.declaration above content) = none) :
    (afterAnimations rename sheet).sites.filterMap view = sheet.sites.filterMap view := by
  have hcomposes : (composesOutline rename).Hides view :=
    hides_of_declaration (fun _ _ => rfl) (fun _ => rfl) hview
  have hanimation : (animationOutline rename).Hides view :=
    hides_of_declaration (fun _ _ => rfl) (fun _ => rfl) hview
  rw [← filterMap_afterComposes rename sheet h hcomposes]
  exact hanimation.filterMap_nodes _ [] _

end Stages

/-! ## The passes of a run, one after the other -/

section Chain

variable {sheet : Sheet}

theorem keyframes_completes (hagrees : Agrees namer rename (sheet.keyframesNames.map .refer)) :
    Completes namer ((keyframesPass namer).sheet sheet) [] (afterKeyframes rename sheet)
      (sheet.keyframesNames.map .refer) := by
  have huses := flatMap_keyframesOutline_uses rename sheet.sites
  rw [Sheet.keyframesNames, ← huses] at hagrees ⊢
  exact keyframesPass_follows.nodes_completes [] [] sheet hagrees fun _ _ => rfl

theorem flatMap_uses_afterKeyframes (rename : Text → Text) (sheet : Sheet) :
    (afterKeyframes rename sheet).sites.flatMap (composesOutline rename).uses =
      sheet.compositions.flatMap (composesUses rename) := by
  have hview := filterMap_afterKeyframes rename sheet keyframesOutline_hides_composes?
  rw [flatMap_composesOutline_uses, hview, Sheet.compositions]

theorem flatMap_uses_afterAnimations (rename : Text → Text) (sheet : Sheet) :
    (afterAnimations rename sheet).sites.flatMap (selectorsOutline rename).uses =
      sheet.selectors.flatMap fun tree => tree.localNames.map .refer := by
  have hview := filterMap_afterAnimations rename sheet keyframesOutline_hides_selector?
    fun _ _ => rfl
  rw [flatMap_selectorsOutline_uses, hview, Sheet.selectors]

theorem composes_completes (hfaults : sheet.composesFaults = [])
    (hagrees : Agrees namer rename (sheet.keyframesNames.map .refer ++
      sheet.compositions.flatMap (composesUses rename))) :
    Completes namer ((composesPass namer).sheet (afterKeyframes rename sheet))
      (sheet.keyframesNames.map .refer) (afterComposes rename sheet)
      (sheet.compositions.flatMap (composesUses rename)) := by
  have hfault := filterMap_afterKeyframes rename sheet keyframesOutline_hides_composesFault?
  rw [Sheet.composesFaults, ← hfault, List.filterMap_eq_nil_iff] at hfaults
  rw [← flatMap_uses_afterKeyframes] at hagrees ⊢
  have hwalk := composesPass_follows.nodes_completes [] _ (afterKeyframes rename sheet) hagrees
    hfaults
  rwa [map_name_refer] at hwalk

theorem animations_completes
    (hagrees : Agrees namer rename (sheet.keyframesNames.map .refer ++
      sheet.compositions.flatMap (composesUses rename) ++ sheet.animationNames.map .refer)) :
    Completes namer ((animationPass namer).sheet (afterComposes rename sheet))
      (sheet.keyframesNames.map .refer ++ sheet.compositions.flatMap (composesUses rename))
      (afterAnimations rename sheet) (sheet.animationNames.map .refer) := by
  have hview := filterMap_afterComposes rename sheet keyframesOutline_hides_animationName?
    composesOutline_hides_animationName?
  have huses := flatMap_animationOutline_uses rename (afterComposes rename sheet).sites
  rw [hview] at huses
  rw [Sheet.animationNames, ← huses] at hagrees ⊢
  have hwalk := animationPass_follows.nodes_completes [] _ (afterComposes rename sheet) hagrees
    fun _ _ => rfl
  rwa [List.map_append, map_name_refer, map_name_flatMap_composesUses] at hwalk

theorem selectors_completes (hfaults : sheet.selectorFaults = [])
    (hagrees : Agrees namer rename (sheetUses rename sheet)) :
    Completes namer ((selectorsPass namer).sheet (afterAnimations rename sheet))
      (sheet.keyframesNames.map .refer ++ sheet.compositions.flatMap (composesUses rename) ++
        sheet.animationNames.map .refer)
      (afterSelectors rename sheet)
      (sheet.selectors.flatMap fun tree => tree.localNames.map .refer) := by
  have hfault := filterMap_afterAnimations rename sheet keyframesOutline_hides_selectorFault?
    fun _ _ => rfl
  rw [Sheet.selectorFaults, ← hfault, List.filterMap_eq_nil_iff] at hfaults
  rw [sheetUses] at hagrees
  rw [← flatMap_uses_afterAnimations] at hagrees ⊢
  have hwalk := selectorsPass_follows.nodes_completes [] _ (afterAnimations rename sheet) hagrees
    hfaults
  rwa [List.map_append, List.map_append, map_name_refer, map_name_flatMap_composesUses,
    map_name_refer] at hwalk

/-- A run over a style sheet without faults completes. -/
theorem scopeSheet_completes (hcomposes : sheet.composesFaults = [])
    (hselectors : sheet.selectorFaults = [])
    (hagrees : Agrees namer rename (sheetUses rename sheet)) :
    Completes namer (scopeSheet namer sheet) [] (afterSelectors rename sheet)
      (sheetUses rename sheet) := by
  have hthird := Agrees.of_append hagrees
  have hsecond := Agrees.of_append hthird
  have hfirst := Agrees.of_append hsecond
  have hchain := (((keyframes_completes hfirst).bind
    (composes_completes hcomposes hsecond)).bind (animations_completes hthird)).bind
      (selectors_completes hselectors hagrees)
  exact hchain

theorem scopeSheet_apply (namer : Namer) (sheet : Sheet) (progress : Progress) :
    scopeSheet namer sheet progress =
      let first := (keyframesPass namer).sheet sheet progress
      let second := (composesPass namer).sheet first.1 first.2
      let third := (animationPass namer).sheet second.1 second.2
      (selectorsPass namer).sheet third.1 third.2 := rfl

/-- The pass over `composes` declarations fails with the first fault of its kind. -/
theorem failure_composes (namer : Namer) (rename : Text → Text) (sheet : Sheet) (state : State) :
    ((composesPass namer).sheet (afterKeyframes rename sheet) ⟨state, none⟩).2.failure =
      sheet.composesFaults.head? := by
  have hfault := filterMap_afterKeyframes rename sheet keyframesOutline_hides_composesFault?
  rw [Sheet.composesFaults, ← hfault]
  have hfollows : (composesPass namer).Follows namer rename (composesOutline rename) :=
    composesPass_follows
  exact hfollows.failure_nodes [] state _

/-- The pass over selectors fails with the first fault of its kind. -/
theorem failure_selectors (namer : Namer) (rename : Text → Text) (sheet : Sheet) (state : State) :
    ((selectorsPass namer).sheet (afterAnimations rename sheet) ⟨state, none⟩).2.failure =
      sheet.selectorFaults.head? := by
  have hfault := filterMap_afterAnimations rename sheet keyframesOutline_hides_selectorFault?
    fun _ _ => rfl
  rw [Sheet.selectorFaults, ← hfault]
  have hfollows : (selectorsPass namer).Follows namer rename (selectorsOutline rename) :=
    selectorsPass_follows
  exact hfollows.failure_nodes [] state _

/-- If a `composes` declaration is wrong, the pass over them is the last one that does anything. -/
theorem scopeSheet_of_composesFaults_eq_cons {error : Error} {faults : List Error}
    (h : sheet.composesFaults = error :: faults)
    (hagrees : Agrees namer rename (sheetUses rename sheet)) :
    ∃ state : State, state.registry = ofUses namer (sheet.keyframesNames.map .refer) ∧
      scopeSheet namer sheet .start =
        (composesPass namer).sheet (afterKeyframes rename sheet) ⟨state, none⟩ := by
  obtain ⟨state, happly, hregistry⟩ :=
    keyframes_completes hagrees.of_append.of_append.of_append .empty rfl
  have hfailure := failure_composes namer rename sheet state
  rw [h, List.head?_cons] at hfailure
  refine ⟨state, hregistry, ?_⟩
  rw [scopeSheet_apply, Progress.start, happly]
  dsimp only [Visitor.sheet] at hfailure ⊢
  rw [Visitor.nodes_of_failure _ _ hfailure, Visitor.nodes_of_failure _ _ hfailure]
  rfl

/-- If no `composes` declaration is wrong, the run comes to the pass over selectors. -/
theorem scopeSheet_of_composesFaults_eq_nil (h : sheet.composesFaults = [])
    (hagrees : Agrees namer rename (sheetUses rename sheet)) :
    ∃ state : State, state.registry = ofUses namer (sheet.keyframesNames.map .refer ++
        sheet.compositions.flatMap (composesUses rename) ++ sheet.animationNames.map .refer) ∧
      scopeSheet namer sheet .start =
        (selectorsPass namer).sheet (afterAnimations rename sheet) ⟨state, none⟩ := by
  have hthird := Agrees.of_append hagrees
  have hsecond := Agrees.of_append hthird
  have hfirst := Agrees.of_append hsecond
  obtain ⟨state, happly, hregistry⟩ := (((keyframes_completes hfirst).bind
    (composes_completes h hsecond)).bind (animations_completes hthird)) .empty rfl
  refine ⟨state, hregistry, ?_⟩
  show (selectorsPass namer).sheet _ _ = _
  exact congrArg (fun result => (selectorsPass namer).sheet result.1 result.2) happly

/-- A run fails with the first fault of the style sheet, those of `composes` declarations first. -/
theorem failure_scopeSheet (namer : Namer) (sheet : Sheet) :
    (scopeSheet namer sheet .start).2.failure =
      (sheet.composesFaults ++ sheet.selectorFaults).head? := by
  have hagrees := agrees_sheetRenaming namer sheet (sheetRenaming namer sheet)
  cases hfaults : sheet.composesFaults with
  | cons error faults =>
    obtain ⟨state, -, happly⟩ := scopeSheet_of_composesFaults_eq_cons hfaults hagrees
    rw [happly, failure_composes, hfaults]
    rfl
  | nil =>
    obtain ⟨state, -, happly⟩ := scopeSheet_of_composesFaults_eq_nil hfaults hagrees
    rw [happly, failure_selectors, List.nil_append]

end Chain

/-! ## Four passes make one substitution -/

section Fusion

/-- What the passes after the one over keyframes make of nodes when they come to the frontier.  Only
the pass over animations depends on the names that are known. -/
def laterPasses (rename : Text → Text) (frontier : Frontier) (known known₂ known₄ : List Text)
    (above : List BlockHead) (nodes : List Node) : List Node :=
  match frontier with
  | .composes passed =>
    (composesOutline rename).nodesUpTo Site.isComposes passed known₂ above nodes
  | .selectors passed =>
    (selectorsOutline rename).nodesUpTo Site.isRule passed known₄ above
      ((animationOutline rename).nodes known above
        ((composesOutline rename).nodes known₂ above nodes))

theorem names_animationOutline (rename : Text → Text) (sites : List Site) :
    (animationOutline rename).names sites = sites.filterMap Site.animationName? := by
  rw [Outline.names, flatMap_animationOutline_uses, map_name_refer]

/-- A pass over declarations keeps the number of rules. -/
theorem countP_isRule_nodes {outline : Outline}
    (hrule : ∀ above head, outline.rule above head = head)
    (hatRule : ∀ head, outline.atRule head = head) (known : List Text) (above : List BlockHead)
    (nodes : List Node) :
    (Node.sitesAll above (outline.nodes known above nodes)).countP Site.isRule =
      (Node.sitesAll above nodes).countP Site.isRule := by
  have hhides : outline.Hides (outline.outcome? Site.isRule) :=
    hides_of_declaration hrule hatRule fun _ _ => rfl
  have hnodes := hhides.filterMap_nodes known above nodes
  rw [map_blockHead_of_atRule hatRule] at hnodes
  rw [outline.countP_eq_length_outcome, hnodes, ← outline.countP_eq_length_outcome]

theorem laterPasses_append (frontier : Frontier) (known known₂ known₄ : List Text)
    (above : List BlockHead) (first second : List Node) :
    ∃ known₂' known₄', laterPasses rename frontier known known₂ known₄ above (first ++ second) =
      laterPasses rename frontier known known₂ known₄ above first ++
        laterPasses rename (frontier.behind (Node.sitesAll above first))
          (known ++ (Node.sitesAll above first).filterMap Site.animationName?)
          known₂' known₄' above second := by
  cases frontier with
  | composes passed =>
    simp only [laterPasses, Frontier.behind, Outline.nodesUpTo_append]
    exact ⟨_, known₄, rfl⟩
  | selectors passed =>
    have hhides : (composesOutline rename).Hides Site.animationName? :=
      composesOutline_hides_animationName?
    have hnames := hhides.filterMap_nodes known₂ above first
    rw [map_blockHead_of_atRule fun _ => rfl] at hnames
    have hrules : (Node.sitesAll above ((animationOutline rename).nodes known above
        ((composesOutline rename).nodes known₂ above first))).countP Site.isRule =
        (Node.sitesAll above first).countP Site.isRule := by
      rw [countP_isRule_nodes (fun _ _ => rfl) (fun _ => rfl),
        countP_isRule_nodes (fun _ _ => rfl) (fun _ => rfl)]
    simp only [laterPasses, Frontier.behind, Outline.nodes_append, Outline.nodesUpTo_append,
      names_animationOutline, hnames, hrules]
    exact ⟨_, _, rfl⟩

theorem laterPasses_rule (frontier : Frontier) (known known₂ known₄ : List Text)
    (above : List BlockHead) (head : Rule) (body : List Node) :
    ∃ known₂' known₄', laterPasses rename frontier known known₂ known₄ above [.rule head body] =
      [.rule (head.substituteUpTo rename frontier above)
        (laterPasses rename (frontier.behind [.rule above head]) known known₂' known₄'
          (.rule head :: above) body)] := by
  cases frontier with
  | composes passed => exact ⟨_, known₄, rfl⟩
  | selectors passed =>
    have hcomposes : (composesOutline rename).rule above head = head := rfl
    have hanimation : (animationOutline rename).rule above head = head := rfl
    have hnames : (animationOutline rename).names [.rule above head] = [] := rfl
    have hselector : (if Outline.comesTo Site.isRule passed (.rule above head) then
        (selectorsOutline rename).rule above head else head) =
        head.substituteUpTo rename (.selectors passed) above := by
      cases passed <;> rfl
    simp only [laterPasses, Frontier.behind, Outline.nodes, Outline.node, Outline.nodesUpTo,
      Outline.nodeUpTo, hcomposes, hanimation, hnames, hselector, List.append_nil]
    exact ⟨_, _, rfl⟩

theorem laterPasses_block (frontier : Frontier) (known known₂ known₄ : List Text)
    (above : List BlockHead) (head : AtRule) (body : List Node) :
    ∃ known₂' known₄', laterPasses rename frontier known known₂ known₄ above [.block head body] =
      [.block head (laterPasses rename (frontier.behind [.atRule head]) known known₂' known₄'
        (.block head :: above) body)] := by
  cases frontier with
  | composes passed => exact ⟨_, known₄, rfl⟩
  | selectors passed =>
    have hcomposes : (composesOutline rename).atRule head = head := rfl
    have hanimation : (animationOutline rename).atRule head = head := rfl
    have hnames : (animationOutline rename).names [.atRule head] = [] := rfl
    simp only [laterPasses, Frontier.behind, Outline.nodes, Outline.node, Outline.nodesUpTo,
      Outline.nodeUpTo, hcomposes, hanimation, hnames, List.append_nil]
    exact ⟨_, _, rfl⟩

theorem laterPasses_declaration (frontier : Frontier) (known known₂ known₄ : List Text)
    (above : List BlockHead) (content : Declaration) :
    laterPasses rename frontier known known₂ known₄ above [.declaration content] =
      (content.substituteUpTo rename frontier known).toList.map .declaration := by
  have hcontent : (composesOutline rename).declaration known₂ content =
    if content.isComposes then none else some content := rfl
  cases frontier with
  | composes passed =>
    have hmark : Site.isComposes (.declaration above content) = content.isComposes := rfl
    simp only [laterPasses, Outline.nodesUpTo, Outline.nodeUpTo, Outline.comesTo, hcontent, hmark]
    cases passed <;> cases hcomposes : content.isComposes <;>
      simp [Declaration.substituteUpTo, hcomposes]
  | selectors passed =>
    simp only [laterPasses, Outline.nodes, Outline.node, hcontent, Declaration.substituteUpTo]
    cases content.isComposes <;> rfl

/-- The pass over keyframes keeps the number of sites in front of the frontier. -/
theorem behind_keyframes (frontier : Frontier) (known : List Text) (above : List BlockHead)
    (node : Node) :
    frontier.behind (Node.sitesAll (above.map (keyframesOutline rename).blockHead)
      ((keyframesOutline rename).node known above node)) =
      frontier.behind (Node.sites above node) := by
  cases frontier with
  | composes passed =>
    have hhides : (keyframesOutline rename).Hides _ := keyframesOutline_hides_composes_outcome?
    rw [Frontier.behind, Frontier.behind, (composesOutline rename).countP_eq_length_outcome,
      hhides.filterMap_node, ← (composesOutline rename).countP_eq_length_outcome]
  | selectors passed =>
    have hhides : (keyframesOutline rename).Hides _ := keyframesOutline_hides_selectors_outcome?
    rw [Frontier.behind, Frontier.behind, (selectorsOutline rename).countP_eq_length_outcome,
      hhides.filterMap_node, ← (selectorsOutline rename).countP_eq_length_outcome]

mutual

theorem laterPasses_node (frontier : Frontier) (known known₁ known₂ known₄ : List Text)
    (above : List BlockHead) : (node : Node) →
    laterPasses rename frontier known known₂ known₄ (above.map (keyframesOutline rename).blockHead)
      ((keyframesOutline rename).node known₁ above node) =
      Node.substituteUpTo rename frontier known above node
  | .rule head body => by
    have hselector : (Site.rule (above.map (keyframesOutline rename).blockHead) head).selector? =
      (Site.rule above head).selector? := keyframesOutline_hides_selector?.rule above head
    have hhead : head.substituteUpTo rename frontier
        (above.map (keyframesOutline rename).blockHead) =
        head.substituteUpTo rename frontier above := by
      unfold Rule.substituteUpTo Rule.substitute
      rw [hselector]
    obtain ⟨known₂', known₄', hrule⟩ := laterPasses_rule frontier known known₂ known₄
      (above.map (keyframesOutline rename).blockHead) head _
    have hbody := laterPasses_nodes (frontier.behind [.rule above head]) known
      (known₁ ++ (keyframesOutline rename).names [.rule above head]) known₂' known₄'
      (.rule head :: above) body
    rw [Node.substituteUpTo, ← hbody, ← hhead]
    exact hrule
  | .block head body => by
    obtain ⟨known₂', known₄', hblock⟩ := laterPasses_block frontier known known₂ known₄
      (above.map (keyframesOutline rename).blockHead) (head.substitute rename) _
    have hbody := laterPasses_nodes (frontier.behind [.atRule head]) known
      (known₁ ++ (keyframesOutline rename).names [.atRule head]) known₂' known₄'
      (.block head :: above) body
    rw [Node.substituteUpTo, ← hbody]
    exact hblock
  | .statement head => by cases frontier <;> rfl
  | .declaration content => laterPasses_declaration frontier known known₂ known₄ _ content
  | .comment content position => by cases frontier <;> rfl

theorem laterPasses_nodes (frontier : Frontier) (known known₁ known₂ known₄ : List Text)
    (above : List BlockHead) : (nodes : List Node) →
    laterPasses rename frontier known known₂ known₄ (above.map (keyframesOutline rename).blockHead)
      ((keyframesOutline rename).nodes known₁ above nodes) =
      Node.substituteAllUpTo rename frontier known above nodes
  | [] => by cases frontier <;> rfl
  | first :: rest => by
    have hhides : (keyframesOutline rename).Hides Site.animationName? :=
      keyframesOutline_hides_animationName?
    obtain ⟨known₂', known₄', happend⟩ := laterPasses_append frontier known known₂ known₄
      (above.map (keyframesOutline rename).blockHead)
      ((keyframesOutline rename).node known₁ above first)
      ((keyframesOutline rename).nodes
        (known₁ ++ (keyframesOutline rename).names (Node.sites above first)) above rest)
    rw [Outline.nodes, happend, hhides.filterMap_node, behind_keyframes, Node.substituteAllUpTo,
      laterPasses_node frontier known known₁ known₂ known₄ above first,
      laterPasses_nodes _ _ _ _ _ above rest]

end

/-- The passes before the last one keep the number of rules. -/
theorem countP_isRule_afterAnimations (rename : Text → Text) (sheet : Sheet) :
    (afterAnimations rename sheet).sites.countP Site.isRule = sheet.sites.countP Site.isRule := by
  have hview := filterMap_afterAnimations rename sheet keyframesOutline_hides_selectors_outcome?
    fun _ _ => rfl
  rw [(selectorsOutline rename).countP_eq_length_outcome, hview,
    ← (selectorsOutline rename).countP_eq_length_outcome]

/-- The four passes together are the substitution. -/
theorem afterSelectors_eq_substitute (rename : Text → Text) (sheet : Sheet) :
    afterSelectors rename sheet = sheet.substitute rename := by
  have hrules := Nat.le_of_eq (countP_isRule_afterAnimations rename sheet)
  rw [afterSelectors, ← Outline.nodesUpTo_of_le _ [] _ hrules, Sheet.substitute,
    ← Node.substituteAllUpTo_of_le rename _ [] sheet (Nat.le_refl _)]
  exact laterPasses_nodes (.selectors _) _ [] _ _ [] sheet

end Fusion

/-! ## The report of a run -/

section Report

/-- A run fails with the first fault of its style sheet. -/
theorem failure_run (options : Options) (path : Option Text) (document : Document) :
    (run options path document).failure =
      (document.sheet.composesFaults ++ document.sheet.selectorFaults).head? := by
  rw [← failure_scopeSheet (namerFor options path)]
  unfold run
  generalize scopeSheet (namerFor options path) document.sheet .start = result
  obtain ⟨sheet, state, failure⟩ := result
  cases failure <;> rfl

/-- A run that succeeds substitutes scoped names in its style sheet and exports its registry. -/
theorem document_run {options : Options} {path : Option Text} {document : Document}
    (h : (run options path document).failure = none) {rename : Text → Text}
    (hagrees : Agrees (namerFor options path) rename (sheetUses rename document.sheet)) :
    (run options path document).document =
      ⟨document.sheet.substitute rename, document.exports ++
        [⟨(ofUses (namerFor options path) (sheetUses rename document.sheet)).entries⟩]⟩ := by
  rw [failure_run, List.head?_eq_none_iff, List.append_eq_nil_iff] at h
  obtain ⟨later, happly, hregistry⟩ := scopeSheet_completes h.1 h.2 hagrees .empty rfl
  unfold run
  rw [Progress.start, happly, afterSelectors_eq_substitute]
  dsimp only
  rw [hregistry]
  rfl

end Report

end ScopedCss.Scoping
