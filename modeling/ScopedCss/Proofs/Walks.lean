import ScopedCss.Proofs.Steps
import ScopedCss.Scoping.Walk

/-!
# Walks as passes over sites

A site is a place of a style sheet that a walk visits: the head of a rule or an at-rule, or a
declaration.  `Node.sitesAll` lists the sites of nodes in document order, a head before its body.

An `Outline` says what a pass does at every site without a registry: the error that it stops with,
the uses that it makes of the registry, and what it puts in the place of the node.  A visitor that
follows an outline at each site follows it on a whole style sheet:

* `Visitor.Follows.failure_nodes`: the walk fails with the first fault of its sites;
* `Visitor.Follows.nodes_completes`: a walk without a fault gives the nodes of the outline and makes
  the uses of its sites, in order.
-/

namespace ScopedCss

open Registry (Use ofUses)

/-- A place of a style sheet that a walk visits, with the heads around it, innermost first. -/
inductive Site where
  | rule (above : List BlockHead) (head : Rule)
  | atRule (head : AtRule)
  | declaration (above : List BlockHead) (content : Declaration)
deriving Repr, DecidableEq

mutual

/-- The sites of a node, in document order. -/
def Node.sites (above : List BlockHead) : Node → List Site
  | .rule head body => .rule above head :: Node.sitesAll (.rule head :: above) body
  | .block head body => .atRule head :: Node.sitesAll (.block head :: above) body
  | .statement head => [.atRule head]
  | .declaration content => [.declaration above content]
  | .comment _ _ => []

/-- The sites of nodes, in document order. -/
def Node.sitesAll (above : List BlockHead) : List Node → List Site
  | [] => []
  | first :: rest => Node.sites above first ++ Node.sitesAll above rest

end

/-- The sites of a style sheet. -/
def Sheet.sites (sheet : Sheet) : List Site :=
  Node.sitesAll [] sheet

theorem Node.sitesAll_append (above : List BlockHead) (first second : List Node) :
    sitesAll above (first ++ second) = sitesAll above first ++ sitesAll above second := by
  induction first with
  | nil => rfl
  | cons node first ih => simp only [List.cons_append, sitesAll, ih, List.append_assoc]

namespace Scoping

/-! ## Outlines -/

/-- What a pass does at each site, told without a registry. -/
structure Outline where
  /-- The error that stops the run at the site. -/
  fault : Site → Option Error := fun _ => none
  /-- What the registry is used for at the site. -/
  uses : Site → List Use := fun _ => []
  rule : List BlockHead → Rule → Rule := fun _ head => head
  atRule : AtRule → AtRule := fun head => head
  /-- What becomes of a declaration when the names in the list have been used before it. -/
  declaration : List Text → Declaration → Option Declaration := fun _ content => some content

namespace Outline

/-- The names that are used at the sites. -/
def names (outline : Outline) (sites : List Site) : List Text :=
  (sites.flatMap outline.uses).map Use.name

@[simp] theorem names_nil (outline : Outline) : outline.names [] = [] := rfl

theorem names_append (outline : Outline) (first second : List Site) :
    outline.names (first ++ second) = outline.names first ++ outline.names second := by
  simp [names]

mutual

/-- What a pass makes of a node; `known` holds the names that have been used before it. -/
def node (outline : Outline) (known : List Text) (above : List BlockHead) : Node → List Node
  | .rule head body =>
    let known := known ++ outline.names [.rule above head]
    [.rule (outline.rule above head) (outline.nodes known (.rule head :: above) body)]
  | .block head body =>
    let known := known ++ outline.names [.atRule head]
    [.block (outline.atRule head) (outline.nodes known (.block head :: above) body)]
  | .statement head => [.statement (outline.atRule head)]
  | .declaration content => (outline.declaration known content).toList.map .declaration
  | .comment content position => [.comment content position]

/-- What a pass makes of nodes. -/
def nodes (outline : Outline) (known : List Text) (above : List BlockHead) :
    List Node → List Node
  | [] => []
  | first :: rest =>
    outline.node known above first ++
      outline.nodes (known ++ outline.names (Node.sites above first)) above rest

end

theorem nodes_append (outline : Outline) (known : List Text) (above : List BlockHead)
    (first second : List Node) :
    outline.nodes known above (first ++ second) =
      outline.nodes known above first ++
        outline.nodes (known ++ outline.names (Node.sitesAll above first)) above second := by
  induction first generalizing known with
  | nil => simp [nodes, Node.sitesAll]
  | cons node first ih =>
    simp only [List.cons_append, nodes, ih, Node.sitesAll, names_append, List.append_assoc]

/-! ## What a pass does not change -/

/-- The head of a block after the pass, where the pass leaves rules as they are. -/
def blockHead (outline : Outline) : BlockHead → BlockHead
  | .rule head => .rule head
  | .block head => .block (outline.atRule head)

/-- The pass leaves the heads of rules as they are, and `view` does not see what it changes. -/
structure Hides {α : Type} (outline : Outline) (view : Site → Option α) : Prop where
  keeps : ∀ above head, outline.rule above head = head
  rule : ∀ above head,
    view (.rule (above.map outline.blockHead) head) = view (.rule above head)
  atRule : ∀ head, view (.atRule (outline.atRule head)) = view (.atRule head)
  declaration : ∀ known above content,
    ((outline.declaration known content).bind fun changed =>
      view (.declaration (above.map outline.blockHead) changed)) =
      view (.declaration above content)

namespace Hides

variable {α : Type} {outline : Outline} {view : Site → Option α}

mutual

theorem filterMap_node (h : outline.Hides view) (known : List Text) (above : List BlockHead) :
    (node : Node) →
    (Node.sitesAll (above.map outline.blockHead) (outline.node known above node)).filterMap view =
      (Node.sites above node).filterMap view
  | .rule head body => by
    have hbody := filterMap_nodes h (known ++ outline.names [.rule above head])
      (.rule head :: above) body
    rw [List.map_cons, blockHead] at hbody
    simp only [node, Node.sitesAll, Node.sites, h.keeps, List.append_nil]
    rw [List.filterMap_cons, List.filterMap_cons, h.rule, hbody]
  | .block head body => by
    have hbody := filterMap_nodes h (known ++ outline.names [.atRule head])
      (.block head :: above) body
    rw [List.map_cons, blockHead] at hbody
    simp only [node, Node.sitesAll, Node.sites, List.append_nil]
    rw [List.filterMap_cons, List.filterMap_cons, h.atRule, hbody]
  | .statement head => by
    simp only [node, Node.sitesAll, Node.sites, List.append_nil]
    rw [List.filterMap_cons, List.filterMap_cons, h.atRule]
  | .declaration content => by
    have hcontent := h.declaration known above content
    simp only [node, Node.sites]
    rw [List.filterMap_cons, ← hcontent]
    cases outline.declaration known content with
    | none => rfl
    | some changed => rfl
  | .comment _ _ => rfl

/-- What `view` sees in nodes is the same before and after the pass. -/
theorem filterMap_nodes (h : outline.Hides view) (known : List Text) (above : List BlockHead) :
    (nodes : List Node) →
    (Node.sitesAll (above.map outline.blockHead) (outline.nodes known above nodes)).filterMap view =
      (Node.sitesAll above nodes).filterMap view
  | [] => rfl
  | first :: rest => by
    rw [nodes, Node.sitesAll_append, Node.sitesAll, List.filterMap_append, List.filterMap_append,
      filterMap_node h known above first, filterMap_nodes h _ above rest]

end

end Hides

end Outline

/-! ## Walks that fail -/

namespace Visitor

/-- How far the run has come after the visit of a site. -/
def visit (visitor : Visitor) (progress : Progress) : Site → Progress
  | .rule above head => (attempt (visitor.rule above head) head progress).2
  | .atRule head => (attempt (visitor.atRule head) head progress).2
  | .declaration above content =>
    (attempt (visitor.declaration above content) (some content) progress).2

mutual

/-- The walk over a node visits its sites one after the other. -/
theorem progress_node (visitor : Visitor) (above : List BlockHead) (progress : Progress) :
    (node : Node) → (visitor.node above node progress).2 =
      (Node.sites above node).foldl visitor.visit progress
  | .rule head body => visitor.progress_nodes (.rule head :: above) _ body
  | .block head body => visitor.progress_nodes (.block head :: above) _ body
  | .statement _ => rfl
  | .declaration _ => rfl
  | .comment _ _ => rfl

/-- A walk visits the sites one after the other. -/
theorem progress_nodes (visitor : Visitor) (above : List BlockHead) (progress : Progress) :
    (nodes : List Node) → (visitor.nodes above nodes progress).2 =
      (Node.sitesAll above nodes).foldl visitor.visit progress
  | [] => rfl
  | first :: rest => by
    rw [nodes_cons, Node.sitesAll, List.foldl_append]
    simp only []
    rw [visitor.progress_node above progress first]
    exact visitor.progress_nodes above _ rest

end

mutual

/-- Behind a failure, a walk leaves a node as it is. -/
theorem node_of_failure (visitor : Visitor) (above : List BlockHead) {progress : Progress}
    {error : Error} (h : progress.failure = some error) :
    (node : Node) → visitor.node above node progress = ([node], progress)
  | .rule head body => by
    have hbody := visitor.nodes_of_failure (.rule head :: above) h body
    simp only [node, bind, StateT.bind, attempt_of_failure _ _ h, hbody]
    rfl
  | .block head body => by
    have hbody := visitor.nodes_of_failure (.block head :: above) h body
    simp only [node, bind, StateT.bind, attempt_of_failure _ _ h, hbody]
    rfl
  | .statement head => by
    simp only [node, bind, StateT.bind, attempt_of_failure _ _ h]
    rfl
  | .declaration content => by
    simp only [node, bind, StateT.bind, attempt_of_failure _ _ h]
    rfl
  | .comment _ _ => rfl

/-- Behind a failure, a walk leaves everything as it is. -/
theorem nodes_of_failure (visitor : Visitor) (above : List BlockHead) {progress : Progress}
    {error : Error} (h : progress.failure = some error) :
    (nodes : List Node) → visitor.nodes above nodes progress = (nodes, progress)
  | [] => rfl
  | first :: rest => by
    rw [nodes_cons, visitor.node_of_failure above h first]
    simp only []
    rw [visitor.nodes_of_failure above h rest]
    rfl

end

end Visitor

/-! ## Walks that follow an outline -/

section Attempt

variable {α : Type} {namer : Namer} {step : ScopeM α} {state : State}

theorem failure_attempt {fault : Option Error} (kept : α) (h : Stops step fault) :
    (attempt step kept ⟨state, none⟩).2.failure = fault := by
  unfold attempt
  rcases h state with ⟨value, hvalue, rfl⟩ | ⟨error, herror, rfl⟩
  · rw [show step state = (.ok value, (step state).2) from Prod.ext hvalue rfl]
  · rw [show step state = (.error error, (step state).2) from Prod.ext herror rfl]

end Attempt

/-- From a registry after the uses `before`, the part of a walk is not stopped, gives `value` and
makes the further `uses`. -/
def Completes {α : Type} (namer : Namer) (walk : StateM Progress α) (before : List Use) (value : α)
    (uses : List Use) : Prop :=
  ∀ state : State, state.registry = ofUses namer before →
    ∃ later : State, walk ⟨state, none⟩ = (value, ⟨later, none⟩) ∧
      later.registry = ofUses namer (before ++ uses)

namespace Completes

variable {α β : Type} {namer : Namer} {before uses more : List Use}

theorem pure (value : α) : Completes namer (Pure.pure value) before value [] := by
  intro state hstate
  exact ⟨state, rfl, by rw [hstate, List.append_nil]⟩

theorem attempt {step : ScopeM α} {value : α} (kept : α)
    (h : Yields namer step before value uses) :
    Completes namer (Scoping.attempt step kept) before value uses := by
  intro state hstate
  obtain ⟨later, hlater, hregistry⟩ := h state hstate
  refine ⟨later, ?_, hregistry⟩
  unfold Scoping.attempt
  rw [hlater]

theorem bind {first : StateM Progress α} {next : α → StateM Progress β} {value : α} {result : β}
    (hfirst : Completes namer first before value uses)
    (hnext : Completes namer (next value) (before ++ uses) result more) :
    Completes namer (first >>= next) before result (uses ++ more) := by
  intro state hstate
  obtain ⟨middle, hmiddle, hregistry⟩ := hfirst state hstate
  obtain ⟨later, hlater, hfinal⟩ := hnext middle hregistry
  refine ⟨later, ?_, ?_⟩
  · simp only [Bind.bind, StateT.bind, hmiddle, hlater]
  · rw [hfinal, List.append_assoc]

theorem map {walk : StateM Progress α} {value : α} (change : α → β)
    (h : Completes namer walk before value uses) :
    Completes namer (walk >>= fun value => Pure.pure (change value)) before (change value)
      uses := by
  rw [← List.append_nil uses]
  exact bind h (pure (change value))

end Completes

namespace Visitor

/-- The visitor does at each site what the outline says, as long as `rename` gives the scoped names
of the registry after it. -/
structure Follows (visitor : Visitor) (namer : Namer) (rename : Text → Text)
    (outline : Outline) : Prop where
  rule_stops : ∀ above head,
    Stops (visitor.rule above head) (outline.fault (.rule above head))
  atRule_stops : ∀ head, Stops (visitor.atRule head) (outline.fault (.atRule head))
  declaration_stops : ∀ above content,
    Stops (visitor.declaration above content) (outline.fault (.declaration above content))
  rule_yields : ∀ before above head,
    Registry.Agrees namer rename (before ++ outline.uses (.rule above head)) →
    outline.fault (.rule above head) = none →
    Yields namer (visitor.rule above head) before (outline.rule above head)
      (outline.uses (.rule above head))
  atRule_yields : ∀ before head,
    Registry.Agrees namer rename (before ++ outline.uses (.atRule head)) →
    outline.fault (.atRule head) = none →
    Yields namer (visitor.atRule head) before (outline.atRule head) (outline.uses (.atRule head))
  declaration_yields : ∀ before above content,
    Registry.Agrees namer rename (before ++ outline.uses (.declaration above content)) →
    outline.fault (.declaration above content) = none →
    Yields namer (visitor.declaration above content) before
      (outline.declaration (before.map Use.name) content)
      (outline.uses (.declaration above content))

namespace Follows

variable {visitor : Visitor} {namer : Namer} {rename : Text → Text} {outline : Outline}

theorem failure_visit (h : visitor.Follows namer rename outline) (state : State) (site : Site) :
    (visitor.visit ⟨state, none⟩ site).failure = outline.fault site := by
  cases site with
  | rule above head => exact failure_attempt head (h.rule_stops above head)
  | atRule head => exact failure_attempt head (h.atRule_stops head)
  | declaration above content =>
    exact failure_attempt (some content) (h.declaration_stops above content)

theorem foldl_visit_of_failure (visitor : Visitor) {progress : Progress} {error : Error}
    (h : progress.failure = some error) (sites : List Site) :
    sites.foldl visitor.visit progress = progress := by
  induction sites with
  | nil => rfl
  | cons site sites ih =>
    have hvisit : visitor.visit progress site = progress := by
      cases site <;> simp only [visit, attempt_of_failure _ _ h]
    rw [List.foldl_cons, hvisit, ih]

/-- A walk fails with the first fault of its sites. -/
theorem failure_nodes (h : visitor.Follows namer rename outline) (above : List BlockHead)
    (state : State) (nodes : List Node) :
    (visitor.nodes above nodes ⟨state, none⟩).2.failure =
      ((Node.sitesAll above nodes).filterMap outline.fault).head? := by
  rw [visitor.progress_nodes]
  induction Node.sitesAll above nodes generalizing state with
  | nil => rfl
  | cons site sites ih =>
    have hvisit := h.failure_visit state site
    rw [List.foldl_cons]
    generalize visitor.visit ⟨state, none⟩ site = progress at hvisit ⊢
    cases hfault : outline.fault site with
    | none =>
      rw [hfault] at hvisit
      obtain ⟨later, failure⟩ := progress
      subst hvisit
      rw [List.filterMap_cons_none hfault, ih later]
    | some error =>
      rw [hfault] at hvisit
      rw [foldl_visit_of_failure visitor hvisit, hvisit, List.filterMap_cons_some hfault,
        List.head?_cons]

mutual

/-- A walk over a node without a fault follows the outline. -/
theorem node_completes (h : visitor.Follows namer rename outline) (above : List BlockHead)
    (before : List Use) :
    (node : Node) →
    Registry.Agrees namer rename (before ++ (Node.sites above node).flatMap outline.uses) →
    (∀ site ∈ Node.sites above node, outline.fault site = none) →
    Completes namer (visitor.node above node) before
      (outline.node (before.map Use.name) above node)
      ((Node.sites above node).flatMap outline.uses)
  | .rule head body, hagrees, hfault => by
    rw [Node.sites, List.flatMap_cons] at hagrees ⊢
    have hhead := h.rule_yields before above head
      (Registry.Agrees.of_append (by rwa [← List.append_assoc] at hagrees))
      (hfault _ (by simp [Node.sites]))
    have hbody := nodes_completes h (.rule head :: above)
      (before ++ outline.uses (.rule above head)) body
      (by rwa [List.append_assoc])
      (fun site hsite => hfault site (by simp [Node.sites, hsite]))
    rw [List.map_append] at hbody
    simp only [Outline.node, Outline.names, List.flatMap_cons, List.flatMap_nil, List.append_nil]
    exact (Completes.attempt head hhead).bind (hbody.map _)
  | .block head body, hagrees, hfault => by
    rw [Node.sites, List.flatMap_cons] at hagrees ⊢
    have hhead := h.atRule_yields before head
      (Registry.Agrees.of_append (by rwa [← List.append_assoc] at hagrees))
      (hfault _ (by simp [Node.sites]))
    have hbody := nodes_completes h (.block head :: above)
      (before ++ outline.uses (.atRule head)) body
      (by rwa [List.append_assoc])
      (fun site hsite => hfault site (by simp [Node.sites, hsite]))
    rw [List.map_append] at hbody
    simp only [Outline.node, Outline.names, List.flatMap_cons, List.flatMap_nil, List.append_nil]
    exact (Completes.attempt head hhead).bind (hbody.map _)
  | .statement head, hagrees, hfault => by
    simp only [Node.sites, List.flatMap_cons, List.flatMap_nil, List.append_nil] at hagrees ⊢
    have hhead := h.atRule_yields before head hagrees (hfault _ (by simp [Node.sites]))
    exact (Completes.attempt head hhead).map _
  | .declaration content, hagrees, hfault => by
    simp only [Node.sites, List.flatMap_cons, List.flatMap_nil, List.append_nil] at hagrees ⊢
    have hcontent := h.declaration_yields before above content hagrees
      (hfault _ (by simp [Node.sites]))
    exact (Completes.attempt (some content) hcontent).map _
  | .comment _ _, _, _ => Completes.pure _

/-- A walk without a fault follows the outline. -/
theorem nodes_completes (h : visitor.Follows namer rename outline) (above : List BlockHead)
    (before : List Use) :
    (nodes : List Node) →
    Registry.Agrees namer rename (before ++ (Node.sitesAll above nodes).flatMap outline.uses) →
    (∀ site ∈ Node.sitesAll above nodes, outline.fault site = none) →
    Completes namer (visitor.nodes above nodes) before
      (outline.nodes (before.map Use.name) above nodes)
      ((Node.sitesAll above nodes).flatMap outline.uses)
  | [], _, _ => Completes.pure _
  | first :: rest, hagrees, hfault => by
    rw [Node.sitesAll, List.flatMap_append] at hagrees ⊢
    have hfirst := node_completes h above before first
      (Registry.Agrees.of_append (by rwa [← List.append_assoc] at hagrees))
      (fun site hsite => hfault site (by simp [Node.sitesAll, hsite]))
    have hrest := nodes_completes h above
      (before ++ (Node.sites above first).flatMap outline.uses) rest
      (by rwa [List.append_assoc])
      (fun site hsite => hfault site (by simp [Node.sitesAll, hsite]))
    rw [List.map_append] at hrest
    exact hfirst.bind (hrest.map _)

end

end Follows

end Visitor

end Scoping

end ScopedCss
