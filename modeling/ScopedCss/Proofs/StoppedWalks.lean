import ScopedCss.Proofs.Walks

/-!
# Walks that stop

A walk that fails has rewritten the nodes in front of the place where it failed and leaves the
others as they were.  `Outline.nodesUpTo` says this without a registry: of the sites that a pass acts
on, which are marked, the first `passed` ones are treated as the outline says.  The main fact is
`Visitor.Follows.nodes_upTo`: a walk leaves what its outline says up to its first fault, whether it
fails or not.
-/

namespace ScopedCss.Scoping

open Registry (Use Agrees ofUses)

namespace Outline

/-- A walk that passes `passed` marked sites comes to the site if it is not marked, or if it is the
first marked one and the walk passes any. -/
def comesTo (mark : Site → Bool) (passed : Nat) (site : Site) : Bool :=
  !mark site || passed != 0

theorem comesTo_of_le {mark : Site → Bool} {passed : Nat} {site : Site}
    (h : [site].countP mark ≤ passed) : comesTo mark passed site = true := by
  cases hmark : mark site with
  | false => simp [comesTo, hmark]
  | true =>
    rw [List.countP_singleton, if_pos hmark] at h
    simp only [comesTo, hmark, Bool.not_true, Bool.false_or, bne_iff_ne]
    omega

mutual

/-- What is left of a node by a pass that passes `passed` marked sites and then stops. -/
def nodeUpTo (outline : Outline) (mark : Site → Bool) (passed : Nat) (known : List Text)
    (above : List BlockHead) : Node → List Node
  | .rule head body =>
    [.rule (if comesTo mark passed (.rule above head) then outline.rule above head else head)
      (outline.nodesUpTo mark (passed - [Site.rule above head].countP mark)
        (known ++ outline.names [.rule above head]) (.rule head :: above) body)]
  | .block head body =>
    [.block (if comesTo mark passed (.atRule head) then outline.atRule head else head)
      (outline.nodesUpTo mark (passed - [Site.atRule head].countP mark)
        (known ++ outline.names [.atRule head]) (.block head :: above) body)]
  | .statement head =>
    [.statement (if comesTo mark passed (.atRule head) then outline.atRule head else head)]
  | .declaration content =>
    if comesTo mark passed (.declaration above content) then
      (outline.declaration known content).toList.map .declaration
    else [.declaration content]
  | .comment content position => [.comment content position]

/-- What is left of nodes by a pass that passes `passed` marked sites and then stops. -/
def nodesUpTo (outline : Outline) (mark : Site → Bool) (passed : Nat) (known : List Text)
    (above : List BlockHead) : List Node → List Node
  | [] => []
  | first :: rest =>
    outline.nodeUpTo mark passed known above first ++
      outline.nodesUpTo mark (passed - (Node.sites above first).countP mark)
        (known ++ outline.names (Node.sites above first)) above rest

end

variable {outline : Outline} {mark : Site → Bool}

theorem nodesUpTo_append (passed : Nat) (known : List Text) (above : List BlockHead)
    (first second : List Node) :
    outline.nodesUpTo mark passed known above (first ++ second) =
      outline.nodesUpTo mark passed known above first ++
        outline.nodesUpTo mark (passed - (Node.sitesAll above first).countP mark)
          (known ++ outline.names (Node.sitesAll above first)) above second := by
  induction first generalizing passed known with
  | nil => simp [nodesUpTo, Node.sitesAll]
  | cons node first ih =>
    simp only [List.cons_append, nodesUpTo, ih, Node.sitesAll, names_append, List.append_assoc,
      List.countP_append, Nat.sub_sub]

/-! ## Walks that pass every site, and walks that pass none -/

mutual

theorem nodeUpTo_of_le {passed : Nat} (known : List Text) (above : List BlockHead) :
    (node : Node) → (Node.sites above node).countP mark ≤ passed →
    outline.nodeUpTo mark passed known above node = outline.node known above node
  | .rule head body, h => by
    rw [Node.sites, List.countP_cons, ← List.countP_singleton] at h
    have hhead : [Site.rule above head].countP mark ≤ passed := by omega
    rw [nodeUpTo, if_pos (comesTo_of_le hhead), nodesUpTo_of_le _ _ body (by omega), node]
  | .block head body, h => by
    rw [Node.sites, List.countP_cons, ← List.countP_singleton] at h
    have hhead : [Site.atRule head].countP mark ≤ passed := by omega
    rw [nodeUpTo, if_pos (comesTo_of_le hhead), nodesUpTo_of_le _ _ body (by omega), node]
  | .statement head, h => by rw [nodeUpTo, if_pos (comesTo_of_le h), node]
  | .declaration content, h => by rw [nodeUpTo, if_pos (comesTo_of_le h), node]
  | .comment _ _, _ => rfl

/-- A walk that passes all marked sites does everything that its outline says. -/
theorem nodesUpTo_of_le {passed : Nat} (known : List Text) (above : List BlockHead) :
    (nodes : List Node) → (Node.sitesAll above nodes).countP mark ≤ passed →
    outline.nodesUpTo mark passed known above nodes = outline.nodes known above nodes
  | [], _ => rfl
  | first :: rest, h => by
    rw [Node.sitesAll, List.countP_append] at h
    rw [nodesUpTo, nodeUpTo_of_le known above first (by omega),
      nodesUpTo_of_le _ above rest (by omega), nodes]

end

/-- The pass fails and makes changes at marked sites only. -/
structure ActsOn (outline : Outline) (mark : Site → Bool) : Prop where
  fault : ∀ site, mark site = false → outline.fault site = none
  rule : ∀ above head, mark (.rule above head) = false → outline.rule above head = head
  atRule : ∀ head, mark (.atRule head) = false → outline.atRule head = head
  declaration : ∀ known above content, mark (.declaration above content) = false →
    outline.declaration known content = some content

theorem mark_eq_false_of_comesTo {site : Site} (h : comesTo mark 0 site = true) :
    mark site = false := by
  simpa [comesTo] using h

mutual

theorem nodeUpTo_zero (h : outline.ActsOn mark) (known : List Text) (above : List BlockHead) :
    (node : Node) → outline.nodeUpTo mark 0 known above node = [node]
  | .rule head body => by
    rw [nodeUpTo, Nat.zero_sub, nodesUpTo_zero h]
    split
    · next hcomes => rw [h.rule above head (mark_eq_false_of_comesTo hcomes)]
    · rfl
  | .block head body => by
    rw [nodeUpTo, Nat.zero_sub, nodesUpTo_zero h]
    split
    · next hcomes => rw [h.atRule head (mark_eq_false_of_comesTo hcomes)]
    · rfl
  | .statement head => by
    rw [nodeUpTo]
    split
    · next hcomes => rw [h.atRule head (mark_eq_false_of_comesTo hcomes)]
    · rfl
  | .declaration content => by
    rw [nodeUpTo]
    split
    · next hcomes =>
      rw [h.declaration known above content (mark_eq_false_of_comesTo hcomes)]
      rfl
    · rfl
  | .comment _ _ => rfl

/-- A walk that passes no marked site leaves everything as it is. -/
theorem nodesUpTo_zero (h : outline.ActsOn mark) (known : List Text) (above : List BlockHead) :
    (nodes : List Node) → outline.nodesUpTo mark 0 known above nodes = nodes
  | [] => rfl
  | first :: rest => by
    rw [nodesUpTo, Nat.zero_sub, nodeUpTo_zero h, nodesUpTo_zero h]
    rfl

end

/-! ## The sites in front of the first fault -/

/-- The number of marked sites in front of the first fault. -/
def cleared (outline : Outline) (mark : Site → Bool) (sites : List Site) : Nat :=
  (sites.takeWhile fun site => (outline.fault site).isNone).countP mark

theorem cleared_append_of_clear {first : List Site} (second : List Site)
    (h : ∀ site ∈ first, outline.fault site = none) :
    outline.cleared mark (first ++ second) = first.countP mark + outline.cleared mark second := by
  unfold cleared
  rw [List.takeWhile_append_of_pos (by simpa using h), List.countP_append]

theorem cleared_of_clear {sites : List Site} (h : ∀ site ∈ sites, outline.fault site = none) :
    outline.cleared mark sites = sites.countP mark := by
  have happend : outline.cleared mark (sites ++ []) = sites.countP mark + 0 :=
    cleared_append_of_clear [] h
  rwa [List.append_nil] at happend

theorem cleared_cons_of_clear {site : Site} (sites : List Site) (h : outline.fault site = none) :
    outline.cleared mark (site :: sites) = [site].countP mark + outline.cleared mark sites :=
  cleared_append_of_clear sites (List.forall_mem_singleton.2 h)

theorem cleared_cons_of_fault {site : Site} {error : Error} (sites : List Site)
    (h : outline.fault site = some error) : outline.cleared mark (site :: sites) = 0 := by
  simp [cleared, h]

theorem cleared_append_of_fault {first : List Site} (second : List Site)
    (h : ¬∀ site ∈ first, outline.fault site = none) :
    outline.cleared mark (first ++ second) = outline.cleared mark first := by
  induction first with
  | nil => simp at h
  | cons site first ih =>
    cases hfault : outline.fault site with
    | some error =>
      rw [List.cons_append, cleared_cons_of_fault _ hfault, cleared_cons_of_fault _ hfault]
    | none =>
      have hinner : ¬∀ site ∈ first, outline.fault site = none := by
        intro hall
        exact h (List.forall_mem_cons.2 ⟨hfault, hall⟩)
      rw [List.cons_append, cleared_cons_of_clear _ hfault, cleared_cons_of_clear _ hfault,
        ih hinner]

/-- How a marked site goes. -/
def outcome? (outline : Outline) (mark : Site → Bool) (site : Site) : Option (Option Error) :=
  if mark site then some (outline.fault site) else none

theorem countP_eq_length_outcome (outline : Outline) (mark : Site → Bool) (sites : List Site) :
    sites.countP mark = (sites.filterMap (outline.outcome? mark)).length := by
  induction sites with
  | nil => rfl
  | cons site sites ih =>
    cases hmark : mark site with
    | false =>
      have hnone : outline.outcome? mark site = none := by simp [outcome?, hmark]
      rw [List.countP_cons_of_neg (by simp [hmark]), List.filterMap_cons_none hnone, ih]
    | true =>
      have hsome : outline.outcome? mark site = some (outline.fault site) := by
        simp [outcome?, hmark]
      rw [List.countP_cons_of_pos hmark, List.filterMap_cons_some hsome, List.length_cons, ih]

/-- The number of marked sites in front of the first fault can be read off how the marked sites
go. -/
theorem cleared_eq_length_outcome (h : outline.ActsOn mark) (sites : List Site) :
    outline.cleared mark sites =
      ((sites.filterMap (outline.outcome? mark)).takeWhile Option.isNone).length := by
  induction sites with
  | nil => rfl
  | cons site sites ih =>
    cases hmark : mark site with
    | false =>
      have hnone : outline.outcome? mark site = none := by simp [outcome?, hmark]
      rw [cleared_cons_of_clear _ (h.fault site hmark), List.filterMap_cons_none hnone, ih,
        List.countP_singleton, hmark]
      exact Nat.zero_add _
    | true =>
      have hsome : outline.outcome? mark site = some (outline.fault site) := by
        simp [outcome?, hmark]
      rw [List.filterMap_cons_some hsome]
      cases hfault : outline.fault site with
      | none =>
        rw [cleared_cons_of_clear _ hfault, ih, List.countP_singleton, if_pos hmark,
          List.takeWhile_cons_of_pos rfl, List.length_cons, Nat.add_comm]
      | some error =>
        rw [cleared_cons_of_fault _ hfault, List.takeWhile_cons_of_neg (by simp), List.length_nil]

theorem cleared_le (outline : Outline) (mark : Site → Bool) (sites : List Site) :
    outline.cleared mark sites ≤ sites.countP mark :=
  (List.takeWhile_sublist _).countP_le

end Outline

/-! ## Walks -/

section Attempt

variable {α : Type} {namer : Namer} {step : ScopeM α} {value : α} {fault : Option Error}
  {before uses : List Use} {state : State}

/-- A step at a site either is taken, or stops the walk and keeps what was there. -/
theorem attempt_cases (kept : α) (hstops : Stops step fault)
    (hyields : fault = none → Yields namer step before value uses)
    (hstate : state.registry = ofUses namer before) :
    (fault = none ∧ ∃ later, attempt step kept ⟨state, none⟩ = (value, ⟨later, none⟩) ∧
      later.registry = ofUses namer (before ++ uses)) ∨
    ∃ error later, fault = some error ∧
      attempt step kept ⟨state, none⟩ = (kept, ⟨later, some error⟩) := by
  cases fault with
  | none => exact .inl ⟨rfl, Completes.attempt kept (hyields rfl) state hstate⟩
  | some error =>
    refine .inr ⟨error, (step state).2, rfl, ?_⟩
    rcases hstops state with ⟨_, _, hnone⟩ | ⟨other, hother, hsome⟩
    · exact absurd hnone (by simp)
    · obtain rfl := Option.some.inj hsome
      unfold attempt
      rw [show step state = (.error error, (step state).2) from Prod.ext hother rfl]

end Attempt

namespace Visitor

theorem node_rule (visitor : Visitor) (above : List BlockHead) (head : Rule) (body : List Node)
    (progress : Progress) :
    visitor.node above (.rule head body) progress =
      let front := attempt (visitor.rule above head) head progress
      let back := visitor.nodes (.rule head :: above) body front.2
      ([.rule front.1 back.1], back.2) := rfl

theorem node_block (visitor : Visitor) (above : List BlockHead) (head : AtRule) (body : List Node)
    (progress : Progress) :
    visitor.node above (.block head body) progress =
      let front := attempt (visitor.atRule head) head progress
      let back := visitor.nodes (.block head :: above) body front.2
      ([.block front.1 back.1], back.2) := rfl

theorem node_statement (visitor : Visitor) (above : List BlockHead) (head : AtRule)
    (progress : Progress) :
    visitor.node above (.statement head) progress =
      let front := attempt (visitor.atRule head) head progress
      ([.statement front.1], front.2) := rfl

theorem node_declaration (visitor : Visitor) (above : List BlockHead) (content : Declaration)
    (progress : Progress) :
    visitor.node above (.declaration content) progress =
      let front := attempt (visitor.declaration above content) (some content) progress
      (front.1.toList.map .declaration, front.2) := rfl

namespace Follows

variable {visitor : Visitor} {namer : Namer} {rename : Text → Text} {outline : Outline}
  {mark : Site → Bool}

/-- The walk over a node whose sites have no fault goes on behind it. -/
theorem failure_node_iff (h : visitor.Follows namer rename outline) (above : List BlockHead)
    (state : State) (node : Node) :
    (visitor.node above node ⟨state, none⟩).2.failure = none ↔
      ∀ site ∈ Node.sites above node, outline.fault site = none := by
  have hfailure := h.failure_nodes above state [node]
  have hprogress : (visitor.nodes above [node] ⟨state, none⟩).2 =
      (visitor.node above node ⟨state, none⟩).2 := rfl
  rw [← hprogress, hfailure, List.head?_eq_none_iff, List.filterMap_eq_nil_iff, Node.sitesAll,
    Node.sitesAll, List.append_nil]

mutual

/-- A walk leaves of a node what its outline says up to the first fault. -/
theorem node_upTo (h : visitor.Follows namer rename outline) (hacts : outline.ActsOn mark)
    (above : List BlockHead) (before : List Use) (state : State)
    (hstate : state.registry = ofUses namer before) : (node : Node) →
    Agrees namer rename (before ++ (Node.sites above node).flatMap outline.uses) →
    (visitor.node above node ⟨state, none⟩).1 =
      outline.nodeUpTo mark (outline.cleared mark (Node.sites above node))
        (before.map Use.name) above node
  | .rule head body, hagrees => by
    rw [Node.sites, List.flatMap_cons, ← List.append_assoc] at hagrees
    rcases attempt_cases head (h.rule_stops above head)
      (h.rule_yields before above head hagrees.of_append) hstate with
      ⟨hfault, later, hattempt, hregistry⟩ | ⟨error, later, hfault, hattempt⟩
    · have hbody := nodes_upTo h hacts (.rule head :: above) _ later hregistry body hagrees
      rw [node_rule, hattempt]
      dsimp only
      rw [hbody, Node.sites, Outline.cleared_cons_of_clear _ hfault, Outline.nodeUpTo,
        if_pos (Outline.comesTo_of_le (Nat.le_add_right _ _)),
        Nat.add_sub_cancel_left, List.map_append, Outline.names, List.flatMap_singleton]
    · rw [node_rule, hattempt, Node.sites, Outline.cleared_cons_of_fault _ hfault,
        Outline.nodeUpTo_zero hacts]
      dsimp only
      rw [visitor.nodes_of_failure _ rfl]
  | .block head body, hagrees => by
    rw [Node.sites, List.flatMap_cons, ← List.append_assoc] at hagrees
    rcases attempt_cases head (h.atRule_stops head)
      (h.atRule_yields before head hagrees.of_append) hstate with
      ⟨hfault, later, hattempt, hregistry⟩ | ⟨error, later, hfault, hattempt⟩
    · have hbody := nodes_upTo h hacts (.block head :: above) _ later hregistry body hagrees
      rw [node_block, hattempt]
      dsimp only
      rw [hbody, Node.sites, Outline.cleared_cons_of_clear _ hfault, Outline.nodeUpTo,
        if_pos (Outline.comesTo_of_le (Nat.le_add_right _ _)),
        Nat.add_sub_cancel_left, List.map_append, Outline.names, List.flatMap_singleton]
    · rw [node_block, hattempt, Node.sites, Outline.cleared_cons_of_fault _ hfault,
        Outline.nodeUpTo_zero hacts]
      dsimp only
      rw [visitor.nodes_of_failure _ rfl]
  | .statement head, hagrees => by
    rw [Node.sites, List.flatMap_singleton] at hagrees
    rcases attempt_cases head (h.atRule_stops head) (h.atRule_yields before head hagrees) hstate
      with ⟨hfault, later, hattempt, _⟩ | ⟨error, later, hfault, hattempt⟩
    · rw [node_statement, hattempt, Node.sites, Outline.cleared_of_clear (by simpa using hfault),
        Outline.nodeUpTo, if_pos (Outline.comesTo_of_le (Nat.le_refl _))]
    · rw [node_statement, hattempt, Node.sites, Outline.cleared_cons_of_fault _ hfault,
        Outline.nodeUpTo_zero hacts]
  | .declaration content, hagrees => by
    rw [Node.sites, List.flatMap_singleton] at hagrees
    rcases attempt_cases (some content) (h.declaration_stops above content)
      (h.declaration_yields before above content hagrees) hstate with
      ⟨hfault, later, hattempt, _⟩ | ⟨error, later, hfault, hattempt⟩
    · rw [node_declaration, hattempt, Node.sites, Outline.cleared_of_clear (by simpa using hfault),
        Outline.nodeUpTo, if_pos (Outline.comesTo_of_le (Nat.le_refl _))]
    · rw [node_declaration, hattempt, Node.sites, Outline.cleared_cons_of_fault _ hfault,
        Outline.nodeUpTo_zero hacts]
      rfl
  | .comment _ _, _ => rfl

/-- A walk leaves of nodes what its outline says up to the first fault. -/
theorem nodes_upTo (h : visitor.Follows namer rename outline) (hacts : outline.ActsOn mark)
    (above : List BlockHead) (before : List Use) (state : State)
    (hstate : state.registry = ofUses namer before) : (nodes : List Node) →
    Agrees namer rename (before ++ (Node.sitesAll above nodes).flatMap outline.uses) →
    (visitor.nodes above nodes ⟨state, none⟩).1 =
      outline.nodesUpTo mark (outline.cleared mark (Node.sitesAll above nodes))
        (before.map Use.name) above nodes
  | [], _ => rfl
  | first :: rest, hagrees => by
    rw [Node.sitesAll, List.flatMap_append, ← List.append_assoc] at hagrees
    rw [nodes_cons, Node.sitesAll]
    dsimp only
    by_cases hclear : ∀ site ∈ Node.sites above first, outline.fault site = none
    · obtain ⟨later, hfirst, hregistry⟩ :=
        h.node_completes above before first hagrees.of_append hclear state hstate
      have hrest := nodes_upTo h hacts above _ later hregistry rest hagrees
      rw [hfirst]
      dsimp only
      rw [hrest, Outline.cleared_append_of_clear _ hclear, Outline.nodesUpTo,
        Outline.nodeUpTo_of_le _ _ first (Nat.le_add_right _ _), Nat.add_sub_cancel_left,
        List.map_append, Outline.names]
    · -- The walk stopped inside the first node, so nothing is left to pass in the others.
      obtain ⟨error, herror⟩ := Option.ne_none_iff_exists'.1
        (mt (h.failure_node_iff above state first).1 hclear)
      rw [node_upTo h hacts above before state hstate first hagrees.of_append,
        visitor.nodes_of_failure above herror, Outline.cleared_append_of_fault _ hclear,
        Outline.nodesUpTo, Nat.sub_eq_zero_of_le (outline.cleared_le mark _),
        Outline.nodesUpTo_zero hacts]

end

end Follows

end Visitor

end ScopedCss.Scoping
