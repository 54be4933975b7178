import ScopedCss.Naming
import ScopedCss.Proofs.Admission
import ScopedCss.Proofs.SelectorPrinting

/-!
# Renamed selectors

Scoping replaces the classes and ids of a selector by names that a strategy makes.  The new names
stand where the old ones stood, so they have to end in front of the same texts.  `KeepsEnds` says
this of a renaming; the built-in strategies satisfy it, and with it every registry that they fill.

A selector without `:local(...)` and `:global(...)` then keeps its shape, and printing the renamed
tree can be undone like printing the parsed one.
-/

namespace ScopedCss

open Ident (IsName Alike)

/-! ## Names that end where the old ones did -/

/-- A new name is read in front of every text in front of which the old one is. -/
def KeepsEnds (rename : Text → Text) : Prop :=
  ∀ name rest, Ident.read? (name ++ rest) = some (name, rest) →
    Ident.read? (rename name ++ rest) = some (rename name, rest)

theorem keepsEnds_id : KeepsEnds id :=
  fun _ _ h => h

theorem KeepsEnds.isName {rename : Text → Text} (h : KeepsEnds rename) {name : Text}
    (hname : IsName name) : IsName (rename name) := by
  have hread : Ident.read? (name ++ []) = some (name, []) := hname.read?_append (by simp)
  exact Ident.isName_of_read?_eq_some (h name [] hread)

theorem isIdentChar_of_mem_digestStart {path : Option Text} {c : Char}
    (h : c ∈ digestStart path) : Ident.isIdentChar c = true := by
  have halphabet : Base64Url.alphabet.all Ident.isIdentChar = true := by decide
  exact List.all_eq_true.1 halphabet c (mem_alphabet_of_mem_digestStart h)

theorem isIdentChar_of_mem_toDigits {index : Nat} {c : Char} (h : c ∈ Nat.toDigits 10 index) :
    Ident.isIdentChar c = true := by
  have hdigit : c.isDigit = true := Nat.isDigit_of_mem_toDigits (by decide) (by decide) h
  simp [Ident.isIdentChar, Char.isAlphanum, hdigit]

/-- The names of the built-in strategies end where the old names did. -/
theorem Strategy.read?_generate (strategy : Strategy) (path : Option Text) (index : Nat)
    {name rest : Text} (h : Ident.read? (name ++ rest) = some (name, rest)) :
    Ident.read? (strategy.generate name path index ++ rest) =
      some (strategy.generate name path index, rest) := by
  rw [Ident.read?_append_eq_some_iff] at h ⊢
  obtain ⟨hname, hends⟩ := h
  cases strategy with
  | long =>
    -- The `_` belongs to no escape, so an escape at the end of the old name is complete.
    refine ⟨by simp [generate], hends.append_suffix ?_ ?_ (List.cons_ne_nil _ _)⟩
    · rw [List.forall_mem_cons]
      exact ⟨by decide, fun c => isIdentChar_of_mem_digestStart⟩
    · intro c hc
      obtain rfl : '_' = c := Option.some.inj hc
      decide
  | short =>
    have hne : digestStart path ≠ [] := by
      rw [← List.length_pos_iff, length_digestStart]
      decide
    refine ⟨by simp [generate, hne], Ident.ends_of_forall ?_ hends.span_rest⟩
    simp only [generate, List.forall_mem_append]
    refine ⟨⟨?_, fun c => isIdentChar_of_mem_digestStart⟩, fun c => isIdentChar_of_mem_toDigits⟩
    split
    · simp
    · exact List.all_eq_true.1 (by decide)

/-! ## Registries that a strategy has filled -/

namespace Registry

/-- The scoped name of a name; a name without an entry is left as it is. -/
def rename (registry : Registry) (name : Text) : Text :=
  ((registry.find? name).map Entry.localName).getD name

/-- The registries that references and compositions lead to, from one without entries. -/
inductive Reached (namer : Namer) : Registry → Prop where
  | empty : Reached namer .empty
  | register {registry : Registry} (name : Text) :
    Reached namer registry → Reached namer (registry.register namer name)
  | compose {registry : Registry} (name : Text) (composition : Composition) :
    Reached namer registry → Reached namer (registry.compose namer name composition)

/-- Every registry that is reached is the registry after some uses. -/
theorem Reached.exists_uses {namer : Namer} {registry : Registry} (h : Reached namer registry) :
    ∃ uses, registry = ofUses namer uses := by
  induction h with
  | empty => exact ⟨[], rfl⟩
  | register name _ ih =>
    obtain ⟨uses, rfl⟩ := ih
    exact ⟨uses ++ [.refer name], register_ofUses namer uses name⟩
  | compose name composition _ ih =>
    obtain ⟨uses, rfl⟩ := ih
    exact ⟨uses ++ [.add name composition], compose_ofUses namer uses name composition⟩

theorem rename_ofUses (namer : Namer) (uses : List Use) (name : Text) :
    (ofUses namer uses).rename name =
      if name ∈ uses.map Use.name then scopedName namer uses name else name := by
  rw [rename, find?_ofUses]
  split <;> rfl

/-- The scoped names in a registry are those of the uses that led to it. -/
theorem agrees_rename_ofUses (namer : Namer) (uses : List Use) :
    Agrees namer (ofUses namer uses).rename uses := by
  intro name hname
  rw [rename_ofUses, if_pos hname]

theorem keepsEnds_rename_ofUses (strategy : Strategy) (path : Option Text) (uses : List Use) :
    KeepsEnds (ofUses (strategy.generate · path) uses).rename := by
  intro name rest h
  rw [rename_ofUses]
  split
  · exact strategy.read?_generate path _ h
  · exact h

end Registry

/-! ## Renamed trees -/

namespace Selector

/-- A `:local(...)` or `:global(...)` with an argument. -/
def isAppliedScope : Selector → Bool
  | .function head argument => head.isScope && !argument.isEmpty
  | .query head _ _ => head.isScope
  | _ => false

/-- No `:local(...)` or `:global(...)` with an argument stands in the tree. -/
def Unscoped (tree : Selector) : Prop :=
  ∀ inside ∈ tree.subtrees, inside.isAppliedScope = false

instance (tree : Selector) : Decidable tree.Unscoped :=
  inferInstanceAs (Decidable (∀ inside ∈ tree.subtrees, inside.isAppliedScope = false))

theorem unscoped_query_iff {head : Pseudo} {argument : Text} {inner : Selector} :
    (Selector.query head argument inner).Unscoped ↔ head.isScope = false ∧ inner.Unscoped := by
  rw [Unscoped, subtrees, List.forall_mem_cons]
  rfl

theorem subtrees_subset_compound {part : Selector} {parts : List Selector} (h : part ∈ parts) :
    part.subtrees ⊆ (Selector.compound parts).subtrees :=
  fun _ hinside => List.mem_cons_of_mem _ (mem_subtreesAll.2 ⟨part, h, hinside⟩)

theorem subtrees_subset_list {item : Selector} {items : List Selector} (h : item ∈ items) :
    item.subtrees ⊆ (Selector.list items).subtrees :=
  fun _ hinside => List.mem_cons_of_mem _ (mem_subtreesAll.2 ⟨item, h, hinside⟩)

/-- A tree without scopes has no scope that is wrong. -/
theorem Unscoped.filterMap_badScope? {tree : Selector} (h : tree.Unscoped) :
    tree.subtrees.filterMap badScope? = [] := by
  rw [List.filterMap_eq_nil_iff]
  intro inside hinside
  have hscope := h inside hinside
  cases inside with
  | function head argument => simpa [badScope?, isAppliedScope] using hscope
  | query head argument inner =>
    have hhead : head.isScope = false := hscope
    simp [badScope?, hhead]
  | _ => rfl

theorem substitute_query {head : Pseudo} (h : head.isScope = false) (rename : Text → Text)
    (argument : Text) (inner : Selector) :
    (Selector.query head argument inner).substitute rename =
      .query head argument (inner.substitute rename) := by
  rw [substitute, Pseudo.isGlobal_eq_false_of_isScope_eq_false h, h]
  rfl

theorem substituteAll_eq_map (rename : Text → Text) (trees : List Selector) :
    substituteAll rename trees = trees.map (substitute rename) := by
  induction trees with
  | nil => rfl
  | cons first rest ih => rw [substituteAll, ih, List.map_cons]

theorem forall_mem_substituteAll {rename : Text → Text} {trees : List Selector}
    {motive : Selector → Prop} :
    (∀ tree ∈ substituteAll rename trees, motive tree) ↔
      ∀ tree ∈ trees, motive (tree.substitute rename) := by
  rw [substituteAll_eq_map, List.forall_mem_map]

/-- What stays the same when a tree is renamed. -/
structure Renamed (rename : Text → Text) (level : Level) (tree : Selector) : Prop where
  formed : Formed level (tree.substitute rename)
  head : (tree.substitute rename).render.head? = tree.render.head?
  apart : ∀ follow other, Alike follow other → tree.Apart follow →
    (tree.substitute rename).Apart other

section Levels

variable {rename : Text → Text}

/-- The parts of a compound begin as they did, so each name ends where it did. -/
theorem alike_renderParts {parts : List Selector} (hformed : ∀ part ∈ parts, Formed .simple part)
    (hrenamed : ∀ part ∈ parts, Renamed rename .simple part) {follow other : Text}
    (halike : Alike follow other) :
    Alike (renderParts parts ++ follow) (renderParts (substituteAll rename parts) ++ other) := by
  cases parts with
  | nil => exact halike
  | cons part parts =>
    have hbegins := (hformed part List.mem_cons_self).begins_simple
    refine .inr ⟨?_, ?_⟩
    · rw [substituteAll, renderParts, renderParts, List.append_assoc, List.append_assoc]
      exact head?_append_congr (hrenamed part List.mem_cons_self).head hbegins.ne_nil _ _
    · rw [renderParts, List.append_assoc]
      exact (hbegins.append _).ne_backslash

theorem seamsHold_parts {parts : List Selector} (hformed : ∀ part ∈ parts, Formed .simple part)
    (hrenamed : ∀ part ∈ parts, Renamed rename .simple part) {follow other : Text}
    (halike : Alike follow other) (h : SeamsHold (seamsParts follow parts)) :
    SeamsHold (seamsParts other (substituteAll rename parts)) := by
  induction parts with
  | nil => exact .nil
  | cons part parts ih =>
    rw [List.forall_mem_cons] at hformed hrenamed
    rw [seamsParts, seamsHold_append] at h
    rw [substituteAll, seamsParts, seamsHold_append]
    refine ⟨?_, ih hformed.2 hrenamed.2 h.2⟩
    exact hrenamed.1.apart _ _ (alike_renderParts hformed.2 hrenamed.2 halike) h.1

theorem renamed_compound {parts : List Selector} (hne : parts ≠ [])
    (hformed : ∀ part ∈ parts, Formed .simple part)
    (ih : ∀ part ∈ parts, Renamed rename .simple part) :
    Renamed rename .compound (.compound parts) where
  formed := by
    refine .compound ?_ (forall_mem_substituteAll.2 fun part hpart => (ih part hpart).formed)
    rwa [substituteAll_eq_map, ne_eq, List.map_eq_nil_iff]
  head := by
    obtain ⟨part, parts, rfl⟩ := List.exists_cons_of_ne_nil hne
    have hbegins := (hformed part List.mem_cons_self).begins_simple
    exact head?_append_congr (ih part List.mem_cons_self).head hbegins.ne_nil _ _
  apart := fun _ _ halike => seamsHold_parts hformed ih halike

theorem renamed_complex {left right : Selector} {combinator : Text} (hlink : IsLink combinator)
    (hleft : Formed .chain left) (ihleft : Renamed rename .chain left)
    (ihright : Renamed rename .compound right) :
    Renamed rename .chain (.complex left combinator right) where
  formed := .complex ihleft.formed hlink ihright.formed
  head := by
    rw [substitute, render, render, List.append_assoc, List.append_assoc]
    exact head?_append_congr ihleft.head hleft.begins_chain.ne_nil _ _
  apart := by
    intro follow other halike h
    obtain ⟨hapartLeft, hapartRight⟩ := seamsHold_append.1 h
    refine seamsHold_append.2 ⟨?_, ihright.apart follow other halike hapartRight⟩
    exact ihleft.apart _ _ (alike_of_isLink hlink _ _) hapartLeft

theorem seamsHold_renamedItems {mode : Mode} {items : List Selector}
    (hrenamed : ∀ item ∈ items, Renamed rename (.branch mode) item) {follow other : Text}
    (halike : Alike follow other) (h : SeamsHold (seamsItems follow items)) :
    SeamsHold (seamsItems other (substituteAll rename items)) := by
  induction items with
  | nil => exact .nil
  | cons item items ih =>
    rw [List.forall_mem_cons] at hrenamed
    rw [seamsItems, seamsHold_append] at h
    rw [substituteAll, seamsItems, seamsHold_append]
    refine ⟨hrenamed.1.apart _ _ ?_ h.1, ih hrenamed.2 h.2⟩
    cases items with
    | nil => exact halike
    | cons next items =>
      refine .inl fun c hc => ?_
      obtain rfl : ',' = c := Option.some.inj hc
      decide

theorem trimmed_congr {first second : Text} (h : first.head? = second.head?)
    (htrimmed : Trimmed second) : Trimmed first :=
  fun c hc => htrimmed c (h ▸ hc)

theorem renamed_list {mode : Mode} {items : List Selector} (hlength : 2 ≤ items.length)
    (hformed : ∀ item ∈ items, Formed (.branch mode) item) (htrimmed : Trimmed (renderItems items))
    (ih : ∀ item ∈ items, Renamed rename (.branch mode) item) :
    Renamed rename (.whole mode) (.list items) := by
  have hhead : (renderItems (substituteAll rename items)).head? = (renderItems items).head? := by
    cases items with
    | nil => rfl
    | cons item items =>
      obtain ⟨c, rest, hrender, -⟩ := (hformed item List.mem_cons_self).exists_cons_branch
      rw [substituteAll, renderItems_cons, renderItems_cons]
      refine head?_append_congr (ih item List.mem_cons_self).head ?_ _ _
      rw [hrender]
      exact List.cons_ne_nil c rest
  refine ⟨.list ?_ (forall_mem_substituteAll.2 fun item hitem => (ih item hitem).formed) ?_, hhead,
    fun _ _ halike => seamsHold_renamedItems ih halike⟩
  · rwa [substituteAll_eq_map, List.length_map]
  · exact trimmed_congr hhead htrimmed

/-- Renaming keeps the shape of a tree without scopes. -/
theorem renamed_of_formed (hrename : KeepsEnds rename) {level : Level} {tree : Selector}
    (h : Formed level tree) (hscope : tree.Unscoped) : Renamed rename level tree := by
  have hseam : ∀ name follow other, Alike follow other → SeamsHold [(name, follow)] →
      SeamsHold [(rename name, other)] :=
    fun name follow _ halike h =>
      seam_of_alike (hrename name follow (seamsHold_singleton.1 h)) halike
  have hkept : ∀ name follow other, Alike follow other → SeamsHold [(name, follow)] →
      SeamsHold [(name, other)] :=
    fun _ _ _ halike h => seam_of_alike (seamsHold_singleton.1 h) halike
  induction h with
  | typeName hname => exact ⟨.typeName hname, rfl, hkept _⟩
  | universal => exact ⟨.universal, rfl, fun _ _ _ h => h⟩
  | nesting => exact ⟨.nesting, rfl, fun _ _ _ h => h⟩
  | className hname => exact ⟨.className (hrename.isName hname), rfl, hseam _⟩
  | idName hname => exact ⟨.idName (hrename.isName hname), rfl, hseam _⟩
  | attr hsteady => exact ⟨.attr hsteady, rfl, fun _ _ _ h => h⟩
  | pseudo hname => exact ⟨.pseudo hname, rfl, hkept _⟩
  | function hname hfound hplain =>
    exact ⟨.function hname hfound hplain, rfl, fun _ _ _ h => h⟩
  | @query head inner argument hname htakes _ ih =>
    obtain ⟨hhead, hinner⟩ := unscoped_query_iff.1 hscope
    have hsubstitute := substitute_query hhead rename argument inner
    have hrenamed := ih hinner
    refine ⟨?_, ?_, ?_⟩
    · rw [hsubstitute]
      exact .query argument hname htakes hrenamed.formed
    · rw [hsubstitute]
      exact head?_append_congr rfl (begins_pseudo head).ne_nil _ _
    · intro follow other _ hapart
      rw [hsubstitute]
      exact hrenamed.apart [] [] (.inl (by simp)) hapart
  | compound hne hparts ih =>
    exact renamed_compound hne hparts fun part hpart =>
      ih part hpart fun inside hinside => hscope inside (subtrees_subset_compound hpart hinside)
  | start _ ih =>
    obtain ⟨hformed, hhead, hapart⟩ := ih hscope
    exact ⟨.start hformed, hhead, hapart⟩
  | complex hleft hlink _ ihleft ihright =>
    rw [Unscoped, subtrees, List.forall_mem_cons, List.forall_mem_append] at hscope
    exact renamed_complex hlink hleft (ihleft hscope.2.1) (ihright hscope.2.2)
  | branch mode _ ih =>
    obtain ⟨hformed, hhead, hapart⟩ := ih hscope
    exact ⟨.branch mode hformed, hhead, hapart⟩
  | relative hanchor _ ih =>
    obtain ⟨hformed, hhead, hapart⟩ := ih fun inside hinside =>
      hscope inside (List.mem_cons_of_mem _ hinside)
    refine ⟨.relative hanchor hformed, ?_, hapart⟩
    cases hanchor
    rfl
  | whole _ htrimmed ih =>
    obtain ⟨hformed, hhead, hapart⟩ := ih hscope
    exact ⟨.whole hformed (trimmed_congr hhead htrimmed), hhead, hapart⟩
  | list hlength hitems htrimmed ih =>
    exact renamed_list hlength hitems htrimmed fun item hitem =>
      ih item hitem fun inside hinside => hscope inside (subtrees_subset_list hitem hinside)

end Levels

end Selector

/-! ## Scoping and printing -/

namespace Scoping

open Selector (Mode)

/-- The tree that scoping makes of a parsed selector without scopes can be read off its text: the
text is parsed as the tree with its classes and ids renamed.  This holds for both strategies, every
path, and every registry that they have filled before. -/
theorem parse_render_scopeTree {mode : Mode} {source : Text} {tree : Selector}
    {strategy : Strategy} {path : Option Text} {location : Location} {state : State}
    (hparse : Selector.parse mode source = .ok tree) (hsteady : tree.Steady)
    (hscope : tree.Unscoped)
    (hstate : Registry.Reached (strategy.generate · path) state.registry) :
    ∃ renamed later,
      scopeTree (strategy.generate · path) location false tree state = (.ok renamed, later) ∧
      renamed = tree.substitute later.registry.rename ∧
      Selector.parse mode renamed.render = .ok renamed.refresh := by
  obtain ⟨before, hbefore⟩ := hstate.exists_uses
  let uses := before ++ referIn false tree.localNames
  have hagrees := Registry.agrees_rename_ofUses (strategy.generate · path) uses
  obtain ⟨later, hlater, hregistry⟩ :=
    scopeTree_yields false before tree hagrees hscope.filterMap_badScope? state hbefore
  refine ⟨_, later, hlater, by rw [hregistry]; rfl, ?_⟩
  obtain ⟨hformed, hapart⟩ := Selector.formed_of_parse hparse
  have hkeeps := Registry.keepsEnds_rename_ofUses strategy path uses
  have hrenamed := Selector.renamed_of_formed hkeeps (hformed hsteady) hscope
  rw [Selector.parse_eq_ok_iff]
  exact Selector.read_render hrenamed.formed (hrenamed.apart [] [] (.inl (by simp)) hapart)

/-- A state in which a class has been referred to. -/
def sampleState : State :=
  ⟨Registry.empty.register (Strategy.long.generate · none) "q".toList, []⟩

theorem parse_render_scopeTree_sample :
    ∃ tree, Selector.parse .relative Selector.sampleSource = .ok tree ∧ tree.Steady ∧
      tree.Unscoped ∧ ∃ renamed later,
        scopeTree (Strategy.long.generate · none) ⟨none, Selector.sampleSource⟩ false tree
          sampleState = (.ok renamed, later) ∧
        renamed = tree.substitute later.registry.rename ∧
        Selector.parse .relative renamed.render = .ok renamed.refresh := by
  let view (tree : Selector) := (decide tree.Steady, decide tree.Unscoped)
  obtain ⟨tree, hparse, hview⟩ : ∃ tree,
      Selector.parse .relative Selector.sampleSource = .ok tree ∧ view tree = (true, true) :=
    Selector.exists_ok_of_map (by decide +kernel)
  obtain ⟨hsteady, hscope⟩ := Prod.mk.inj hview
  have hsteady := of_decide_eq_true hsteady
  have hscope := of_decide_eq_true hscope
  refine ⟨tree, hparse, hsteady, hscope, ?_⟩
  exact parse_render_scopeTree hparse hsteady hscope (.register _ .empty)

end Scoping

end ScopedCss
