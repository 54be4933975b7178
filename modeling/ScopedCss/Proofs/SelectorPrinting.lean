import ScopedCss.Proofs.SelectorReading
import ScopedCss.Proofs.SelectorShape

/-!
# Printing a selector that was parsed

A tree that the parser builds is formed, and its names end where they should in its own text, even
though the text is not the one that was parsed.  `Reading level text tree rest` is what a derivation
guarantees for a tree that is read at the start of a text: printing keeps the first character, so
whatever follows a name begins as it did in the source.  `readAt_of_derives` shows it by induction on
the derivation.

The main result is that parsing the text of a parsed selector gives the selector again.
-/

namespace ScopedCss

open Ident (Alike)

namespace Selector

/-- What is known of a tree that was read at the start of `text` and left `rest`. -/
structure Reading (level : Level) (text : Text) (tree : Selector) (rest : Text) : Prop where
  /-- The text of the tree begins as the source does. -/
  head : ∃ c, text.head? = some c ∧ tree.render.head? = some c
  ne_backslash : text ≠ ['\\']
  formed : tree.Steady → Formed level tree
  apart : ∀ follow, Alike rest follow → tree.Apart follow

/-- What ends a name in front of the source ends it in front of the tree. -/
theorem Reading.alike {level : Level} {text rest : Text} {tree : Selector}
    (h : Reading level text tree rest) (follow : Text) : Alike text (tree.render ++ follow) := by
  obtain ⟨c, htext, hrender⟩ := h.head
  refine .inr ⟨?_, h.ne_backslash⟩
  rw [List.head?_append, hrender, htext]
  rfl

/-! ## Simple selectors -/

theorem seam_of_alike {name rest follow : Text} (h : Ident.read? (name ++ rest) = some (name, rest))
    (halike : Alike rest follow) : SeamsHold [(name, follow)] := by
  rw [Ident.read?_append_eq_some_iff] at h
  rw [seamsHold_singleton, Ident.read?_append_eq_some_iff]
  exact ⟨h.1, h.2.of_alike halike⟩

theorem Begins.reading {level : Level} {text rest : Text} {tree : Selector}
    (hbegins : Begins text) (hhead : tree.render.head? = text.head?)
    (hformed : tree.Steady → Formed level tree)
    (hapart : ∀ follow, Alike rest follow → tree.Apart follow) : Reading level text tree rest := by
  refine ⟨?_, hbegins.ne_backslash, hformed, hapart⟩
  obtain ⟨c, tail, rfl, -⟩ := hbegins
  exact ⟨c, rfl, hhead⟩

/-- An argument that was found ends where its parenthesis does. -/
theorem found_of_parenthesized? {argument rest : Text}
    (h : Scan.parenthesized? (argument ++ ')' :: rest) = some (argument, rest)) :
    Scan.unnested [')'] (argument ++ [')']) = .found ')' [] := by
  unfold Scan.parenthesized? at h
  split at h
  · next stop after hfound =>
    obtain rfl : stop = ')' := by simpa using (Scan.scan_eq_found hfound).1
    obtain ⟨-, rfl⟩ := Prod.mk.inj (Option.some.inj h)
    exact Scan.unnested_congr_of_found hfound (by decide) []
  · simp at h

theorem reading_leaf {text rest : Text} {tree : Selector} (h : Spelled text (.leaf tree) rest) :
    Reading .simple text tree rest := by
  cases h with
  | @typeName name rest hname =>
    have hisName := Ident.isName_of_read?_eq_some hname
    exact ((begins_name hisName).append rest).reading
      ((begins_name hisName).head?_append rest).symm (fun _ => .typeName hisName)
      fun _ => seam_of_alike hname
  | universal =>
    exact (begins_cons (by decide) (by decide) _).reading rfl (fun _ => .universal)
      fun _ _ => .nil
  | nesting =>
    exact (begins_cons (by decide) (by decide) _).reading rfl (fun _ => .nesting)
      fun _ _ => .nil
  | className hname =>
    have hisName := Ident.isName_of_read?_eq_some hname
    exact (begins_cons (by decide) (by decide) _).reading rfl (fun _ => .className hisName)
      fun _ => seam_of_alike hname
  | idName hname =>
    have hisName := Ident.isName_of_read?_eq_some hname
    exact (begins_cons (by decide) (by decide) _).reading rfl (fun _ => .idName hisName)
      fun _ => seam_of_alike hname
  | @attr content rest condition hfound hcondition =>
    refine (begins_cons (by decide) (by decide) _).reading ?_ (fun hsteady => .attr ?_)
      fun _ _ => .nil
    · rw [render, Attribute.render]
      split <;> rfl
    · exact hsteady condition (by simp [conditions, leaves, condition?])
  | @pseudo head rest hname hopen =>
    have hisName := Ident.isName_of_read?_eq_some hname
    exact ((begins_pseudo head).append rest).reading
      ((begins_pseudo head).head?_append rest).symm (fun _ => .pseudo hisName)
      fun _ => seam_of_alike hname
  | @function head argument rest hname hgroup hplain =>
    have hisName := Ident.isName_of_read?_eq_some hname
    exact ((begins_pseudo head).append _).reading
      (head?_append_congr rfl (begins_pseudo head).ne_nil _ _)
      (fun _ => .function hisName (found_of_parenthesized? hgroup) hplain) fun _ _ => .nil

/-! ## Steady trees -/

theorem forall_steady_iff {trees : List Selector} :
    (∀ condition ∈ (leavesAll trees).filterMap condition?, condition.Steady) ↔
      ∀ tree ∈ trees, tree.Steady := by
  rw [leavesAll_eq_flatMap, List.filterMap_flatMap]
  constructor
  · intro h tree htree condition hcondition
    exact h condition (List.mem_flatMap.2 ⟨tree, htree, hcondition⟩)
  · intro h condition hcondition
    obtain ⟨tree, htree, hmem⟩ := List.mem_flatMap.1 hcondition
    exact h tree htree condition hmem

theorem steady_complex_iff {left right : Selector} {combinator : Text} :
    (Selector.complex left combinator right).Steady ↔ left.Steady ∧ right.Steady := by
  rw [Steady, conditions, leaves, List.filterMap_append]
  exact List.forall_mem_append

variable {mode : Mode} {text rest : Text} {tree : Selector}

/-! ## Compounds -/

/-- A simple selector in front of nothing else. -/
theorem reading_single {part : Selector} (hpart : Reading .simple text part rest) :
    Reading .compound text (.compound [part]) rest := by
  have hrender : (Selector.compound [part]).render = part.render := by simp [render, renderParts]
  refine ⟨hrender ▸ hpart.head, hpart.ne_backslash, fun hsteady => ?_, fun follow halike => ?_⟩
  · refine .compound (List.cons_ne_nil _ _) (List.forall_mem_singleton.2 ?_)
    exact hpart.formed (forall_steady_iff.1 hsteady part List.mem_cons_self)
  · simpa [Apart, seams, seamsParts, renderParts] using hpart.apart follow halike

theorem reading_cons {part : Selector} {parts : List Selector} {middle : Text}
    (hpart : Reading .simple text part middle)
    (hparts : Reading .compound middle (.compound parts) rest) :
    Reading .compound text (.compound (part :: parts)) rest := by
  refine ⟨?_, hpart.ne_backslash, fun hsteady => ?_, fun follow halike => ?_⟩
  · obtain ⟨c, htext, hrender⟩ := hpart.head
    refine ⟨c, htext, ?_⟩
    rw [render, renderParts, List.head?_append, hrender]
    rfl
  · have hall := forall_steady_iff.1 hsteady
    rw [List.forall_mem_cons] at hall
    have hrest := hparts.formed (forall_steady_iff.2 hall.2)
    cases hrest with
    | compound _ hformed =>
      exact .compound (List.cons_ne_nil _ _)
        (List.forall_mem_cons.2 ⟨hpart.formed hall.1, hformed⟩)
  · rw [Apart, seams, seamsParts, seamsHold_append]
    exact ⟨hpart.apart _ (hparts.alike follow), hparts.apart follow halike⟩

/-! ## Chains -/

/-- A combinator ends the same names whatever stands behind it. -/
theorem alike_of_isLink {combinator : Text} (h : IsLink combinator) (rest other : Text) :
    Alike (combinator ++ rest) (combinator ++ other) := by
  have hne : combinator ≠ [] := by
    cases h with
    | explicit => simp
    | descendant hne _ => exact hne
  obtain ⟨c, tail, rfl⟩ := List.exists_cons_of_ne_nil hne
  refine .inr ⟨rfl, fun heq => ?_⟩
  have hstart := (h.breaks rest '\\' (by rw [heq]; rfl)).1
  exact absurd hstart (by decide)

/-- A chain that goes on with a combinator and a compound. -/
theorem reading_complex {source combinator middle : Text} {left right : Selector}
    (hlink : IsLink combinator) (hleft : Reading .chain source left (combinator ++ middle))
    (hright : Reading .compound middle right rest) :
    Reading .chain source (.complex left combinator right) rest := by
  refine ⟨?_, hleft.ne_backslash, fun hsteady => ?_, fun follow halike => ?_⟩
  · obtain ⟨c, hsource, hrender⟩ := hleft.head
    refine ⟨c, hsource, ?_⟩
    rw [render, List.append_assoc, List.head?_append, hrender]
    rfl
  · obtain ⟨hl, hr⟩ := steady_complex_iff.1 hsteady
    exact .complex (hleft.formed hl) hlink (hright.formed hr)
  · rw [Apart, seams, seamsHold_append]
    exact ⟨hleft.apart _ (alike_of_isLink hlink _ _), hright.apart follow halike⟩

/-! ## Branches and lists -/

theorem reading_branch (mode : Mode) (h : Reading .chain text tree rest) :
    Reading (.branch mode) text tree rest :=
  ⟨h.head, h.ne_backslash, fun hsteady => .branch mode (h.formed hsteady), h.apart⟩

theorem reading_relative {combinator middle : Text} (hanchor : IsAnchor combinator)
    (h : Reading .chain middle tree rest) :
    Reading (.branch .relative) (combinator ++ middle) (.relative combinator tree) rest := by
  refine ⟨?_, ?_, fun hsteady => .relative hanchor (h.formed hsteady), h.apart⟩
  · cases hanchor with
    | intro => exact ⟨_, rfl, rfl⟩
  · cases hanchor with
    | intro hc _ =>
      intro heq
      obtain ⟨rfl, -⟩ := List.cons.inj heq
      exact absurd hc (by decide)

/-- A comma and the end of the text end every name. -/
theorem alike_of_endsBranch {follow : Text} (h : EndsBranch follow) (rest : Text) :
    Alike rest follow := by
  refine .inl fun c hc => ?_
  obtain rfl := h c hc
  decide

/-- What is known of a list that was read.  Whether the whole is formed depends on its first
character. -/
structure ListReading (mode : Mode) (text : Text) (tree : Selector) : Prop where
  head : tree.render.head? = text.head?
  formed : tree.Steady → ∀ item ∈ tree.branches, Formed (.branch mode) item
  apart : tree.Apart []

theorem listReading_one (h : Reading (.branch mode) text tree rest)
    (hone : tree.branches = [tree]) : ListReading mode text tree := by
  obtain ⟨c, htext, hrender⟩ := h.head
  refine ⟨hrender.trans htext.symm, fun hsteady => ?_, ?_⟩
  · rw [hone]
    exact List.forall_mem_singleton.2 (h.formed hsteady)
  · exact h.apart [] (alike_of_endsBranch (by simp [EndsBranch]) rest)

theorem listReading_cons {first : Selector} {items : List Selector}
    (hfirst : Reading (.branch mode) text first rest)
    (hitems : (∀ item ∈ items, item.Steady) → ∀ item ∈ items, Formed (.branch mode) item)
    (hapart : SeamsHold (seamsItems [] items)) : ListReading mode text (.list (first :: items)) := by
  obtain ⟨c, htext, hrender⟩ := hfirst.head
  refine ⟨?_, fun hsteady => ?_, ?_⟩
  · rw [render, renderItems_cons, List.head?_append, hrender, htext]
    rfl
  · have hall := List.forall_mem_cons.1 (forall_steady_iff.1 hsteady)
    exact List.forall_mem_cons.2 ⟨hfirst.formed hall.1, hitems hall.2⟩
  · rw [Apart, seams, seamsItems, seamsHold_append, List.append_nil]
    exact ⟨hfirst.apart _ (alike_of_endsBranch (endsBranch_renderMore items) rest), hapart⟩

theorem trimmed_of_head? {source : Text} (h : tree.render.head? = source.trimStart.head?) :
    Trimmed tree.render := by
  rw [Trimmed, h]
  exact Text.head?_trimStart

/-! ## Whole selectors -/

/-- What is known of a tree that is derived at a level. -/
def ReadAt : Level → Text → Selector → Text → Prop
  | .whole mode, text, tree, _ => ListReading mode text tree
  | level, text, tree, rest => Reading level text tree rest

theorem formed_of_listReading {source back : Text}
    (hderives : Derives (.whole mode) source.trimStart tree back)
    (h : ListReading mode source.trimStart tree) (hsteady : tree.Steady) :
    Formed (.whole mode) tree := by
  have htrimmed := trimmed_of_head? h.head
  have hall := h.formed hsteady
  cases shaped_of_derives hderives with
  | whole hbranch =>
    rw [hbranch.branches_eq, List.forall_mem_singleton] at hall
    exact .whole hall htrimmed
  | list htwo _ => exact .list htwo hall htrimmed

theorem readAt_of_derives {level : Level} (h : Derives level text tree rest) :
    ReadAt level text tree rest := by
  induction h with
  | leaf hspelled => exact reading_leaf hspelled
  | @query text rest argument back head inner hspelled _ hinner ih =>
    cases hspelled with
    | query hname hgroup htakes hblank =>
      have hisName := Ident.isName_of_read?_eq_some hname
      exact ((begins_pseudo head).append _).reading
        (head?_append_congr rfl (begins_pseudo head).ne_nil _ _)
        (fun hsteady => .query argument hisName htakes (formed_of_listReading hinner ih hsteady))
        fun _ _ => ih.apart
  | single _ ih => exact reading_single ih
  | cons _ _ ihpart ihparts => exact reading_cons ihpart ihparts
  | start _ ih =>
    exact ⟨ih.head, ih.ne_backslash, fun hsteady => .start (ih.formed hsteady), ih.apart⟩
  | complex _ hlink _ ihleft ihright => exact reading_complex hlink ihleft ihright
  | branch mode _ ih => exact reading_branch mode ih
  | relative hanchor _ ih => exact reading_relative hanchor ih
  | one hbranch ih => exact listReading_one ih (shaped_of_derives hbranch).branches_eq
  | @pair _ _ _ _ rest _ second _ _ _ ihfirst ihsecond =>
    refine listReading_cons ihfirst (fun hsteady => ?_) ?_
    · rw [List.forall_mem_singleton] at hsteady ⊢
      exact ihsecond.formed hsteady
    · rw [seamsItems, seamsItems, List.append_nil]
      exact ihsecond.apart _ (alike_of_endsBranch (endsBranch_renderMore []) rest)
  | more _ _ _ ihfirst ihitems =>
    exact listReading_cons ihfirst (fun hsteady => ihitems.formed (forall_steady_iff.2 hsteady))
      ihitems.apart

/-- A steady tree that the parser returns is formed, and its names end where they should. -/
theorem formed_of_parse {mode : Mode} {source : Text} {tree : Selector}
    (h : parse mode source = .ok tree) :
    (tree.Steady → Formed (.whole mode) tree) ∧ tree.Apart [] := by
  obtain ⟨back, hderives⟩ := derives_of_parse h
  have hlist : ListReading mode source.trimStart tree := readAt_of_derives hderives
  exact ⟨formed_of_listReading hderives hlist, hlist.apart⟩

/-- A selector with escapes that take in a blank, blanks that are not kept, a parenthesis inside a
string and arguments of every kind. -/
def sampleSource : Text :=
  " > .\\31  b:not( [ lang |= 'y)' ] , .q > r)::slotted(*):lang( en ) ~ #c:is()".toList

/-- Parsing undoes printing: the text of a parsed selector is parsed as the same selector, and the
arguments in it are those of the new text.  So printing it once more changes nothing. -/
theorem parse_render {mode : Mode} {source : Text} {tree : Selector}
    (h : parse mode source = .ok tree) (hsteady : tree.Steady) :
    parse mode tree.render = .ok tree.refresh ∧ tree.refresh.render = tree.render := by
  obtain ⟨hformed, hapart⟩ := formed_of_parse h
  refine ⟨?_, render_refresh tree⟩
  rw [parse_eq_ok_iff]
  exact read_render (hformed hsteady) hapart

theorem parse_render_sample :
    ∃ tree, parse .relative sampleSource = .ok tree ∧ tree.Steady ∧
      tree.render = "> .\\31  b:not([lang|='y)'],.q > r)::slotted(*):lang( en ) ~ #c:is()".toList ∧
      parse .relative tree.render = .ok tree.refresh ∧ tree.refresh.render = tree.render := by
  let view (tree : Selector) := (decide tree.Steady, tree.render)
  obtain ⟨tree, hparse, hview⟩ : ∃ tree, parse .relative sampleSource = .ok tree ∧ view tree =
      (true, "> .\\31  b:not([lang|='y)'],.q > r)::slotted(*):lang( en ) ~ #c:is()".toList) :=
    exists_ok_of_map (by decide +kernel)
  obtain ⟨hsteady, hrender⟩ := Prod.mk.inj hview
  have hsteady := of_decide_eq_true hsteady
  exact ⟨tree, hparse, hsteady, hrender, parse_render hparse hsteady⟩

end Selector

end ScopedCss
