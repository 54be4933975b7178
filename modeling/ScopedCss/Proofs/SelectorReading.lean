import ScopedCss.Proofs.Blanks
import ScopedCss.Proofs.SelectorLayout

/-!
# Reading the text of a selector

A formed tree whose names end where they should is read back from its text.  `ReadsBack level tree`
says what that means at each level of the grammar, in front of whatever text may follow there, and
`readsBack_of_formed` proves it by induction on the tree.  `read_render` is the statement for whole
selectors: reading the text of a tree gives the tree with refreshed arguments.
-/

namespace ScopedCss

open Ident (IsName)

namespace Selector

/-! ## What ends a level -/

theorem isStart_eq_false_of_isSpace {c : Char} (h : Text.isSpace c = true) : isStart c = false := by
  simp only [Text.isSpace, Bool.or_eq_true, beq_iff_eq] at h
  rcases h with ((rfl | rfl) | rfl) | rfl <;> decide

theorem isSpace_eq_false_of_isStart {c : Char} (h : isStart c = true) : Text.isSpace c = false := by
  by_contra hspace
  rw [Bool.not_eq_false] at hspace
  exact absurd ((isStart_eq_false_of_isSpace hspace).symm.trans h) (by decide)

theorem isStart_eq_false_of_isCombinator {c : Char} (h : Grammar.isCombinator c = true) :
    isStart c = false := by
  simp only [Grammar.isCombinator, Bool.or_eq_true, beq_iff_eq] at h
  rcases h with (rfl | rfl) | rfl <;> decide

theorem isSpace_eq_false_of_isCombinator {c : Char} (h : Grammar.isCombinator c = true) :
    Text.isSpace c = false := by
  simp only [Grammar.isCombinator, Bool.or_eq_true, beq_iff_eq] at h
  rcases h with (rfl | rfl) | rfl <;> decide

/-- The text neither goes on with a compound nor opens an argument. -/
def Breaks (follow : Text) : Prop :=
  ∀ c ∈ follow.head?, isStart c = false ∧ c ≠ '('

/-- The text ends a branch of a list. -/
def EndsBranch (follow : Text) : Prop :=
  ∀ c ∈ follow.head?, c = ','

theorem EndsBranch.breaks {follow : Text} (h : EndsBranch follow) : Breaks follow := by
  intro c hc
  obtain rfl := h c hc
  decide

theorem breaks_of_isSpace {c : Char} (h : Text.isSpace c = true) (rest : Text) :
    Breaks (c :: rest) := by
  intro d hd
  obtain rfl : c = d := Option.some.inj hd
  refine ⟨isStart_eq_false_of_isSpace h, ?_⟩
  rintro rfl
  exact absurd h (by decide)

theorem breaks_of_isCombinator {c : Char} (h : Grammar.isCombinator c = true) (rest : Text) :
    Breaks (c :: rest) := by
  intro d hd
  obtain rfl : c = d := Option.some.inj hd
  refine ⟨isStart_eq_false_of_isCombinator h, ?_⟩
  rintro rfl
  exact absurd h (by decide)

theorem IsLink.breaks {combinator : Text} (h : IsLink combinator) (rest : Text) :
    Breaks (combinator ++ rest) := by
  cases h with
  | @explicit gap after c hgap hc _ =>
    cases gap with
    | nil => exact breaks_of_isCombinator hc _
    | cons d gap => exact breaks_of_isSpace (hgap d List.mem_cons_self) _
  | descendant hne hgap =>
    obtain ⟨d, gap, rfl⟩ := List.exists_cons_of_ne_nil hne
    exact breaks_of_isSpace (hgap d List.mem_cons_self) _

theorem Begins.head? {text : Text} (h : Begins text) :
    ∀ c ∈ text.head?, Text.isSpace c = false ∧ Grammar.isCombinator c = false ∧ c ≠ '(' := by
  obtain ⟨c, rest, rfl, hc, -⟩ := h
  intro d hd
  obtain rfl : c = d := Option.some.inj hd
  refine ⟨isSpace_eq_false_of_isStart hc, ?_, ?_⟩
  · by_contra hcombinator
    rw [Bool.not_eq_false] at hcombinator
    exact absurd ((isStart_eq_false_of_isCombinator hcombinator).symm.trans hc) (by decide)
  · rintro rfl
    exact absurd hc (by decide)

namespace Grammar

variable {nested : Reader}

/-! ## Steps of the reader -/

theorem link_of_isLink {combinator rest : Text} (h : IsLink combinator) (hrest : Begins rest) :
    link (combinator ++ rest) = .explicit combinator rest ∨
      link (combinator ++ rest) = .descendant combinator rest := by
  have hhead := hrest.head?
  obtain ⟨first, tail, rfl, -⟩ := hrest
  have hspace : ∀ c ∈ (first :: tail).head?, Text.isSpace c = false := fun c hc => (hhead c hc).1
  cases h with
  | @explicit gap after c hgap hc hafter =>
    have hmark : ∀ d ∈ (c :: (after ++ first :: tail)).head?, Text.isSpace d = false := by
      intro d hd
      obtain rfl : c = d := Option.some.inj hd
      exact isSpace_eq_false_of_isCombinator hc
    rw [List.append_assoc, List.cons_append]
    left
    unfold link
    rw [Text.leadingSpace_append hgap hmark, Text.skipSpace_append hgap hmark]
    simp only [hc, if_true, Text.leadingSpace_append hafter hspace,
      Text.skipSpace_append hafter hspace]
  | descendant hne hgap =>
    right
    unfold link
    rw [Text.leadingSpace_append hgap hspace, Text.skipSpace_append hgap hspace]
    simp [(hhead first rfl).2.1, hne]

/-- A chain goes on with a combinator and a compound. -/
theorem chain_of_link {combinator rest after : Text} {left right : Selector}
    (h : IsLink combinator) (hrest : Begins rest)
    (hright : compound nested rest = .read right after) :
    chain nested left (combinator ++ rest) =
      chain nested (.complex left combinator right) after := by
  obtain ⟨missing, hstep⟩ := exists_chain_of_link left (link_of_isLink h hrest)
  rw [hstep, hright]

theorem link_of_endsBranch {follow : Text} (h : EndsBranch follow) : link follow = .none := by
  cases follow with
  | nil => rfl
  | cons c rest =>
    obtain rfl := h c rfl
    rfl

theorem chain_of_endsBranch {left : Selector} {follow : Text} (h : EndsBranch follow) :
    chain nested left follow = .ok (left, follow) :=
  chain_of_none (link_of_endsBranch h)

/-- A branch without a leading combinator is a complex selector in either mode. -/
theorem branch_of_begins {mode : Mode} {text rest : Text} {tree : Selector} (hbegins : Begins text)
    (h : complex nested text = .read tree rest) : branch nested mode text = .read tree rest := by
  cases mode with
  | plain => exact h
  | relative =>
    have hhead := hbegins.head?
    obtain ⟨c, tail, rfl, -⟩ := hbegins
    rw [branch, relative, (hhead c rfl).2.1]
    exact h

theorem branch_of_isAnchor {combinator text rest : Text} {tree : Selector}
    (hanchor : IsAnchor combinator) (hbegins : Begins text)
    (h : complex nested text = .read tree rest) :
    branch nested .relative (combinator ++ text) = .read (.relative combinator tree) rest := by
  cases hanchor with
  | @intro after c hc hafter =>
    have hspace : ∀ d ∈ text.head?, Text.isSpace d = false := fun d hd => (hbegins.head? d hd).1
    rw [List.cons_append, branch, relative, if_pos hc, Text.leadingSpace_append hafter hspace,
      Text.skipSpace_append hafter hspace, anchored, h]

end Grammar

/-! ## Each level is read back -/

/-- What reading the text of a tree gives at a level of the grammar.  A chain is not read by a
function of its own: its compounds are read one by one, and the chain that has been read so far is
carried along. -/
def ReadsBack : Level → Selector → Prop
  | .simple, tree => ∀ follow, follow.head? ≠ some '(' → tree.Apart follow →
    Grammar.simple read (tree.render ++ follow) = .read tree.refresh follow
  | .compound, tree => ∀ follow, Breaks follow → tree.Apart follow →
    Grammar.compound read (tree.render ++ follow) = .read tree.refresh follow
  | .chain, tree => ∀ follow, Breaks follow → tree.Apart follow →
    ∃ first rest, Grammar.compound read (tree.render ++ follow) = .read first rest ∧
      Grammar.chain read first rest = Grammar.chain read tree.refresh follow
  | .branch mode, tree => ∀ follow, EndsBranch follow → tree.Apart follow →
    Grammar.branch read mode (tree.render ++ follow) = .read tree.refresh follow
  | .whole mode, tree => tree.Apart [] → read mode tree.render = .ok tree.refresh

theorem readsBack_of_spelled {tree : Selector}
    (h : ∀ follow, follow.head? ≠ some '(' → tree.Apart follow →
      Spelled (tree.render ++ follow) (.leaf tree) follow) (hrefresh : tree.refresh = tree) :
    ReadsBack .simple tree := by
  intro follow hfollow hapart
  rw [hrefresh]
  exact Grammar.simple_eq_read_iff.2 (.inl (h follow hfollow hapart))

theorem spelled_attr {condition : Attribute} (h : condition.Steady) (follow : Text) :
    Spelled (condition.render ++ follow) (.leaf (.attr condition)) follow := by
  obtain ⟨content, hrender, hfound, hcondition⟩ := exists_content_of_steady h
  rw [hrender, List.cons_append, List.append_assoc]
  exact .attr (Scan.unnested_congr_of_found hfound (by decide) follow) hcondition

/-- The name of a pseudo ends at the parenthesis behind it. -/
theorem read?_head {head : Pseudo} (h : IsName head.name) (body : Text) :
    Ident.read? (head.name ++ '(' :: body) = some (head.name, '(' :: body) := by
  refine h.read?_append fun c hc => ?_
  obtain rfl : '(' = c := Option.some.inj hc
  decide

theorem readsBack_query {head : Pseudo} {inner : Selector} (argument : Text)
    (hname : IsName head.name) (htakes : head.takesSelector = true)
    (hinner : Formed (.whole (argumentMode head)) inner)
    (ih : ReadsBack (.whole (argumentMode head)) inner) :
    ReadsBack .simple (.query head argument inner) := by
  intro follow _ hapart
  have htext : (Selector.query head argument inner).render ++ follow =
      head.render ++ '(' :: (inner.render ++ ')' :: follow) := by
    simp [render]
  rw [htext]
  refine Grammar.simple_eq_read_iff.2 (.inr ⟨head, inner.render, inner.refresh, rfl, ?_, ih hapart⟩)
  have hfound := hinner.passes.unnested_append (List.mem_singleton.2 rfl) (by decide) follow
  exact .query (read?_head hname _) (Scan.parenthesized?_of_found hfound) htakes
    hinner.isBlankText_render

theorem simples_render {parts : List Selector} (hformed : ∀ part ∈ parts, Formed .simple part)
    (hparts : ∀ part ∈ parts, ReadsBack .simple part) {follow : Text} (hfollow : Breaks follow)
    (hapart : SeamsHold (seamsParts follow parts)) :
    Grammar.simples read (renderParts parts ++ follow) = .ok (refreshAll parts, follow) := by
  induction parts with
  | nil => exact Grammar.simples_of_absent (Grammar.simple_eq_absent fun c hc => (hfollow c hc).1)
  | cons part parts ih =>
    rw [List.forall_mem_cons] at hformed hparts
    rw [seamsParts, seamsHold_append] at hapart
    have hhead : (renderParts parts ++ follow).head? ≠ some '(' := by
      intro hopen
      cases parts with
      | nil => exact (hfollow '(' hopen).2 rfl
      | cons next parts =>
        have hnext := (hformed.2 next List.mem_cons_self).begins_simple
        rw [renderParts, List.append_assoc] at hopen
        exact ((hnext.append _).head? '(' hopen).2.2 rfl
    rw [renderParts, List.append_assoc, Grammar.simples_of_read (hparts.1 _ hhead hapart.1),
      ih hformed.2 hparts.2 hapart.2]
    rfl

theorem readsBack_compound {parts : List Selector} (hne : parts ≠ [])
    (hformed : ∀ part ∈ parts, Formed .simple part)
    (ih : ∀ part ∈ parts, ReadsBack .simple part) : ReadsBack .compound (.compound parts) := by
  intro follow hfollow hapart
  obtain ⟨part, parts, rfl⟩ := List.exists_cons_of_ne_nil hne
  rw [Grammar.compound, render, simples_render hformed ih hfollow hapart]
  rfl

theorem readsBack_complex {left right : Selector} {combinator : Text} (hlink : IsLink combinator)
    (hright : Formed .compound right) (ihleft : ReadsBack .chain left)
    (ihright : ReadsBack .compound right) : ReadsBack .chain (.complex left combinator right) := by
  intro follow hfollow hapart
  obtain ⟨hapartLeft, hapartRight⟩ := seamsHold_append.1 hapart
  obtain ⟨first, rest, hfirst, hchain⟩ := ihleft _ (hlink.breaks _) hapartLeft
  refine ⟨first, rest, ?_, ?_⟩
  · rw [render, List.append_assoc, List.append_assoc, hfirst]
  · rw [hchain, Grammar.chain_of_link hlink (hright.begins_compound.append follow)
      (ihright follow hfollow hapartRight)]
    rfl

/-- A chain is read as far as it goes if nothing behind it goes on with it. -/
theorem complex_render {tree : Selector} (h : ReadsBack .chain tree) {follow : Text}
    (hfollow : EndsBranch follow) (hapart : tree.Apart follow) :
    Grammar.complex read (tree.render ++ follow) = .read tree.refresh follow := by
  obtain ⟨first, rest, hfirst, hchain⟩ := h follow hfollow.breaks hapart
  rw [Grammar.complex, hfirst]
  simp only [hchain, Grammar.chain_of_endsBranch hfollow]

theorem readsBack_branch {tree : Selector} (mode : Mode) (hformed : Formed .chain tree)
    (ih : ReadsBack .chain tree) : ReadsBack (.branch mode) tree := by
  intro follow hfollow hapart
  exact Grammar.branch_of_begins (hformed.begins_chain.append follow)
    (complex_render ih hfollow hapart)

theorem readsBack_relative {tree : Selector} {combinator : Text} (hanchor : IsAnchor combinator)
    (hformed : Formed .chain tree) (ih : ReadsBack .chain tree) :
    ReadsBack (.branch .relative) (.relative combinator tree) := by
  intro follow hfollow hapart
  rw [render, List.append_assoc]
  exact Grammar.branch_of_isAnchor hanchor (hformed.begins_chain.append follow)
    (complex_render ih hfollow hapart)

/-! ## Whole selectors -/

theorem branches_of_read {nested : Reader} {mode : Mode} {text start rest after : Text}
    {item : Selector} {items : List Selector} (hcomma : Grammar.comma? text = some start)
    (hitem : Grammar.branch nested mode start = .read item rest)
    (hitems : Grammar.branches nested mode rest = .ok (items, after)) :
    Grammar.branches nested mode text = .ok (item :: items, after) := by
  rw [Grammar.branches_of_some hcomma, hitem]
  dsimp only
  rw [hitems]

theorem endsBranch_renderMore (items : List Selector) : EndsBranch (renderMore items) := by
  cases items with
  | nil => simp [EndsBranch, renderMore]
  | cons item items => simp [EndsBranch, renderMore]

theorem branches_renderMore {mode : Mode} {items : List Selector}
    (hformed : ∀ item ∈ items, Formed (.branch mode) item)
    (hitems : ∀ item ∈ items, ReadsBack (.branch mode) item)
    (hapart : SeamsHold (seamsItems [] items)) :
    Grammar.branches read mode (renderMore items) = .ok (refreshAll items, []) := by
  induction items with
  | nil => exact Grammar.branches_of_none rfl
  | cons item items ih =>
    rw [seamsItems, seamsHold_append, List.append_nil] at hapart
    rw [List.forall_mem_cons] at hitems
    obtain ⟨c, rest, hrender, hc⟩ := Formed.exists_cons_items (List.cons_ne_nil item items) hformed
    have hspace : Text.isSpace c = false := by
      rcases hc with hc | hc
      · exact isSpace_eq_false_of_isStart hc
      · exact isSpace_eq_false_of_isCombinator hc
    have hcomma : Grammar.comma? (renderMore (item :: items)) =
        some (item.render ++ renderMore items) := by
      have hskip : Text.skipSpace (c :: rest) = c :: rest := by
        simp [Text.skipSpace, hspace]
      have hsome : Grammar.comma? (',' :: c :: rest) = some (Text.skipSpace (c :: rest)) := rfl
      rw [renderMore, ← renderItems_cons, hrender, hsome, hskip]
      simp
    rw [List.forall_mem_cons] at hformed
    exact branches_of_read hcomma (hitems.1 _ (endsBranch_renderMore items) hapart.1)
      (ih hformed.2 hitems.2 hapart.2)

/-- A text that does not begin with a blank is read as a list, if that takes all of it. -/
theorem read_of_list {mode : Mode} {tree result : Selector} (h : Formed (.whole mode) tree)
    (hlist : Grammar.list read mode tree.render = .ok (result, [])) :
    read mode tree.render = .ok result := by
  obtain ⟨c, rest, hrender, hc⟩ := h.exists_cons_whole
  have htrim : tree.render.trimStart = tree.render := by
    rw [hrender, Text.trimStart, List.dropWhile_cons, hc]
    rfl
  rw [read_eq_complete, Grammar.complete, h.isBlankText_render, htrim, hlist]
  rfl

theorem readsBack_list {mode : Mode} {items : List Selector} (hlength : 2 ≤ items.length)
    (hformed : ∀ item ∈ items, Formed (.branch mode) item) (htrimmed : Trimmed (renderItems items))
    (ih : ∀ item ∈ items, ReadsBack (.branch mode) item) :
    ReadsBack (.whole mode) (.list items) := by
  intro hapart
  refine read_of_list (.list hlength hformed htrimmed) ?_
  obtain ⟨first, second, items, rfl⟩ : ∃ first second rest, items = first :: second :: rest := by
    match items, hlength with
    | first :: second :: rest, _ => exact ⟨first, second, rest, rfl⟩
  rw [List.forall_mem_cons] at hformed ih
  rw [Apart, seams, seamsItems, seamsHold_append, List.append_nil] at hapart
  rw [Grammar.list, render, renderItems_cons,
    ih.1 _ (endsBranch_renderMore _) hapart.1]
  simp only [branches_renderMore hformed.2 ih.2 hapart.2]
  rfl

theorem readsBack_whole {mode : Mode} {tree : Selector} (hbranch : Formed (.branch mode) tree)
    (htrimmed : Trimmed tree.render) (ih : ReadsBack (.branch mode) tree) :
    ReadsBack (.whole mode) tree := by
  intro hapart
  refine read_of_list (.whole hbranch htrimmed) ?_
  have hread := ih [] (by simp [EndsBranch]) hapart
  rw [List.append_nil] at hread
  have hmore : Grammar.branches read mode [] = .ok ([], []) := Grammar.branches_of_none rfl
  rw [Grammar.list, hread]
  simp only [hmore]

/-- Every formed tree is read back. -/
theorem readsBack_of_formed {level : Level} {tree : Selector} (h : Formed level tree) :
    ReadsBack level tree := by
  -- The levels of the shape are those of the grammar, so each case is about one reader.
  induction h with
  | typeName _ =>
    exact readsBack_of_spelled (fun _ _ hapart => .typeName (seamsHold_singleton.1 hapart)) rfl
  | universal => exact readsBack_of_spelled (fun _ _ _ => .universal) rfl
  | nesting => exact readsBack_of_spelled (fun _ _ _ => .nesting) rfl
  | className _ =>
    exact readsBack_of_spelled (fun _ _ hapart => .className (seamsHold_singleton.1 hapart)) rfl
  | idName _ =>
    exact readsBack_of_spelled (fun _ _ hapart => .idName (seamsHold_singleton.1 hapart)) rfl
  | attr hsteady => exact readsBack_of_spelled (fun follow _ _ => spelled_attr hsteady follow) rfl
  | pseudo _ =>
    exact readsBack_of_spelled
      (fun _ hfollow hapart => .pseudo (seamsHold_singleton.1 hapart) hfollow) rfl
  | function hname hfound hplain =>
    refine readsBack_of_spelled (fun follow _ _ => ?_) rfl
    rw [render, List.append_assoc, List.cons_append, List.append_assoc]
    have hgroup := Scan.unnested_congr_of_found hfound (by decide) follow
    exact .function (read?_head hname _) (Scan.parenthesized?_of_found hgroup) hplain
  | query argument hname htakes hinner ih => exact readsBack_query argument hname htakes hinner ih
  | compound hne hparts ih => exact readsBack_compound hne hparts ih
  | start _ ih => exact fun follow hfollow hapart => ⟨_, _, ih follow hfollow hapart, rfl⟩
  | complex _ hlink hright ihleft ihright => exact readsBack_complex hlink hright ihleft ihright
  | branch mode hchain ih => exact readsBack_branch mode hchain ih
  | relative hanchor hchain ih => exact readsBack_relative hanchor hchain ih
  | whole hbranch htrimmed ih => exact readsBack_whole hbranch htrimmed ih
  | list hlength hitems htrimmed ih => exact readsBack_list hlength hitems htrimmed ih

/-- Reading the text of a formed tree gives the tree again, with refreshed arguments. -/
theorem read_render {mode : Mode} {tree : Selector} (hformed : Formed (.whole mode) tree)
    (hapart : tree.Apart []) : read mode tree.render = .ok tree.refresh :=
  readsBack_of_formed hformed hapart

end Selector

end ScopedCss
