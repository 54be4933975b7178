import ScopedCss.Proofs.SelectorPrinting

/-!
# Selectors joined by a comma

A comma ends every branch, whatever stands in front of it, so two selectors with a comma between them
have the branches of both.  `ReadsOn` says, for each level of the grammar, that what was read at the
start of a text is read there again when a comma and more text are put behind the text.
`readsOn_of_derives` proves it by induction on the derivation of the first selector; the second one is
read behind the comma by the same readers as alone.
-/

namespace ScopedCss

open Ident (Alike)

namespace Selector

/-! ## In front of a comma -/

/-- A comma behind the rest ends the names that the rest ends, unless it becomes an escape. -/
theorem alike_append_comma {rest : Text} (h : rest ≠ ['\\']) (after : Text) :
    Alike rest (rest ++ ',' :: after) := by
  cases rest with
  | nil => exact alike_of_endsBranch (by simp [EndsBranch]) []
  | cons c rest => exact .inr ⟨rfl, h⟩

theorem read?_append_comma {name rest : Text} (h : Ident.read? (name ++ rest) = some (name, rest))
    (hrest : rest ≠ ['\\']) (after : Text) :
    Ident.read? (name ++ (rest ++ ',' :: after)) = some (name, rest ++ ',' :: after) :=
  seamsHold_singleton.1 (seam_of_alike h (alike_append_comma hrest after))

theorem parenthesized?_append {argument rest : Text}
    (h : Scan.parenthesized? (argument ++ ')' :: rest) = some (argument, rest)) (after : Text) :
    Scan.parenthesized? (argument ++ ')' :: (rest ++ after)) = some (argument, rest ++ after) :=
  Scan.parenthesized?_of_found
    (Scan.unnested_congr_of_found (found_of_parenthesized? h) (by decide) (rest ++ after))

/-- A simple selector is spelled the same way with a comma behind it. -/
theorem Spelled.append_comma {text rest : Text} {lexeme : Lexeme} (h : Spelled text lexeme rest)
    (hrest : rest ≠ ['\\']) (after : Text) :
    Spelled (text ++ ',' :: after) lexeme (rest ++ ',' :: after) := by
  cases h with
  | typeName hname =>
    rw [List.append_assoc]
    exact .typeName (read?_append_comma hname hrest after)
  | universal => exact .universal
  | nesting => exact .nesting
  | className hname =>
    rw [List.cons_append, List.append_assoc]
    exact .className (read?_append_comma hname hrest after)
  | idName hname =>
    rw [List.cons_append, List.append_assoc]
    exact .idName (read?_append_comma hname hrest after)
  | attr hfound hcondition =>
    rw [List.cons_append, List.append_assoc, List.cons_append]
    exact .attr (Scan.unnested_congr_of_found hfound (by decide) _) hcondition
  | pseudo hname hopen =>
    rw [List.append_assoc]
    refine .pseudo (read?_append_comma hname hrest after) ?_
    cases rest with
    | nil => simp
    | cons c rest => exact hopen
  | function hname hgroup hplain =>
    have hisName := Ident.isName_of_read?_eq_some hname
    rw [List.append_assoc, List.cons_append, List.append_assoc, List.cons_append]
    exact .function (read?_head hisName _) (parenthesized?_append hgroup _) hplain
  | query hname hgroup htakes hblank =>
    have hisName := Ident.isName_of_read?_eq_some hname
    rw [List.append_assoc, List.cons_append, List.append_assoc, List.cons_append]
    exact .query (read?_head hisName _) (parenthesized?_append hgroup _) htakes hblank

theorem Spelled.begins {text rest : Text} {lexeme : Lexeme} (h : Spelled text lexeme rest) :
    Begins text := by
  cases h with
  | typeName hname => exact (begins_name (Ident.isName_of_read?_eq_some hname)).append _
  | pseudo => exact (begins_pseudo _).append _
  | function => exact (begins_pseudo _).append _
  | query => exact (begins_pseudo _).append _
  | _ => exact begins_cons (by decide) (by decide) _

theorem Derives.begins_simple {text rest : Text} {tree : Selector}
    (h : Derives .simple text tree rest) : Begins text := by
  cases h with
  | leaf hspelled => exact hspelled.begins
  | query hspelled => exact hspelled.begins

theorem Derives.begins_compound {text rest : Text} {tree : Selector}
    (h : Derives .compound text tree rest) : Begins text := by
  cases h with
  | single hpart => exact hpart.begins_simple
  | cons hpart _ => exact hpart.begins_simple

theorem Derives.begins_chain {text rest : Text} {tree : Selector} :
    Derives .chain text tree rest → Begins text
  | .start hcompound => hcompound.begins_compound
  | .complex hleft _ _ => hleft.begins_chain

/-! ## The end of a branch -/

namespace Grammar

variable {nested : Reader} {text start : Text}

theorem isSpace_head?_comma (after : Text) :
    ∀ c ∈ (',' :: after).head?, Text.isSpace c = false := by
  intro c hc
  obtain rfl : ',' = c := Option.some.inj hc
  decide

theorem comma?_append_comma {gap : Text} (hgap : ∀ c ∈ gap, Text.isSpace c = true)
    (after : Text) : comma? (gap ++ ',' :: after) = some after.skipSpace := by
  rw [comma?, Text.skipSpace_append hgap (isSpace_head?_comma after)]
  rfl

/-- More text behind the start of a branch does not change where the branch begins. -/
theorem comma?_append (h : comma? text = some start) (after : Text) :
    comma? (text ++ ',' :: after) = some (start ++ ',' :: after) := by
  obtain ⟨gap, behind, rfl, hgap, rfl⟩ := comma?_eq_some h
  rw [List.append_assoc, List.cons_append, comma?_append_comma hgap,
    Text.skipSpace_append_of_head? (isSpace_head?_comma after)]

theorem breaks_of_comma? (h : comma? text = some start) : Breaks text := by
  obtain ⟨gap, after, rfl, hgap, -⟩ := comma?_eq_some h
  cases gap with
  | nil => exact EndsBranch.breaks (by simp [EndsBranch])
  | cons c gap => exact breaks_of_isSpace (hgap c List.mem_cons_self) _

theorem compound_comma (after : Text) : compound nested (',' :: after) = .absent := by
  have habsent : simple nested (',' :: after) = .absent := by
    refine simple_eq_absent fun c hc => ?_
    obtain rfl : ',' = c := Option.some.inj hc
    decide
  rw [compound, simples_of_absent habsent]

theorem simples_of_compound {rest : Text} {parts : List Selector}
    (h : compound nested text = .read (.compound parts) rest) :
    simples nested text = .ok (parts, rest) := by
  simp only [compound] at h
  split at h
  · cases h
  · next hsimples =>
    obtain ⟨htree, rfl⟩ := Reply.read.inj h
    obtain rfl := Selector.compound.inj htree
    exact hsimples
  · cases h

/-- A chain ends at a comma, and the spaces in front of the comma are no combinator. -/
theorem chain_of_comma? {left : Selector} (h : comma? text = some start) :
    chain nested left text = .ok (left, text) := by
  obtain ⟨gap, after, rfl, hgap, -⟩ := comma?_eq_some h
  have hhead := isSpace_head?_comma after
  have hlink : link (gap ++ ',' :: after) = .none ∨
      link (gap ++ ',' :: after) = .descendant gap (',' :: after) := by
    unfold link
    rw [Text.leadingSpace_append hgap hhead, Text.skipSpace_append hgap hhead]
    cases gap with
    | nil => exact .inl rfl
    | cons c gap => exact .inr rfl
  rcases hlink with hlink | hlink
  · rw [chain_of_none hlink]
  · rw [chain_of_descendant hlink, compound_comma]

end Grammar

/-! ## Reading on -/

/-- What reading gives at a level when a comma and more text are put behind the text.  A list that was
read becomes the start of a longer list. -/
def ReadsOn (after : Text) : Level → Text → Selector → Text → Prop
  | .simple, text, tree, rest => rest ≠ ['\\'] →
    Grammar.simple read (text ++ ',' :: after) = .read tree (rest ++ ',' :: after)
  | .compound, text, tree, rest => Breaks (rest ++ ',' :: after) →
    Grammar.compound read (text ++ ',' :: after) = .read tree (rest ++ ',' :: after)
  | .chain, text, tree, rest => Breaks (rest ++ ',' :: after) →
    ∃ first middle, Grammar.compound read (text ++ ',' :: after) = .read first middle ∧
      Grammar.chain read first middle = Grammar.chain read tree (rest ++ ',' :: after)
  | .branch mode, text, tree, rest => ∀ start, Grammar.comma? (rest ++ ',' :: after) = some start →
    Grammar.branch read mode (text ++ ',' :: after) = .read tree (rest ++ ',' :: after)
  | .whole mode, text, tree, rest => ∀ start more last,
    Grammar.comma? (rest ++ ',' :: after) = some start →
    Grammar.branches read mode (rest ++ ',' :: after) = .ok (more, last) →
    ∃ first items middle, tree.branches = first :: items ∧
      Grammar.branch read mode (text ++ ',' :: after) = .read first middle ∧
      Grammar.branches read mode middle = .ok (items ++ more, last)

section Levels

variable {after text middle rest : Text} {tree : Selector} {mode : Mode}

theorem readsOn_single {part : Selector} (ih : ReadsOn after .simple text part rest) :
    ReadsOn after .compound text (.compound [part]) rest := by
  intro hbreaks
  have hrest : rest ≠ ['\\'] := by
    rintro rfl
    exact absurd (hbreaks '\\' rfl).1 (by decide)
  have habsent := @Grammar.simple_eq_absent read _ fun c hc => (hbreaks c hc).1
  rw [Grammar.compound, Grammar.simples_of_read (ih hrest), Grammar.simples_of_absent habsent]

theorem readsOn_cons {part : Selector} {parts : List Selector}
    (hparts : Derives .compound middle (.compound parts) rest)
    (ihpart : ReadsOn after .simple text part middle)
    (ihparts : ReadsOn after .compound middle (.compound parts) rest) :
    ReadsOn after .compound text (.compound (part :: parts)) rest := by
  intro hbreaks
  have hmiddle := hparts.begins_compound.ne_backslash
  have hsimples := Grammar.simples_of_compound (ihparts hbreaks)
  rw [Grammar.compound, Grammar.simples_of_read (ihpart hmiddle), hsimples]

theorem readsOn_complex {combinator : Text} {left right : Selector} (hlink : IsLink combinator)
    (hright : Derives .compound middle right rest)
    (ihleft : ReadsOn after .chain text left (combinator ++ middle))
    (ihright : ReadsOn after .compound middle right rest) :
    ReadsOn after .chain text (.complex left combinator right) rest := by
  intro hbreaks
  have hbegins := hright.begins_compound.append (',' :: after)
  obtain ⟨first, last, hfirst, hchain⟩ := ihleft (by
    rw [List.append_assoc]
    exact hlink.breaks _)
  refine ⟨first, last, hfirst, ?_⟩
  rw [hchain, List.append_assoc, Grammar.chain_of_link hlink hbegins (ihright hbreaks)]

/-- A chain in front of a comma is read as far as it goes. -/
theorem complex_of_readsOn {start : Text} (ih : ReadsOn after .chain text tree rest)
    (hcomma : Grammar.comma? (rest ++ ',' :: after) = some start) :
    Grammar.complex read (text ++ ',' :: after) = .read tree (rest ++ ',' :: after) := by
  obtain ⟨first, last, hfirst, hchain⟩ := ih (Grammar.breaks_of_comma? hcomma)
  rw [Grammar.complex, hfirst]
  simp only [hchain, Grammar.chain_of_comma? hcomma]

theorem readsOn_relative {combinator : Text} (hanchor : IsAnchor combinator)
    (hchain : Derives .chain middle tree rest) (ih : ReadsOn after .chain middle tree rest) :
    ReadsOn after (.branch .relative) (combinator ++ middle) (.relative combinator tree) rest := by
  intro start hcomma
  rw [List.append_assoc]
  exact Grammar.branch_of_isAnchor hanchor (hchain.begins_chain.append _)
    (complex_of_readsOn ih hcomma)

theorem readsOn_one (hbranch : Derives (.branch mode) text tree rest)
    (ih : ReadsOn after (.branch mode) text tree rest) :
    ReadsOn after (.whole mode) text tree rest := by
  intro start more last hcomma hmore
  exact ⟨tree, [], _, (shaped_of_derives hbranch).branches_eq, ih start hcomma, hmore⟩

theorem readsOn_pair {start : Text} {first second : Selector}
    (hcomma : Grammar.comma? middle = some start)
    (ihfirst : ReadsOn after (.branch mode) text first middle)
    (ihsecond : ReadsOn after (.branch mode) start second rest) :
    ReadsOn after (.whole mode) text (.list [first, second]) rest := by
  intro behind more last hend hmore
  have hjoin := Grammar.comma?_append hcomma after
  exact ⟨first, [second], _, rfl, ihfirst _ hjoin,
    branches_of_read hjoin (ihsecond behind hend) hmore⟩

theorem readsOn_more {start : Text} {first : Selector} {items : List Selector}
    (hcomma : Grammar.comma? middle = some start)
    (ihfirst : ReadsOn after (.branch mode) text first middle)
    (ihitems : ReadsOn after (.whole mode) start (.list items) rest) :
    ReadsOn after (.whole mode) text (.list (first :: items)) rest := by
  intro behind more last hend hmore
  have hjoin := Grammar.comma?_append hcomma after
  obtain ⟨next, others, left, hitems, hnext, hothers⟩ := ihitems behind more last hend hmore
  obtain rfl : items = next :: others := hitems
  exact ⟨first, next :: others, _, rfl, ihfirst _ hjoin, branches_of_read hjoin hnext hothers⟩

end Levels

/-- What is derived from a text is read again when a comma and more text are put behind the text. -/
theorem readsOn_of_derives {level : Level} {text rest : Text} {tree : Selector}
    (h : Derives level text tree rest) (after : Text) : ReadsOn after level text tree rest := by
  induction h with
  | leaf hspelled =>
    exact fun hrest => Grammar.simple_eq_read_iff.2 (.inl (hspelled.append_comma hrest after))
  | query hspelled hparse _ _ =>
    exact fun hrest => Grammar.simple_eq_read_iff.2
      (.inr ⟨_, _, _, rfl, hspelled.append_comma hrest after, parse_eq_ok_iff.1 hparse⟩)
  | single _ ih => exact readsOn_single ih
  | cons _ hparts ihpart ihparts => exact readsOn_cons hparts ihpart ihparts
  | start _ ih => exact fun hbreaks => ⟨_, _, ih hbreaks, rfl⟩
  | complex _ hlink hright ihleft ihright => exact readsOn_complex hlink hright ihleft ihright
  | branch mode hchain ih =>
    exact fun start hcomma =>
      Grammar.branch_of_begins (hchain.begins_chain.append _) (complex_of_readsOn ih hcomma)
  | relative hanchor hchain ih => exact readsOn_relative hanchor hchain ih
  | one hbranch ih => exact readsOn_one hbranch ih
  | pair _ hcomma _ ihfirst ihsecond => exact readsOn_pair hcomma ihfirst ihsecond
  | more _ hcomma _ ihfirst ihitems => exact readsOn_more hcomma ihfirst ihitems

/-! ## Joining -/

theorem render_eq_renderItems_branches (tree : Selector) :
    tree.render = renderItems tree.branches := by
  cases tree <;> rfl

theorem renderItems_append {first second : List Selector} (hfirst : first ≠ [])
    (hsecond : second ≠ []) :
    renderItems (first ++ second) = renderItems first ++ ',' :: renderItems second := by
  have hmore : ∀ {items : List Selector}, items ≠ [] → renderMore items = ',' :: renderItems items :=
    fun hne => by
      obtain ⟨item, items, rfl⟩ := List.exists_cons_of_ne_nil hne
      rfl
  induction first with
  | nil => exact absurd rfl hfirst
  | cons item first ih =>
    rw [List.cons_append, renderItems_cons, renderItems_cons]
    by_cases hnil : first = []
    · rw [hnil, List.nil_append, hmore hsecond, renderMore, List.append_nil]
    · have hboth : first ++ second ≠ [] := by simp [hnil]
      rw [hmore hboth, ih hnil, hmore hnil, List.append_assoc, List.cons_append]

/-- A list is its first branch and the branches behind it. -/
theorem exists_of_list_eq_ok {mode : Mode} {text rest : Text} {tree : Selector}
    (h : Grammar.list read mode text = .ok (tree, rest)) :
    ∃ first items middle, tree.branches = first :: items ∧
      Grammar.branch read mode text = .read first middle ∧
      Grammar.branches read mode middle = .ok (items, rest) := by
  simp only [Grammar.list] at h
  split at h
  · cases h
  · cases h
  · next first middle hfirst =>
    split at h
    · next hitems =>
      obtain ⟨rfl, rfl⟩ := Prod.mk.inj (Except.ok.inj h)
      have hbranch := Grammar.derives_of_branch derived_read hfirst
      exact ⟨first, [], middle, (shaped_of_derives hbranch).branches_eq, hfirst, hitems⟩
    · next items _ _ hitems =>
      obtain ⟨rfl, rfl⟩ := Prod.mk.inj (Except.ok.inj h)
      exact ⟨first, items, middle, rfl, hfirst, hitems⟩
    · cases h

/-- A first branch with others behind it is a list. -/
theorem list_of_branches {mode : Mode} {text middle rest : Text} {first : Selector}
    {items : List Selector} (hfirst : Grammar.branch read mode text = .read first middle)
    (hitems : Grammar.branches read mode middle = .ok (items, rest)) (hne : items ≠ []) :
    Grammar.list read mode text = .ok (.list (first :: items), rest) := by
  obtain ⟨item, others, rfl⟩ := List.exists_cons_of_ne_nil hne
  rw [Grammar.list, hfirst]
  simp only [hitems]

/-- What was left of a text are spaces, if the blanks at its end are. -/
theorem isSpace_of_suffix {source back : Text} (hback : back.trimStart = [])
    (hsuffix : back <:+ source)
    (h : ∀ c ∈ source.reverse.takeWhile Text.isBlank, Text.isSpace c = true) :
    ∀ c ∈ back, Text.isSpace c = true := by
  intro c hc
  obtain ⟨front, rfl⟩ := hsuffix
  have hblank : ∀ c ∈ back.reverse, Text.isBlank c = true := by
    intro d hd
    exact List.dropWhile_eq_nil_iff.1 hback d (List.mem_reverse.1 hd)
  refine h c ?_
  rw [List.reverse_append, List.takeWhile_append_of_pos hblank]
  exact List.mem_append_left _ (List.mem_reverse.2 hc)

/-- Trimming the start of a text skips its spaces, if the blanks there are spaces. -/
theorem trimStart_eq_skipSpace {source : Text}
    (h : ∀ c ∈ source.takeWhile Text.isBlank, Text.isSpace c = true) :
    source.trimStart = source.skipSpace := by
  have hhead : ∀ c ∈ source.trimStart.head?, Text.isSpace c = false := by
    intro c hc
    by_contra hspace
    rw [Bool.not_eq_false] at hspace
    have hblank := Text.isBlank_of_isSpace hspace
    exact absurd (hblank.symm.trans (Text.head?_trimStart c hc)) (by decide)
  have hsource : source = source.takeWhile Text.isBlank ++ source.trimStart :=
    (List.takeWhile_append_dropWhile).symm
  calc source.trimStart
      = Text.skipSpace (source.takeWhile Text.isBlank ++ source.trimStart) :=
        (Text.skipSpace_append h hhead).symm
    _ = source.skipSpace := by rw [← hsource]

theorem trimStart_append_comma (source after : Text) :
    Text.trimStart (source ++ ',' :: after) = source.trimStart ++ ',' :: after := by
  have hcomma : Text.isBlank ',' = false := by decide
  rw [Text.trimStart, List.dropWhile_append, List.dropWhile_cons, hcomma]
  split
  · next hempty =>
    rw [Text.trimStart, List.isEmpty_iff.1 hempty]
    rfl
  · rfl

/-- Two selectors with a comma between them are a selector with the branches of both, in order, and
it is printed as the two are.  Only at the comma itself the blanks have to be spaces: no other blank
is skipped there. -/
theorem parse_join {mode : Mode} {first second : Text} {left right : Selector}
    (hleft : parse mode first = .ok left) (hright : parse mode second = .ok right)
    (hback : ∀ c ∈ first.reverse.takeWhile Text.isBlank, Text.isSpace c = true)
    (hfront : ∀ c ∈ second.takeWhile Text.isBlank, Text.isSpace c = true) :
    ∃ tree, parse mode (first ++ ',' :: second) = .ok tree ∧
      tree.branches = left.branches ++ right.branches ∧
      tree.render = left.render ++ ',' :: right.render := by
  rw [parse_eq_ok_iff, read_eq_complete, Grammar.complete_eq_ok_iff] at hleft hright
  obtain ⟨-, back, hleft, hend⟩ := hleft
  obtain ⟨-, last, hright, hlast⟩ := hright
  have hderives := Grammar.derives_of_list derived_read hleft
  have hspaces := isSpace_of_suffix hend (hderives.suffix.trans (List.dropWhile_suffix _)) hback
  have hcomma := Grammar.comma?_append_comma hspaces second
  rw [← trimStart_eq_skipSpace hfront] at hcomma
  -- Behind the comma the second selector is read as it was alone, and the first one in front of it.
  obtain ⟨item, items, middle, hitems, hitem, hmore⟩ := exists_of_list_eq_ok hright
  obtain ⟨head, others, between, hothers, hhead, hall⟩ :=
    readsOn_of_derives hderives second _ _ _ hcomma (branches_of_read hcomma hitem hmore)
  have hlist := list_of_branches hhead hall (by simp)
  have hbranches : head :: (others ++ item :: items) = left.branches ++ right.branches := by
    rw [hothers, hitems, List.cons_append]
  rw [hbranches] at hlist
  refine ⟨.list (left.branches ++ right.branches), ?_, rfl, ?_⟩
  · have hwhole : (first ++ ',' :: second).isBlankText = false := by
      simp [Text.isBlankText, show Text.isBlank ',' = false by decide]
    rw [parse_eq_ok_iff, read_eq_complete, Grammar.complete_eq_ok_iff]
    refine ⟨hwhole, last, ?_, hlast⟩
    rw [trimStart_append_comma]
    exact hlist
  · have hne : left.branches ≠ [] ∧ right.branches ≠ [] := by simp [hothers, hitems]
    rw [render, renderItems_append hne.1 hne.2, ← render_eq_renderItems_branches,
      ← render_eq_renderItems_branches]

/-- A comma inside a string, and at the end an escape that takes in a blank. -/
def frontSelector : Text :=
  "\u00a0> .a[b=','] , .\\31 ".toList

/-- A blank that is not a space at the end, where it does not meet the comma. -/
def backSelector : Text :=
  "\n+ c:not(d , e) ~f\x0c".toList

theorem parse_join_sample :
    (∀ c ∈ frontSelector.reverse.takeWhile Text.isBlank, Text.isSpace c = true) ∧
    (∀ c ∈ backSelector.takeWhile Text.isBlank, Text.isSpace c = true) ∧
    ∃ left right, parse .relative frontSelector = .ok left ∧
      left.render = "> .a[b=','],.\\31 ".toList ∧
      parse .relative backSelector = .ok right ∧ right.render = "+ c:not(d,e) ~f".toList ∧
      ∃ tree, parse .relative (frontSelector ++ ',' :: backSelector) = .ok tree ∧
        tree.branches = left.branches ++ right.branches ∧
        tree.render = left.render ++ ',' :: right.render := by
  have hback : ∀ c ∈ frontSelector.reverse.takeWhile Text.isBlank, Text.isSpace c = true :=
    List.all_eq_true.1 (by decide)
  have hfront : ∀ c ∈ backSelector.takeWhile Text.isBlank, Text.isSpace c = true :=
    List.all_eq_true.1 (by decide)
  obtain ⟨left, hleft, hrender⟩ : ∃ left, parse .relative frontSelector = .ok left ∧
      left.render = "> .a[b=','],.\\31 ".toList :=
    exists_ok_of_map (by decide +kernel)
  obtain ⟨right, hright, hrender'⟩ : ∃ right, parse .relative backSelector = .ok right ∧
      right.render = "+ c:not(d,e) ~f".toList :=
    exists_ok_of_map (by decide +kernel)
  exact ⟨hback, hfront, left, right, hleft, hrender, hright, hrender',
    parse_join hleft hright hback hfront⟩

end Selector

end ScopedCss
