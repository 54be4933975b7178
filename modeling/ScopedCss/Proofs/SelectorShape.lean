import Mathlib.Data.List.Chain
import ScopedCss.Proofs.Attributes
import ScopedCss.Proofs.SelectorDerivations

/-!
# The shape of parsed selectors

The type of selectors allows more trees than the parser builds.  `Shaped level tree` says what the
trees of a level look like, down to the characters of their combinators, names and conditions, and
`shaped_of_parse` that every parsed tree is of this shape.  A property of parsed selectors is then
proved by induction on `Shaped`, without a look at the parser.

Most of it is read off the derivation of the tree.  What stands next to what in a compound is not:
a type name begins with a character that would have been taken by a name in front of it, so it
stands at the start or behind something that ends with a bracket or is a sign of its own.
-/

namespace ScopedCss.Selector

def isTypeName : Selector → Bool
  | .typeName _ => true
  | _ => false

/-- A type name may stand behind the simple selector, because it does not end with a name. -/
def admitsTypeName : Selector → Bool
  | .universal => true
  | .nesting => true
  | .attr _ => true
  | .function _ _ => true
  | .query _ _ _ => true
  | _ => false

/-- The trees of a level of the grammar. -/
inductive Shaped : Level → Selector → Prop where
  | typeName {name : Text} : Ident.isIdent name = true → Shaped .simple (.typeName name)
  | universal : Shaped .simple .universal
  | nesting : Shaped .simple .nesting
  | className {name : Text} : Ident.isIdent name = true → Shaped .simple (.className name)
  | idName {name : Text} : Ident.isIdent name = true → Shaped .simple (.idName name)
  | attr {condition : Attribute} : condition.Shaped → Shaped .simple (.attr condition)
  | pseudo {head : Pseudo} : Ident.isIdent head.name = true → Shaped .simple (.pseudo head)
  /-- An argument stays unread if the pseudo takes no selector or the argument is blank. -/
  | function {head : Pseudo} {argument : Text} :
    Ident.isIdent head.name = true → (head.takesSelector = true → argument.isBlankText = true) →
    Shaped .simple (.function head argument)
  | query {head : Pseudo} {argument : Text} {inner : Selector} :
    Ident.isIdent head.name = true → head.takesSelector = true → argument.isBlankText = false →
    parse (argumentMode head) argument = .ok inner → Shaped (.whole (argumentMode head)) inner →
    Shaped .simple (.query head argument inner)
  | compound {parts : List Selector} :
    parts ≠ [] → (∀ part ∈ parts, Shaped .simple part) →
    (parts.IsChain fun previous part =>
      part.isTypeName = true → previous.admitsTypeName = true) →
    Shaped .compound (.compound parts)
  | start {tree : Selector} : Shaped .compound tree → Shaped .chain tree
  | complex {left right : Selector} {combinator : Text} :
    Shaped .chain left → IsLink combinator → Shaped .compound right →
    Shaped .chain (.complex left combinator right)
  | branch {tree : Selector} (mode : Mode) : Shaped .chain tree → Shaped (.branch mode) tree
  | relative {tree : Selector} {combinator : Text} :
    IsAnchor combinator → Shaped .chain tree →
    Shaped (.branch .relative) (.relative combinator tree)
  | whole {mode : Mode} {tree : Selector} : Shaped (.branch mode) tree → Shaped (.whole mode) tree
  | list {mode : Mode} {items : List Selector} :
    2 ≤ items.length → (∀ item ∈ items, Shaped (.branch mode) item) →
    Shaped (.whole mode) (.list items)

/-- A branch is not a list. -/
theorem Shaped.branches_eq {mode : Mode} {tree : Selector} (h : Shaped (.branch mode) tree) :
    tree.branches = [tree] := by
  cases h with
  | branch _ hchain =>
    cases hchain with
    | start hcompound =>
      cases hcompound
      rfl
    | complex => rfl
  | relative => rfl

/-! ## Names -/

theorem isIdent_of_read? {name rest : Text} (h : Ident.read? (name ++ rest) = some (name, rest)) :
    Ident.isIdent name = true := by
  have hself : Ident.read? (name ++ []) = some (name, []) :=
    (Ident.isName_of_read?_eq_some h).read?_append (by simp)
  rw [List.append_nil] at hself
  simp [Ident.isIdent, hself]

theorem shaped_of_spelled {text rest : Text} {tree : Selector}
    (h : Spelled text (.leaf tree) rest) : Shaped .simple tree := by
  cases h with
  | typeName hname => exact .typeName (isIdent_of_read? hname)
  | universal => exact .universal
  | nesting => exact .nesting
  | className hname => exact .className (isIdent_of_read? hname)
  | idName hname => exact .idName (isIdent_of_read? hname)
  | attr _ hcondition => exact .attr (Lexeme.attribute?_eq_ok_iff.1 hcondition).shaped
  | pseudo hname _ => exact .pseudo (isIdent_of_read? hname)
  | function hname _ hplain => exact .function (isIdent_of_read? hname) hplain

/-- A name is read up to a place where no other name begins. -/
theorem read?_eq_none_of_read? {name rest : Text}
    (h : Ident.read? (name ++ rest) = some (name, rest)) : Ident.read? rest = none := by
  rw [Ident.read?, (Ident.ends_of_read?_eq_some h).span_rest]

/-- Where a simple selector that ends with a name is followed by another, that is no type name. -/
theorem Derives.admitsTypeName {text middle rest : Text} {previous part : Selector}
    (hprevious : Derives .simple text previous middle) (hpart : Derives .simple middle part rest)
    (htype : part.isTypeName = true) : previous.admitsTypeName = true := by
  obtain ⟨name, hname⟩ : ∃ name, Ident.read? middle = some (name, rest) := by
    cases hpart with
    | leaf hspelled =>
      cases hspelled with
      | typeName hname => exact ⟨_, hname⟩
      | _ => simp [isTypeName] at htype
    | query => simp [isTypeName] at htype
  have hends : ∀ {word : Text}, Ident.read? (word ++ middle) ≠ some (word, middle) := by
    intro word hword
    rw [read?_eq_none_of_read? hword] at hname
    simp at hname
  cases hprevious with
  | leaf hspelled =>
    cases hspelled with
    | typeName h => exact absurd h hends
    | className h => exact absurd h hends
    | idName h => exact absurd h hends
    | pseudo h _ => exact absurd h hends
    | _ => rfl
  | query => rfl

/-! ## Trees -/

/-- A compound begins with a simple selector. -/
theorem Derives.exists_cons {text rest : Text} {parts : List Selector}
    (h : Derives .compound text (.compound parts) rest) :
    ∃ part more after, parts = part :: more ∧ Derives .simple text part after := by
  cases h with
  | single hpart => exact ⟨_, _, _, rfl, hpart⟩
  | cons hpart _ => exact ⟨_, _, _, rfl, hpart⟩

/-- What is derived at a level has the shape of the level. -/
theorem shaped_of_derives {level : Level} {text rest : Text} {tree : Selector}
    (h : Derives level text tree rest) : Shaped level tree := by
  induction h with
  | leaf hspelled => exact shaped_of_spelled hspelled
  | query hspelled hparse _ ih =>
    cases hspelled with
    | query hname _ htakes hblank =>
      exact .query (isIdent_of_read? hname) htakes hblank hparse ih
  | single _ ih =>
    exact .compound (List.cons_ne_nil _ _) (List.forall_mem_singleton.2 ih) (.singleton _)
  | cons hpart hparts ihpart ihparts =>
    obtain ⟨next, more, after, rfl, hnext⟩ := hparts.exists_cons
    cases ihparts with
    | compound _ hall hchain =>
      refine .compound (List.cons_ne_nil _ _) (List.forall_mem_cons.2 ⟨ihpart, hall⟩) ?_
      exact .cons_cons (hpart.admitsTypeName hnext) hchain
  | start _ ih => exact .start ih
  | complex _ hlink _ ihleft ihright => exact .complex ihleft hlink ihright
  | branch mode _ ih => exact .branch mode ih
  | relative hanchor _ ih => exact .relative hanchor ih
  | one _ ih => exact .whole ih
  | pair _ _ _ ihfirst ihsecond =>
    refine .list (Nat.le_refl 2) (List.forall_mem_cons.2 ⟨ihfirst, ?_⟩)
    exact List.forall_mem_singleton.2 ihsecond
  | more _ _ _ ihfirst ihitems =>
    cases ihitems with
    | whole hbranch =>
      -- A branch is not a list.
      cases hbranch with
      | branch _ hchain =>
        cases hchain with
        | start hcompound => cases hcompound
    | list hlength hall =>
      exact .list (Nat.le_succ_of_le hlength) (List.forall_mem_cons.2 ⟨ihfirst, hall⟩)

/-- The shape of every parsed selector. -/
theorem shaped_of_parse {mode : Mode} {source : Text} {tree : Selector}
    (h : parse mode source = .ok tree) : Shaped (.whole mode) tree := by
  obtain ⟨back, hderives⟩ := derives_of_parse h
  exact shaped_of_derives hderives

theorem shaped_of_parse_sample :
    ∃ tree, parse .relative "> *a.b , &c[ x ^= y ]d:HAS( +e , f )g :hover".toList = .ok tree ∧
      tree.render = "> *a.b,&c[x^=y]d:HAS(+e,f)g :hover".toList ∧
      Shaped (.whole .relative) tree := by
  obtain ⟨tree, hparse, hrender⟩ : ∃ tree,
      parse .relative "> *a.b , &c[ x ^= y ]d:HAS( +e , f )g :hover".toList = .ok tree ∧
        tree.render = "> *a.b,&c[x^=y]d:HAS(+e,f)g :hover".toList :=
    exists_ok_of_map (by decide +kernel)
  exact ⟨tree, hparse, hrender, shaped_of_parse hparse⟩

end ScopedCss.Selector
