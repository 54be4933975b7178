import ScopedCss.Proofs.References

/-!
# Scoping as one substitution

Given a renaming of names, the scoped style sheet can be written down in a single pass over the tree
that needs no registry.  Only the words of an `animation` shorthand depend on what comes before
them: a word is a name if keyframes, a `composes` declaration or an earlier `animation-name`
declaration refers to it.  `known` is the list of these names.

A `Frontier` says how far a substitution goes that stops halfway.
-/

namespace ScopedCss

/-- Renames the name that keyframes declare. -/
def AtRule.substitute (rename : Text → Text) (head : AtRule) : AtRule :=
  match head.keyframesName? with
  | some name => { head with params := rename name }
  | none => head

/-- Renames the name in the value of `animation-name`, and the words of an `animation` shorthand
that are known as names. -/
def Declaration.substitute (rename : Text → Text) (known : List Text) (content : Declaration) :
    Declaration :=
  match Scoping.animationProperty? content.property with
  | some .name =>
    if content.value.trim.isEmpty then content
    else { content with value := rename content.value.trim }
  | some .shorthand =>
    let words := content.value.words.map fun word => if word ∈ known then rename word else word
    { content with value := [' '].intercalate words }
  | none => content

/-- Renames the classes and ids in the selector of a rule, unless it stands directly inside
keyframes. -/
def Rule.substitute (rename : Text → Text) (above : List BlockHead) (head : Rule) : Rule :=
  match (Site.rule above head).selector? with
  | some tree => { head with selector := (tree.substitute rename).render }
  | none => head

mutual

/-- What the substitution makes of a node. -/
def Node.substitute (rename : Text → Text) (known : List Text) (above : List BlockHead) :
    Node → List Node
  | .rule head body =>
    [.rule (head.substitute rename above)
      (Node.substituteAll rename known (.rule head :: above) body)]
  | .block head body =>
    [.block (head.substitute rename)
      (Node.substituteAll rename known (.block head :: above) body)]
  | .statement head => [.statement (head.substitute rename)]
  | .declaration content =>
    if content.isComposes then [] else [.declaration (content.substitute rename known)]
  | .comment content position => [.comment content position]

/-- What the substitution makes of nodes. -/
def Node.substituteAll (rename : Text → Text) (known : List Text) (above : List BlockHead) :
    List Node → List Node
  | [] => []
  | first :: rest =>
    Node.substitute rename known above first ++
      Node.substituteAll rename
        (known ++ (Node.sites above first).filterMap Site.animationName?) above rest

end

/-- What the substitution makes of a style sheet. -/
def Sheet.substitute (rename : Text → Text) (sheet : Sheet) : Sheet :=
  Node.substituteAll rename (sheet.keyframesNames ++ sheet.compositions.flatMap composesNames) []
    sheet

/-! ## Substitutions that stop -/

namespace Site

/-- The site is a `composes` declaration. -/
def isComposes : Site → Bool
  | .declaration _ content => content.isComposes
  | _ => false

/-- The site is the head of a rule. -/
def isRule : Site → Bool
  | .rule _ _ => true
  | _ => false

end Site

/-- How far a substitution goes.  The names of keyframes are renamed in any case. -/
inductive Frontier where
  /-- Besides, the first `passed` of the `composes` declarations are taken out. -/
  | composes (passed : Nat)
  /-- Besides, all `composes` declarations are taken out, animations are renamed, and so are the
  selectors of the first `passed` rules. -/
  | selectors (passed : Nat)
deriving Repr, DecidableEq

/-- What is left of the frontier behind the sites. -/
def Frontier.behind (frontier : Frontier) (sites : List Site) : Frontier :=
  match frontier with
  | .composes passed => .composes (passed - sites.countP Site.isComposes)
  | .selectors passed => .selectors (passed - sites.countP Site.isRule)

/-- What becomes of the head of a rule in front of which the frontier is. -/
def Rule.substituteUpTo (rename : Text → Text) (frontier : Frontier) (above : List BlockHead)
    (head : Rule) : Rule :=
  match frontier with
  | .selectors (_ + 1) => head.substitute rename above
  | _ => head

/-- What becomes of a declaration in front of which the frontier is. -/
def Declaration.substituteUpTo (rename : Text → Text) (frontier : Frontier) (known : List Text)
    (content : Declaration) : Option Declaration :=
  match frontier with
  | .composes 0 => some content
  | .composes (_ + 1) => if content.isComposes then none else some content
  | .selectors _ => if content.isComposes then none else some (content.substitute rename known)

mutual

/-- What the substitution makes of a node up to the frontier. -/
def Node.substituteUpTo (rename : Text → Text) (frontier : Frontier) (known : List Text)
    (above : List BlockHead) : Node → List Node
  | .rule head body =>
    [.rule (head.substituteUpTo rename frontier above)
      (Node.substituteAllUpTo rename (frontier.behind [.rule above head]) known
        (.rule head :: above) body)]
  | .block head body =>
    [.block (head.substitute rename)
      (Node.substituteAllUpTo rename (frontier.behind [.atRule head]) known
        (.block head :: above) body)]
  | .statement head => [.statement (head.substitute rename)]
  | .declaration content =>
    (content.substituteUpTo rename frontier known).toList.map .declaration
  | .comment content position => [.comment content position]

/-- What the substitution makes of nodes up to the frontier. -/
def Node.substituteAllUpTo (rename : Text → Text) (frontier : Frontier) (known : List Text)
    (above : List BlockHead) : List Node → List Node
  | [] => []
  | first :: rest =>
    Node.substituteUpTo rename frontier known above first ++
      Node.substituteAllUpTo rename (frontier.behind (Node.sites above first))
        (known ++ (Node.sites above first).filterMap Site.animationName?) above rest

end

/-- What the substitution makes of a style sheet up to the frontier. -/
def Sheet.substituteUpTo (rename : Text → Text) (frontier : Frontier) (sheet : Sheet) : Sheet :=
  Node.substituteAllUpTo rename frontier
    (sheet.keyframesNames ++ sheet.compositions.flatMap composesNames) [] sheet

mutual

theorem Node.substituteUpTo_of_le (rename : Text → Text) {passed : Nat} (known : List Text)
    (above : List BlockHead) : (node : Node) → (Node.sites above node).countP Site.isRule ≤ passed →
    Node.substituteUpTo rename (.selectors passed) known above node =
      Node.substitute rename known above node
  | .rule head body, h => by
    have hmark : Site.isRule (.rule above head) = true := rfl
    rw [Node.sites, List.countP_cons_of_pos hmark] at h
    obtain ⟨passed, rfl⟩ : ∃ less, passed = less + 1 := ⟨passed - 1, by omega⟩
    have hbody := Node.substituteAllUpTo_of_le rename known (.rule head :: above) body
      (Nat.le_of_succ_le_succ h)
    rw [Node.substituteUpTo, Node.substitute, ← hbody]
    rfl
  | .block head body, h => by
    have hbody := Node.substituteAllUpTo_of_le rename known (.block head :: above) body h
    rw [Node.substituteUpTo, Node.substitute, ← hbody]
    rfl
  | .statement _, _ => rfl
  | .declaration content, _ => by
    rw [Node.substituteUpTo, Node.substitute, Declaration.substituteUpTo]
    cases content.isComposes <;> rfl
  | .comment _ _, _ => rfl

/-- A substitution that comes to the end is not stopped. -/
theorem Node.substituteAllUpTo_of_le (rename : Text → Text) {passed : Nat} (known : List Text)
    (above : List BlockHead) : (nodes : List Node) →
    (Node.sitesAll above nodes).countP Site.isRule ≤ passed →
    Node.substituteAllUpTo rename (.selectors passed) known above nodes =
      Node.substituteAll rename known above nodes
  | [], _ => rfl
  | first :: rest, h => by
    rw [Node.sitesAll, List.countP_append] at h
    rw [Node.substituteAllUpTo, Node.substituteAll, Frontier.behind,
      Node.substituteUpTo_of_le rename known above first (by omega),
      Node.substituteAllUpTo_of_le rename _ above rest (by omega)]

end

end ScopedCss
