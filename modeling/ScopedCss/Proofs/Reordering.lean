import Mathlib.Data.List.Perm.Basic
import ScopedCss.Proofs.Compositions

/-!
# The order of the top-level nodes

With a generator that ignores the index, the scoped name of a name depends on nothing else in the
style sheet.  What a run does at a node then depends on the other nodes in one way only: the words
of an `animation` shorthand are names if keyframes or a `composes` declaration somewhere in the
style sheet refers to them.  These names are known before the first animation is looked at, so their
order does not matter, and neither does the order of the top-level nodes.

`animation-name` declarations are left out: such a declaration makes its value a name for the
shorthands behind it, but not for those in front of it.
-/

namespace ScopedCss

/-! ## What a style sheet has in any order -/

/-- The kind of the animation property that is declared at the site. -/
def Site.animationProperty? : Site → Option Scoping.AnimationProperty
  | .declaration _ content => Scoping.animationProperty? content.property
  | _ => none

namespace Sheet

variable {sheet other : Sheet}

theorem sites_eq_flatMap (sheet : Sheet) : sheet.sites = sheet.flatMap (Node.sites []) := by
  unfold sites
  induction sheet with
  | nil => rfl
  | cons node nodes ih => rw [Node.sitesAll, ih, List.flatMap_cons]

/-- Reordered nodes have the same sites. -/
theorem perm_sites (h : sheet.Perm other) : sheet.sites.Perm other.sites := by
  rw [sites_eq_flatMap, sites_eq_flatMap]
  exact h.flatMap_right _

/-- The names that an `animation` shorthand can refer to when no `animation-name` declaration has
been read. -/
def knownNames (sheet : Sheet) : List Text :=
  sheet.keyframesNames ++ sheet.compositions.flatMap composesNames

theorem perm_compositions (h : sheet.Perm other) : sheet.compositions.Perm other.compositions :=
  (perm_sites h).filterMap _

theorem perm_knownNames (h : sheet.Perm other) : sheet.knownNames.Perm other.knownNames :=
  ((perm_sites h).filterMap _).append ((perm_compositions h).flatMap_right _)

theorem perm_references (h : sheet.Perm other) : sheet.references.Perm other.references := by
  have hanimations : sheet.animationNames.Perm other.animationNames := (perm_sites h).filterMap _
  have hselectors : sheet.selectors.Perm other.selectors := (perm_sites h).filterMap _
  exact ((perm_knownNames h).append hanimations).append (hselectors.flatMap_right _)

/-- Reordered nodes refer to the same names. -/
theorem perm_eraseDups_references (h : sheet.Perm other) :
    sheet.references.eraseDups.Perm other.references.eraseDups := by
  rw [List.perm_ext_iff_of_nodup (Registry.nodup_eraseDups _) (Registry.nodup_eraseDups _)]
  intro name
  rw [List.mem_eraseDups, List.mem_eraseDups, (perm_references h).mem_iff]

theorem perm_faults (h : sheet.Perm other) :
    (sheet.composesFaults ++ sheet.selectorFaults).Perm
      (other.composesFaults ++ other.selectorFaults) :=
  ((perm_sites h).filterMap _).append ((perm_sites h).filterMap _)

/-- The style sheet has no `animation-name` declaration, with or without the prefix of a vendor. -/
def NamesNoAnimation (sheet : Sheet) : Prop :=
  ∀ site ∈ sheet.sites, site.animationProperty? ≠ some .name

instance (sheet : Sheet) : Decidable sheet.NamesNoAnimation :=
  inferInstanceAs (Decidable (∀ site ∈ sheet.sites, site.animationProperty? ≠ some .name))

theorem NamesNoAnimation.animationNames (h : sheet.NamesNoAnimation) :
    sheet.animationNames = [] := by
  rw [Sheet.animationNames, List.filterMap_eq_nil_iff]
  intro site hsite
  cases site with
  | rule above head => rfl
  | atRule head => rfl
  | declaration above content =>
    have hproperty : Scoping.animationProperty? content.property ≠ some .name := h _ hsite
    show content.animationName? = none
    unfold Declaration.animationName?
    split
    · contradiction
    · rfl

theorem NamesNoAnimation.of_perm (h : sheet.NamesNoAnimation) (hperm : sheet.Perm other) :
    other.NamesNoAnimation := by
  intro site hsite
  exact h site ((perm_sites hperm).mem_iff.2 hsite)

end Sheet

/-! ## The substitution, one node at a time -/

/-- A substitution asks of the known names only which they are. -/
theorem Declaration.substitute_congr {known known' : List Text}
    (h : ∀ word, word ∈ known ↔ word ∈ known') (rename : Text → Text) (content : Declaration) :
    content.substitute rename known = content.substitute rename known' := by
  simp only [Declaration.substitute, h]

namespace Node

mutual

theorem substitute_congr {known known' : List Text} (h : ∀ word, word ∈ known ↔ word ∈ known')
    (rename : Text → Text) (above : List BlockHead) : (node : Node) →
    Node.substitute rename known above node = Node.substitute rename known' above node
  | .rule head body => by
    rw [Node.substitute, Node.substitute, substituteAll_congr h rename (.rule head :: above) body]
  | .block head body => by
    rw [Node.substitute, Node.substitute, substituteAll_congr h rename (.block head :: above) body]
  | .statement _ => rfl
  | .declaration content => by
    rw [Node.substitute, Node.substitute, content.substitute_congr h rename]
  | .comment _ _ => rfl

theorem substituteAll_congr {known known' : List Text} (h : ∀ word, word ∈ known ↔ word ∈ known')
    (rename : Text → Text) (above : List BlockHead) : (nodes : List Node) →
    Node.substituteAll rename known above nodes = Node.substituteAll rename known' above nodes
  | [] => rfl
  | first :: rest => by
    have hlater : ∀ word,
        word ∈ known ++ (Node.sites above first).filterMap Site.animationName? ↔
          word ∈ known' ++ (Node.sites above first).filterMap Site.animationName? := by
      intro word
      rw [List.mem_append, List.mem_append, h]
    rw [Node.substituteAll, Node.substituteAll, substitute_congr h rename above first,
      substituteAll_congr hlater rename above rest]

end

/-- Without `animation-name` declarations, the nodes of a list do not matter to each other. -/
theorem substituteAll_eq_flatMap (rename : Text → Text) (known : List Text)
    (above : List BlockHead) {nodes : List Node}
    (h : (Node.sitesAll above nodes).filterMap Site.animationName? = []) :
    Node.substituteAll rename known above nodes =
      nodes.flatMap (Node.substitute rename known above) := by
  induction nodes with
  | nil => rfl
  | cons first rest ih =>
    rw [Node.sitesAll, List.filterMap_append, List.append_eq_nil_iff] at h
    rw [Node.substituteAll, h.1, List.append_nil, ih h.2, List.flatMap_cons]

/-- What the substitution makes of a node of the top level that it does not take out. -/
def substituteTop (rename : Text → Text) (known : List Text) (node : Node) : Node :=
  (Node.substitute rename known [] node).headD node

theorem substitute_eq_substituteTop (rename : Text → Text) (known : List Text) {node : Node}
    (h : ∀ content, node = .declaration content → content.isComposes = false) :
    Node.substitute rename known [] node = [node.substituteTop rename known] := by
  cases node with
  | declaration content =>
    rw [substituteTop, Node.substitute, if_neg (by simp [h content rfl])]
    rfl
  | rule head body => rfl
  | block head body => rfl
  | statement head => rfl
  | comment content position => rfl

end Node

namespace Sheet

variable {sheet other : Sheet}

/-- No `composes` declaration of the top level is without a fault. -/
theorem isComposes_eq_false_of_mem (h : sheet.composesFaults = []) {content : Declaration}
    (hmem : Node.declaration content ∈ sheet) : content.isComposes = false := by
  have hsite : Site.declaration [] content ∈ sheet.sites := by
    rw [sites_eq_flatMap]
    exact List.mem_flatMap_of_mem hmem (List.mem_singleton_self _)
  have hfault := List.filterMap_eq_nil_iff.1 h _ hsite
  by_contra hcomposes
  rw [Bool.not_eq_false] at hcomposes
  rw [Site.composesFault?, if_pos hcomposes] at hfault
  exact absurd hfault (by simp [Scoping.composesFault?])

/-- In a style sheet without faults and `animation-name` declarations, every node of the top level
is substituted by itself. -/
theorem substitute_eq_map (rename : Text → Text) (hfaults : sheet.composesFaults = [])
    (hanimations : sheet.animationNames = []) :
    sheet.substitute rename = sheet.map (Node.substituteTop rename sheet.knownNames) := by
  rw [Sheet.substitute, Node.substituteAll_eq_flatMap rename _ [] hanimations, ← knownNames,
    List.map_eq_flatMap]
  refine List.flatMap_congr fun node hnode => ?_
  refine Node.substitute_eq_substituteTop rename sheet.knownNames ?_
  rintro content rfl
  exact isComposes_eq_false_of_mem hfaults hnode

end Sheet

/-! ## Runs with a generator that ignores the index -/

/-- The generator makes the same name for a name of a file whatever the index is. -/
def Options.IgnoresIndex (options : Options) : Prop :=
  ∀ name path index index',
    options.generator name path index = options.generator name path index'

theorem ignoresIndex_long (root : Option Text) :
    Options.IgnoresIndex ⟨Strategy.long.generate, root⟩ :=
  fun _ _ _ _ => rfl

namespace Scoping

open Registry (Use Agrees ofUses)

variable {options : Options} {path : Option Text} {document other : Document}

/-- The scoped names of a generator that ignores the index. -/
def fixedName (options : Options) (path : Option Text) (name : Text) : Text :=
  namerFor options path name 0

theorem scopedName_eq_fixedName (h : options.IgnoresIndex) (uses : List Use) (name : Text) :
    Registry.scopedName (namerFor options path) uses name = fixedName options path name :=
  h name _ _ 0

theorem agrees_fixedName (h : options.IgnoresIndex) (uses : List Use) :
    Agrees (namerFor options path) (fixedName options path) uses :=
  fun name _ => (scopedName_eq_fixedName h uses name).symm

/-- The names and scoped names of a registry, when the index is ignored. -/
theorem map_fixedName_ofUses (h : options.IgnoresIndex) (uses : List Use) :
    ((ofUses (namerFor options path) uses).entries.map fun pair => (pair.1, pair.2.localName)) =
      (Registry.namesOf uses).map fun name => (name, fixedName options path name) := by
  rw [ofUses, List.map_map]
  refine List.map_congr_left fun name _ => ?_
  exact congrArg (Prod.mk name) (scopedName_eq_fixedName h uses name)

theorem failure_eq_none_iff_of_perm (options : Options) (path : Option Text)
    (hperm : document.sheet.Perm other.sheet) :
    (run options path other).failure = none ↔ (run options path document).failure = none := by
  rw [failure_run, failure_run, List.head?_eq_none_iff, List.head?_eq_none_iff]
  have hfaults := Sheet.perm_faults hperm
  constructor
  · intro hnil
    rw [hnil] at hfaults
    exact hfaults.eq_nil
  · intro hnil
    rw [hnil] at hfaults
    exact hfaults.symm.eq_nil

/-- With a generator that ignores the index, a run that succeeds substitutes in every node by
itself, and its record is determined by the names and the compositions of the style sheet. -/
theorem exists_place (hindex : options.IgnoresIndex) (hnames : document.sheet.NamesNoAnimation)
    (h : (run options path document).failure = none) :
    ∃ exports : ExportRecord,
      (run options path document).document.sheet = document.sheet.map
        (Node.substituteTop (fixedName options path) document.sheet.knownNames) ∧
      (run options path document).document.exports = document.exports ++ [exports] ∧
      (exports.locals.map fun pair => (pair.1, pair.2.localName)) =
        (document.sheet.references.eraseDups.map fun name =>
          (name, fixedName options path name)) ∧
      ∀ name, exports.composes name = document.sheet.compositions.flatMap fun pair =>
        List.replicate (branchCount name pair.1)
          (pair.2.composition (fixedName options path)) := by
  have hfaults : document.sheet.composesFaults = [] := by
    rw [failure_run, List.head?_eq_none_iff, List.append_eq_nil_iff] at h
    exact h.1
  have hdocument := document_run h (agrees_fixedName hindex _)
  refine ⟨_, ?_, congrArg Document.exports hdocument, ?_, fun name => ?_⟩
  · rw [congrArg Document.sheet hdocument]
    exact Sheet.substitute_eq_map _ hfaults hnames.animationNames
  · dsimp only
    rw [map_fixedName_ofUses hindex, Registry.namesOf, map_name_sheetUses]
  · exact composes_of_locals_eq rfl name

/-- The order of rules does not matter to names without an index.  With a generator that ignores the
index, and without `animation-name` declarations, a run succeeds on a style sheet whatever the order
of its top-level nodes is.  The node that it leaves for each of them is the same, and so are the
names of its record, their scoped names and, but for the order, their compositions. -/
theorem run_reordered (hindex : options.IgnoresIndex)
    (hnames : document.sheet.NamesNoAnimation) (hperm : document.sheet.Perm other.sheet) :
    ((run options path other).failure = none ↔ (run options path document).failure = none) ∧
      ((run options path document).failure = none →
        ∃ (place : Node → Node) (exports exports' : ExportRecord),
          (run options path document).document.sheet = document.sheet.map place ∧
          (run options path other).document.sheet = other.sheet.map place ∧
          (run options path document).document.exports = document.exports ++ [exports] ∧
          (run options path other).document.exports = other.exports ++ [exports'] ∧
          (exports.locals.map fun pair => (pair.1, pair.2.localName)).Perm
            (exports'.locals.map fun pair => (pair.1, pair.2.localName)) ∧
          ∀ name, (exports.composes name).Perm (exports'.composes name)) := by
  have hiff := failure_eq_none_iff_of_perm options path hperm
  refine ⟨hiff, fun h => ?_⟩
  obtain ⟨exports, hsheet, hexports, hlocals, hcomposes⟩ := exists_place hindex hnames h
  obtain ⟨exports', hsheet', hexports', hlocals', hcomposes'⟩ :=
    exists_place hindex (hnames.of_perm hperm) (hiff.2 h)
  -- The known names of the two style sheets are the same, though not in the same order.
  have hplace : Node.substituteTop (fixedName options path) other.sheet.knownNames =
      Node.substituteTop (fixedName options path) document.sheet.knownNames := by
    funext node
    have hknown : ∀ word, word ∈ other.sheet.knownNames ↔ word ∈ document.sheet.knownNames :=
      fun _ => (Sheet.perm_knownNames hperm).symm.mem_iff
    rw [Node.substituteTop, Node.substituteTop, Node.substitute_congr hknown]
  refine ⟨_, exports, exports', hsheet, hplace ▸ hsheet', hexports, hexports', ?_, fun name => ?_⟩
  · rw [hlocals, hlocals']
    exact (Sheet.perm_eraseDups_references hperm).map _
  · rw [hcomposes, hcomposes']
    exact (Sheet.perm_compositions hperm).flatMap_right _

/-- A style sheet in which a shorthand stands in front of the keyframes that it names, and in which
two rules compose for one class:

    .a { composes: b; animation: spin 1s ease }
    .c, .a { composes: d from global }
    @keyframes spin {}
-/
def orderSample : Sheet :=
  [.rule ⟨".a".toList, none⟩
      [.declaration ⟨"composes".toList, "b".toList, false, none⟩,
        .declaration ⟨"animation".toList, "spin 1s ease".toList, false, none⟩],
    .rule ⟨".c, .a".toList, none⟩
      [.declaration ⟨"composes".toList, "d from global".toList, false, none⟩],
    .block ⟨"keyframes".toList, "spin".toList, none⟩ []]

theorem run_reordered_sample :
    orderSample.NamesNoAnimation ∧
      (run ⟨Strategy.long.generate, none⟩ none ⟨orderSample, []⟩).failure = none ∧
      (run ⟨Strategy.long.generate, none⟩ none ⟨orderSample.reverse, []⟩).failure = none ∧
      ∃ (place : Node → Node) (exports exports' : ExportRecord),
        (run ⟨Strategy.long.generate, none⟩ none ⟨orderSample, []⟩).document.sheet =
          orderSample.map place ∧
        (run ⟨Strategy.long.generate, none⟩ none ⟨orderSample.reverse, []⟩).document.sheet =
          orderSample.reverse.map place ∧
        (run ⟨Strategy.long.generate, none⟩ none ⟨orderSample, []⟩).document.exports =
          [exports] ∧
        (run ⟨Strategy.long.generate, none⟩ none ⟨orderSample.reverse, []⟩).document.exports =
          [exports'] ∧
        (exports.locals.map fun pair => (pair.1, pair.2.localName)).Perm
          (exports'.locals.map fun pair => (pair.1, pair.2.localName)) ∧
        ∀ name, (exports.composes name).Perm (exports'.composes name) := by
  have hnames : orderSample.NamesNoAnimation := by decide +kernel
  have h : (run ⟨Strategy.long.generate, none⟩ none ⟨orderSample, []⟩).failure = none := by
    rw [failure_run]
    decide +kernel
  obtain ⟨hiff, hsame⟩ := @run_reordered _ none ⟨orderSample, []⟩ ⟨orderSample.reverse, []⟩
    (ignoresIndex_long none) hnames (List.reverse_perm orderSample).symm
  exact ⟨hnames, h, hiff.2 h, hsame h⟩

end Scoping

end ScopedCss
