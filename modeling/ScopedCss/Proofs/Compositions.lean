import ScopedCss.Proofs.Exports

/-!
# What becomes of `composes` declarations

A successful run moves every `composes` declaration from the style sheet to the export record.
`Kept` compares a style sheet before and after it: the nodes are the same and stand in the same
order, less the `composes` declarations.  `composes_of_locals_eq` gives the compositions that the
record has for a name.
-/

namespace ScopedCss

open Registry (Use ofUses filterMap_addedTo?_map_refer)

/-! ## The nodes that stay -/

/-- The second nodes are the first without `composes` declarations, in the same order and with the
same nesting.  Only selectors, the params of keyframes and the values of animation properties may
have changed. -/
inductive Kept : List Node → List Node → Prop where
  | nil : Kept [] []
  | rule {head : Rule} (selector : Text) {body inside rest after : List Node} :
    Kept body inside → Kept rest after →
    Kept (.rule head body :: rest) (.rule { head with selector := selector } inside :: after)
  | block {head : AtRule} (params : Text) {body inside rest after : List Node} :
    (head.isKeyframes = false → params = head.params) →
    Kept body inside → Kept rest after →
    Kept (.block head body :: rest) (.block { head with params := params } inside :: after)
  | statement {head : AtRule} (params : Text) {rest after : List Node} :
    (head.isKeyframes = false → params = head.params) → Kept rest after →
    Kept (.statement head :: rest) (.statement { head with params := params } :: after)
  | declaration {content : Declaration} (value : Text) {rest after : List Node} :
    content.isComposes = false →
    (Scoping.animationProperty? content.property = none → value = content.value) →
    Kept rest after →
    Kept (.declaration content :: rest) (.declaration { content with value := value } :: after)
  | composes {content : Declaration} {rest after : List Node} :
    content.isComposes = true → Kept rest after → Kept (.declaration content :: rest) after
  | comment {content : Text} {position : Option Position} {rest after : List Node} :
    Kept rest after → Kept (.comment content position :: rest) (.comment content position :: after)

namespace Kept

theorem exists_params (rename : Text → Text) (head : AtRule) :
    ∃ params, head.substitute rename = { head with params := params } ∧
      (head.isKeyframes = false → params = head.params) := by
  unfold AtRule.substitute
  cases hname : head.keyframesName? with
  | none => exact ⟨head.params, rfl, fun _ => rfl⟩
  | some name =>
    refine ⟨rename name, rfl, fun hkeyframes => ?_⟩
    rw [AtRule.keyframesName?, hkeyframes] at hname
    exact absurd hname (by simp)

theorem exists_value (rename : Text → Text) (known : List Text) (content : Declaration) :
    ∃ value, content.substitute rename known = { content with value := value } ∧
      (Scoping.animationProperty? content.property = none → value = content.value) := by
  unfold Declaration.substitute
  cases hproperty : Scoping.animationProperty? content.property with
  | none => exact ⟨content.value, rfl, fun _ => rfl⟩
  | some property =>
    cases property with
    | shorthand => exact ⟨_, rfl, fun hnone => absurd hnone (by simp)⟩
    | name =>
      dsimp only
      split
      · exact ⟨content.value, rfl, fun _ => rfl⟩
      · exact ⟨_, rfl, fun hnone => absurd hnone (by simp)⟩

theorem exists_selector (rename : Text → Text) (above : List BlockHead) (head : Rule) :
    ∃ selector, head.substitute rename above = { head with selector := selector } := by
  unfold Rule.substitute
  split
  · exact ⟨_, rfl⟩
  · exact ⟨head.selector, rfl⟩

mutual

theorem cons_substitute (rename : Text → Text) (known : List Text) (above : List BlockHead)
    {rest after : List Node} (hrest : Kept rest after) :
    (node : Node) → Kept (node :: rest) (Node.substitute rename known above node ++ after)
  | .rule head body => by
    obtain ⟨selector, hhead⟩ := exists_selector rename above head
    rw [Node.substitute, hhead]
    exact .rule selector (substituteAll rename known (.rule head :: above) body) hrest
  | .block head body => by
    obtain ⟨params, hhead, hparams⟩ := exists_params rename head
    rw [Node.substitute, hhead]
    exact .block params hparams (substituteAll rename known (.block head :: above) body) hrest
  | .statement head => by
    obtain ⟨params, hhead, hparams⟩ := exists_params rename head
    rw [Node.substitute, hhead]
    exact .statement params hparams hrest
  | .declaration content => by
    obtain ⟨value, hcontent, hvalue⟩ := exists_value rename known content
    rw [Node.substitute, hcontent]
    cases hcomposes : content.isComposes with
    | true => exact .composes hcomposes hrest
    | false => exact .declaration value hcomposes hvalue hrest
  | .comment _ _ => .comment hrest

/-- A substitution keeps the nodes. -/
theorem substituteAll (rename : Text → Text) (known : List Text) (above : List BlockHead) :
    (nodes : List Node) → Kept nodes (Node.substituteAll rename known above nodes)
  | [] => .nil
  | first :: rest => cons_substitute rename known above (substituteAll rename _ above rest) first

end

/-- No `composes` declaration is kept. -/
theorem isComposes_eq_false {nodes later : List Node} (h : Kept nodes later)
    {above around : List BlockHead} {content : Declaration}
    (hsite : Site.declaration around content ∈ Node.sitesAll above later) :
    content.isComposes = false := by
  induction h generalizing above with
  | nil => simp [Node.sitesAll] at hsite
  | rule selector _ _ ihbody ihrest =>
    simp only [Node.sitesAll, Node.sites, List.mem_append, List.mem_cons, reduceCtorEq,
      false_or] at hsite
    exact hsite.elim ihbody ihrest
  | block params _ _ _ ihbody ihrest =>
    simp only [Node.sitesAll, Node.sites, List.mem_append, List.mem_cons, reduceCtorEq,
      false_or] at hsite
    exact hsite.elim ihbody ihrest
  | statement params _ _ ihrest =>
    simp only [Node.sitesAll, Node.sites, List.mem_append, List.mem_cons, reduceCtorEq,
      List.not_mem_nil, false_or] at hsite
    exact ihrest hsite
  | declaration value hcomposes _ _ ihrest =>
    simp only [Node.sitesAll, Node.sites, List.mem_append, List.mem_singleton,
      Site.declaration.injEq] at hsite
    rcases hsite with ⟨-, rfl⟩ | hsite
    · exact hcomposes
    · exact ihrest hsite
  | composes _ _ ihrest => exact ihrest hsite
  | comment _ ihrest =>
    simp only [Node.sitesAll, Node.sites, List.nil_append] at hsite
    exact ihrest hsite

end Kept

namespace Scoping

variable {options : Options} {path : Option Text} {document : Document}

/-! ## The compositions of a name -/

/-- How many branches of the selector of a rule are the class or id with the given name. -/
def branchCount (name : Text) (head : Rule) : Nat :=
  head.branches.countP fun branch => singleName? branch == some name

/-- A `composes` declaration adds its composition once for every branch with the name. -/
theorem filterMap_addedTo?_composesUses (rename : Text → Text) (pair : Rule × Reference)
    (name : Text) :
    (composesUses rename pair).filterMap (Use.addedTo? name) =
      List.replicate (branchCount name pair.1) (pair.2.composition rename) := by
  rw [composesUses, List.filterMap_append, filterMap_addedTo?_map_refer, List.nil_append,
    Rule.targetNames, branchCount]
  induction pair.1.branches with
  | nil => rfl
  | cons branch branches ih =>
    cases hbranch : singleName? branch with
    | none => rw [List.filterMap_cons_none hbranch, ih, List.countP_cons_of_neg (by simp [hbranch])]
    | some other =>
      rw [List.filterMap_cons_some hbranch, List.map_cons]
      by_cases hname : other = name
      · have hadded : (Use.add other (pair.2.composition rename)).addedTo? name =
            some (pair.2.composition rename) := if_pos hname
        rw [List.filterMap_cons_some hadded, ih,
          List.countP_cons_of_pos (by simp [hbranch, hname]), List.replicate_succ]
      · have hadded : (Use.add other (pair.2.composition rename)).addedTo? name = none :=
          if_neg hname
        rw [List.filterMap_cons_none hadded, ih,
          List.countP_cons_of_neg (by simp [hbranch, hname])]

theorem filterMap_addedTo?_sheetUses (rename : Text → Text) (sheet : Sheet) (name : Text) :
    (sheetUses rename sheet).filterMap (Use.addedTo? name) =
      sheet.compositions.flatMap fun pair =>
        List.replicate (branchCount name pair.1) (pair.2.composition rename) := by
  have hselectors : (sheet.selectors.flatMap fun tree => tree.localNames.map Use.refer).filterMap
      (Use.addedTo? name) = [] := by
    rw [List.filterMap_flatMap]
    exact List.flatMap_eq_nil_iff.2 fun tree _ => filterMap_addedTo?_map_refer tree.localNames name
  simp only [sheetUses, List.filterMap_append, filterMap_addedTo?_map_refer, hselectors,
    List.nil_append, List.append_nil, List.filterMap_flatMap, filterMap_addedTo?_composesUses]

/-- The compositions that the record of a run has for a name. -/
theorem composes_of_locals_eq {exports : ExportRecord} {namer : Namer} {rename : Text → Text}
    {sheet : Sheet} (h : exports.locals = (ofUses namer (sheetUses rename sheet)).entries)
    (name : Text) :
    exports.composes name = sheet.compositions.flatMap fun pair =>
      List.replicate (branchCount name pair.1) (pair.2.composition rename) := by
  rw [← filterMap_addedTo?_sheetUses, ExportRecord.composes, lookup_of_locals_eq h]
  by_cases hname : name ∈ sheet.references
  · rw [if_pos hname]
    rfl
  · rw [if_neg hname]
    rw [← map_name_sheetUses rename] at hname
    rw [Registry.filterMap_addedTo?_of_not_mem hname]

/-- In a style sheet without faults, every `composes` declaration has a rule and a reference. -/
theorem isSome_composes? {sheet : Sheet} (h : sheet.composesFaults = []) {above : List BlockHead}
    {content : Declaration} (hsite : Site.declaration above content ∈ sheet.sites)
    (hcomposes : content.isComposes = true) :
    (Site.declaration above content).composes?.isSome := by
  have hfault := List.filterMap_eq_nil_iff.1 h _ hsite
  rw [Site.composesFault?, hcomposes] at hfault
  obtain ⟨head, reference, rfl, hreference⟩ := exists_of_composesFault?_eq_none hfault
  simp [Site.composes?, hcomposes, hreference]

/-- A composed name of the same style sheet is one that the style sheet refers to. -/
theorem mem_references_of_composition {sheet : Sheet} {pair : Rule × Reference}
    (hpair : pair ∈ sheet.compositions) {rename : Text → Text} {name localName : Text}
    (h : pair.2.composition rename = .own name localName) :
    name ∈ sheet.references ∧ localName = rename name := by
  unfold Reference.composition at h
  cases horigin : pair.2.origin with
  | global => simp [horigin] at h
  | dependency specifier => simp [horigin] at h
  | own =>
    rw [horigin] at h
    injection h with hname hlocal
    have hown : pair.2.ownName? = some name := by
      rw [Reference.ownName?, horigin, ← hname]
    have hmem : name ∈ composesNames pair := by
      simp [composesNames, hown]
    refine ⟨?_, by rw [← hlocal, hname]⟩
    have hflat := List.mem_flatMap_of_mem hpair hmem
    simp only [Sheet.references, List.mem_append]
    exact .inl (.inl (.inr hflat))

/-- No composition is lost, repeated or left dangling.  A name that a successful run exports has the
compositions of the `composes` declarations in document order, each once for every branch of its
rule that is the name; each `composes` declaration contributes one, and none is left in the style
sheet, whose other nodes keep their order; and a composed name of the same style sheet is exported
with the scoped name that the composition has. -/
theorem compositions_exported (h : (run options path document).failure = none) :
    ∃ exports : ExportRecord,
      (run options path document).document.exports = document.exports ++ [exports] ∧
      (∀ name, exports.composes name = document.sheet.compositions.flatMap fun pair =>
        List.replicate (branchCount name pair.1) (pair.2.composition exports.rename)) ∧
      (∀ above content, Site.declaration above content ∈ document.sheet.sites →
        content.isComposes = true → (Site.declaration above content).composes?.isSome) ∧
      (∀ above content,
        Site.declaration above content ∈ (run options path document).document.sheet.sites →
          content.isComposes = false) ∧
      Kept document.sheet (run options path document).document.sheet ∧
      ∀ target name localName, Composition.own name localName ∈ exports.composes target →
        exports.localName? name = some localName := by
  obtain ⟨exports, hdocument, hlocals⟩ := exists_exports h
  have hcomposes := composes_of_locals_eq hlocals
  have hkept : Kept document.sheet (run options path document).document.sheet := by
    rw [hdocument]
    exact Kept.substituteAll exports.rename _ [] document.sheet
  refine ⟨exports, by rw [hdocument], hcomposes, ?_, fun _ _ => hkept.isComposes_eq_false,
    hkept, ?_⟩
  · intro above content
    have hfaults := failure_run options path document
    rw [h, eq_comm, List.head?_eq_none_iff] at hfaults
    exact isSome_composes? (List.append_eq_nil_iff.1 hfaults).1
  · intro target name localName hmem
    rw [hcomposes] at hmem
    obtain ⟨pair, hpair, hreplicate⟩ := List.mem_flatMap.1 hmem
    obtain ⟨hname, rfl⟩ :=
      mem_references_of_composition hpair (List.eq_of_mem_replicate hreplicate).symm
    rw [ExportRecord.rename, localName?_of_locals_eq hlocals, if_pos hname, Option.getD_some]

theorem compositions_exported_sample :
    (run sampleOptions none ⟨sampleSheet, []⟩).failure = none ∧
      ∃ exports : ExportRecord,
        (run sampleOptions none ⟨sampleSheet, []⟩).document.exports = [exports] ∧
        (∀ name, exports.composes name = sampleSheet.compositions.flatMap fun pair =>
          List.replicate (branchCount name pair.1) (pair.2.composition exports.rename)) ∧
        (∀ above content, Site.declaration above content ∈ sampleSheet.sites →
          content.isComposes = true → (Site.declaration above content).composes?.isSome) ∧
        (∀ above content, Site.declaration above content ∈
          (run sampleOptions none ⟨sampleSheet, []⟩).document.sheet.sites →
            content.isComposes = false) ∧
        Kept sampleSheet (run sampleOptions none ⟨sampleSheet, []⟩).document.sheet ∧
        ∀ target name localName, Composition.own name localName ∈ exports.composes target →
          exports.localName? name = some localName :=
  ⟨by decide +kernel, compositions_exported (by decide +kernel)⟩

end Scoping

end ScopedCss
