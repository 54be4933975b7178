import Mathlib.Data.List.TakeWhile
import ScopedCss.Process

/-!
# Files below a root

A generator should see the same path for a file wherever the root of the project is.  The path below
a root is found component by component, so a root may end with slashes or with `.`, and what is left
behind it is trimmed.

* `exists_named_append`: the components of a root with a path behind it are those of the root,
  followed by those of the path.
* `named_rest`: behind a component, the text has the components that follow it.  This is all that
  trimming looks at (`trimStart_congr`), so nothing of the root is left (`below?_append`).
-/

namespace ScopedCss

namespace SourcePath

/-! ## Segments -/

theorem forall_ne_slash {name : Text} (h : '/' ∉ name) : ∀ c ∈ name, (c != '/') = true := by
  intro c hc
  rw [bne_iff_ne]
  intro heq
  exact h (heq ▸ hc)

theorem segments_append {name : Text} (h : '/' ∉ name) (rest : Text) :
    segments (name ++ '/' :: rest) = ⟨name, name ++ '/' :: rest, rest⟩ :: segments rest := by
  have hname := forall_ne_slash h
  rw [segments.eq_def]
  split
  · next heq => simp at heq
  · next c tail heq =>
    rw [← heq, List.takeWhile_append_of_pos hname, List.dropWhile_append_of_pos hname]
    simp

theorem segments_of_not_mem {name : Text} (h : '/' ∉ name) (hne : name ≠ []) :
    segments name = [⟨name, name, []⟩] := by
  have hname := forall_ne_slash h
  rw [segments.eq_def]
  split
  · exact absurd rfl hne
  · next c tail =>
    rw [List.takeWhile_eq_self_iff.2 hname, List.dropWhile_eq_nil_iff.2 hname]
    simp [segments]

/-- The segments that count as components. -/
def named (text : Text) : List Segment :=
  (segments text).filter Segment.isComponent

theorem named_append {name : Text} (h : '/' ∉ name) (rest : Text) :
    named (name ++ '/' :: rest) =
      [⟨name, name ++ '/' :: rest, rest⟩].filter Segment.isComponent ++ named rest := by
  rw [named, segments_append h, ← List.singleton_append, List.filter_append, named]

theorem named_of_not_mem {name : Text} (h : '/' ∉ name) :
    named name = [⟨name, name, []⟩].filter Segment.isComponent := by
  by_cases hne : name = []
  · subst hne
    simp [named, segments, Segment.isComponent]
  · rw [named, segments_of_not_mem h hne]

/-- Whether a segment is a component depends on its name alone. -/
theorem map_name_filter (name start rest start' rest' : Text) :
    ([⟨name, start, rest⟩].filter Segment.isComponent).map Segment.name =
      ([⟨name, start', rest'⟩].filter Segment.isComponent).map Segment.name := by
  have hsame : Segment.isComponent ⟨name, start, rest⟩ = Segment.isComponent ⟨name, start', rest'⟩ :=
    rfl
  rw [List.filter_cons, List.filter_cons, hsame]
  cases Segment.isComponent ⟨name, start', rest'⟩ <;> rfl

/-- The components of a text behind another one and a slash. -/
theorem exists_named_append (front back : Text) :
    ∃ before, named (front ++ '/' :: back) = before ++ named back ∧
      before.map Segment.name = (named front).map Segment.name := by
  induction hlength : front.length using Nat.strongRecOn generalizing front with
  | ind size ih =>
    subst hlength
    by_cases hslash : '/' ∈ front
    · obtain ⟨name, more, rfl, hname⟩ := List.eq_append_cons_of_mem hslash
      have hlt : more.length < (name ++ '/' :: more).length := by
        rw [List.length_append, List.length_cons]
        omega
      obtain ⟨before, hbefore, hnames⟩ := ih _ hlt more rfl
      rw [List.append_assoc, List.cons_append, named_append hname, hbefore, ← List.append_assoc]
      refine ⟨_, rfl, ?_⟩
      rw [named_append hname, List.map_append, List.map_append, hnames, map_name_filter]
    · rw [named_append hslash, named_of_not_mem hslash]
      exact ⟨_, rfl, map_name_filter ..⟩

/-- Behind a component stand the components that follow it. -/
theorem named_rest {text : Text} {before after : List Segment} {segment : Segment}
    (h : named text = before ++ segment :: after) : named segment.rest = after := by
  unfold named at h
  induction text using segments.induct generalizing before with
  | case1 => simp [segments] at h
  | @case2 c tail rest ih =>
    rw [segments] at h
    rw [List.filter_cons] at h
    split at h
    · cases before with
      | nil =>
        obtain ⟨rfl, hafter⟩ := List.cons.inj h
        exact hafter
      | cons first before => exact ih (List.cons.inj h).2
    · exact ih h

theorem trimStart_congr {text other : Text} (h : named text = named other) :
    trimStart text = trimStart other := by
  unfold trimStart
  rw [← List.head?_filter, ← List.head?_filter, ← named, ← named, h]

/-! ## Roots -/

theorem anchor_append {root : Text} (h : root ≠ []) (back : Text) :
    anchor (root ++ '/' :: back) =
      ((anchor root).1, (anchor root).2.1, (anchor root).2.2 ++ '/' :: back) := by
  fun_cases anchor root with
  | case1 rest => rfl
  | case2 => rfl
  | case3 rest => rfl
  | case4 root hslash hdot hcurrent =>
    obtain ⟨c, tail, rfl⟩ := List.exists_cons_of_ne_nil h
    rw [List.cons_append, anchor]
    · intro rest heq
      obtain ⟨rfl, -⟩ := List.cons.inj heq
      exact hslash tail rfl
    · simp
    · intro rest heq
      obtain ⟨rfl, htail⟩ := List.cons.inj heq
      -- The slash behind the `.` is that of the root, or the one that was put there.
      cases tail with
      | nil => exact hdot rfl
      | cons d tail =>
        obtain ⟨rfl, -⟩ := List.cons.inj htail
        exact hcurrent tail rfl

theorem components_eq (path : Text) :
    components path = ((anchor path).1.toList.map fun first => (first, (anchor path).2.2)) ++
      (named (anchor path).2.2).map fun segment => (.segment segment.name, segment.rest) := rfl

/-- A path that begins with neither a slash nor a `.` component begins with a named one. -/
theorem named_ne_nil {path : Text} (hne : path ≠ []) (h : (anchor path).1 = none) :
    named path ≠ [] := by
  have hcomponent : ∀ {name : Text} (start rest : Text), name ≠ [] → name ≠ ['.'] →
      [⟨name, start, rest⟩].filter Segment.isComponent = [⟨name, start, rest⟩] := by
    intro name start rest hname hdot
    simp [Segment.isComponent, hname, hdot]
  by_cases hslash : '/' ∈ path
  · obtain ⟨name, rest, rfl, hname⟩ := List.eq_append_cons_of_mem hslash
    have hempty : name ≠ [] := by
      intro hnil
      simp [hnil, anchor] at h
    have hdot : name ≠ ['.'] := by
      intro heq
      simp [heq, anchor] at h
    rw [named_append hname, hcomponent _ _ hempty hdot]
    simp
  · have hdot : path ≠ ['.'] := by
      intro heq
      simp [heq, anchor] at h
    rw [named_of_not_mem hslash, hcomponent _ _ hne hdot]
    simp

/-- A root that is not empty has a component. -/
theorem components_ne_nil {root : Text} (h : root ≠ []) : components root ≠ [] := by
  rw [components_eq]
  fun_cases anchor root with
  | case1 rest => simp
  | case2 => simp
  | case3 rest => simp
  | case4 root hslash hdot hcurrent =>
    have hnamed : named root ≠ [] := named_ne_nil h (by rw [anchor] <;> assumption)
    simp [hnamed]

/-- The components of a path below a root are those of the root, followed by others.  Behind the
last one of the root stand the components of the path. -/
theorem exists_components_append {root : Text} (h : root ≠ []) (back : Text) :
    ∃ front later, components (root ++ '/' :: back) = front ++ later ∧
      front.map Prod.fst = (components root).map Prod.fst ∧
      ∀ component rest, front.getLast? = some (component, rest) → named rest = named back := by
  obtain ⟨before, hbefore, hnames⟩ := exists_named_append (anchor root).2.2 back
  rw [components_eq, components_eq, anchor_append h]
  simp only [hbefore, List.map_append, ← List.append_assoc]
  refine ⟨_, _, rfl, ?_, ?_⟩
  · have hsegments := congrArg (List.map Component.segment) hnames
    rw [List.map_map, List.map_map] at hsegments
    simp only [List.map_append, List.map_map, Function.comp_def] at hsegments ⊢
    rw [hsegments]
  · intro component rest hlast
    rcases List.eq_nil_or_concat before with rfl | ⟨others, segment, rfl⟩
    · -- The root has no named component, so its last one is the slash or the `.` it begins with.
      rw [List.map_nil, List.append_nil] at hlast
      obtain ⟨first, -, hpair⟩ := List.mem_map.1 (List.mem_of_getLast? hlast)
      rw [← (Prod.mk.inj hpair).2]
      exact hbefore
    · rw [List.concat_eq_append, List.map_append, ← List.append_assoc, List.map_singleton,
        List.getLast?_concat, Option.some.injEq] at hlast
      rw [← (Prod.mk.inj hlast).2]
      rw [List.concat_eq_append, List.append_assoc, List.singleton_append] at hbefore
      exact named_rest hbefore

/-- Below a root stands the path that was put there, trimmed at its two ends. -/
theorem below?_append {root : Text} (h : root ≠ []) (back : Text) :
    below? root (root ++ '/' :: back) = some (trimEnd (trimStart back)) := by
  obtain ⟨front, later, hgiven, hwanted, hlast⟩ := exists_components_append h back
  have hne : front ≠ [] := by
    intro hnil
    rw [hnil, List.map_nil] at hwanted
    exact components_ne_nil h (List.map_eq_nil_iff.1 hwanted.symm)
  have htake : (front ++ later).take ((components root).map Prod.fst).length = front := by
    rw [← hwanted, List.length_map, List.take_left]
  obtain ⟨⟨component, rest⟩, hrest⟩ := Option.ne_none_iff_exists'.1 (mt List.getLast?_eq_none_iff.1 hne)
  have hprefix : ((components root).map Prod.fst).isPrefixOf ((front ++ later).map Prod.fst) := by
    rw [List.isPrefixOf_iff_prefix, List.map_append, hwanted]
    exact List.prefix_append _ _
  unfold below?
  simp only [hgiven, if_pos hprefix, htake, hrest]
  rw [trimStart_congr (hlast component rest hrest)]

end SourcePath

/-! ## Runs -/

namespace Options

/-- A file below a root gets the path below it, with slashes for backslashes. -/
theorem generatorPath_append (generator : Generator) {root : Text} (h : root ≠ []) (back : Text) :
    generatorPath ⟨generator, some root⟩ (root ++ '/' :: back) =
      (SourcePath.trimEnd (SourcePath.trimStart back)).map
        fun c => if c = '\\' then '/' else c := by
  unfold generatorPath
  rw [Option.bind_some, SourcePath.below?_append h, Option.getD_some]

theorem backslash_not_mem_generatorPath (options : Options) (path : Text) :
    '\\' ∉ options.generatorPath path := by
  unfold generatorPath
  intro hmem
  obtain ⟨c, -, hc⟩ := List.mem_map.1 hmem
  by_cases hslash : c = '\\'
  · rw [if_pos hslash] at hc
    exact absurd hc (by decide)
  · rw [if_neg hslash] at hc
    exact hslash hc

end Options

namespace Scoping

/-- What a run does to a document depends on the names it makes, not on the path of the file. -/
theorem run_congr {options other : Options} {path moved : Option Text}
    (h : namerFor options path = namerFor other moved) (document : Document) :
    (run options path document).document = (run other moved document).document ∧
      (run options path document).failure = (run other moved document).failure := by
  unfold run
  rw [h]
  generalize scopeSheet (namerFor other moved) document.sheet .start = result
  obtain ⟨sheet, state, failure⟩ := result
  cases failure <;> exact ⟨rfl, rfl⟩

end Scoping

theorem process_congr {options other : Options} {path moved : Option Text}
    (h : Scoping.namerFor options path = Scoping.namerFor other moved) (source : Text) :
    (process source path options).1 = (process source moved other).1 := by
  unfold process
  cases Sheet.parse source with
  | error error => rfl
  | ok sheet =>
    obtain ⟨hdocument, hfailure⟩ := Scoping.run_congr h ⟨sheet, []⟩
    simp only [hdocument, hfailure]
    cases (Scoping.run other moved ⟨sheet, []⟩).failure <;> rfl

namespace Scoping

/-- Where the root is does not matter.  A file below it gets the same path for the generator, which
is what stands below the root without slashes and `.` at its ends and has no backslash.  So every
run over the file comes to the same end with the same style sheet and the same exports. -/
theorem run_relocated (generator : Generator) {root other : Text} (hroot : root ≠ [])
    (hother : other ≠ []) (back : Text) (document : Document) (source : Text) :
    let here : Options := ⟨generator, some root⟩
    let there : Options := ⟨generator, some other⟩
    let file := root ++ '/' :: back
    let moved := other ++ '/' :: back
    SourcePath.below? root file = some (SourcePath.trimEnd (SourcePath.trimStart back)) ∧
    here.generatorPath file = there.generatorPath moved ∧
    '\\' ∉ here.generatorPath file ∧
    (run here (some file) document).failure = (run there (some moved) document).failure ∧
    (run here (some file) document).document = (run there (some moved) document).document ∧
    (process source (some file) here).1 = (process source (some moved) there).1 := by
  intro here there file moved
  have hpath : here.generatorPath file = there.generatorPath moved := by
    rw [Options.generatorPath_append generator hroot, Options.generatorPath_append generator hother]
  have hnamer : namerFor here (some file) = namerFor there (some moved) := by
    unfold namerFor
    rw [Option.map_some, Option.map_some, hpath]
  have hrun := run_congr hnamer document
  exact ⟨SourcePath.below?_append hroot back, hpath,
    Options.backslash_not_mem_generatorPath here file, hrun.2, hrun.1, process_congr hnamer source⟩

theorem run_relocated_sample :
    let back := ['.', '/', 'x', '\\', 'y', '/']
    let here : Options := ⟨Strategy.short.generate, some ['/']⟩
    let there : Options := ⟨Strategy.short.generate, some ['.', '/', '\\', '/']⟩
    here.generatorPath (['/'] ++ '/' :: back) = ['x', '/', 'y'] ∧
    there.generatorPath (['.', '/', '\\', '/'] ++ '/' :: back) = ['x', '/', 'y'] ∧
    (process ['.', 'a', '{', '}'] (some (['/'] ++ '/' :: back)) here).1 =
      (process ['.', 'a', '{', '}'] (some (['.', '/', '\\', '/'] ++ '/' :: back)) there).1 := by
  intro back here there
  have hpath : here.generatorPath (['/'] ++ '/' :: back) = ['x', '/', 'y'] := by
    decide +kernel
  have hfacts := run_relocated Strategy.short.generate (List.cons_ne_nil '/' [])
    (List.cons_ne_nil '.' ['/', '\\', '/']) back .empty ['.', 'a', '{', '}']
  exact ⟨hpath, hfacts.2.1.symm.trans hpath, hfacts.2.2.2.2.2⟩

end Scoping

end ScopedCss
