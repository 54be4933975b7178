import Mathlib.Data.List.Nodup
import ScopedCss.Registry

/-!
# A registry and the uses that led to it

A registry grows while a style sheet is scoped.  A use of it is a reference to a name or a
composition that is added to one.  `Registry.ofUses` gives the registry after a list of uses without
taking them one after the other: its names are those of the uses without repetitions, the index of a
name is its place among them, and its compositions are those that were added to it.

Two facts carry the rest of the development.

* `register_ofUses` and `compose_ofUses`: a further use of such a registry appends to the list of
  uses, so a whole run only has to say which uses it makes, and in which order.
* `Agrees.of_append`: a scoped name never changes, so the names that an early step has written
  agree with the names of the final registry.
-/

namespace ScopedCss

namespace Registry

/-- A use of a registry. -/
inductive Use where
  /-- A reference to a name. -/
  | refer (name : Text)
  /-- A composition that is added to a name. -/
  | add (name : Text) (composition : Composition)
deriving Repr, DecidableEq

namespace Use

/-- The name that is used. -/
def name : Use → Text
  | .refer name => name
  | .add name _ => name

/-- The composition that the use adds to `target`. -/
def addedTo? (target : Text) : Use → Option Composition
  | .refer _ => none
  | .add name composition => if name = target then some composition else none

@[simp] theorem name_refer (text : Text) : (refer text).name = text := rfl

@[simp] theorem name_add (text : Text) (composition : Composition) :
    (add text composition).name = text := rfl

end Use

/-- The names of the uses, each at its first occurrence. -/
def namesOf (uses : List Use) : List Text :=
  (uses.map Use.name).eraseDups

/-- The scoped name that a name has after the uses. -/
def scopedName (namer : Namer) (uses : List Use) (name : Text) : Text :=
  namer name ((namesOf uses).idxOf name)

/-- The entry that a name has after the uses. -/
def entryOf (namer : Namer) (uses : List Use) (name : Text) : Entry :=
  ⟨scopedName namer uses name, uses.filterMap (Use.addedTo? name)⟩

/-- The registry after the uses. -/
def ofUses (namer : Namer) (uses : List Use) : Registry :=
  ⟨(namesOf uses).map fun name => (name, entryOf namer uses name)⟩

/-! ## The names of the uses -/

theorem nodup_eraseDups (names : List Text) : names.eraseDups.Nodup := by
  -- The recursion of `eraseDups` is on a filtered tail, so the induction is on the length.
  induction hlength : names.length using Nat.strongRecOn generalizing names with
  | ind size ih =>
    cases names with
    | nil => simp
    | cons name rest =>
      rw [List.eraseDups_cons, List.nodup_cons]
      refine ⟨by simp, ?_⟩
      have hle := List.length_filter_le (fun other => !other == name) rest
      rw [List.length_cons] at hlength
      exact ih _ (by omega) _ rfl

/-- The place of a name without repetitions is its index. -/
theorem map_idxOf_eq_mapIdx {α : Type} {names : List Text} (h : names.Nodup)
    (f : Text → Nat → α) :
    (names.map fun name => f name (names.idxOf name)) =
      names.mapIdx fun index name => f name index := by
  apply List.ext_getElem
  · rw [List.length_map, List.length_mapIdx]
  · intro index hindex _
    rw [List.length_map] at hindex
    rw [List.getElem_map, List.getElem_mapIdx, h.idxOf_getElem index hindex]

theorem mem_namesOf {uses : List Use} {name : Text} :
    name ∈ namesOf uses ↔ name ∈ uses.map Use.name := by
  simp [namesOf]

theorem namesOf_append_singleton (uses : List Use) (use : Use) :
    namesOf (uses ++ [use]) =
      if use.name ∈ namesOf uses then namesOf uses else namesOf uses ++ [use.name] := by
  by_cases h : use.name ∈ uses.map Use.name
  · rw [if_pos (mem_namesOf.2 h)]
    simp only [namesOf, List.map_append, List.map_cons, List.map_nil, List.eraseDups_append,
      List.cons_removeAll]
    simp [h]
  · rw [if_neg fun hmem => h (mem_namesOf.1 hmem)]
    simp only [namesOf, List.map_append, List.map_cons, List.map_nil, List.eraseDups_append,
      List.cons_removeAll]
    simp [h, List.eraseDups_cons]

/-- Further uses leave the place of a name as it is. -/
theorem idxOf_namesOf_append {uses : List Use} {name : Text} (more : List Use)
    (h : name ∈ uses.map Use.name) :
    (namesOf (uses ++ more)).idxOf name = (namesOf uses).idxOf name := by
  rw [namesOf, List.map_append, List.eraseDups_append, List.idxOf_append, if_pos (by simpa using h),
    namesOf]

/-- A scoped name never changes. -/
theorem scopedName_append (namer : Namer) {uses : List Use} {name : Text} (more : List Use)
    (h : name ∈ uses.map Use.name) :
    scopedName namer (uses ++ more) name = scopedName namer uses name := by
  rw [scopedName, scopedName, idxOf_namesOf_append more h]

/-- `rename` gives the names of the uses the scoped names that they have after these. -/
def Agrees (namer : Namer) (rename : Text → Text) (uses : List Use) : Prop :=
  ∀ name ∈ uses.map Use.name, rename name = scopedName namer uses name

/-- What agrees with a registry agrees with it at every earlier time. -/
theorem Agrees.of_append {namer : Namer} {rename : Text → Text} {uses more : List Use}
    (h : Agrees namer rename (uses ++ more)) : Agrees namer rename uses := by
  intro name hname
  rw [← scopedName_append namer more hname]
  exact h name (by rw [List.map_append]; exact List.mem_append_left _ hname)

/-! ## Looking up names -/

@[simp] theorem names_ofUses (namer : Namer) (uses : List Use) :
    (ofUses namer uses).names = namesOf uses := by
  simp [ofUses, names, Function.comp_def]

theorem find?_ofUses (namer : Namer) (uses : List Use) (name : Text) :
    (ofUses namer uses).find? name =
      if name ∈ uses.map Use.name then some (entryOf namer uses name) else none := by
  unfold find? ofUses
  by_cases h : name ∈ uses.map Use.name
  · rw [if_pos h]
    exact List.lookup_graph _ (mem_namesOf.2 h)
  · rw [if_neg h, List.lookup_eq_none_iff]
    intro pair hpair
    obtain ⟨other, hother, rfl⟩ := List.mem_map.1 hpair
    rw [bne_iff_ne]
    rintro rfl
    exact h (mem_namesOf.1 hother)

theorem contains_ofUses (namer : Namer) (uses : List Use) (name : Text) :
    (ofUses namer uses).contains name = true ↔ name ∈ uses.map Use.name := by
  rw [contains_iff_mem_names, names_ofUses, mem_namesOf]

/-! ## A further use -/

theorem filterMap_addedTo?_refer (uses : List Use) (name target : Text) :
    (uses ++ [Use.refer name]).filterMap (Use.addedTo? target) =
      uses.filterMap (Use.addedTo? target) := by
  simp [Use.addedTo?]

theorem filterMap_addedTo?_map_refer (names : List Text) (target : Text) :
    (names.map Use.refer).filterMap (Use.addedTo? target) = [] := by
  rw [List.filterMap_map]
  exact List.filterMap_eq_nil_iff.2 fun _ _ => rfl

theorem filterMap_addedTo?_of_not_mem {uses : List Use} {target : Text}
    (h : target ∉ uses.map Use.name) : uses.filterMap (Use.addedTo? target) = [] := by
  rw [List.filterMap_eq_nil_iff]
  intro use huse
  cases use with
  | refer name => rfl
  | add name composition =>
    refine if_neg ?_
    rintro rfl
    exact h (List.mem_map.2 ⟨_, huse, rfl⟩)

theorem newEntry_ofUses (namer : Namer) {uses : List Use} {name : Text}
    (h : name ∉ uses.map Use.name) :
    (ofUses namer uses).newEntry namer name = entryOf namer (uses ++ [.refer name]) name := by
  have hnames : name ∉ namesOf uses := fun hmem => h (mem_namesOf.1 hmem)
  have hindex : (namesOf (uses ++ [.refer name])).idxOf name = (namesOf uses).length := by
    rw [namesOf_append_singleton, Use.name_refer, if_neg hnames, List.idxOf_append, if_neg hnames]
    simp
  rw [newEntry, entryOf, scopedName, hindex, filterMap_addedTo?_refer,
    filterMap_addedTo?_of_not_mem h]
  simp [size, ofUses]

/-- A reference to a name is one more use. -/
theorem register_ofUses (namer : Namer) (uses : List Use) (name : Text) :
    (ofUses namer uses).register namer name = ofUses namer (uses ++ [.refer name]) := by
  have hentry : ∀ other ∈ namesOf uses,
      (other, entryOf namer uses other) = (other, entryOf namer (uses ++ [.refer name]) other) := by
    intro other hother
    rw [entryOf, entryOf, scopedName_append namer _ (mem_namesOf.1 hother),
      filterMap_addedTo?_refer]
  unfold register
  by_cases h : name ∈ uses.map Use.name
  · rw [if_pos ((contains_ofUses namer uses name).2 h)]
    simp only [ofUses]
    rw [namesOf_append_singleton, Use.name_refer, if_pos (mem_namesOf.2 h),
      List.map_congr_left hentry]
  · rw [if_neg fun hcontains => h ((contains_ofUses namer uses name).1 hcontains),
      newEntry_ofUses namer h]
    simp only [ofUses]
    rw [namesOf_append_singleton, Use.name_refer, if_neg fun hmem => h (mem_namesOf.1 hmem),
      List.map_append, List.map_congr_left hentry, List.map_cons, List.map_nil]

/-- The scoped name of a reference is the one after it. -/
theorem localName_entry_ofUses (namer : Namer) (uses : List Use) (name : Text) :
    ((ofUses namer uses).entry namer name).localName =
      scopedName namer (uses ++ [.refer name]) name := by
  unfold entry
  rw [find?_ofUses]
  by_cases h : name ∈ uses.map Use.name
  · rw [if_pos h, scopedName_append namer _ h]
    rfl
  · rw [if_neg h, Option.getD_none, newEntry_ofUses namer h]
    rfl

/-- A reference and a composition use the name in the same way. -/
theorem namesOf_append_add (uses : List Use) (name : Text) (composition : Composition) :
    namesOf (uses ++ [.add name composition]) = namesOf (uses ++ [.refer name]) := by
  simp [namesOf]

/-- A composition that is added is one more use. -/
theorem compose_ofUses (namer : Namer) (uses : List Use) (name : Text)
    (composition : Composition) :
    (ofUses namer uses).compose namer name composition =
      ofUses namer (uses ++ [.add name composition]) := by
  rw [compose, register_ofUses]
  simp only [modify, ofUses, List.map_map]
  rw [namesOf_append_add]
  refine congrArg Registry.mk (List.map_congr_left ?_)
  intro other _
  by_cases h : other = name
  · subst h
    simp [entryOf, scopedName, namesOf_append_add, Use.addedTo?]
  · simp [entryOf, scopedName, namesOf_append_add, Use.addedTo?, h, Ne.symm h]

end Registry

end ScopedCss
