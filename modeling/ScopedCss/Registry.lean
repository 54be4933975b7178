import ScopedCss.Composition

/-!
# The registry of local names

The registry of a run holds one entry for each name of the style sheet that was referred to, in
the order of the first references.  An entry is made when it is first needed, and its scoped name
never changes; compositions are added to the end of its list.
-/

namespace ScopedCss

/-- Makes the scoped name for a name and its index. -/
abbrev Namer := Text → Nat → Text

/-- The scoped name of a name and what it composes. -/
structure Entry where
  localName : Text
  composes : List Composition
deriving Repr, DecidableEq

/-- The entries by name, in the order in which they were made. -/
structure Registry where
  entries : List (Text × Entry)
deriving Repr, DecidableEq

namespace Registry

/-- No name has been referred to. -/
def empty : Registry := ⟨[]⟩

/-- The number of entries. -/
def size (registry : Registry) : Nat :=
  registry.entries.length

/-- The names, in order. -/
def names (registry : Registry) : List Text :=
  registry.entries.map Prod.fst

/-- The entry of a name. -/
def find? (registry : Registry) (name : Text) : Option Entry :=
  registry.entries.lookup name

/-- The name has an entry. -/
def contains (registry : Registry) (name : Text) : Bool :=
  (registry.find? name).isSome

/-- The entry that a name gets when it is first referred to. -/
def newEntry (namer : Namer) (registry : Registry) (name : Text) : Entry :=
  ⟨namer name registry.size, []⟩

/-- The entry of a name, which is made if there is none. -/
def entry (namer : Namer) (registry : Registry) (name : Text) : Entry :=
  (registry.find? name).getD (registry.newEntry namer name)

/-- The registry after a reference to a name. -/
def register (namer : Namer) (registry : Registry) (name : Text) : Registry :=
  if registry.contains name then registry
  else ⟨registry.entries ++ [(name, registry.newEntry namer name)]⟩

/-- Changes the entry of a name. -/
def modify (registry : Registry) (name : Text) (change : Entry → Entry) : Registry :=
  ⟨registry.entries.map fun (key, entry) =>
    if key = name then (key, change entry) else (key, entry)⟩

/-- Adds a composition to the entry of a name, which is made if there is none. -/
def compose (namer : Namer) (registry : Registry) (name : Text) (composition : Composition) :
    Registry :=
  (registry.register namer name).modify name fun entry =>
    { entry with composes := entry.composes ++ [composition] }

/-! ## The names of a registry -/

theorem contains_iff_mem_names (registry : Registry) (name : Text) :
    registry.contains name = true ↔ name ∈ registry.names := by
  unfold contains find? names
  induction registry.entries with
  | nil => simp
  | cons head entries ih =>
    obtain ⟨key, entry⟩ := head
    by_cases h : name = key
    · simp [h]
    · rw [List.lookup_cons, beq_false_of_ne h, List.map_cons, List.mem_cons, ih]
      simp [h]

@[simp] theorem names_empty : empty.names = [] := rfl

/-- A reference adds its name at the end, unless the name is there. -/
theorem names_register (namer : Namer) (registry : Registry) (name : Text) :
    (registry.register namer name).names =
      if name ∈ registry.names then registry.names else registry.names ++ [name] := by
  unfold register
  by_cases h : registry.contains name = true
  · rw [if_pos h, if_pos ((contains_iff_mem_names registry name).1 h)]
  · rw [if_neg h, if_neg fun hmem => h ((contains_iff_mem_names registry name).2 hmem)]
    simp [names]

@[simp] theorem names_modify (registry : Registry) (name : Text) (change : Entry → Entry) :
    (registry.modify name change).names = registry.names := by
  unfold modify names
  rw [List.map_map]
  apply List.map_congr_left
  intro pair _
  by_cases h : pair.1 = name <;> simp [h]

@[simp] theorem names_compose (namer : Namer) (registry : Registry) (name : Text)
    (composition : Composition) :
    (registry.compose namer name composition).names = (registry.register namer name).names := by
  simp [compose]

end Registry

end ScopedCss
