import ScopedCss.Scoping.Walk
import ScopedCss.Text.Blank

/-!
# Names of animations

The value of `animation-name` is the name of keyframes.  The value of the `animation` shorthand
mixes names with other words; a word of it is a name if something else referred to it before.
-/

namespace ScopedCss.Scoping

/-- The properties that name keyframes. -/
inductive AnimationProperty where
  | name
  | shorthand
deriving Repr, DecidableEq

/-- The name of the property in lower case. -/
def AnimationProperty.text : AnimationProperty → Text
  | .name => "animation-name".toList
  | .shorthand => "animation".toList

/-- The property without the prefix of a vendor, such as `-webkit-`.  Custom properties, which
begin with two dashes, have no vendor. -/
def unprefixed? (property : Text) : Option Text :=
  match property with
  | '-' :: vendored =>
    match Text.splitFirst? '-' vendored with
    | some (vendor, rest) => if vendor.isEmpty then none else some rest
    | none => none
  | _ => some property

theorem unprefixed?_eq_some_iff {property bare : Text} :
    unprefixed? property = some bare ↔
      property.head? ≠ some '-' ∧ property = bare ∨
        ∃ vendor, vendor ≠ [] ∧ '-' ∉ vendor ∧ property = '-' :: (vendor ++ '-' :: bare) := by
  constructor
  · intro h
    unfold unprefixed? at h
    split at h
    · split at h
      · next vendor rest hsplit =>
        obtain ⟨rfl, hdash⟩ := Text.append_of_splitFirst?_eq_some hsplit
        split at h
        · cases h
        · next hne =>
          obtain rfl := Option.some.inj h
          exact .inr ⟨vendor, by simpa using hne, hdash, rfl⟩
      · cases h
    · next hplain =>
      obtain rfl := Option.some.inj h
      refine .inl ⟨fun hhead => ?_, rfl⟩
      obtain ⟨vendored, rfl⟩ := List.head?_eq_some_iff.1 hhead
      exact hplain vendored rfl
  · rintro (⟨hhead, rfl⟩ | ⟨vendor, hne, hdash, rfl⟩)
    · unfold unprefixed?
      split
      · exact absurd rfl hhead
      · rfl
    · simp [unprefixed?, Text.splitFirst?_append hdash, hne]

/-- The kind of an animation property. -/
def animationProperty? (property : Text) : Option AnimationProperty :=
  match unprefixed? property.lower with
  | some bare =>
    if bare = "animation-name".toList then some .name
    else if bare = "animation".toList then some .shorthand
    else none
  | none => none

/-- An animation property has its name in letters of either case, alone or behind the prefix of a
vendor that is not empty. -/
theorem animationProperty?_eq_some_iff {property : Text} {kind : AnimationProperty} :
    animationProperty? property = some kind ↔
      property.lower = kind.text ∨
        ∃ vendor, vendor ≠ [] ∧ '-' ∉ vendor ∧
          property.lower = '-' :: (vendor ++ '-' :: kind.text) := by
  have hbare : animationProperty? property = some kind ↔
      unprefixed? property.lower = some kind.text := by
    unfold animationProperty?
    cases unprefixed? property.lower with
    | none => simp
    | some bare =>
      dsimp only
      rw [Option.some.injEq]
      constructor
      · intro h
        split at h
        · next hname =>
          obtain rfl := Option.some.inj h
          exact hname
        · split at h
          · next hshorthand =>
            obtain rfl := Option.some.inj h
            exact hshorthand
          · cases h
      · rintro rfl
        cases kind <;> decide
  have hplain : kind.text.head? ≠ some '-' := by cases kind <;> decide
  rw [hbare, unprefixed?_eq_some_iff]
  refine or_congr_left ⟨And.right, fun heq => ⟨?_, heq⟩⟩
  rwa [heq]

/-- The word, scoped if it has an entry. -/
def scopeWord (registry : Registry) (word : Text) : Text :=
  match registry.find? word with
  | some entry => entry.localName
  | none => word

/-- Writes the record for a declaration whose value was scoped. -/
def recordValue (content : Declaration) (value scopedValue : Text) : ScopeM Unit :=
  record .trace
    (content.property ++ ':' :: ' ' :: value ++ " -> ".toList ++ scopedValue)

/-- Scopes the value of an animation property. -/
def scopeAnimation (namer : Namer) (content : Declaration) : ScopeM Declaration := do
  match animationProperty? content.property with
  | some .name =>
    let name := content.value.trim
    if name.isEmpty then
      return content
    else
      let scopedName ← localName namer name
      recordValue content name scopedName
      return { content with value := scopedName }
  | some .shorthand =>
    let state ← get
    let value := [' '].intercalate (content.value.words.map (scopeWord state.registry))
    recordValue content content.value value
    return { content with value := value }
  | none => return content

/-- Scopes the values of all animation properties. -/
def animationPass (namer : Namer) : Visitor where
  declaration := fun _ content => some <$> scopeAnimation namer content

end ScopedCss.Scoping
