import ScopedCss.Registry
import ScopedCss.Scoping.Error
import ScopedCss.Scoping.Journal

/-!
# Steps of a run

The state of a run is its registry and its journal.  `ScopeM` is the monad of one step: it changes
the state and may fail, and a step that fails keeps the names it referred to and the records it
wrote before.  The lemmas at the end say what each operation does to a state.
-/

namespace ScopedCss.Scoping

/-- The registry and the journal of a run; the journal has its last record first. -/
structure State where
  registry : Registry
  journal : List Record
deriving Repr, DecidableEq

namespace State

/-- Nothing has happened. -/
def empty : State := ⟨.empty, []⟩

/-- Writes a record. -/
def record (state : State) (level : Level) (message : Text) : State :=
  { state with journal := ⟨level, message⟩ :: state.journal }

/-- The record for a name that is referred to for the first time. -/
def registration (namer : Namer) (name : Text) (index : Nat) : Text :=
  "scoped `".toList ++ name ++ "` as `".toList ++ namer name index ++ "` (index ".toList ++
    Nat.toDigits 10 index ++ ")".toList

/-- Makes sure that a name has an entry. -/
def register (namer : Namer) (state : State) (name : Text) : State :=
  if state.registry.contains name then state
  else
    let recorded := state.record .debug (registration namer name state.registry.size)
    { recorded with registry := state.registry.register namer name }

/-- Adds a composition to a name. -/
def compose (namer : Namer) (state : State) (name : Text) (composition : Composition) : State :=
  { state.register namer name with registry := state.registry.compose namer name composition }

@[simp] theorem registry_record (state : State) (level : Level) (message : Text) :
    (state.record level message).registry = state.registry := rfl

@[simp] theorem registry_register (namer : Namer) (state : State) (name : Text) :
    (state.register namer name).registry = state.registry.register namer name := by
  unfold register
  split
  · next hcontains => simp [Registry.register, hcontains]
  · rfl

@[simp] theorem registry_compose (namer : Namer) (state : State) (name : Text)
    (composition : Composition) :
    (state.compose namer name composition).registry =
      state.registry.compose namer name composition := rfl

end State

/-- A step of a run. -/
abbrev ScopeM := ExceptT Error (StateM State)

/-- Writes a record. -/
def record (level : Level) (message : Text) : ScopeM Unit :=
  modify fun state => state.record level message

/-- The scoped name for a name. -/
def localName (namer : Namer) (name : Text) : ScopeM Text :=
  modifyGet fun state =>
    ((state.registry.entry namer name).localName, state.register namer name)

/-- Adds a composition to a name. -/
def compose (namer : Namer) (name : Text) (composition : Composition) : ScopeM Unit :=
  modify fun state => state.compose namer name composition

/-! ## What the operations do to a state -/

namespace ScopeM

variable {α β : Type}

theorem pure_apply (value : α) (state : State) :
    (pure value : ScopeM α) state = (.ok value, state) := rfl

theorem throw_apply (error : Error) (state : State) :
    (throw error : ScopeM α) state = (.error error, state) := rfl

theorem bind_apply (first : ScopeM α) (next : α → ScopeM β) (state : State) :
    (first >>= next) state =
      match first state with
      | (.ok value, later) => next value later
      | (.error error, later) => (.error error, later) := by
  simp only [bind, ExceptT.bind, ExceptT.mk, StateT.bind]
  rcases first state with ⟨result, later⟩
  cases result <;> rfl

theorem record_apply (level : Level) (message : Text) (state : State) :
    Scoping.record level message state = (.ok (), state.record level message) := rfl

theorem localName_apply (namer : Namer) (name : Text) (state : State) :
    localName namer name state =
      (.ok (state.registry.entry namer name).localName, state.register namer name) := rfl

theorem compose_apply (namer : Namer) (name : Text) (composition : Composition) (state : State) :
    compose namer name composition state = (.ok (), state.compose namer name composition) := rfl

end ScopeM

end ScopedCss.Scoping
