import ScopedCss.Proofs.RegistryUses
import ScopedCss.Scoping.Monad

/-!
# What a step fails with and what it gives

Two views of a step of a run, each with one rule for every operation that steps are built from.

* `Stops step fault`: from every state, the step fails with `fault`, or succeeds if that is `none`.
  The state does not matter, since no step decides by the registry whether it fails.
* `Yields namer step before value uses`: from every state with the registry after the uses `before`,
  the step gives `value` and makes the further uses `uses`.

The journal is free in both.
-/

namespace ScopedCss.Scoping

open Registry (Use ofUses)

variable {α β : Type} {namer : Namer}

/-! ## Failures -/

/-- The step fails with `fault`, or succeeds if there is none. -/
def Stops (step : ScopeM α) (fault : Option Error) : Prop :=
  ∀ state, (∃ value, (step state).1 = .ok value ∧ fault = none) ∨
    ∃ error, (step state).1 = .error error ∧ fault = some error

namespace Stops

theorem pure (value : α) : Stops (Pure.pure value) none :=
  fun _ => .inl ⟨value, rfl, rfl⟩

theorem throw (error : Error) : Stops (MonadExcept.throw error : ScopeM α) (some error) :=
  fun _ => .inr ⟨error, rfl, rfl⟩

theorem record (level : Level) (message : Text) : Stops (Scoping.record level message) none :=
  fun _ => .inl ⟨(), rfl, rfl⟩

theorem localName (namer : Namer) (name : Text) : Stops (Scoping.localName namer name) none :=
  fun state => .inl ⟨(state.registry.entry namer name).localName, rfl, rfl⟩

theorem compose (namer : Namer) (name : Text) (composition : Composition) :
    Stops (Scoping.compose namer name composition) none :=
  fun _ => .inl ⟨(), rfl, rfl⟩

/-- Nothing follows a step that fails. -/
theorem bind_of_some {first : ScopeM α} {error : Error} (next : α → ScopeM β)
    (h : Stops first (some error)) : Stops (first >>= next) (some error) := by
  intro state
  rcases h state with ⟨_, _, hnone⟩ | ⟨other, hother, hsome⟩
  · exact absurd hnone (by simp)
  · have happly : first state = (.error other, (first state).2) := Prod.ext hother rfl
    rw [ScopeM.bind_apply, happly]
    exact .inr ⟨other, rfl, hsome⟩

/-- The first of two faults stops two steps. -/
theorem bind {first : ScopeM α} {next : α → ScopeM β} {fault later : Option Error}
    (hfirst : Stops first fault) (hnext : ∀ value, Stops (next value) later) :
    Stops (first >>= next) (fault.or later) := by
  cases fault with
  | some error => exact bind_of_some next hfirst
  | none =>
    intro state
    rcases hfirst state with ⟨value, hvalue, _⟩ | ⟨_, _, hsome⟩
    · have happly : first state = (.ok value, (first state).2) := Prod.ext hvalue rfl
      rw [ScopeM.bind_apply, happly]
      exact hnext value _
    · exact absurd hsome (by simp)

/-- Two steps of which the first never fails stop with the fault of the second. -/
theorem bind_right {first : ScopeM α} {next : α → ScopeM β} {fault : Option Error}
    (hfirst : Stops first none) (hnext : ∀ value, Stops (next value) fault) :
    Stops (first >>= next) fault := by
  have hbind := bind hfirst hnext
  rwa [Option.none_or] at hbind

/-- Two steps of which the second never fails stop with the fault of the first. -/
theorem bind_left {first : ScopeM α} {next : α → ScopeM β} {fault : Option Error}
    (hfirst : Stops first fault) (hnext : ∀ value, Stops (next value) none) :
    Stops (first >>= next) fault := by
  have hbind := bind hfirst hnext
  rwa [Option.or_none] at hbind

theorem map {step : ScopeM α} {fault : Option Error} (change : α → β) (h : Stops step fault) :
    Stops (change <$> step) fault :=
  bind_left h fun value => pure (change value)

theorem bind_get {next : State → ScopeM β} {fault : Option Error}
    (h : ∀ state, Stops (next state) fault) : Stops (get >>= next) fault :=
  bind_right (fun state => .inl ⟨state, rfl, rfl⟩) h

theorem forM {step : α → ScopeM Unit} (values : List α) (h : ∀ value, Stops (step value) none) :
    Stops (values.forM step) none := by
  induction values with
  | nil => exact pure ()
  | cons value values ih => exact bind_right (h value) fun _ => ih

end Stops

/-! ## Results -/

/-- From a registry after the uses `before`, the step gives `value` and makes the further `uses`. -/
def Yields (namer : Namer) (step : ScopeM α) (before : List Use) (value : α) (uses : List Use) :
    Prop :=
  ∀ state : State, state.registry = ofUses namer before →
    ∃ later : State, step state = (.ok value, later) ∧
      later.registry = ofUses namer (before ++ uses)

namespace Yields

variable {before uses more : List Use}

theorem pure (value : α) : Yields namer (Pure.pure value) before value [] := by
  intro state hstate
  exact ⟨state, rfl, by rw [hstate, List.append_nil]⟩

theorem record (level : Level) (message : Text) :
    Yields namer (Scoping.record level message) before () [] := by
  intro state hstate
  exact ⟨state.record level message, rfl,
    by rw [State.registry_record, hstate, List.append_nil]⟩

/-- Looking up a scoped name is a reference. -/
theorem localName (name : Text) :
    Yields namer (Scoping.localName namer name) before
      (Registry.scopedName namer (before ++ [.refer name]) name) [.refer name] := by
  intro state hstate
  refine ⟨state.register namer name, ?_, ?_⟩
  · rw [ScopeM.localName_apply, hstate, Registry.localName_entry_ofUses]
  · rw [State.registry_register, hstate, Registry.register_ofUses]

theorem compose (name : Text) (composition : Composition) :
    Yields namer (Scoping.compose namer name composition) before () [.add name composition] := by
  intro state hstate
  refine ⟨state.compose namer name composition, rfl, ?_⟩
  rw [State.registry_compose, hstate, Registry.compose_ofUses]

theorem bind {first : ScopeM α} {next : α → ScopeM β} {value : α} {result : β}
    (hfirst : Yields namer first before value uses)
    (hnext : Yields namer (next value) (before ++ uses) result more) :
    Yields namer (first >>= next) before result (uses ++ more) := by
  intro state hstate
  obtain ⟨middle, hmiddle, hregistry⟩ := hfirst state hstate
  obtain ⟨later, hlater, hfinal⟩ := hnext middle hregistry
  refine ⟨later, ?_, ?_⟩
  · rw [ScopeM.bind_apply, hmiddle]
    exact hlater
  · rw [hfinal, List.append_assoc]

/-- A step behind one that makes no uses. -/
theorem bind_right {first : ScopeM α} {next : α → ScopeM β} {value : α} {result : β}
    (hfirst : Yields namer first before value [])
    (hnext : Yields namer (next value) before result more) :
    Yields namer (first >>= next) before result more := by
  rw [← List.append_nil before] at hnext
  exact bind hfirst hnext

/-- A step in front of one that makes no uses. -/
theorem bind_left {first : ScopeM α} {next : α → ScopeM β} {value : α} {result : β}
    (hfirst : Yields namer first before value uses)
    (hnext : Yields namer (next value) (before ++ uses) result []) :
    Yields namer (first >>= next) before result uses := by
  have hbind := bind hfirst hnext
  rwa [List.append_nil] at hbind

theorem map {step : ScopeM α} {value : α} (change : α → β)
    (h : Yields namer step before value uses) :
    Yields namer (change <$> step) before (change value) uses :=
  bind_left h (pure (change value))

/-- A step that reads the state may count on its registry. -/
theorem bind_get {next : State → ScopeM β} {result : β}
    (h : ∀ state : State, state.registry = ofUses namer before →
      Yields namer (next state) before result uses) :
    Yields namer (get >>= next) before result uses := by
  intro state hstate
  exact h state hstate state hstate

/-- Adding a composition to names, one after the other. -/
theorem forM_compose (names : List Text) (composition : Composition) :
    Yields namer (names.forM fun name => Scoping.compose namer name composition) before ()
      (names.map fun name => .add name composition) := by
  induction names generalizing before with
  | nil => exact pure ()
  | cons name names ih => exact bind (compose name composition) ih

end Yields

end ScopedCss.Scoping
