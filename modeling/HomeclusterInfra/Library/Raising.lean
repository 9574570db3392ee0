import Mathlib.Order.Defs.Unbundled

/-!
# Actions that may raise

An action on a state returns a value or raises, and leaves a state behind in
both cases. A cleanup may have to run whatever the action did, or only where it
raised, and may raise itself.

An action *advances* when its outcome is known before: under a condition it
returns a value and updates the state, and otherwise it raises and leaves a
state that is related to the first one. Actions that advance are put together
by rules, one for a sequence and one for each kind of cleanup.
-/

set_option autoImplicit false

namespace HomeclusterInfra.Raising

variable {ε σ α β : Type}

/-- `try` with `finally`, and `with`: the cleanup runs whatever the body did,
and what it raises replaces what the body raised. -/
def withFinally (body : EStateM ε σ α) (cleanup : EStateM ε σ Unit) : EStateM ε σ α := fun state =>
  match body state with
  | .ok value after =>
      match cleanup after with
      | .ok _ final => .ok value final
      | .error failure final => .error failure final
  | .error failure after =>
      match cleanup after with
      | .ok _ final => .error failure final
      | .error other final => .error other final

/-- `try` with `except` that raises again: the cleanup runs where the body raised. -/
def onFailure (body : EStateM ε σ α) (cleanup : EStateM ε σ Unit) : EStateM ε σ α := fun state =>
  match body state with
  | .ok value after => .ok value after
  | .error failure after =>
      match cleanup after with
      | .ok _ final => .error failure final
      | .error other final => .error other final

theorem bind_of_ok {first : EStateM ε σ α} {second : α → EStateM ε σ β} {state after : σ} {value : α}
    (run : first state = .ok value after) : (first >>= second) state = second value after := by
  show EStateM.bind first second state = _
  rw [EStateM.bind, run]

theorem bind_of_error {first : EStateM ε σ α} {second : α → EStateM ε σ β} {state after : σ}
    {failure : ε} (run : first state = .error failure after) :
    (first >>= second) state = .error failure after := by
  show EStateM.bind first second state = _
  rw [EStateM.bind, run]

theorem withFinally_of_ok {body : EStateM ε σ α} {cleanup : EStateM ε σ Unit} {state after : σ}
    {value : α} (run : body state = .ok value after) :
    withFinally body cleanup state = match cleanup after with
      | .ok _ final => .ok value final
      | .error failure final => .error failure final := by
  simp only [withFinally, run]

theorem withFinally_of_error {body : EStateM ε σ α} {cleanup : EStateM ε σ Unit} {state after : σ}
    {failure : ε} (run : body state = .error failure after) :
    withFinally body cleanup state = match cleanup after with
      | .ok _ final => .error failure final
      | .error other final => .error other final := by
  simp only [withFinally, run]

theorem onFailure_of_error {body : EStateM ε σ α} {cleanup : EStateM ε σ Unit} {state after : σ}
    {failure : ε} (run : body state = .error failure after) :
    onFailure body cleanup state = match cleanup after with
      | .ok _ final => .error failure final
      | .error other final => .error other final := by
  simp only [onFailure, run]

/-- The action raised and left a related state. -/
def Raised (keeps : σ → σ → Prop) (state : σ) (outcome : EStateM.Result ε σ α) : Prop :=
  ∃ failure after, outcome = .error failure after ∧ keeps state after

/-- The action returns a value and updates the state exactly under a condition. -/
structure Advances (keeps : σ → σ → Prop) (action : EStateM ε σ α) (holds : σ → Prop) (value : α)
    (update : σ → σ) : Prop where
  returns : ∀ state, holds state → action state = .ok value (update state)
  raises : ∀ state, ¬holds state → Raised keeps state (action state)
  moves : ∀ state, holds state → keeps state (update state)

/-- A cleanup that keeps, whether it raises or not. -/
def Keeps (keeps : σ → σ → Prop) (cleanup : EStateM ε σ Unit) : Prop :=
  ∀ state, match cleanup state with
    | .ok _ after => keeps state after
    | .error _ after => keeps state after

section Rules

variable {keeps : σ → σ → Prop} {holds next : σ → Prop} {update later : σ → σ} {value : α}

theorem Advances.congr {action : EStateM ε σ α} {others : σ → Prop} {change : σ → σ}
    (advances : Advances keeps action holds value update)
    (same : ∀ state, others state ↔ holds state) (equal : ∀ state, change state = update state) :
    Advances keeps action others value change := by
  have changes : change = update := funext equal
  subst changes
  exact ⟨fun state here => advances.returns state ((same state).mp here),
    fun state fails => advances.raises state fun here => fails ((same state).mpr here),
    fun state here => advances.moves state ((same state).mp here)⟩

theorem Advances.cleans {cleanup : EStateM ε σ Unit}
    (advances : Advances keeps cleanup holds () update) : Keeps keeps cleanup := by
  intro state
  by_cases here : holds state
  · rw [advances.returns state here]
    exact advances.moves state here
  · obtain ⟨failure, after, run, kept⟩ := advances.raises state here
    rw [run]
    exact kept

theorem advances_modify {change : σ → σ} (kept : ∀ state, keeps state (change state)) :
    Advances keeps (modify change : EStateM ε σ Unit) (fun _ => True) () change where
  returns _ _ := rfl
  raises _ fails := absurd trivial fails
  moves state _ := kept state

/-- What an action does may depend on the state it is started in. -/
theorem Advances.get {action : σ → EStateM ε σ α} {requires : σ → σ → Prop}
    {change : σ → σ → σ}
    (advances : ∀ start, Advances keeps (action start) (requires start) value (change start)) :
    Advances keeps (get >>= action) (fun state => requires state state) value
      (fun state => change state state) where
  returns state here := (advances state).returns state here
  raises state fails := (advances state).raises state fails
  moves state here := (advances state).moves state here

variable [IsPreorder σ keeps]

theorem advances_pure (value : α) :
    Advances keeps (pure value : EStateM ε σ α) (fun _ => True) value id where
  returns _ _ := rfl
  raises _ fails := absurd trivial fails
  moves state _ := refl_of keeps state

/-- A condition that must hold. -/
theorem advances_demand {condition : Prop} [Decidable condition] (failure : ε) :
    Advances keeps (if condition then pure () else throw failure : EStateM ε σ Unit)
      (fun _ => condition) () id where
  returns state here := by
    rw [if_pos here]
    rfl
  raises state fails := by
    rw [if_neg fails]
    exact ⟨failure, state, rfl, refl_of keeps state⟩
  moves state _ := refl_of keeps state

/-- A condition that must not hold. -/
theorem advances_refuse {condition : Prop} [Decidable condition] (failure : ε) :
    Advances keeps (if condition then throw failure else pure () : EStateM ε σ Unit)
      (fun _ => ¬condition) () id where
  returns state here := by
    rw [if_neg here]
    rfl
  raises state fails := by
    rw [if_pos (Decidable.not_not.mp fails)]
    exact ⟨failure, state, rfl, refl_of keeps state⟩
  moves state _ := refl_of keeps state

omit [IsPreorder σ keeps] in
/-- What raises does not go on. -/
theorem Raised.bind {first : EStateM ε σ α} {second : α → EStateM ε σ β} {state start : σ}
    (raised : Raised keeps state (first start)) : Raised keeps state ((first >>= second) start) := by
  obtain ⟨failure, after, run, kept⟩ := raised
  exact ⟨failure, after, bind_of_error run, kept⟩

theorem Raised.before {outcome : EStateM.Result ε σ α} {state between : σ}
    (kept : keeps state between) (raised : Raised keeps between outcome) :
    Raised keeps state outcome := by
  obtain ⟨failure, after, run, further⟩ := raised
  exact ⟨failure, after, run, trans_of keeps kept further⟩

/-- A sequence advances where its first part does, and its second one after it. -/
theorem Advances.bind {first : EStateM ε σ α} {second : α → EStateM ε σ β} {result : β}
    (leads : Advances keeps first holds value update)
    (follows : Advances keeps (second value) next result later) :
    Advances keeps (first >>= second) (fun state => holds state ∧ next (update state)) result
      (fun state => later (update state)) where
  returns state both := by
    rw [bind_of_ok (leads.returns state both.1)]
    exact follows.returns _ both.2
  raises state fails := by
    by_cases here : holds state
    · rw [bind_of_ok (leads.returns state here)]
      exact (follows.raises _ fun there => fails ⟨here, there⟩).before (leads.moves state here)
    · exact (leads.raises state here).bind
  moves state both := trans_of keeps (leads.moves state both.1) (follows.moves _ both.2)

/-- A cleanup that keeps does not change that an action raises. -/
theorem Raised.withFinally {body : EStateM ε σ α} {cleanup : EStateM ε σ Unit} {state start : σ}
    (raised : Raised keeps state (body start)) (cleans : Keeps keeps cleanup) :
    Raised keeps state (withFinally body cleanup start) := by
  obtain ⟨failure, after, run, kept⟩ := raised
  have cleaned := cleans after
  rw [withFinally_of_error run]
  cases ends : cleanup after with
  | ok done final =>
      rw [ends] at cleaned
      exact ⟨failure, final, rfl, trans_of keeps kept cleaned⟩
  | error other final =>
      rw [ends] at cleaned
      exact ⟨other, final, rfl, trans_of keeps kept cleaned⟩

theorem Raised.onFailure {body : EStateM ε σ α} {cleanup : EStateM ε σ Unit} {state start : σ}
    (raised : Raised keeps state (body start)) (cleans : Keeps keeps cleanup) :
    Raised keeps state (Raising.onFailure body cleanup start) := by
  obtain ⟨failure, after, run, kept⟩ := raised
  have same : Raising.onFailure body cleanup start = Raising.withFinally body cleanup start :=
    (onFailure_of_error run).trans (withFinally_of_error run).symm
  rw [same]
  exact Raised.withFinally ⟨failure, after, run, kept⟩ cleans

/-- With a cleanup an action returns where both do, one after the other. -/
theorem Advances.withFinally {body : EStateM ε σ α} {cleanup : EStateM ε σ Unit}
    (works : Advances keeps body holds value update)
    (cleans : Advances keeps cleanup next () later) :
    Advances keeps (withFinally body cleanup) (fun state => holds state ∧ next (update state)) value
      (fun state => later (update state)) where
  returns state both := by
    rw [withFinally_of_ok (works.returns state both.1), cleans.returns _ both.2]
  raises state fails := by
    by_cases here : holds state
    · obtain ⟨failure, after, run, kept⟩ :=
        cleans.raises (update state) fun there => fails ⟨here, there⟩
      rw [withFinally_of_ok (works.returns state here), run]
      exact ⟨failure, after, rfl, trans_of keeps (works.moves state here) kept⟩
    · exact (works.raises state here).withFinally cleans.cleans
  moves state both := trans_of keeps (works.moves state both.1) (cleans.moves _ both.2)

/-- A handler that raises again does not change when an action returns. -/
theorem Advances.onFailure {body : EStateM ε σ α} {cleanup : EStateM ε σ Unit}
    (works : Advances keeps body holds value update) (cleans : Keeps keeps cleanup) :
    Advances keeps (onFailure body cleanup) holds value update where
  returns state here := by
    rw [Raising.onFailure, works.returns state here]
  raises state fails := (works.raises state fails).onFailure cleans
  moves := works.moves

end Rules

end HomeclusterInfra.Raising
