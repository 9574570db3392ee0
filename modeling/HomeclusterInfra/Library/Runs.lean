import Mathlib.Data.List.Basic

/-!
# Runs of a machine

A machine takes one input after another, changes its state and answers each.
What one step preserves, a run preserves; the preserved property may speak of
all answers given so far. For a machine that does not answer, a property of
steps is lifted to all steps of a run.
-/

set_option autoImplicit false

namespace HomeclusterInfra.Runs

universe u v w

variable {σ : Type u} {ι : Type v} {ο : Type w} (step : σ → ι → σ × ο)

/-- The last state of a run and the answers given. -/
def run : σ → List ι → σ × List ο
  | state, [] => (state, [])
  | state, input :: inputs =>
      ((run (step state input).1 inputs).1,
        (step state input).2 :: (run (step state input).1 inputs).2)

@[simp] theorem run_nil (state : σ) : run step state [] = (state, []) :=
  rfl

@[simp] theorem run_cons (state : σ) (input : ι) (inputs : List ι) :
    run step state (input :: inputs) =
      ((run step (step state input).1 inputs).1,
        (step state input).2 :: (run step (step state input).1 inputs).2) :=
  rfl

theorem run_append (state : σ) (first second : List ι) :
    run step state (first ++ second) =
      ((run step (run step state first).1 second).1,
        (run step state first).2 ++ (run step (run step state first).1 second).2) := by
  induction first generalizing state with
  | nil => rfl
  | cons input first ih =>
      rw [List.cons_append, run_cons, ih]
      rfl

/-- **A run keeps what its steps keep.** -/
theorem run_invariant {step : σ → ι → σ × ο} (invariant : List ο → σ → Prop)
    (keeps : ∀ given state input, invariant given state →
      invariant (given ++ [(step state input).2]) (step state input).1)
    {start : σ} (holds : invariant [] start) (inputs : List ι) :
    invariant (run step start inputs).2 (run step start inputs).1 := by
  have further : ∀ (inputs : List ι) (given : List ο) (state : σ), invariant given state →
      invariant (given ++ (run step state inputs).2) (run step state inputs).1 := by
    intro inputs
    induction inputs with
    | nil =>
        intro given state here
        rwa [run_nil, List.append_nil]
    | cons input inputs ih =>
        intro given state here
        have next := ih (given ++ [(step state input).2]) (step state input).1
          (keeps given state input here)
        rwa [List.append_assoc] at next
  exact further inputs [] start holds

/-! ## Machines that do not answer -/

section Silent

variable (advance : σ → ι → σ)

/-- Every step of a run, seen as the state before it and its input, has a
property. -/
def EachStep (holds : σ → ι → Prop) : σ → List ι → Prop
  | _, [] => True
  | state, input :: inputs => holds state input ∧ EachStep holds (advance state input) inputs

variable {advance}

theorem eachStep_of_forall {holds : σ → ι → Prop} (all : ∀ state input, holds state input) :
    ∀ (inputs : List ι) (state : σ), EachStep advance holds state inputs
  | [], _ => trivial
  | input :: inputs, state => ⟨all state input, eachStep_of_forall all inputs (advance state input)⟩

/-- **Two properties of steps that agree under an invariant agree on runs.** The
invariant is kept by the steps that a guard admits. -/
theorem eachStep_congr {guard first second : σ → ι → Prop} (invariant : σ → Prop)
    (keeps : ∀ state input, invariant state → guard state input →
      invariant (advance state input))
    (agree : ∀ state input, invariant state → guard state input →
      (first state input ↔ second state input)) :
    ∀ {inputs : List ι} {state : σ}, invariant state → EachStep advance guard state inputs →
      (EachStep advance first state inputs ↔ EachStep advance second state inputs) := by
  intro inputs
  induction inputs with
  | nil => exact fun _ _ => Iff.rfl
  | cons input inputs ih =>
      rintro state holds ⟨admitted, rest⟩
      exact and_congr (agree state input holds admitted)
        (ih (keeps state input holds admitted) rest)

end Silent

end HomeclusterInfra.Runs
