import Mathlib.Data.List.Basic

/-!
# Programs that are interrupted

A program changes a state in steps. At each step its surroundings may make it fail, and then
it raises, or kill it. A raised failure may be caught, and nothing follows a kill.

What holds however a program ends is derived from its parts. The program whose surroundings do
nothing to it is looked at separately.
-/

set_option autoImplicit false

namespace HomeclusterInfra.Interruption

/-- What the surroundings do at a step. -/
inductive Fault where
  | fine
  | fails
  | dies
deriving DecidableEq

/-- How a program ends. -/
inductive Ended (ε α : Type) where
  | returned (value : α)
  | raised (failure : ε)
  | killed
deriving DecidableEq

theorem of_raised_eq {ε α : Type} {failure : ε} {value : α} {statement : Prop}
    (same : (.raised failure : Ended ε α) = .returned value) : statement := by
  cases same

theorem of_killed_eq {ε α : Type} {value : α} {statement : Prop}
    (same : (.killed : Ended ε α) = .returned value) : statement := by
  cases same

/-- The end of a program, the state that it leaves, and the faults that are still to come. -/
structure Result (ε σ α : Type) where
  ended : Ended ε α
  state : σ
  faults : List Fault

/-- A program meets a list of faults, and after it no more. -/
def Program (ε σ α : Type) : Type :=
  σ → List Fault → Result ε σ α

variable {ε σ α β ι : Type}

/-- The end of a program. -/
def Program.ended (program : Program ε σ α) (state : σ) (faults : List Fault) : Ended ε α :=
  (program state faults).ended

/-- The state that a program leaves. -/
def Program.state (program : Program ε σ α) (state : σ) (faults : List Fault) : σ :=
  (program state faults).state

/-! ## Programs -/

/-- A program, and another one that goes on with what it returned. -/
def andThen (first : Program ε σ α) (next : α → Program ε σ β) : Program ε σ β :=
  fun state faults =>
    match first state faults with
    | ⟨.returned value, after, rest⟩ => next value after rest
    | ⟨.raised failure, after, rest⟩ => ⟨.raised failure, after, rest⟩
    | ⟨.killed, after, rest⟩ => ⟨.killed, after, rest⟩

instance programMonad : Monad (Program ε σ) where
  pure value := fun state faults => ⟨.returned value, state, faults⟩
  bind := andThen

/-- A step: it fails by itself where `act` does. -/
def step (failure : ε) (act : σ → Except ε (α × σ)) : Program ε σ α :=
  fun state faults =>
    match faults.headD .fine with
    | .fails => ⟨.raised failure, state, faults.tail⟩
    | .dies => ⟨.killed, state, faults.tail⟩
    | .fine =>
        match act state with
        | .ok (value, after) => ⟨.returned value, after, faults.tail⟩
        | .error own => ⟨.raised own, state, faults.tail⟩

/-- A step that changes the state, and returns nothing. -/
def change (failure : ε) (act : σ → σ) : Program ε σ Unit :=
  step failure fun state => .ok ((), act state)

/-- What the program sees of the state, where nothing can fail. -/
def look (seen : σ → α) : Program ε σ α :=
  fun state faults => ⟨.returned (seen state), state, faults⟩

def raise (failure : ε) : Program ε σ α :=
  fun state faults => ⟨.raised failure, state, faults⟩

/-- Raise unless a condition holds. -/
def demand (holds : Bool) (failure : ε) : Program ε σ Unit :=
  if holds then pure () else raise failure

/-- The value of a computation that may fail. -/
def lift (outcome : Except ε α) : Program ε σ α :=
  match outcome with
  | .ok value => pure value
  | .error failure => raise failure

/-- A program, and what is done where it raises. -/
def catching (body : Program ε σ α) (handler : ε → Program ε σ α) : Program ε σ α :=
  fun state faults =>
    match body state faults with
    | ⟨.raised failure, after, rest⟩ => handler failure after rest
    | ⟨.returned value, after, rest⟩ => ⟨.returned value, after, rest⟩
    | ⟨.killed, after, rest⟩ => ⟨.killed, after, rest⟩

/-- A program for each item, one after another. -/
def forEach (body : ι → Program ε σ Unit) : List ι → Program ε σ Unit
  | [] => pure ()
  | item :: items => do
      body item
      forEach body items

/-! ## However a program ends -/

/-- A property of the end and the state, whatever the surroundings do. -/
def Always (program : Program ε σ α) (post : Ended ε α → σ → Prop) (state : σ) : Prop :=
  ∀ faults, post (program.ended state faults) (program.state state faults)

/-- What is to hold after a first part: a property of its own where it returned, and that of
the whole where it did not. -/
def Through (holds : α → σ → Prop) (post : Ended ε β → σ → Prop) : Ended ε α → σ → Prop
  | .returned value, state => holds value state
  | .raised failure, state => post (.raised failure) state
  | .killed, state => post .killed state

/-- What is to hold after a program whose failures are caught. -/
def Caught (handler : ε → Program ε σ α) (post : Ended ε α → σ → Prop) : Ended ε α → σ → Prop
  | .returned value, state => post (.returned value) state
  | .raised failure, state => Always (handler failure) post state
  | .killed, state => post .killed state

section Always

variable {post weaker : Ended ε α → σ → Prop} {state : σ}

theorem always_mono {program : Program ε σ α} (always : Always program post state)
    (implies : ∀ ended after, post ended after → weaker ended after) :
    Always program weaker state :=
  fun faults => implies _ _ (always faults)

theorem always_and {program : Program ε σ α} (one : Always program post state)
    (two : Always program weaker state) :
    Always program (fun ended after => post ended after ∧ weaker ended after) state :=
  fun faults => ⟨one faults, two faults⟩

theorem always_pure {value : α} (holds : post (.returned value) state) :
    Always (pure value) post state :=
  fun _ => holds

theorem always_raise {failure : ε} (holds : post (.raised failure) state) :
    Always (raise failure) post state :=
  fun _ => holds

theorem always_look {seen : σ → α} (holds : post (.returned (seen state)) state) :
    Always (look seen) post state :=
  fun _ => holds

theorem always_bind {post : Ended ε β → σ → Prop} {first : Program ε σ α}
    {next : α → Program ε σ β}
    (always : Always first (Through (fun value => Always (next value) post) post) state) :
    Always (first >>= next) post state := by
  intro faults
  have middle := always faults
  rw [Program.ended, Program.state] at middle
  show post (andThen first next state faults).ended (andThen first next state faults).state
  rw [andThen]
  rcases result : first state faults with ⟨ended, after, rest⟩
  rw [result] at middle
  cases ended with
  | returned value => exact middle rest
  | raised failure => exact middle
  | killed => exact middle

theorem always_catching {body : Program ε σ α} {handler : ε → Program ε σ α}
    (always : Always body (Caught handler post) state) :
    Always (catching body handler) post state := by
  intro faults
  have middle := always faults
  rw [Program.ended, Program.state] at middle ⊢
  rw [catching]
  rcases result : body state faults with ⟨ended, after, rest⟩
  rw [result] at middle
  cases ended with
  | returned value => exact middle
  | raised failure => exact middle rest
  | killed => exact middle

/-- A step is not begun, or does what it does. -/
theorem always_step {failure : ε} {act : σ → Except ε (α × σ)}
    (fails : post (.raised failure) state) (dies : post .killed state)
    (acts : ∀ value after, act state = .ok (value, after) → post (.returned value) after)
    (raises : ∀ own, act state = .error own → post (.raised own) state) :
    Always (step failure act) post state := by
  intro faults
  rw [Program.ended, Program.state, step]
  cases faults.headD .fine with
  | fails => exact fails
  | dies => exact dies
  | fine =>
      cases done : act state with
      | ok result => exact acts result.1 result.2 done
      | error own => exact raises own done

theorem always_change {failure : ε} {act : σ → σ} {post : Ended ε Unit → σ → Prop}
    (fails : post (.raised failure) state) (dies : post .killed state)
    (acts : post (.returned ()) (act state)) : Always (change failure act) post state := by
  refine always_step fails dies (fun value after done => ?_) fun own done => by cases done
  cases done
  exact acts

theorem always_demand {failure : ε} {holds : Bool} {post : Ended ε Unit → σ → Prop}
    (accepted : holds = true → post (.returned ()) state)
    (refused : holds = false → post (.raised failure) state) :
    Always (demand holds failure) post state := by
  rw [demand]
  split
  next isTrue => exact always_pure (accepted isTrue)
  next isFalse => exact always_raise (refused (Bool.not_eq_true _ ▸ isFalse))

theorem always_lift {outcome : Except ε α}
    (accepted : ∀ value, outcome = .ok value → post (.returned value) state)
    (refused : ∀ failure, outcome = .error failure → post (.raised failure) state) :
    Always (lift outcome) post state := by
  cases outcome with
  | ok value => exact always_pure (accepted value rfl)
  | error failure => exact always_raise (refused failure rfl)

/-! ### What goes on -/

section Onward

variable {post : Ended ε β → σ → Prop} {next : α → Program ε σ β}

/-- A first part with a specification of its own. -/
theorem always_bind_of {first : Program ε σ α} {middle : Ended ε α → σ → Prop}
    (always : Always first middle state)
    (returns : ∀ value after, middle (.returned value) after → Always (next value) post after)
    (raises : ∀ failure after, middle (.raised failure) after → post (.raised failure) after)
    (dies : ∀ after, middle .killed after → post .killed after) :
    Always (first >>= next) post state := by
  refine always_bind (always_mono always fun ended after holds => ?_)
  cases ended with
  | returned value => exact returns value after holds
  | raised failure => exact raises failure after holds
  | killed => exact dies after holds

theorem always_look_bind {seen : σ → α} (goes : Always (next (seen state)) post state) :
    Always (look seen >>= next) post state :=
  always_bind (always_look goes)

theorem always_lift_bind {outcome : Except ε α}
    (accepted : ∀ value, outcome = .ok value → Always (next value) post state)
    (refused : ∀ failure, outcome = .error failure → post (.raised failure) state) :
    Always (lift outcome >>= next) post state :=
  always_bind (always_lift accepted refused)

theorem always_step_bind {failure : ε} {act : σ → Except ε (α × σ)}
    (fails : post (.raised failure) state) (dies : post .killed state)
    (acts : ∀ value after, act state = .ok (value, after) → Always (next value) post after)
    (raises : ∀ own, act state = .error own → post (.raised own) state) :
    Always (step failure act >>= next) post state :=
  always_bind (always_step fails dies acts raises)

variable {after : Unit → Program ε σ β}

theorem always_demand_bind {failure : ε} {holds : Bool}
    (accepted : holds = true → Always (after ()) post state)
    (refused : holds = false → post (.raised failure) state) :
    Always (demand holds failure >>= after) post state :=
  always_bind (always_demand accepted refused)

theorem always_change_bind {failure : ε} {act : σ → σ} (fails : post (.raised failure) state)
    (dies : post .killed state) (acts : Always (after ()) post (act state)) :
    Always (change failure act >>= after) post state :=
  always_bind (always_change fails dies acts)

end Onward

/-- **A loop keeps an invariant of the items that are left.** -/
theorem always_forEach {body : ι → Program ε σ Unit} {post : Ended ε Unit → σ → Prop}
    (invariant : List ι → σ → Prop)
    (done : ∀ state, invariant [] state → post (.returned ()) state)
    (keeps : ∀ item items state, invariant (item :: items) state →
      Always (body item) (Through (fun _ => invariant items) post) state) :
    ∀ items state, invariant items state → Always (forEach body items) post state := by
  intro items
  induction items with
  | nil => exact fun state holds => always_pure (done state holds)
  | cons item items ih =>
      intro state holds
      refine always_bind (always_mono (keeps item items state holds) fun ended after middle => ?_)
      cases ended with
      | returned value => exact ih after middle
      | raised failure => exact middle
      | killed => exact middle

end Always

/-! ## Invariants -/

/-- A program keeps a property of states, however it ends. -/
def Keeps (invariant : σ → Prop) (program : Program ε σ α) : Prop :=
  ∀ state, invariant state → Always program (fun _ after => invariant after) state

section Keeps

variable {invariant : σ → Prop}

theorem keeps_pure (value : α) : Keeps invariant (pure value : Program ε σ α) :=
  fun _ holds => always_pure holds

theorem keeps_raise (failure : ε) : Keeps invariant (raise failure : Program ε σ α) :=
  fun _ holds => always_raise holds

theorem keeps_look (seen : σ → α) : Keeps invariant (look seen : Program ε σ α) :=
  fun _ holds => always_look holds

theorem keeps_demand (holds : Bool) (failure : ε) :
    Keeps invariant (demand holds failure : Program ε σ Unit) :=
  fun _ here => always_demand (fun _ => here) fun _ => here

theorem keeps_lift (outcome : Except ε α) : Keeps invariant (lift outcome : Program ε σ α) :=
  fun _ here => always_lift (fun _ _ => here) fun _ _ => here

theorem keeps_bind {first : Program ε σ α} {next : α → Program ε σ β}
    (one : Keeps invariant first) (two : ∀ value, Keeps invariant (next value)) :
    Keeps invariant (first >>= next) := by
  intro state holds
  refine always_bind (always_mono (one state holds) fun ended after middle => ?_)
  cases ended with
  | returned value => exact two value after middle
  | raised failure => exact middle
  | killed => exact middle

theorem keeps_change {failure : ε} {act : σ → σ}
    (kept : ∀ state, invariant state → invariant (act state)) :
    Keeps invariant (change failure act) :=
  fun state holds => always_change holds holds (kept state holds)

theorem keeps_catching {body : Program ε σ α} {handler : ε → Program ε σ α}
    (one : Keeps invariant body) (two : ∀ failure, Keeps invariant (handler failure)) :
    Keeps invariant (catching body handler) := by
  intro state holds
  refine always_catching (always_mono (one state holds) fun ended after middle => ?_)
  cases ended with
  | returned value => exact middle
  | raised failure => exact two failure after middle
  | killed => exact middle

theorem keeps_forEach {body : ι → Program ε σ Unit} (kept : ∀ item, Keeps invariant (body item))
    (items : List ι) : Keeps invariant (forEach body items) := by
  induction items with
  | nil => exact keeps_pure ()
  | cons item items ih => exact keeps_bind (kept item) fun _ => ih

end Keeps

/-! ## What the faults decide -/

section Faults

variable {state after : σ} {faults : List Fault} {failure : ε}

theorem lift_bind {outcome : Except ε α} {value : α} (accepted : outcome = .ok value)
    (next : α → Program ε σ β) : lift outcome >>= next = next value := by
  rw [accepted]
  rfl

theorem state_step {act : σ → Except ε (α × σ)} {value : α}
    (acts : act state = .ok (value, after)) :
    (step failure act).state state faults =
      if faults.headD .fine = .fine then after else state := by
  rw [Program.state, step, acts]
  cases faults.headD .fine <;> rfl

theorem state_step_bind {act : σ → Except ε (α × σ)} {next : α → Program ε σ β} {value : α}
    (acts : act state = .ok (value, after)) :
    (step failure act >>= next).state state faults =
      if faults.headD .fine = .fine then (next value).state after faults.tail else state := by
  show (andThen (step failure act) next state faults).state = _
  rw [andThen, step, acts]
  cases faults.headD .fine <;> rfl

theorem state_change (act : σ → σ) :
    (change failure act).state state faults =
      if faults.headD .fine = .fine then act state else state :=
  state_step rfl

theorem state_change_bind (act : σ → σ) (next : Unit → Program ε σ β) :
    (change failure act >>= next).state state faults =
      if faults.headD .fine = .fine then (next ()).state (act state) faults.tail else state :=
  state_step_bind rfl

/-- What follows a program and leaves the state as it is. -/
theorem state_bind_of_still {first : Program ε σ α} {next : α → Program ε σ β}
    (still : ∀ value after rest, (next value).state after rest = after) :
    (first >>= next).state state faults = first.state state faults := by
  show (andThen first next state faults).state = (first state faults).state
  rw [andThen]
  rcases first state faults with ⟨ended, middle, rest⟩
  cases ended with
  | returned value => exact still value middle rest
  | raised failure => rfl
  | killed => rfl

end Faults

/-! ## Nothing interrupts -/

/-- How a program ends that nothing interrupts. -/
def Runs (program : Program ε σ α) (state : σ) (ended : Ended ε α) (after : σ) : Prop :=
  program state [] = ⟨ended, after, []⟩

section Runs

variable {state middle after : σ}

theorem runs_pure (value : α) : Runs (pure value : Program ε σ α) state (.returned value) state :=
  rfl

theorem runs_look (seen : σ → α) :
    Runs (look seen : Program ε σ α) state (.returned (seen state)) state :=
  rfl

theorem runs_change (failure : ε) (act : σ → σ) :
    Runs (change failure act) state (.returned ()) (act state) :=
  rfl

theorem runs_bind {first : Program ε σ α} {next : α → Program ε σ β} {value : α}
    {ended : Ended ε β} (one : Runs first state (.returned value) middle)
    (two : Runs (next value) middle ended after) : Runs (first >>= next) state ended after := by
  show andThen first next state [] = _
  rw [andThen, one]
  exact two

theorem runs_demand {holds : Bool} {failure : ε} (accepted : holds = true) :
    Runs (demand holds failure : Program ε σ Unit) state (.returned ()) state := by
  rw [demand, if_pos accepted]
  exact runs_pure ()

/-- What always holds holds of it. -/
theorem Runs.always {program : Program ε σ α} {ended : Ended ε α} {post : Ended ε α → σ → Prop}
    (runs : Runs program state ended after) (always : Always program post state) :
    post ended after := by
  have here := always []
  rw [Program.ended, Program.state, runs] at here
  exact here

theorem runs_step {failure : ε} {act : σ → Except ε (α × σ)} {value : α}
    (acts : act state = .ok (value, after)) :
    Runs (step failure act) state (.returned value) after := by
  rw [Runs, step, acts]
  rfl

theorem runs_lift {outcome : Except ε α} {value : α} (accepted : outcome = .ok value) :
    Runs (lift outcome : Program ε σ α) state (.returned value) state := by
  rw [accepted]
  exact runs_pure value

theorem Runs.ended_eq {program : Program ε σ α} {ended : Ended ε α}
    (runs : Runs program state ended after) : program.ended state [] = ended := by
  rw [Program.ended, runs]

theorem Runs.state_eq {program : Program ε σ α} {ended : Ended ε α}
    (runs : Runs program state ended after) : program.state state [] = after := by
  rw [Program.state, runs]

theorem runs_catching {body : Program ε σ α} {handler : ε → Program ε σ α} {value : α}
    (returns : Runs body state (.returned value) after) :
    Runs (catching body handler) state (.returned value) after := by
  rw [Runs, catching, returns]

/-- A loop that nothing interrupts, with an invariant of the items that are left. -/
theorem runs_forEach {body : ι → Program ε σ Unit} (invariant : List ι → σ → Prop)
    (each : ∀ item items state, invariant (item :: items) state →
      ∃ after, Runs (body item) state (.returned ()) after ∧ invariant items after) :
    ∀ items state, invariant items state →
      ∃ after, Runs (forEach body items) state (.returned ()) after ∧ invariant [] after := by
  intro items
  induction items with
  | nil => exact fun state holds => ⟨state, runs_pure (), holds⟩
  | cons item items ih =>
      intro state holds
      obtain ⟨middle, one, kept⟩ := each item items state holds
      obtain ⟨last, two, final⟩ := ih middle kept
      exact ⟨last, runs_bind one two, final⟩

end Runs

end HomeclusterInfra.Interruption
