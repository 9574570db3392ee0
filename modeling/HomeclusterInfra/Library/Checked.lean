import Mathlib.Data.List.Forall2

/-!
# Computations that may fail

Inversion of successful `Except` computations: a sequence succeeds exactly when
its parts do, and a successful fold keeps every invariant its steps keep. The
invariant may speak of the elements consumed so far.
-/

set_option autoImplicit false

namespace HomeclusterInfra.Checked

universe u v w

variable {ε : Type u} {α : Type v} {β : Type v}

/-- Fail unless a condition holds. -/
def require (holds : Bool) (failure : ε) : Except ε PUnit.{v + 1} :=
  if holds then .ok ⟨⟩ else .error failure

theorem bind_eq_ok {first : Except ε α} {next : α → Except ε β} {result : β} :
    (first >>= next) = .ok result ↔ ∃ middle, first = .ok middle ∧ next middle = .ok result := by
  cases first with
  | error failure => simp [bind, Except.bind]
  | ok middle => simp [bind, Except.bind]

/-- A sequence fails where its first part does, or its second one. -/
theorem bind_eq_error {first : Except ε α} {next : α → Except ε β} {failure : ε} :
    (first >>= next) = .error failure ↔ first = .error failure ∨
      ∃ middle, first = .ok middle ∧ next middle = .error failure := by
  cases first with
  | error other => simp [bind, Except.bind]
  | ok middle => simp [bind, Except.bind]

@[simp] theorem pure_eq_ok {value result : α} :
    (pure value : Except ε α) = .ok result ↔ value = result := by
  simp [pure, Except.pure]

@[simp] theorem require_eq_ok {holds : Bool} {failure : ε} {done : PUnit.{v + 1}} :
    require holds failure = .ok done ↔ holds = true := by
  cases holds <;> simp [require]

theorem require_eq_error {holds : Bool} {failure raised : ε} :
    (require holds failure : Except ε PUnit.{v + 1}) = .error raised ↔
      holds = false ∧ failure = raised := by
  cases holds <;> simp [require]

/-- A condition that must hold, and what comes after it. -/
theorem require_bind_eq_ok {holds : Bool} {failure : ε} {next : PUnit.{v + 1} → Except ε β}
    {result : β} :
    (require holds failure >>= next) = .ok result ↔ holds = true ∧ next ⟨⟩ = .ok result := by
  cases holds with
  | false => simp [require, bind, Except.bind]
  | true => simp [require, bind, Except.bind]

theorem toOption_eq_some {outcome : Except ε α} {value : α} :
    outcome.toOption = some value ↔ outcome = .ok value := by
  cases outcome <;> simp [Except.toOption]

/-- **A mapped list has the value of each element at its place.** -/
theorem mapM_eq_some {α β : Type} {maps : α → Option β} :
    ∀ {elements : List α} {values : List β},
      elements.mapM maps = some values ↔
        List.Forall₂ (fun element value => maps element = some value) elements values := by
  intro elements
  induction elements with
  | nil =>
      intro values
      constructor
      · intro mapped
        cases mapped
        exact .nil
      · rintro ⟨⟩
        rfl
  | cons element elements ih =>
      intro values
      rw [List.mapM_cons]
      constructor
      · intro mapped
        obtain ⟨value, mapElement, mapped⟩ := Option.bind_eq_some_iff.mp mapped
        obtain ⟨others, mapRest, mapped⟩ := Option.bind_eq_some_iff.mp mapped
        have list : value :: others = values := by simpa using mapped
        subst list
        exact .cons mapElement (ih.mp mapRest)
      · rintro (_ | ⟨mapElement, rest⟩)
        rw [mapElement, ih.mpr rest]
        rfl

theorem exists_of_mem_mapM {α β : Type} {maps : α → Option β} {elements : List α}
    {values : List β} (mapped : elements.mapM maps = some values) {value : β}
    (member : value ∈ values) : ∃ element ∈ elements, maps element = some value := by
  have pairs := mapM_eq_some.1 mapped
  clear mapped
  induction pairs with
  | nil => cases member
  | cons first _ ih =>
      rcases List.mem_cons.1 member with rfl | later
      · exact ⟨_, List.mem_cons_self, first⟩
      · obtain ⟨element, among, same⟩ := ih later
        exact ⟨element, .tail _ among, same⟩

theorem exists_mapM_of_mem {α β : Type} {maps : α → Option β} {elements : List α}
    {values : List β} (mapped : elements.mapM maps = some values) {element : α}
    (member : element ∈ elements) : ∃ value ∈ values, maps element = some value := by
  have pairs := mapM_eq_some.1 mapped
  clear mapped
  induction pairs with
  | nil => cases member
  | cons first _ ih =>
      rcases List.mem_cons.1 member with rfl | later
      · exact ⟨_, List.mem_cons_self, first⟩
      · obtain ⟨value, among, same⟩ := ih later
        exact ⟨value, .tail _ among, same⟩

section Each

variable {γ : Type w}

/-- A checked map has the value of each element at its place. -/
theorem mapM_eq_ok {maps : γ → Except ε β} :
    ∀ {elements : List γ} {values : List β},
      elements.mapM maps = .ok values ↔
        List.Forall₂ (fun element value => maps element = .ok value) elements values := by
  intro elements
  induction elements with
  | nil =>
      intro values
      rw [List.mapM_nil, pure_eq_ok]
      constructor
      · rintro rfl
        exact .nil
      · rintro ⟨⟩
        rfl
  | cons element elements ih =>
      intro values
      rw [List.mapM_cons, bind_eq_ok]
      constructor
      · rintro ⟨value, mapElement, rest⟩
        obtain ⟨others, mapRest, same⟩ := bind_eq_ok.mp rest
        rw [← pure_eq_ok.mp same]
        exact .cons mapElement (ih.mp mapRest)
      · rintro (_ | ⟨mapElement, rest⟩)
        exact ⟨_, mapElement, bind_eq_ok.mpr ⟨_, ih.mpr rest, rfl⟩⟩

theorem mapM_congr {maps others : γ → Except ε β} {elements : List γ}
    (same : ∀ element ∈ elements, maps element = others element) :
    elements.mapM maps = elements.mapM others := by
  induction elements with
  | nil => rfl
  | cons element elements ih =>
      rw [List.mapM_cons, List.mapM_cons, same element List.mem_cons_self,
        ih fun later among => same later (.tail _ among)]

/-- A checked map fails as one of its elements does. -/
theorem exists_of_mapM_eq_error {maps : γ → Except ε β} {elements : List γ} {failure : ε}
    (failed : elements.mapM maps = .error failure) :
    ∃ element ∈ elements, maps element = .error failure := by
  induction elements with
  | nil => cases failed
  | cons element elements ih =>
      rw [List.mapM_cons] at failed
      cases first : maps element with
      | error other =>
          rw [first] at failed
          cases failed
          exact ⟨element, List.mem_cons_self, first⟩
      | ok value =>
          rw [first] at failed
          cases rest : elements.mapM maps with
          | error other =>
              rw [rest] at failed
              cases failed
              obtain ⟨later, among, same⟩ := ih rest
              exact ⟨later, .tail _ among, same⟩
          | ok values =>
              rw [rest] at failed
              cases failed

/-- A check of all elements succeeds exactly when it does of each. -/
theorem forM_eq_ok {check : γ → Except ε PUnit.{v + 1}} {elements : List γ}
    {done : PUnit.{v + 1}} :
    elements.forM check = .ok done ↔ ∀ element ∈ elements, check element = .ok ⟨⟩ := by
  induction elements with
  | nil => simp [List.forM]
  | cons element elements ih =>
      have unfolded : (element :: elements).forM check =
          (check element >>= fun _ => elements.forM check) :=
        rfl
      rw [unfolded, bind_eq_ok, List.forall_mem_cons, ← ih]
      constructor
      · rintro ⟨middle, first, rest⟩
        exact ⟨first, rest⟩
      · rintro ⟨first, rest⟩
        exact ⟨⟨⟩, first, rest⟩

/-- A value of a checked map is that of an element. -/
theorem exists_of_mem_mapM_ok {elements : List γ} {values : List β} {maps : γ → Except ε β}
    (mapped : elements.mapM maps = .ok values) {value : β} (member : value ∈ values) :
    ∃ element ∈ elements, maps element = .ok value := by
  have pairs := mapM_eq_ok.mp mapped
  clear mapped
  induction pairs with
  | nil => cases member
  | cons first _ ih =>
      rcases List.mem_cons.mp member with rfl | later
      · exact ⟨_, List.mem_cons_self, first⟩
      · obtain ⟨element, among, same⟩ := ih later
        exact ⟨element, .tail _ among, same⟩

theorem exists_mapM_ok_of_mem {elements : List γ} {values : List β} {maps : γ → Except ε β}
    (mapped : elements.mapM maps = .ok values) {element : γ} (member : element ∈ elements) :
    ∃ value ∈ values, maps element = .ok value := by
  have pairs := mapM_eq_ok.mp mapped
  clear mapped
  induction pairs with
  | nil => cases member
  | cons first _ ih =>
      rcases List.mem_cons.mp member with rfl | later
      · exact ⟨_, List.mem_cons_self, first⟩
      · obtain ⟨value, among, same⟩ := ih later
        exact ⟨value, .tail _ among, same⟩

/-- A checked map succeeds where it does of each element. -/
theorem exists_mapM_ok {elements : List γ} {maps : γ → Except ε β}
    (each : ∀ element ∈ elements, ∃ value, maps element = .ok value) :
    ∃ values, elements.mapM maps = .ok values := by
  induction elements with
  | nil => exact ⟨[], rfl⟩
  | cons element elements ih =>
      obtain ⟨value, first⟩ := each element List.mem_cons_self
      obtain ⟨values, rest⟩ := ih fun later among => each later (.tail _ among)
      refine ⟨value :: values, ?_⟩
      rw [List.mapM_cons, first, bind_eq_ok]
      exact ⟨value, rfl, bind_eq_ok.mpr ⟨values, rest, rfl⟩⟩

end Each

section Fold

variable {γ : Type w} {step : β → γ → Except ε β}

/-- **A successful fold keeps the invariant of its steps.** The invariant is
indexed by the elements consumed so far. -/
theorem foldlM_invariant (invariant : List γ → β → Prop)
    (keeps : ∀ consumed state element next, invariant consumed state →
      step state element = .ok next → invariant (consumed ++ [element]) next) :
    ∀ (elements consumed : List γ) (state result : β), invariant consumed state →
      elements.foldlM step state = .ok result → invariant (consumed ++ elements) result := by
  intro elements
  induction elements with
  | nil =>
      intro consumed state result start folded
      rw [List.foldlM_nil, pure_eq_ok] at folded
      simpa [folded] using start
  | cons element elements ih =>
      intro consumed state result start folded
      rw [List.foldlM_cons, bind_eq_ok] at folded
      obtain ⟨middle, stepped, rest⟩ := folded
      have advanced := keeps consumed state element middle start stepped
      simpa using ih (consumed ++ [element]) middle result advanced rest

end Fold

/-! ## Computations that consume a list -/

section Consumes

variable {γ δ : Type w} (invariant : List γ → β → Prop) (accepts : List γ → γ → Prop)

/-- Each element is accepted after what was consumed before it. -/
def AcceptedAfter (consumed elements : List γ) : Prop :=
  ∀ before element after, elements = before ++ element :: after →
    accepts (consumed ++ before) element

/-- A step consumes a list: it succeeds exactly when all elements are accepted, and
keeps an invariant that is indexed by the elements consumed so far. -/
structure Consumes (elements : List γ) (step : β → Except ε β) : Prop where
  isOk_iff : ∀ consumed state, invariant consumed state →
    ((∃ next, step state = .ok next) ↔ AcceptedAfter accepts consumed elements)
  keeps : ∀ consumed state next, invariant consumed state → step state = .ok next →
    invariant (consumed ++ elements) next

variable {invariant accepts} {consumed : List γ}

theorem acceptedAfter_nil : AcceptedAfter accepts consumed [] := by
  intro before element after split
  exact absurd split (List.append_ne_nil_of_right_ne_nil _ (List.cons_ne_nil _ _)).symm

theorem acceptedAfter_append {first second : List γ} :
    AcceptedAfter accepts consumed (first ++ second) ↔
      AcceptedAfter accepts consumed first ∧ AcceptedAfter accepts (consumed ++ first) second := by
  constructor
  · intro accepted
    refine ⟨fun before element after split => ?_, fun before element after split => ?_⟩
    · refine accepted before element (after ++ second) ?_
      rw [split, List.append_assoc, List.cons_append]
    · rw [List.append_assoc]
      refine accepted (first ++ before) element after ?_
      rw [split, List.append_assoc]
  · rintro ⟨inFirst, inSecond⟩ before element after split
    rcases List.append_eq_append_iff.mp split with ⟨more, rfl, rest⟩ | ⟨more, rfl, rest⟩
    · rw [← List.append_assoc]
      exact inSecond more element after rest
    · cases more with
      | nil =>
          rw [List.nil_append] at rest
          rw [List.append_nil] at inSecond
          have here := inSecond [] element after rest.symm
          rwa [List.append_nil] at here
      | cons other more =>
          rw [List.cons_append, List.cons_eq_cons] at rest
          obtain ⟨rfl, rfl⟩ := rest
          exact inFirst before element more rfl

/-- A step that always succeeds and keeps the invariant consumes nothing. -/
theorem Consumes.total {update : β → β}
    (kept : ∀ consumed state, invariant consumed state → invariant consumed (update state)) :
    Consumes invariant accepts [] fun state => (.ok (update state) : Except ε β) where
  isOk_iff _ state _ := iff_of_true ⟨update state, rfl⟩ acceptedAfter_nil
  keeps consumed state next here stepped := by
    rw [List.append_nil, ← Except.ok.inj stepped]
    exact kept consumed state here

/-- Steps one after the other consume what both consume. -/
theorem Consumes.bind {first second : List γ} {step next : β → Except ε β}
    (begins : Consumes invariant accepts first step)
    (goesOn : Consumes invariant accepts second next) :
    Consumes invariant accepts (first ++ second) fun state => step state >>= next where
  isOk_iff consumed state here := by
    rw [acceptedAfter_append, ← begins.isOk_iff consumed state here]
    constructor
    · rintro ⟨last, run⟩
      obtain ⟨middle, stepped, rest⟩ := bind_eq_ok.mp run
      exact ⟨⟨middle, stepped⟩,
        (goesOn.isOk_iff _ middle (begins.keeps _ _ _ here stepped)).mp ⟨last, rest⟩⟩
    · rintro ⟨⟨middle, stepped⟩, accepted⟩
      obtain ⟨last, rest⟩ :=
        (goesOn.isOk_iff _ middle (begins.keeps _ _ _ here stepped)).mpr accepted
      exact ⟨last, bind_eq_ok.mpr ⟨middle, stepped, rest⟩⟩
  keeps consumed state last here run := by
    obtain ⟨middle, stepped, rest⟩ := bind_eq_ok.mp run
    rw [← List.append_assoc]
    exact goesOn.keeps _ _ _ (begins.keeps _ _ _ here stepped) rest

/-- **A fold consumes what its steps consume.** -/
theorem Consumes.foldlM {consumes : δ → List γ} {step : β → δ → Except ε β} {items : List δ}
    (steps : ∀ item ∈ items,
      Consumes invariant accepts (consumes item) fun state => step state item) :
    Consumes invariant accepts (items.flatMap consumes) fun state => items.foldlM step state := by
  induction items with
  | nil => exact Consumes.total fun _ _ here => here
  | cons item items ih =>
      simp only [List.flatMap_cons, List.foldlM_cons]
      exact (steps item List.mem_cons_self).bind
        (ih fun other member => steps other (List.mem_cons_of_mem _ member))

end Consumes

end HomeclusterInfra.Checked
