import HomeclusterInfra.Library.Runs
import HomeclusterInfra.Rollout.Recommendation

/-!
# Runs after runs

The caller stores the record of each run under the name of its phase. The
accepted generation and the inventory stay as they are.

A failed rollback writes its own record over the one it was resolved from, and
a rollback record recommends nothing. So a rollback can be tried again exactly
when another phase's record has the same targets and selectors.
-/

set_option autoImplicit false

namespace HomeclusterInfra.Rollout

open Text Python Checked Runs

section Retries

variable [UnicodeData]

/-! ## The store after a run -/

/-- The caller stores the record of a run, if there is one. -/
def storeAfter (env : Env) (store : Store) (phase : Phase) : Store :=
  match (main env store phase).bind Result.phaseRecord with
  | some record => store.put record
  | none => store

theorem storeAfter_of_record {env : Env} {store : Store} {phase : Phase} {result : Result}
    {record : Dict} (printed : main env store phase = some result)
    (recorded : result.phaseRecord = some record) :
    storeAfter env store phase = store.put record := by
  rw [storeAfter, printed, Option.bind_some, recorded]

omit [UnicodeData] in
theorem Store.put_eq {store : Store} {record : Dict} {phase : RuntimePhase}
    (named : record.get "phase" = some (.str phase.text)) :
    store.put record = Function.update store phase record := by
  simp only [Store.put, named, RuntimePhase.ofText_text]

/-- The record of a run goes to the phase of its policy, and holds the verdict. -/
theorem Ending.put_eq {env : Env} {phase : Phase} {plan : Plan} {reported record : Dict}
    (ending : Ending env phase plan reported record) (store : Store) :
    store.put record = Function.update store plan.policy.recordPhase record := by
  cases ending with
  | selectorFailed _ written => exact Store.put_eq (written ▸ (phaseRecordValue_readsAs _ _).phase)
  | bootFailed _ _ _ _ written => exact Store.put_eq (written ▸ (phaseRecordValue_readsAs _ _).phase)
  | decided _ _ _ written => exact Store.put_eq (written ▸ (phaseRecordValue_readsAs _ _).phase)

/-- The record of a rollback recommends nothing. -/
theorem Ending.rollback_unrecommended {env : Env} {plan : Plan} {reported record : Dict}
    (ending : Ending env .rollbackLastPhase plan reported record) :
    recommendsRollback record = false := by
  have plain : ∀ globals args, globals.currentAction = some .rollbackLastPhase →
      recommendsRollback (phaseRecordValue globals args) = false := by
    intro globals args action
    rw [← Bool.not_eq_true, recommendsRollback_iff,
      (phaseRecordValue_readsAs globals args).recommended]
    simp [verdict, action]
  cases ending with
  | selectorFailed _ written => exact written ▸ plain _ _ rfl
  | bootFailed _ _ _ _ written => exact written ▸ plain _ _ rfl
  | decided _ _ _ written => exact written ▸ plain _ _ rfl

/-! ## Resolving in a changed store -/

omit [UnicodeData] in
/-- Two predicates that agree away from one element find the same unless the
first one finds that element. -/
theorem find?_eq_find?_filter {α : Type} [DecidableEq α] {asks others : α → Bool} {element : α}
    (alike : ∀ found, found ≠ element → asks found = others found) :
    ∀ {elements : List α}, elements.find? asks ≠ some element →
      elements.find? asks = (elements.filter (· != element)).find? others := by
  intro elements
  induction elements with
  | nil => exact fun _ => rfl
  | cons first elements ih =>
      intro other
      by_cases same : first = element
      · subst same
        rw [List.filter_cons_of_neg (by simp)]
        cases asked : asks first with
        | true => exact absurd (List.find?_cons_of_pos asked) other
        | false =>
            rw [List.find?_cons_of_neg (by simp [asked])] at other ⊢
            exact ih other
      · rw [List.filter_cons_of_pos (by simp [same]), List.find?_cons, List.find?_cons,
          ← alike first same]
        cases asked : asks first with
        | true => rfl
        | false =>
            rw [List.find?_cons_of_neg (by simp [asked])] at other
            exact ih other

section Resolving

variable {store other : Store} {agents : List String} {generation : List Char}

omit [UnicodeData] in
theorem generationRecord_update_of_ne {phase found : RuntimePhase} (apart : found ≠ phase)
    (record : Dict) : generationRecord (Function.update store phase record) found generation =
      generationRecord store found generation := by
  unfold generationRecord
  rw [Function.update_of_ne apart]

omit [UnicodeData] in
/-- A record that recommends nothing asks for nothing in any generation. -/
theorem recommendsRollback_update_self {phase : RuntimePhase} {record : Dict}
    (silent : recommendsRollback record = false) :
    recommendsRollback (generationRecord (Function.update store phase record) phase generation) =
      false := by
  rw [← Bool.not_eq_true, recommendsRollback_generationRecord, Function.update_self, silent]
  simp

/-- The last phase other than this one whose record asks for a rollback. -/
def sparePhase (store : Store) (overwritten : RuntimePhase) (generation : List Char) :
    Option RuntimePhase :=
  (reversedPhases.filter (· != overwritten)).find? fun phase =>
    recommendsRollback (generationRecord store phase generation)

omit [UnicodeData] in
theorem recommends_of_sparePhase {overwritten phase : RuntimePhase}
    (found : sparePhase store overwritten generation = some phase) :
    recommendsRollback (generationRecord store phase generation) = true := by
  have asks := List.find?_some found
  exact asks

omit [UnicodeData] in
theorem ne_of_sparePhase {overwritten phase : RuntimePhase}
    (found : sparePhase store overwritten generation = some phase) : phase ≠ overwritten := by
  have member := List.mem_of_find?_eq_some found
  simpa using (List.mem_filter.mp member).2

omit [UnicodeData] in
theorem failedPhase_ne_of_silent {phase : RuntimePhase} {record : Dict}
    (silent : recommendsRollback record = false) :
    failedPhase (Function.update store phase record) generation ≠ some phase := by
  intro found
  have asks := recommends_of_failedPhase found
  rw [recommendsRollback_update_self silent] at asks
  cases asks

omit [UnicodeData] in
/-- If the new record is not the one that is found, then it is passed over. -/
theorem failedPhase_update {phase : RuntimePhase} {record : Dict}
    (other : failedPhase (Function.update store phase record) generation ≠ some phase) :
    failedPhase (Function.update store phase record) generation =
      sparePhase store phase generation := by
  apply find?_eq_find?_filter _ other
  intro found apart
  rw [generationRecord_update_of_ne apart]

/-- A store whose new record is not the one that is found resolves from the other ones. -/
theorem rollbackTargetPolicy_update {phase : RuntimePhase} {record : Dict} {policy : Policy}
    (other : failedPhase (Function.update store phase record) generation ≠ some phase) :
    rollbackTargetPolicy (Function.update store phase record) agents generation = .ok policy ↔
      isSafeRunId generation = true ∧ ∃ spare, sparePhase store phase generation = some spare ∧
        rollbackPolicy (store spare) agents = .ok policy := by
  rw [rollbackTargetPolicy_ok]
  refine and_congr_right fun _ => exists_congr fun spare => ?_
  have kept : sparePhase store phase generation = some spare →
      generationRecord (Function.update store phase record) spare generation = store spare := by
    intro found
    rw [generationRecord_update_of_ne (ne_of_sparePhase found),
      generationRecord_of_recommends (recommends_of_sparePhase found)]
  constructor
  · rintro ⟨first, resolved⟩
    rw [failedPhase_update other] at first
    rw [kept first] at resolved
    exact ⟨first, resolved⟩
  · rintro ⟨first, resolved⟩
    refine ⟨(failedPhase_update other).trans first, ?_⟩
    rw [kept first]
    exact resolved

end Resolving

/-! ## Rollbacks that fail -/

/-- The accepted generation and the staging fleet of a run. -/
structure Place where
  accepted : Dict
  fleet : List String

/-- The run finds this generation and this fleet. -/
structure AtPlace (place : Place) (env : Env) : Prop where
  accepted : latestAccepted env.preflight = .ok place.accepted
  fleet : env.preflight.fleet = .ok place.fleet

/-- What `rollback_last_phase` resolves to in a store. -/
def resolution (place : Place) (store : Store) : Except Raised Policy :=
  rollbackTargetPolicy store place.fleet (generationOf place.accepted)

/-- A rollback resolves to these targets with these previous selectors. -/
def Resolves (place : Place) (store : Store) (targets : List String) (selectors : Dict) : Prop :=
  ∃ policy, resolution place store = .ok policy ∧ policy.targets = targets ∧
    policy.rollbackSelectors = selectors

/-- The store after a rollback. -/
def afterRollback (store : Store) (env : Env) : Store :=
  storeAfter env store .rollbackLastPhase

/-- A rollback that left a record and is not rolled back. -/
structure FailedRollback (place : Place) (store : Store) (env : Env) : Prop where
  atPlace : AtPlace place env
  failed : ∃ result record, main env store .rollbackLastPhase = some result ∧
    result.phaseRecord = some record ∧ record.get "acceptance_status" ≠ some (.str "rolled_back")

/-- The record that a rollback finds in the store is one of this phase. -/
def FoundRecordOf (place : Place) (store : Store) (phase : RuntimePhase) : Prop :=
  ∃ found name, failedPhase store (generationOf place.accepted) = some found ∧
    (store found).get "phase" = some name ∧ RuntimePhase.ofText name.text = some phase

/-- Besides the record that a rollback finds, the store has a record of another
phase that recommends a rollback, and it has these targets and selectors. -/
def SpareRecord (place : Place) (targets : List String) (selectors : Dict) (store : Store) :
    Prop :=
  ∃ overwritten spare phase, FoundRecordOf place store overwritten ∧
    sparePhase store overwritten (generationOf place.accepted) = some spare ∧
    TakenFrom (store spare) ⟨targets, selectors, phase⟩

theorem foundRecordOf_unique {place : Place} {store : Store} {first second : RuntimePhase}
    (one : FoundRecordOf place store first) (other : FoundRecordOf place store second) :
    first = second := by
  obtain ⟨found, name, asks, named, phase⟩ := one
  obtain ⟨found', name', asks', named', phase'⟩ := other
  obtain rfl := Option.some.inj (asks.symm.trans asks')
  obtain rfl := Option.some.inj (named.symm.trans named')
  exact Option.some.inj (phase.symm.trans phase')

theorem foundRecordOf_of_resolution {place : Place} {store : Store} {policy : Policy}
    (resolved : resolution place store = .ok policy) :
    FoundRecordOf place store policy.recordPhase := by
  obtain ⟨-, found, first, taken⟩ := rollbackTargetPolicy_ok.mp resolved
  rw [generationRecord_of_recommends (recommends_of_failedPhase first)] at taken
  obtain ⟨name, named, phase⟩ := (rollbackPolicy_ok taken).phase
  exact ⟨found, name, first, named, phase⟩

/-- What a store resolves to are agents of the fleet, in a safe generation. -/
theorem Resolves.valid {place : Place} {store : Store} {targets : List String} {selectors : Dict}
    (resolves : Resolves place store targets selectors) :
    isSafeRunId (generationOf place.accepted) = true ∧ targets ≠ [] ∧
      ∀ target ∈ targets, target ∈ place.fleet := by
  obtain ⟨policy, resolved, rfl, -⟩ := resolves
  obtain ⟨safe, found, -, taken⟩ := rollbackTargetPolicy_ok.mp resolved
  exact ⟨safe, targets_of_rollbackPolicy taken⟩

/-- A rollback that leaves a record overwrites the one it was resolved from. -/
theorem afterRollback_eq {place : Place} {store : Store} {env : Env}
    (failed : FailedRollback place store env) :
    ∃ overwritten record, FoundRecordOf place store overwritten ∧
      recommendsRollback record = false ∧
      afterRollback store env = Function.update store overwritten record := by
  obtain ⟨result, record, printed, recorded, -⟩ := failed.failed
  obtain ⟨plan, reported, planned, -, ending⟩ := ending_of_record printed recorded
  obtain ⟨latest, egpuTarget, fleet, -, fleetOk, resolved⟩ := preflight_ok planned
  obtain rfl := Except.ok.inj (failed.atPlace.fleet.symm.trans fleetOk)
  have accepted := Except.ok.inj (latest.symm.trans failed.atPlace.accepted)
  rw [accepted] at resolved
  refine ⟨plan.policy.recordPhase, record, foundRecordOf_of_resolution resolved,
    ending.rollback_unrecommended, ?_⟩
  rw [afterRollback, storeAfter_of_record printed recorded, ending.put_eq]

/-- The step of the run: after one failed rollback. -/
theorem resolves_afterRollback_iff {place : Place} {store : Store} {env : Env}
    {targets : List String} {selectors : Dict} (failed : FailedRollback place store env)
    (safe : isSafeRunId (generationOf place.accepted) = true) (nonempty : targets ≠ [])
    (known : ∀ target ∈ targets, target ∈ place.fleet) :
    Resolves place (afterRollback store env) targets selectors ↔
      SpareRecord place targets selectors store := by
  obtain ⟨overwritten, record, found, silent, after⟩ := afterRollback_eq failed
  rw [after]
  constructor
  · rintro ⟨policy, resolved, rfl, rfl⟩
    obtain ⟨-, spare, other, taken⟩ :=
      (rollbackTargetPolicy_update (failedPhase_ne_of_silent silent)).mp resolved
    exact ⟨overwritten, spare, policy.recordPhase, found, other, rollbackPolicy_ok taken⟩
  · rintro ⟨overwritten', spare, phase, found', other, taken⟩
    obtain rfl := foundRecordOf_unique found found'
    refine ⟨⟨targets, selectors, phase⟩, ?_, rfl, rfl⟩
    exact (rollbackTargetPolicy_update (failedPhase_ne_of_silent silent)).mpr
      ⟨safe, spare, other, rollbackPolicy_eq_ok.mpr ⟨taken, nonempty, known⟩⟩

/-- **A failed rollback can be tried again exactly when the record it was resolved
from is not the only one** with these targets and selectors, for any number of
failed rollbacks in a row. -/
theorem rollback_retry_iff (place : Place) (targets : List String) (selectors : Dict)
    (attempts : List Env) (store : Store) (begins : Resolves place store targets selectors)
    (failed : EachStep afterRollback (FailedRollback place) store attempts) :
    EachStep afterRollback
        (fun before env => Resolves place (afterRollback before env) targets selectors) store
        attempts ↔
      EachStep afterRollback (fun before _ => SpareRecord place targets selectors before) store
        attempts := by
  obtain ⟨safe, nonempty, known⟩ := begins.valid
  apply eachStep_congr (fun _ => True) (fun _ _ _ _ => trivial) _ trivial failed
  intro before env _ attempt
  exact resolves_afterRollback_iff attempt safe nonempty known

section Fixtures

omit [UnicodeData]

/-- A rollback whose selector playbook fails before it writes a result file. -/
def fixtureBlockedRollback : Env :=
  { fixtureRejected with
    selector := { fixtureSelector [] with
      apply := .completed ⟨2, [], []⟩
      resultFile := .missing } }

/-- Where the fixtures run. -/
def fixturePlace : Place where
  accepted := [("generation_run_id", .str "20260801T000000Z-a"),
    ("exact_kernel_release", .str "6.18.0-v8-homecluster+"),
    ("pxe_candidate_selector", .str "20260801-rpi5")]
  fleet := ["server-a", "agent-a", "agent-e"]

theorem fixture_resolves : ∃ targets selectors,
    @Resolves asciiData fixturePlace fixtureStore targets selectors := by
  let _ : UnicodeData := asciiData
  obtain ⟨policy, resolved⟩ := exists_of_isSome (show
    (resolution fixturePlace fixtureStore).toOption.isSome = true by decide +kernel)
  exact ⟨policy.targets, policy.rollbackSelectors, policy, resolved, rfl, rfl⟩

theorem fixture_failedRollback :
    @FailedRollback asciiData fixturePlace fixtureStore fixtureBlockedRollback := by
  let _ : UnicodeData := asciiData
  obtain ⟨record, printed, fails⟩ := (Option.any_eq_true _ _).mp (show
    ((main fixtureBlockedRollback fixtureStore .rollbackLastPhase).bind
      Result.phaseRecord).any (hasAcceptance "fail") = true by decide +kernel)
  obtain ⟨result, printed, recorded⟩ := Option.bind_eq_some_iff.mp printed
  refine ⟨⟨rfl, rfl⟩, result, record, printed, recorded, ?_⟩
  rw [hasAcceptance, Value.same_str, getOrNone_eq_str] at fails
  simp [fails]

theorem rollback_retry_iff_fixture :
    ∃ (_ : UnicodeData) (targets : List String) (selectors : Dict),
      EachStep afterRollback
          (fun before env => Resolves fixturePlace (afterRollback before env) targets selectors)
          fixtureStore [fixtureBlockedRollback] ↔
        EachStep afterRollback (fun before _ => SpareRecord fixturePlace targets selectors before)
          fixtureStore [fixtureBlockedRollback] := by
  let _ : UnicodeData := asciiData
  obtain ⟨targets, selectors, begins⟩ := fixture_resolves
  exact ⟨asciiData, targets, selectors, rollback_retry_iff fixturePlace targets selectors
    [fixtureBlockedRollback] fixtureStore begins ⟨fixture_failedRollback, trivial⟩⟩

/-- **A rollback that failed before it changed anything cannot be tried again.** -/
theorem rollback_lost_after_blocked_rollback :
    ∃ (_ : UnicodeData) (place : Place) (store : Store) (env : Env) (targets : List String)
      (selectors : Dict), Resolves place store targets selectors ∧
        FailedRollback place store env ∧
        ¬ Resolves place (afterRollback store env) targets selectors := by
  let _ : UnicodeData := asciiData
  obtain ⟨targets, selectors, begins⟩ := fixture_resolves
  refine ⟨asciiData, fixturePlace, fixtureStore, fixtureBlockedRollback, targets, selectors,
    begins, fixture_failedRollback, ?_⟩
  rintro ⟨policy, resolved, -⟩
  have unresolved : (resolution fixturePlace
      (afterRollback fixtureStore fixtureBlockedRollback)).toOption.isSome = false := by
    decide +kernel
  rw [resolved] at unresolved
  cases unresolved

end Fixtures

end Retries

end HomeclusterInfra.Rollout
