import Mathlib.Data.List.TakeWhile
import HomeclusterInfra.Rollout.Retries

/-!
# Forward runs in a row

A forward run records as previous the selectors that are live when it begins.
After a run that changed a selector and did not pass, these are no longer the
last good ones. The next run that is booted and rejected replaces the record of
its phase, and a rollback then finds the last good selector only in the record
of another phase.

The selectors that runs moved their targets away from since the last pass are
kept beside the store, as a history that no program reads.
-/

set_option autoImplicit false

namespace HomeclusterInfra.Rollout

open Text Python Checked Runs

section ForwardRuns

variable [UnicodeData]

/-! ## The system -/

/-- A forward run, and the selectors that are live after it. -/
structure ForwardRun where
  env : Env
  after : String → Selector

/-- The records, the live selectors, and the selectors that targets were moved
away from since the last run that passed. -/
structure World where
  store : Store
  live : String → Selector
  replaced : String → Selector → Prop

/-- The run printed a result with status `pass`. -/
def Passed (phase : RuntimePhase) (world : World) (run : ForwardRun) : Prop :=
  ∃ result, main run.env world.store (.forward phase) = some result ∧ result.status = "pass"

/-- The world after a run of the phase. -/
def advance (phase : RuntimePhase) (world : World) (run : ForwardRun) : World where
  store := storeAfter run.env world.store (.forward phase)
  live := run.after
  replaced target selector := ¬ Passed phase world run ∧
    (world.replaced target selector ∨
      selector = world.live target ∧ run.after target ≠ selector)

/-- What is taken for granted of each run: the generation and the fleet do not
change, the playbook touches its targets only, and it reports their live
selectors as the previous ones. -/
structure Faithful (place : Place) (phase : RuntimePhase) (world : World) (run : ForwardRun) :
    Prop where
  atPlace : AtPlace place run.env
  touches : ∀ node, run.after node ≠ world.live node →
    ∃ plan, preflight run.env.preflight world.store (.forward phase) = .ok plan ∧
      node ∈ plan.policy.targets
  reports : ∀ plan reported, preflight run.env.preflight world.store (.forward phase) = .ok plan →
    run.env.selector.resultFile = .object reported →
      ∃ previous, reported.get "previous_selector_by_node" = some (.dict previous) ∧
        ∀ target ∈ plan.policy.targets, HasSelector previous target (world.live target)

/-- A run that ends with a boot that passed and an acceptance that failed. -/
structure Rejected (phase : RuntimePhase) (world : World) (run : ForwardRun) : Prop where
  recorded : ∃ result record, main run.env world.store (.forward phase) = some result ∧
    result.phaseRecord = some record
  booted : ∃ reported, readResult run.env.selector.resultFile = .ok reported ∧
    BootPassed run.env reported
  refused : acceptPhase run.env.acceptance (.forward phase) = .ok false

/-- `rollback_last_phase` resolves, and resolves the target to the selector. -/
def ResolvesTo (place : Place) (store : Store) (target : String) (selector : Selector) : Prop :=
  ∃ policy, resolution place store = .ok policy ∧ target ∈ policy.targets ∧
    HasSelector policy.rollbackSelectors target selector

/-- After a rejected run the rollback resolves every target to the selector it
was moved away from. -/
def KeepsLastGood (place : Place) (phase : RuntimePhase) (world : World) (run : ForwardRun) :
    Prop :=
  Rejected phase world run → ∀ target selector, world.replaced target selector →
    ResolvesTo place (advance phase world run).store target selector

/-- The record of the run is the one that a rollback finds: by its report a
selector changed, and no later phase's record asks for a rollback. -/
structure Supersedes (place : Place) (phase : RuntimePhase) (world : World) (run : ForwardRun) :
    Prop where
  changed : ∃ plan reported,
    preflight run.env.preflight world.store (.forward phase) = .ok plan ∧
      readResult run.env.selector.resultFile = .ok reported ∧ SelectorChanged plan reported
  last : ∀ later ∈ reversedPhases.takeWhile (· != phase),
    recommendsRollback (generationRecord world.store later (generationOf place.accepted)) = false

/-- The record that a rollback finds among those of the other phases has the
selector for the target. -/
def SpareSelector (place : Place) (phase : RuntimePhase) (store : Store) (target : String)
    (selector : Selector) : Prop :=
  ∃ spare policy, sparePhase store phase (generationOf place.accepted) = some spare ∧
    TakenFrom (store spare) policy ∧ (∀ name ∈ policy.targets, name ∈ place.fleet) ∧
    target ∈ policy.targets ∧ HasSelector policy.rollbackSelectors target selector

/-- Every selector that a target was moved away from is held by another phase's
record, which a rejected run does not supersede. -/
def HeldElsewhere (place : Place) (phase : RuntimePhase) (world : World) (run : ForwardRun) :
    Prop :=
  Rejected phase world run → ∀ target selector, world.replaced target selector →
    ¬ Supersedes place phase world run ∧ SpareSelector place phase world.store target selector

/-! ## The record of a rejected run -/

/-- What a rejected run leaves in the store. -/
structure RejectedRecord (place : Place) (phase : RuntimePhase) (world : World) (run : ForwardRun)
    (record : Dict) : Prop where
  store : (advance phase world run).store = Function.update world.store phase record
  asks : recommendsRollback record = true ↔ ∃ plan reported,
    preflight run.env.preflight world.store (.forward phase) = .ok plan ∧
      readResult run.env.selector.resultFile = .ok reported ∧ SelectorChanged plan reported
  generation : record.get "accepted_generation_run_id" =
    some (.str (String.ofList (generationOf place.accepted)))
  safe : isSafeRunId (generationOf place.accepted) = true
  previous : ∃ (selectors : Dict) (targets : List String),
    record.get "previous_selector_by_node" = some (.dict selectors) ∧
      record.get "targets" = some (.list (targets.map .str)) ∧
      ∀ target ∈ targets, HasSelector selectors target (world.live target)

omit [UnicodeData] in
/-- A forward policy is only made for a safe run id. -/
theorem isSafeRunId_of_originalTargetPolicy {store : Store} {phase : RuntimePhase}
    {agents : List String} {egpuTarget : String} {generation : List Char} {policy : Policy}
    (resolved : originalTargetPolicy store phase agents egpuTarget generation = .ok policy) :
    isSafeRunId generation = true ∧ policy.recordPhase = phase := by
  unfold originalTargetPolicy at resolved
  obtain ⟨generic, read, resolved⟩ := bind_eq_ok.mp resolved
  obtain ⟨_, safe, -⟩ := bind_eq_ok.mp read
  refine ⟨require_eq_ok.mp safe, ?_⟩
  simp only [bind_eq_ok] at resolved
  obtain ⟨egpu, -, fleet, -, fullFleet, -, resolved⟩ := resolved
  cases phase with
  | genericCanary =>
      simp only [bind_eq_ok] at resolved
      obtain ⟨-, -, resolved⟩ := resolved
      split at resolved
      · cases resolved
      · exact (congrArg Policy.recordPhase (pure_eq_ok.mp resolved)).symm
  | egpuCanary =>
      simp only [bind_eq_ok, pure_eq_ok] at resolved
      obtain ⟨-, -, -, -, rfl⟩ := resolved
      rfl
  | fleetRollout =>
      simp only [bind_eq_ok, pure_eq_ok] at resolved
      obtain ⟨-, -, -, -, first, -, second, -, -, -, rfl⟩ := resolved
      rfl
  | fullFleet =>
      simp only [bind_eq_ok, pure_eq_ok] at resolved
      obtain ⟨-, -, -, -, rfl⟩ := resolved
      rfl

/-- **A rejected run leaves a record** with the selectors that were live before
it, which asks for a rollback if the run reports a changed selector. -/
theorem Rejected.record {place : Place} {phase : RuntimePhase} {world : World} {run : ForwardRun}
    (faithful : Faithful place phase world run) (rejected : Rejected phase world run) :
    ∃ record, RejectedRecord place phase world run record := by
  obtain ⟨result, record, printed, recorded⟩ := rejected.recorded
  obtain ⟨plan, reported, planned, read, ending⟩ := ending_of_record printed recorded
  obtain ⟨reported', read', booted⟩ := rejected.booted
  obtain rfl := Except.ok.inj (read.symm.trans read')
  obtain ⟨latest, egpuTarget, fleet, -, -, resolved⟩ := preflight_ok planned
  obtain ⟨safe, forPhase⟩ := isSafeRunId_of_originalTargetPolicy resolved
  have accepted := Except.ok.inj (latest.symm.trans faithful.atPlace.accepted)
  have stored : (advance phase world run).store = Function.update world.store phase record := by
    rw [advance, storeAfter_of_record printed recorded, ending.put_eq, forPhase]
  cases ending with
  | selectorFailed unbooted => exact absurd booted unbooted
  | bootFailed unbooted => exact absurd booted unbooted
  | @decided runId decision _ named accepts written =>
      obtain rfl := Except.ok.inj (accepts.symm.trans rejected.refused)
      obtain ⟨recommended, acceptance, -⟩ :
          (verdict (((selectorGlobals run.env (.forward phase) plan).withBoot
            "pass".toList).withAcceptance false)
            (recordArgs run.env plan reported runId "fail")).rollbackRecommended =
              selectorsChanged plan.policy.targets reported ∧ _ :=
        verdict_rejected rfl named rfl rfl
      have reads := written ▸ phaseRecordValue_readsAs
        (((selectorGlobals run.env (.forward phase) plan).withBoot "pass".toList).withAcceptance
          false)
        (recordArgs run.env plan reported runId "fail")
      refine ⟨record, stored, ?_, ?_, accepted ▸ safe, ?_⟩
      · rw [recommendsRollback_iff, reads.acceptance, reads.recommended, recommended, acceptance,
          Option.some.injEq, Option.some.injEq, Value.bool.injEq, selectorsChanged_iff]
        constructor
        · exact fun changed => ⟨plan, reported, planned, read, changed.2⟩
        · rintro ⟨plan', reported', planned', read', changed⟩
          obtain rfl := Except.ok.inj (planned.symm.trans planned')
          obtain rfl := Except.ok.inj (read.symm.trans read')
          exact ⟨rfl, changed⟩
      · rw [reads.generation, ← accepted]
        rfl
      · have object : run.env.selector.resultFile = .object reported := by
          have applied := booted.applied
          cases file : run.env.selector.resultFile with
          | object value =>
              rw [file] at read
              rw [Except.ok.inj read]
          | missing =>
              rw [file] at read
              rw [← Except.ok.inj read] at applied
              cases applied
          | malformed =>
              rw [file] at read
              rw [← Except.ok.inj read] at applied
              cases applied
          | unreadable =>
              rw [file] at read
              cases read
        obtain ⟨previous, before, selectors⟩ := faithful.reports plan reported planned object
        refine ⟨previous, plan.policy.targets, ?_, reads.targets, selectors⟩
        rw [reads.previous]
        exact congrArg (fun value => some (Option.getD value _)) before

/-! ## Which record is found -/

section Found

omit [UnicodeData]

/-- An element is found exactly when it is asked for and nothing before it is. -/
theorem find?_eq_some_iff_takeWhile {α : Type} [DecidableEq α] {asks : α → Bool} {element : α} :
    ∀ {elements : List α}, element ∈ elements →
      (elements.find? asks = some element ↔
        asks element = true ∧ ∀ found ∈ elements.takeWhile (· != element), asks found = false) := by
  intro elements
  induction elements with
  | nil => exact fun member => absurd member List.not_mem_nil
  | cons first elements ih =>
      intro member
      by_cases same : first = element
      · subst same
        rw [List.takeWhile_cons_of_neg (by simp)]
        constructor
        · exact fun found => ⟨List.find?_some found, fun _ none => absurd none List.not_mem_nil⟩
        · exact fun asked => List.find?_cons_of_pos asked.1
      · have rest := (List.mem_cons.mp member).resolve_left (Ne.symm same)
        rw [List.takeWhile_cons_of_pos (by simp [same]), List.forall_mem_cons]
        cases asked : asks first with
        | true =>
            rw [List.find?_cons_of_pos asked]
            simp [same]
        | false =>
            rw [List.find?_cons_of_neg (by simp [asked]), ih rest]
            simp

end Found

/-- The record of a rejected run is found exactly when the run supersedes. -/
theorem RejectedRecord.found_iff {place : Place} {phase : RuntimePhase} {world : World}
    {run : ForwardRun} {record : Dict} (left : RejectedRecord place phase world run record) :
    failedPhase (Function.update world.store phase record) (generationOf place.accepted) =
      some phase ↔ Supersedes place phase world run := by
  have own : recommendsRollback (generationRecord (Function.update world.store phase record) phase
      (generationOf place.accepted)) = true ↔ recommendsRollback record = true := by
    rw [recommendsRollback_generationRecord, Function.update_self]
    exact and_iff_right left.generation
  have others : ∀ later ∈ reversedPhases.takeWhile (· != phase),
      generationRecord (Function.update world.store phase record) later
        (generationOf place.accepted) =
      generationRecord world.store later (generationOf place.accepted) := by
    intro later member
    have apart : later ≠ phase := by simpa using List.mem_takeWhile_imp member
    rw [generationRecord_update_of_ne apart]
  unfold failedPhase
  rw [find?_eq_some_iff_takeWhile (mem_reversedPhases phase), own, left.asks]
  constructor
  · rintro ⟨changed, last⟩
    exact ⟨changed, fun later member => others later member ▸ last later member⟩
  · rintro ⟨changed, last⟩
    exact ⟨changed, fun later member => (others later member).symm ▸ last later member⟩

/-- A run that supersedes resolves its targets to what was live before it. -/
theorem RejectedRecord.resolvesTo_live {place : Place} {phase : RuntimePhase} {world : World}
    {run : ForwardRun} {record : Dict} (left : RejectedRecord place phase world run record)
    (found : failedPhase (Function.update world.store phase record)
      (generationOf place.accepted) = some phase) {target : String} {selector : Selector}
    (resolves : ResolvesTo place (Function.update world.store phase record) target selector) :
    selector = world.live target := by
  obtain ⟨policy, resolved, member, selected⟩ := resolves
  obtain ⟨-, found', first, taken⟩ := rollbackTargetPolicy_ok.mp resolved
  obtain rfl := Option.some.inj (found.symm.trans first)
  rw [generationRecord_of_recommends (recommends_of_failedPhase found),
    Function.update_self] at taken
  obtain ⟨selectors, targets, before, listed, live⟩ := left.previous
  have own := rollbackPolicy_ok taken
  have sameSelectors := Value.dict.inj (Option.some.inj (own.previous.symm.trans before))
  have sameTargets := Value.list.inj (Option.some.inj (own.targets.symm.trans listed))
  have same : policy.targets = targets :=
    List.map_injective_iff.mpr (fun _ _ equal => Value.str.inj equal) sameTargets
  rw [sameSelectors] at selected
  exact selected.unique (live target (same ▸ member))

/-- A run that does not supersede leaves the rollback to the other records. -/
theorem RejectedRecord.resolvesTo_iff_spare {place : Place} {phase : RuntimePhase} {world : World}
    {run : ForwardRun} {record : Dict} (left : RejectedRecord place phase world run record)
    (other : failedPhase (Function.update world.store phase record)
      (generationOf place.accepted) ≠ some phase) {target : String} {selector : Selector} :
    ResolvesTo place (Function.update world.store phase record) target selector ↔
      SpareSelector place phase world.store target selector := by
  unfold ResolvesTo resolution
  constructor
  · rintro ⟨policy, resolved, member, selected⟩
    obtain ⟨-, spare, found, taken⟩ := (rollbackTargetPolicy_update other).mp resolved
    obtain ⟨from_, -, known⟩ := rollbackPolicy_eq_ok.mp taken
    exact ⟨spare, policy, found, from_, known, member, selected⟩
  · rintro ⟨spare, policy, found, taken, known, member, selected⟩
    refine ⟨policy, ?_, member, selected⟩
    exact (rollbackTargetPolicy_update other).mpr ⟨left.safe, spare, found,
      rollbackPolicy_eq_ok.mpr ⟨taken, List.ne_nil_of_mem member, known⟩⟩

/-! ## Whole runs -/

/-- While a selector is replaced, some target is not at the one it was moved away from. -/
def Moved (world : World) : Prop :=
  (∃ target selector, world.replaced target selector) →
    ∃ target selector, world.replaced target selector ∧ selector ≠ world.live target

theorem moved_advance {phase : RuntimePhase} {world : World} {run : ForwardRun}
    (moved : Moved world) : Moved (advance phase world run) := by
  rintro ⟨target, selector, unpassed, replaced⟩
  by_cases change : ∃ node, run.after node ≠ world.live node
  · obtain ⟨node, differs⟩ := change
    exact ⟨node, world.live node, ⟨unpassed, .inr ⟨rfl, differs⟩⟩, differs.symm⟩
  · have same : run.after = world.live := by
      funext node
      by_contra differs
      exact change ⟨node, differs⟩
    have earlier : world.replaced target selector := by
      rcases replaced with earlier | ⟨before, after⟩
      · exact earlier
      · exact absurd (before ▸ congrFun same target) after
    obtain ⟨node, before, replaced, differs⟩ := moved ⟨target, selector, earlier⟩
    refine ⟨node, before, ⟨unpassed, .inl replaced⟩, ?_⟩
    rw [advance, same]
    exact differs

/-- The step of the run. -/
theorem keepsLastGood_iff {place : Place} {phase : RuntimePhase} {world : World}
    {run : ForwardRun} (moved : Moved world) (faithful : Faithful place phase world run) :
    KeepsLastGood place phase world run ↔ HeldElsewhere place phase world run := by
  refine forall_congr' fun rejected => ?_
  obtain ⟨record, left⟩ := rejected.record faithful
  rw [left.store]
  by_cases found : failedPhase (Function.update world.store phase record)
      (generationOf place.accepted) = some phase
  · have supersedes := left.found_iff.mp found
    constructor
    · intro keeps target selector replaced
      obtain ⟨node, before, replaced, differs⟩ := moved ⟨target, selector, replaced⟩
      exact absurd (left.resolvesTo_live found (keeps node before replaced)) differs
    · intro held target selector replaced
      exact absurd supersedes (held target selector replaced).1
  · have silent := fun supersedes => found (left.found_iff.mpr supersedes)
    refine forall_congr' fun target => forall_congr' fun selector => forall_congr' fun _ => ?_
    rw [left.resolvesTo_iff_spare found]
    exact (and_iff_right silent).symm

/-- **Forward retries keep the last good selector exactly when another phase's
record holds it**, over any run of forward runs of one phase. -/
theorem forward_retry_iff (place : Place) (phase : RuntimePhase) (store : Store)
    (live : String → Selector) (runs : List ForwardRun)
    (faithful : EachStep (advance phase) (Faithful place phase) ⟨store, live, fun _ _ => False⟩
      runs) :
    EachStep (advance phase) (KeepsLastGood place phase) ⟨store, live, fun _ _ => False⟩ runs ↔
      EachStep (advance phase) (HeldElsewhere place phase) ⟨store, live, fun _ _ => False⟩
        runs := by
  apply eachStep_congr Moved (fun _ _ moved _ => moved_advance moved)
    (fun _ _ moved faithful => keepsLastGood_iff moved faithful) _ faithful
  rintro ⟨target, selector, replaced⟩
  exact replaced.elim

section Fixtures

omit [UnicodeData]

/-- A canary that moves its target and does not come back from the boot. -/
def fixtureUnbooted : ForwardRun where
  env := fixtureEnv (fixtureApplied "20260701-rpi5" "20260801-rpi5") (fixtureBoot "fail")
    (fixtureAcceptance 0)
  after node := if node = "agent-a" then ⟨"20260801-rpi5", "20260801-rpi5"⟩
    else ⟨"20260701-rpi5", "20260701-rpi5"⟩

/-- A second canary, which boots and is rejected. -/
def fixtureRetried : ForwardRun where
  env := fixtureEnv (fixtureApplied "20260801-rpi5" "20260801-rpi5") (fixtureBoot "pass")
    (fixtureAcceptance 2)
  after := fixtureUnbooted.after

/-- No record, and an old release on all boards. -/
def fixtureWorld : World where
  store _ := []
  live _ := ⟨"20260701-rpi5", "20260701-rpi5"⟩
  replaced _ _ := False

theorem hasSelector_fixture (release : String) :
    HasSelector [("agent-a", fixtureSelectorOf release)] "agent-a" ⟨release, release⟩ :=
  ⟨_, rfl, rfl, rfl⟩

/-- A run of the fixtures is faithful where its target is `agent-a`. -/
theorem fixture_faithful [UnicodeData] {world : World} {before after : String}
    {freshBoot : FreshBootEnv} {acceptance : AcceptanceEnv} {live : String → Selector}
    (target : (preflight fixturePreflight world.store (.forward .genericCanary)).toOption.map
      (fun plan => plan.policy.targets) = some ["agent-a"])
    (begins : world.live "agent-a" = ⟨before, before⟩)
    (touches : ∀ node, live node ≠ world.live node → node = "agent-a") :
    Faithful fixturePlace .genericCanary world
      ⟨fixtureEnv (fixtureApplied before after) freshBoot acceptance, live⟩ := by
  obtain ⟨plan, planned, targets⟩ := Option.map_eq_some_iff.mp target
  rw [toOption_eq_some] at planned
  refine ⟨⟨rfl, rfl⟩, fun node differs => ⟨plan, planned, ?_⟩, ?_⟩
  · rw [targets, touches node differs]
    exact List.mem_singleton_self _
  · intro plan' reported planned' object
    obtain rfl := Except.ok.inj (planned.symm.trans planned')
    obtain rfl := ResultFile.object.inj object
    refine ⟨_, rfl, fun name member => ?_⟩
    obtain rfl := List.mem_singleton.mp (targets ▸ member)
    rw [begins]
    exact hasSelector_fixture before

theorem fixture_runs_faithful :
    EachStep (@advance asciiData .genericCanary) (@Faithful asciiData fixturePlace .genericCanary)
      fixtureWorld [fixtureUnbooted, fixtureRetried] := by
  let _ : UnicodeData := asciiData
  refine ⟨fixture_faithful (by decide +kernel) rfl fun node differs => ?_,
    fixture_faithful (by decide +kernel) rfl fun node differs => absurd rfl differs, trivial⟩
  by_contra other
  exact differs (if_neg other)

theorem forward_retry_iff_fixture : ∃ (_ : UnicodeData),
    EachStep (advance .genericCanary) (KeepsLastGood fixturePlace .genericCanary) fixtureWorld
        [fixtureUnbooted, fixtureRetried] ↔
      EachStep (advance .genericCanary) (HeldElsewhere fixturePlace .genericCanary) fixtureWorld
        [fixtureUnbooted, fixtureRetried] :=
  ⟨asciiData, @forward_retry_iff asciiData fixturePlace .genericCanary _ _ _
    fixture_runs_faithful⟩

/-- The retry of the fixtures boots and is rejected. -/
theorem fixture_rejected : @Rejected asciiData .genericCanary
    (@advance asciiData .genericCanary fixtureWorld fixtureUnbooted) fixtureRetried := by
  let _ : UnicodeData := asciiData
  refine ⟨?_, ⟨_, rfl, ⟨⟨_, rfl, rfl⟩, by decide, ?_⟩⟩, rfl⟩
  · obtain ⟨record, printed⟩ := Option.isSome_iff_exists.mp (show
      ((main fixtureRetried.env (advance .genericCanary fixtureWorld fixtureUnbooted).store
        (.forward .genericCanary)).bind Result.phaseRecord).isSome = true by decide +kernel)
    obtain ⟨result, printed, recorded⟩ := Option.bind_eq_some_iff.mp printed
    exact ⟨result, record, printed, recorded⟩
  · exact ⟨_, rfl⟩

/-- **The last good selector is lost** when a run moves its target without coming
back from the boot, and the run after it boots and is rejected. -/
theorem last_good_selector_lost :
    ∃ (_ : UnicodeData) (place : Place) (phase : RuntimePhase) (store : Store)
      (live : String → Selector) (runs : List ForwardRun),
      EachStep (advance phase) (Faithful place phase) ⟨store, live, fun _ _ => False⟩ runs ∧
        ¬ EachStep (advance phase) (KeepsLastGood place phase)
          ⟨store, live, fun _ _ => False⟩ runs := by
  let _ : UnicodeData := asciiData
  refine ⟨asciiData, fixturePlace, .genericCanary, fixtureWorld.store, fixtureWorld.live,
    [fixtureUnbooted, fixtureRetried], fixture_runs_faithful, ?_⟩
  rintro ⟨-, keeps, -⟩
  have unpassed : ¬ Passed .genericCanary fixtureWorld fixtureUnbooted := by
    have status : (main fixtureUnbooted.env fixtureWorld.store (.forward .genericCanary)).map
        Result.status = some "fail" := by
      decide +kernel
    rintro ⟨result, printed, pass⟩
    rw [printed, Option.map_some, pass] at status
    exact absurd status (by decide)
  obtain ⟨policy, resolved, -⟩ := keeps fixture_rejected "agent-a"
    ⟨"20260701-rpi5", "20260701-rpi5"⟩ ⟨unpassed, .inr ⟨rfl, by decide⟩⟩
  have unresolved : (resolution fixturePlace (advance .genericCanary
      (advance .genericCanary fixtureWorld fixtureUnbooted) fixtureRetried).store).toOption.isSome =
        false := by
    decide +kernel
  rw [show resolution fixturePlace (advance .genericCanary
    (advance .genericCanary fixtureWorld fixtureUnbooted) fixtureRetried).store = .ok policy from
      resolved] at unresolved
  cases unresolved

end Fixtures

end ForwardRuns

end HomeclusterInfra.Rollout
