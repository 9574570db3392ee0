import HomeclusterInfra.Rollout.Main

/-!
# After the selectors changed

Once the playbook has applied the selectors, the phase record of the run holds
what is needed to put them back. Each step after that point can still raise: a
helper is missing, a subprocess does not finish, a progress note cannot be
written. The handler of `main` knows nothing of the plan, and its result has no
record. So the record is carried exactly when no step after the playbook
raises.
-/

set_option autoImplicit false

namespace HomeclusterInfra.Rollout

open Text Python Checked

/-! ## Steps that give a value -/

theorem run_eq_ok {reply : RunReply} {completed : Completed} :
    run reply = .ok completed ↔ reply = .completed completed := by
  cases reply with
  | completed process => simp [run]
  | notExecuted => simp [run]
  | undecodable => simp [run]

theorem transition_eq_ok {written : Bool} {done : Unit} :
    transition written = .ok done ↔ written = true :=
  require_eq_ok

theorem hasStatus_iff {status : String} {selectorResult : Dict} :
    hasStatus status selectorResult = true ↔ selectorResult.get "status" = some (.str status) := by
  rw [hasStatus, stateOf, Value.same_str, getOrNone_eq_str]

/-- The calls of the wait helper up to its last word finish. -/
def WaitsFinish : List RunReply → Prop
  | [] => True
  | reply :: replies => ∃ completed, reply = .completed completed ∧
      (waitStatus completed = "in_progress".toList → WaitsFinish replies)

theorem watch_isOk_iff {replies : List RunReply} :
    (∃ status, watch replies = .ok status) ↔ WaitsFinish replies := by
  induction replies with
  | nil => simp [watch, WaitsFinish]
  | cons reply replies ih =>
      simp only [watch, WaitsFinish, bind_eq_ok, run_eq_ok]
      constructor
      · rintro ⟨status, completed, finished, continued⟩
        refine ⟨completed, finished, fun waiting => ih.mp ⟨status, ?_⟩⟩
        rwa [if_pos (by rw [beq_iff_eq]; exact waiting)] at continued
      · rintro ⟨completed, finished, rest⟩
        by_cases waiting : waitStatus completed = "in_progress".toList
        · obtain ⟨status, watched⟩ := ih.mpr (rest waiting)
          refine ⟨status, completed, finished, ?_⟩
          rw [if_pos (by rw [beq_iff_eq]; exact waiting)]
          exact watched
        · refine ⟨if waitStatus completed ∈ ["pass".toList, "fail".toList, "blocked".toList,
            "unknown".toList] then waitStatus completed else "unknown".toList, completed,
            finished, ?_⟩
          rw [if_neg (by rw [beq_iff_eq]; exact waiting)]
          split
          · rfl
          · rfl

/-- Nothing interrupts the fresh boot. -/
structure BootUninterrupted (env : FreshBootEnv) : Prop where
  startedWritten : env.startedWritten = true
  waitingWritten : env.waitingWritten = true
  helpersPresent : env.helpersPresent = true
  starts : ∃ completed, env.start = .completed completed ∧
    ((parseKv completed.stdout).get "status" = some "started".toList ∨
      (parseKv completed.stdout).get "status" = some "in_progress".toList) ∧
    isStamp (((parseKv completed.stdout).get "run_id").getD []) = true
  waits : WaitsFinish env.waits
  watchedWritten : env.watchedWritten = true

/-- What a fresh boot that gives a value has gone through. -/
theorem runFreshBoot_ok {env : FreshBootEnv} {runId status : List Char} :
    runFreshBoot env = .ok (runId, status) ↔
      env.startedWritten = true ∧ env.waitingWritten = true ∧ env.helpersPresent = true ∧
      (∃ completed, env.start = .completed completed ∧
        ((parseKv completed.stdout).get "status" = some "started".toList ∨
          (parseKv completed.stdout).get "status" = some "in_progress".toList) ∧
        isStamp (((parseKv completed.stdout).get "run_id").getD []) = true ∧
        ((parseKv completed.stdout).get "run_id").getD [] = runId) ∧
      watch env.waits = .ok status ∧ env.watchedWritten = true := by
  simp only [runFreshBoot, originalRunFreshBoot, transition_eq_ok, bind_eq_ok, require_eq_ok,
    run_eq_ok, pure_eq_ok, Bool.or_eq_true, beq_iff_eq, exists_const]
  constructor
  · rintro ⟨started, waiting, -, ⟨helpers, completed, start, state, stamp, last, watched, rfl⟩,
      written, same⟩
    obtain ⟨rfl, rfl⟩ := Prod.mk.inj same
    exact ⟨started, waiting, helpers, ⟨completed, start, state, stamp, rfl⟩, watched, written⟩
  · rintro ⟨started, waiting, helpers, ⟨completed, start, state, stamp, rfl⟩, watched, written⟩
    exact ⟨started, waiting, _, ⟨helpers, completed, start, state, stamp, status, watched, rfl⟩,
      written, rfl⟩

theorem runFreshBoot_isOk_iff {env : FreshBootEnv} :
    (∃ boot, runFreshBoot env = .ok boot) ↔ BootUninterrupted env := by
  constructor
  · rintro ⟨⟨runId, status⟩, booted⟩
    obtain ⟨started, waiting, helpers, ⟨completed, start, state, stamp, -⟩, watched, written⟩ :=
      runFreshBoot_ok.mp booted
    exact ⟨started, waiting, helpers, ⟨completed, start, state, stamp⟩,
      watch_isOk_iff.mp ⟨status, watched⟩, written⟩
  · rintro ⟨started, waiting, helpers, ⟨completed, start, state, stamp⟩, waits, written⟩
    obtain ⟨status, watched⟩ := watch_isOk_iff.mpr waits
    exact ⟨_, runFreshBoot_ok.mpr ⟨started, waiting, helpers,
      ⟨completed, start, state, stamp, rfl⟩, watched, written⟩⟩

theorem llmAccepts_isOk_iff {needed : Bool} {reply : RunReply} :
    (∃ accepted, llmAccepts needed reply = .ok accepted) ↔
      (needed = true → ∃ llm, reply = .completed llm) := by
  cases needed with
  | false => simp [llmAccepts]
  | true =>
      simp only [llmAccepts, if_true, bind_eq_ok, run_eq_ok, pure_eq_ok, true_implies]
      constructor
      · rintro ⟨accepted, llm, ran, -⟩
        exact ⟨llm, ran⟩
      · rintro ⟨llm, ran⟩
        exact ⟨_, llm, ran, rfl⟩

section Acceptance

variable [UnicodeData]

/-- The subprocesses of one attempt finish, as far as they are started. -/
def AttemptFinishes (needed : Bool) (observation : Observation) : Prop :=
  ∃ completed, observation.status.reply = .completed completed ∧
    (completed.returncode = 0 → observesHealthy observation.status = true → needed = true →
      ∃ llm, observation.llm = .completed llm)

theorem attempt_isOk_iff {needed : Bool} {observation : Observation} :
    (∃ accepted, attempt needed observation = .ok accepted) ↔
      AttemptFinishes needed observation := by
  simp only [attempt, AttemptFinishes, bind_eq_ok, run_eq_ok]
  constructor
  · rintro ⟨accepted, completed, finished, outcome⟩
    refine ⟨completed, finished, fun zero healthy => llmAccepts_isOk_iff.mp ⟨accepted, ?_⟩⟩
    rwa [if_pos (by simp [zero, healthy])] at outcome
  · rintro ⟨completed, finished, llm⟩
    by_cases settled : (completed.returncode == 0 && observesHealthy observation.status) = true
    · obtain ⟨zero, healthy⟩ := Bool.and_eq_true_iff.mp settled
      obtain ⟨accepted, asked⟩ := llmAccepts_isOk_iff.mpr (llm (beq_iff_eq.mp zero) healthy)
      exact ⟨accepted, completed, finished, by rw [if_pos settled, asked]⟩
    · exact ⟨false, completed, finished, by rw [if_neg settled]⟩

/-- The attempts finish up to the first that accepts or has no time left. -/
def AttemptsFinish (needed : Bool) (observation : Nat → Observation) : Nat → Nat → Prop
  | _, 0 => True
  | number, remaining + 1 => AttemptFinishes needed (observation number) ∧
      (attempt needed (observation number) = .ok false → (observation number).timeLeft = true →
        AttemptsFinish needed observation (number + 1) remaining)

theorem settle_isOk_iff {needed : Bool} {observation : Nat → Observation} {remaining : Nat} :
    ∀ {number : Nat}, (∃ accepted, settle needed observation number remaining = .ok accepted) ↔
      AttemptsFinish needed observation number remaining := by
  induction remaining with
  | zero => simp [settle, AttemptsFinish]
  | succ remaining ih =>
      intro number
      simp only [settle, AttemptsFinish, bind_eq_ok]
      rw [← attempt_isOk_iff]
      constructor
      · rintro ⟨accepted, first, attempted, continued⟩
        refine ⟨⟨first, attempted⟩, fun rejected timeLeft => ih.mp ⟨accepted, ?_⟩⟩
        obtain rfl := Except.ok.inj (attempted.symm.trans rejected)
        simpa [timeLeft] using continued
      · rintro ⟨⟨first, attempted⟩, rest⟩
        cases first with
        | true => exact ⟨true, true, attempted, rfl⟩
        | false =>
            cases timeLeft : (observation number).timeLeft with
            | false => exact ⟨false, false, attempted, by simp⟩
            | true =>
                obtain ⟨accepted, continued⟩ := ih.mpr (rest attempted timeLeft)
                exact ⟨accepted, false, attempted, by simpa using continued⟩

/-- The acceptance playbook and the attempts after it finish. -/
def PhaseFinishes (env : AcceptanceEnv) (phase : Phase) : Prop :=
  ∃ completed, env.playbook = .completed completed ∧
    (completed.returncode = 0 → env.statusHelperPresent = true →
      (needsLlm phase = true → env.llmHelperPresent = true) →
        AttemptsFinish (needsLlm phase) env.observation 1 maxAttempts)

theorem acceptPhase_isOk_iff {env : AcceptanceEnv} {phase : Phase} :
    (∃ accepted, acceptPhase env phase = .ok accepted) ↔ PhaseFinishes env phase := by
  simp only [acceptPhase, PhaseFinishes, bind_eq_ok, run_eq_ok]
  constructor
  · rintro ⟨accepted, completed, finished, outcome⟩
    refine ⟨completed, finished, fun zero status llm => settle_isOk_iff.mp ⟨accepted, ?_⟩⟩
    rw [if_neg (by simp [zero]), if_neg (by simp [status])] at outcome
    split at outcome
    next missing =>
        obtain ⟨need, absent⟩ := Bool.and_eq_true_iff.mp missing
        rw [llm need] at absent
        cases absent
    · exact outcome
  · rintro ⟨completed, finished, rest⟩
    by_cases zero : completed.returncode = 0
    · cases status : env.statusHelperPresent with
      | false => exact ⟨false, completed, finished, by simp [zero]⟩
      | true =>
          by_cases missing : (needsLlm phase && !env.llmHelperPresent) = true
          · exact ⟨false, completed, finished, by simp [zero, missing]⟩
          · have llm : needsLlm phase = true → env.llmHelperPresent = true := by
              intro need
              simpa [need] using missing
            obtain ⟨accepted, settled⟩ := settle_isOk_iff.mpr (rest zero status llm)
            exact ⟨accepted, completed, finished, by simpa [zero, missing] using settled⟩
    · exact ⟨false, completed, finished, by simp [zero]⟩

/-- Nothing interrupts the acceptance of the phase. -/
structure AcceptanceUninterrupted (env : AcceptanceEnv) (phase : Phase) : Prop where
  startedWritten : env.startedWritten = true
  finishes : PhaseFinishes env phase
  finishedWritten : env.finishedWritten = true

/-- What an acceptance after a fresh start of the flags that gives a value has
gone through. -/
theorem runPhaseAcceptance_ok {env : AcceptanceEnv} {phase : Phase} {globals next : Globals}
    {accepted : Bool} (uncached : globals.preflightAcceptance = none) :
    runPhaseAcceptance env phase globals = .ok (accepted, next) ↔
      env.startedWritten = true ∧ acceptPhase env phase = .ok accepted ∧
        next = globals.withAcceptance accepted ∧
        env.finishedWritten = true := by
  simp only [runPhaseAcceptance, runPhaseAcceptanceImpl, uncached, transition_eq_ok, bind_eq_ok,
    pure_eq_ok, exists_const]
  constructor
  · rintro ⟨started, -, ⟨verdict, accepts, rfl⟩, finished, same⟩
    obtain ⟨rfl, rfl⟩ := Prod.mk.inj same
    exact ⟨started, accepts, rfl, finished⟩
  · rintro ⟨started, accepts, rfl, finished⟩
    exact ⟨started, _, ⟨accepted, accepts, rfl⟩, finished, rfl⟩

/-! ## How a run ends -/

section End

variable {env : Env} {store : Store} {phase : Phase} {plan : Plan} {globals : Globals}
  {selectorResult : Dict}

/-- How a run ends after the selectors were applied and nothing was raised. -/
theorem bootAndAccept_ok {result : Result} (uncached : globals.preflightAcceptance = none) :
    bootAndAccept env phase plan globals selectorResult = .ok result ↔
      ∃ runId status, runFreshBoot env.freshBoot = .ok (runId, status) ∧
        (status ≠ "pass".toList ∧
            bootFailed env plan (globals.withBoot status) selectorResult runId status = result ∨
          status = "pass".toList ∧ env.acceptance.startedWritten = true ∧
            env.acceptance.finishedWritten = true ∧
            ∃ accepted, acceptPhase env.acceptance phase = .ok accepted ∧
              phaseDecided env phase plan ((globals.withBoot status).withAcceptance accepted)
                selectorResult runId accepted = result) := by
  rw [bootAndAccept, bind_eq_ok, Prod.exists]
  refine exists_congr fun runId => exists_congr fun status => and_congr_right fun _ => ?_
  have fresh : (globals.withBoot status).preflightAcceptance = none := uncached
  by_cases passes : status = "pass".toList
  · simp only [passes, bne_self_eq_false, Bool.false_eq_true, if_false, ne_eq, not_true_eq_false,
      false_and, false_or, true_and, bind_eq_ok, pure_eq_ok, Prod.exists]
    rw [passes] at fresh
    simp only [runPhaseAcceptance_ok fresh]
    constructor
    · rintro ⟨accepted, next, ⟨started, accepts, rfl, finished⟩, rfl⟩
      exact ⟨started, finished, accepted, accepts, rfl⟩
    · rintro ⟨started, finished, accepted, accepts, rfl⟩
      exact ⟨accepted, _, ⟨started, accepts, rfl, finished⟩, rfl⟩
  · simp only [bne_iff_ne.mpr passes, if_true, pure_eq_ok, ne_eq, passes, not_false_eq_true,
      true_and, false_and, or_false]

/-- **After the selectors were applied a run gives a result exactly when neither
the boot nor the acceptance is interrupted.** -/
theorem bootAndAccept_isOk_iff (uncached : globals.preflightAcceptance = none) :
    (∃ result, bootAndAccept env phase plan globals selectorResult = .ok result) ↔
      BootUninterrupted env.freshBoot ∧
        (watch env.freshBoot.waits = .ok "pass".toList →
          AcceptanceUninterrupted env.acceptance phase) := by
  simp only [bootAndAccept_ok uncached]
  constructor
  · rintro ⟨result, runId, status, booted, ends⟩
    refine ⟨runFreshBoot_isOk_iff.mp ⟨_, booted⟩, fun passes => ?_⟩
    have watched := (runFreshBoot_ok.mp booted).2.2.2.2.1
    rcases ends with ⟨failed, -⟩ | ⟨-, started, finished, accepted, accepts, -⟩
    · exact absurd (Except.ok.inj (watched.symm.trans passes)) failed
    · exact ⟨started, acceptPhase_isOk_iff.mp ⟨accepted, accepts⟩, finished⟩
  · rintro ⟨boot, acceptance⟩
    obtain ⟨⟨runId, status⟩, booted⟩ := runFreshBoot_isOk_iff.mpr boot
    by_cases passes : status = "pass".toList
    · have watched := (runFreshBoot_ok.mp booted).2.2.2.2.1
      rw [passes] at watched
      have through := acceptance watched
      obtain ⟨accepted, accepts⟩ := acceptPhase_isOk_iff.mpr through.finishes
      exact ⟨_, runId, status, booted, .inr ⟨passes, through.startedWritten,
        through.finishedWritten, accepted, accepts, rfl⟩⟩
    · exact ⟨_, runId, status, booted, .inl ⟨passes, rfl⟩⟩

/-- The flags after the selector playbook of a run. -/
def selectorGlobals (env : Env) (phase : Phase) (plan : Plan) : Globals :=
  (startGlobals phase).withSelectors (selectorFlag plan.policy.targets env.selector.resultFile)

/-- What a run that reached the end of the selector playbook has gone through. -/
theorem rollout_ok {result : Result} :
    rollout env store phase = .ok result ↔
      ∃ plan, preflight env.preflight store phase = .ok plan ∧
        env.selector.temporaryCreated = true ∧ env.selector.temporaryRemoved = true ∧
        env.selector.startedWritten = true ∧
        ∃ apply, env.selector.apply = .completed apply ∧
        ∃ selectorResult, readResult env.selector.resultFile = .ok selectorResult ∧
        env.selector.finishedWritten = true ∧
        (if apply.returncode != 0 || !hasStatus "applied" selectorResult then
            .ok (selectorFailed env plan (selectorGlobals env phase plan) apply.returncode
              selectorResult)
          else bootAndAccept env phase plan (selectorGlobals env phase plan) selectorResult) =
            .ok result := by
  rw [rollout, bind_eq_ok]
  refine exists_congr fun plan => and_congr_right fun _ => ?_
  unfold inTemporary
  cases env.selector.temporaryCreated with
  | false => simp
  | true =>
      cases env.selector.temporaryRemoved with
      | false => simp
      | true =>
          simp only [applySelectors, transition_eq_ok, bind_eq_ok, run_eq_ok, exists_const,
            Bool.not_true, Bool.or_self, Bool.false_eq_true, if_false, true_and]
          rfl

/-- A result with a phase record does not come from the handler. -/
theorem main_of_record {result : Result} {record : Dict} (printed : main env store phase = some result)
    (recorded : result.phaseRecord = some record) : rollout env store phase = .ok result := by
  unfold main at printed
  split at printed
  next ends =>
      obtain rfl := Option.some.inj printed
      exact ends
  · obtain rfl := Option.some.inj printed
    cases recorded
  · cases printed

/-! ## The record after the mutation -/

/-- The playbook exited with 0 and reported that the selectors are applied. -/
structure Mutated (env : Env) (store : Store) (phase : Phase) (plan : Plan) (reported : Dict) :
    Prop where
  planned : preflight env.preflight store phase = .ok plan
  temporaryCreated : env.selector.temporaryCreated = true
  startedWritten : env.selector.startedWritten = true
  succeeded : ∃ apply, env.selector.apply = .completed apply ∧ apply.returncode = 0
  wrote : env.selector.resultFile = .object reported
  applied : reported.get "status" = some (.str "applied")

/-- The result has a record with the targets of the plan and the previous
selectors that the playbook reported. -/
def CarriesRecord (env : Env) (store : Store) (phase : Phase) (plan : Plan) (reported : Dict) :
    Prop :=
  ∃ result record, main env store phase = some result ∧ result.phaseRecord = some record ∧
    record.get "targets" = some (.list (plan.policy.targets.map .str)) ∧
    record.get "previous_selector_by_node" =
      some ((reported.get "previous_selector_by_node").getD (.dict []))

/-- No step after the selector playbook raises. -/
structure Uninterrupted (env : Env) (phase : Phase) : Prop where
  appliedWritten : env.selector.finishedWritten = true
  boot : BootUninterrupted env.freshBoot
  acceptance : watch env.freshBoot.waits = .ok "pass".toList →
    AcceptanceUninterrupted env.acceptance phase
  temporaryRemoved : env.selector.temporaryRemoved = true

theorem record_of_bootAndAccept {result : Result} (uncached : globals.preflightAcceptance = none)
    (ends : bootAndAccept env phase plan globals selectorResult = .ok result) :
    ∃ flags runId acceptance, result.phaseRecord =
      some (phaseRecordValue flags (recordArgs env plan selectorResult runId acceptance)) := by
  obtain ⟨runId, status, -, ends⟩ := (bootAndAccept_ok uncached).mp ends
  rcases ends with ⟨-, rfl⟩ | ⟨-, -, -, accepted, -, rfl⟩
  · exact ⟨_, runId, _, rfl⟩
  · exact ⟨_, runId, _, rfl⟩

theorem rollout_of_mutated {reported : Dict} (mutated : Mutated env store phase plan reported)
    {result : Result} :
    rollout env store phase = .ok result ↔
      env.selector.temporaryRemoved = true ∧ env.selector.finishedWritten = true ∧
        bootAndAccept env phase plan (selectorGlobals env phase plan) reported = .ok result := by
  obtain ⟨apply, ran, zero⟩ := mutated.succeeded
  have read : readResult env.selector.resultFile = .ok reported := by
    rw [mutated.wrote]
    rfl
  have applied := hasStatus_iff.mpr mutated.applied
  rw [rollout_ok]
  constructor
  · rintro ⟨plan', planned, -, removed, -, apply', ran', reported', read', written, ends⟩
    obtain rfl := Except.ok.inj (mutated.planned.symm.trans planned)
    obtain rfl := RunReply.completed.inj (ran.symm.trans ran')
    obtain rfl := Except.ok.inj (read.symm.trans read')
    exact ⟨removed, written, by simpa [zero, applied] using ends⟩
  · rintro ⟨removed, written, ends⟩
    exact ⟨plan, mutated.planned, mutated.temporaryCreated, removed, mutated.startedWritten, apply,
      ran, reported, read, written, by simpa [zero, applied] using ends⟩

/-- **The result carries the record exactly when no step after the mutation
raises.** -/
theorem carriesRecord_iff {reported : Dict} (mutated : Mutated env store phase plan reported) :
    CarriesRecord env store phase plan reported ↔ Uninterrupted env phase := by
  have uncached : (selectorGlobals env phase plan).preflightAcceptance = none := rfl
  constructor
  · rintro ⟨result, record, printed, recorded, -⟩
    obtain ⟨removed, written, ends⟩ :=
      (rollout_of_mutated mutated).mp (main_of_record printed recorded)
    obtain ⟨boot, acceptance⟩ := (bootAndAccept_isOk_iff uncached).mp ⟨result, ends⟩
    exact ⟨written, boot, acceptance, removed⟩
  · intro uninterrupted
    obtain ⟨result, ends⟩ : ∃ result,
        bootAndAccept env phase plan (selectorGlobals env phase plan) reported = .ok result :=
      (bootAndAccept_isOk_iff uncached).mpr ⟨uninterrupted.boot, uninterrupted.acceptance⟩
    have ran := (rollout_of_mutated mutated).mpr
      ⟨uninterrupted.temporaryRemoved, uninterrupted.appliedWritten, ends⟩
    obtain ⟨flags, runId, acceptance, recorded⟩ := record_of_bootAndAccept uncached ends
    have reads := phaseRecordValue_readsAs flags (recordArgs env plan reported runId acceptance)
    refine ⟨result, _, ?_, recorded, reads.targets, reads.previous⟩
    rw [main, ran]

end End

/-! ### A helper that is missing -/

section Fixtures

omit [UnicodeData]

/-- A subprocess that exits with 0 after it printed a text. -/
def prints (text : String) : RunReply :=
  .completed ⟨0, text.toList, []⟩

/-- Everything before the selector playbook goes well. -/
def fixturePreflight : PreflightEnv where
  applyRequested := true
  expectedRunId := []
  expectedSha256 := []
  deploymentAttemptId := []
  progressStarts := true
  inspectionWritten := true
  inventoryUsable := true
  branch := prints "stg\n"
  dirty := prints ""
  expectedFile := .missing
  acceptedDirectory := true
  acceptedFiles := [some [("generation_run_id", .str "20260801T000000Z-a"),
    ("exact_kernel_release", .str "6.18.0-v8-homecluster+"),
    ("pxe_candidate_selector", .str "20260801-rpi5")]]
  inventory := ⟨prints "", some (.dict [
    ("k3s_stg_agents", .dict [("hosts", .list [.str "agent-a", .str "agent-e"])]),
    ("rpi5_egpu_artifact_bundle", .dict [("hosts", .list [.str "agent-e"])])])⟩
  fleet := .ok ["server-a", "agent-a", "agent-e"]
  healthHelperPresent := true
  health := ⟨prints "", some (.dict [("status", .str "healthy")])⟩
  bootStatusHelperPresent := true
  bootStatus := prints ""
  preflightWritten := true
  startedAt := "2026-08-01T00:00:00Z"

/-- The playbook writes a result file and exits with 0. -/
def fixtureSelector (resultFile : Dict) : SelectorEnv where
  temporaryCreated := true
  startedWritten := true
  apply := prints ""
  resultFile := .object resultFile
  finishedWritten := true
  temporaryRemoved := true

/-- A fresh boot that starts, whose wait helper reports a status. -/
def fixtureBoot (status : String) : FreshBootEnv where
  startedWritten := true
  waitingWritten := true
  helpersPresent := true
  start := prints "status=started\nrun_id=20260801T010000Z\n"
  waits := [prints ("status=" ++ status ++ "\n")]
  watchedWritten := true

/-- An acceptance whose playbook exits with a code. -/
def fixtureAcceptance (returncode : Int) : AcceptanceEnv where
  startedWritten := true
  playbook := .completed ⟨returncode, [], []⟩
  statusHelperPresent := true
  llmHelperPresent := true
  observation _ := ⟨⟨prints "", some (.dict [("status", .str "healthy")])⟩,
    prints "llm_status=healthy\nllm_failed_check_ids=none\nllm_unknown_check_ids=none\n", true⟩
  finishedWritten := true

def fixtureEnv (resultFile : Dict) (freshBoot : FreshBootEnv) (acceptance : AcceptanceEnv) :
    Env where
  preflight := fixturePreflight
  selector := fixtureSelector resultFile
  freshBoot
  acceptance
  completedAt := "2026-08-01T02:00:00Z"

/-- The selector of a release. -/
def fixtureSelectorOf (release : String) : Value :=
  .dict [("tftp_release", .str release), ("rootfs_release", .str release)]

/-- The playbook moved a target from one release to another. -/
def fixtureApplied (before after : String) : Dict :=
  [("status", .str "applied"),
    ("previous_selector_by_node", .dict [("agent-a", fixtureSelectorOf before)]),
    ("applied_selector_by_node", .dict [("agent-a", fixtureSelectorOf after)])]

theorem exists_of_isSome {ε α : Type} {outcome : Except ε α}
    (succeeds : outcome.toOption.isSome = true) : ∃ value, outcome = .ok value := by
  cases outcome with
  | error raised => cases succeeds
  | ok value => exact ⟨value, rfl⟩

/-- Whatever the boot and the acceptance do, the canary comes to its mutation. -/
theorem fixture_mutated (freshBoot : FreshBootEnv) (acceptance : AcceptanceEnv) :
    ∃ plan, @Mutated asciiData
      (fixtureEnv (fixtureApplied "20260701-rpi5" "20260801-rpi5") freshBoot acceptance)
      (fun _ => []) (.forward .genericCanary) plan
      (fixtureApplied "20260701-rpi5" "20260801-rpi5") := by
  let _ : UnicodeData := asciiData
  have planned : ∃ plan, preflight fixturePreflight (fun _ => []) (.forward .genericCanary) =
      .ok plan :=
    exists_of_isSome (by decide +kernel)
  obtain ⟨plan, planned⟩ := planned
  exact ⟨plan, planned, rfl, rfl, ⟨_, rfl, rfl⟩, rfl, rfl⟩

theorem carriesRecord_iff_fixture :
    ∃ (_ : UnicodeData) (env : Env) (store : Store) (phase : Phase) (plan : Plan)
      (reported : Dict), CarriesRecord env store phase plan reported ↔ Uninterrupted env phase := by
  let _ : UnicodeData := asciiData
  obtain ⟨plan, mutated⟩ := fixture_mutated (fixtureBoot "pass") (fixtureAcceptance 0)
  exact ⟨asciiData, _, _, _, plan, _, carriesRecord_iff mutated⟩

/-- **Without the fresh boot helper the record is lost** after the selectors
were applied. -/
theorem record_lost_without_helper :
    ∃ (_ : UnicodeData) (env : Env) (store : Store) (phase : Phase) (plan : Plan)
      (reported : Dict), Mutated env store phase plan reported ∧
        ¬ CarriesRecord env store phase plan reported := by
  let _ : UnicodeData := asciiData
  obtain ⟨plan, mutated⟩ := fixture_mutated { fixtureBoot "pass" with helpersPresent := false }
    (fixtureAcceptance 0)
  refine ⟨asciiData, _, _, _, plan, _, mutated, ?_⟩
  rintro ⟨result, record, printed, recorded, -⟩
  have ends := ((rollout_of_mutated mutated).mp (main_of_record printed recorded)).2.2
  have boot := ((bootAndAccept_isOk_iff rfl).mp ⟨result, ends⟩).1
  exact Bool.false_ne_true boot.helpersPresent

end Fixtures

end Acceptance

end HomeclusterInfra.Rollout
