import HomeclusterInfra.Rollout.Policy

/-!
# A rollout run

One run of the rollout: the checks before anything is touched, the selector
playbook, the fresh boot, and the acceptance of the phase. What the run meets
on its way, the outcome of each subprocess, whether a helper is installed,
whether a progress note could be written, is the environment of the run.

A step either gives a value or raises. `main` turns a `RolloutError` into a
result without a phase record. Any other exception leaves it without a result.
The flags of the run are reset by `target_policy`, so that each run begins with
the same ones.
-/

set_option autoImplicit false

namespace HomeclusterInfra.Rollout

open Text Python Checked

/-! ## The environment -/

/-- A finished subprocess. -/
structure Completed where
  returncode : Int
  stdout : List Char
  stderr : List Char

/-- What becomes of a subprocess: it finishes, it cannot be executed or takes
too long, or it writes what is not text. -/
inductive RunReply where
  | completed (process : Completed)
  | notExecuted
  | undecodable

/-- A subprocess, and the JSON value its output is, if it is one. -/
structure JsonReply where
  reply : RunReply
  json : Option Value

/-- The record of the expected generation. -/
inductive ExpectedFile where
  | missing
  | unreadable
  | content (sha256 : List Char) (value : Dict)

/-- What the run meets before the selector playbook. -/
structure PreflightEnv where
  applyRequested : Bool
  /-- `EXPECTED_ACCEPTED_RUN_ENV` -/
  expectedRunId : List Char
  /-- `EXPECTED_ACCEPTED_SHA_ENV` -/
  expectedSha256 : List Char
  /-- `DEPLOYMENT_ATTEMPT_ENV` -/
  deploymentAttemptId : List Char
  progressStarts : Bool
  inspectionWritten : Bool
  inventoryUsable : Bool
  branch : RunReply
  dirty : RunReply
  expectedFile : ExpectedFile
  acceptedDirectory : Bool
  /-- The files of `accepted-generation/`, the last name first. -/
  acceptedFiles : List (Option Dict)
  inventory : JsonReply
  /-- The outcome of `staging_fleet`. -/
  fleet : Except Raised (List String)
  healthHelperPresent : Bool
  health : JsonReply
  bootStatusHelperPresent : Bool
  bootStatus : RunReply
  preflightWritten : Bool
  startedAt : String

/-- The result file of the selector playbook. -/
inductive ResultFile where
  | missing
  | unreadable
  | malformed
  | object (value : Dict)

structure SelectorEnv where
  temporaryCreated : Bool
  startedWritten : Bool
  apply : RunReply
  resultFile : ResultFile
  finishedWritten : Bool
  temporaryRemoved : Bool

structure FreshBootEnv where
  startedWritten : Bool
  waitingWritten : Bool
  helpersPresent : Bool
  start : RunReply
  /-- The calls of the wait helper before the deadline. -/
  waits : List RunReply
  watchedWritten : Bool

/-- One attempt of the acceptance after the boot. -/
structure Observation where
  status : JsonReply
  llm : RunReply
  timeLeft : Bool

structure AcceptanceEnv where
  startedWritten : Bool
  playbook : RunReply
  statusHelperPresent : Bool
  llmHelperPresent : Bool
  /-- What each attempt sees. -/
  observation : Nat → Observation
  finishedWritten : Bool

structure Env where
  preflight : PreflightEnv
  selector : SelectorEnv
  freshBoot : FreshBootEnv
  acceptance : AcceptanceEnv
  completedAt : String

/-! ## Steps -/

/-- `run` -/
def run : RunReply → Except Raised Completed
  | .completed process => .ok process
  | .notExecuted => .error (unknown "rollout_command_execution_failed")
  | .undecodable => .error .other

/-- A transition of the progress note. -/
def transition (written : Bool) : Except Raised Unit :=
  require written .other

/-- `[0-9a-f]` -/
def isLowerHex (char : Char) : Bool :=
  char.isDigit || (97 ≤ char.toNat && char.toNat ≤ 102)

/-- `SHA256` -/
def isSha256 (text : List Char) : Bool :=
  text.length == 64 && text.all isLowerHex

/-- `DEPLOYMENT_ATTEMPT_ID` -/
def isDeploymentAttemptId (text : List Char) : Bool :=
  text.take 11 == "deployment-".toList && (text.drop 11).length == 32 &&
    (text.drop 11).all isLowerHex

/-- `ProgressWriter(…).start()` -/
def startProgress (env : PreflightEnv) : Except Raised Unit := do
  require (env.expectedRunId.isEmpty || isSafeRunId env.expectedRunId)
    (blocked "rollout_progress_generation_run_id_invalid")
  require (env.deploymentAttemptId.isEmpty ||
      isDeploymentAttemptId env.deploymentAttemptId && !env.expectedRunId.isEmpty)
    (blocked "rollout_progress_deployment_attempt_id_invalid")
  require env.progressStarts (blocked "rollout_progress_unavailable")

/-- `group_hosts` -/
def groupHosts (inventory : Dict) (group : String) : List String :=
  match inventory.get group with
  | some (.dict fields) =>
      match Mapping.get fields "hosts" with
      | some (.list hosts) =>
          let names := hosts.filterMap fun host => match host with
            | .str name => if name.isEmpty then none else some name
            | _ => none
          if names.length == hosts.length then sortedNames names.eraseDups else []
      | _ => []
  | _ => []

/-- `inventory_json` -/
def inventoryJson (reply : JsonReply) : Except Raised Dict := do
  let completed ← run reply.reply
  require (completed.returncode == 0) (blocked "inventory_list_failed")
  match reply.json with
  | some (.dict inventory) => return inventory
  | _ => .error (unknown "inventory_contract_invalid")

/-- `inventory_targets` -/
def inventoryTargets (reply : JsonReply) : Except Raised (List String × String) := do
  let inventory ← inventoryJson reply
  let agents := groupHosts inventory "k3s_stg_agents"
  match groupHosts inventory "rpi5_egpu_artifact_bundle" with
  | [egpuTarget] => do
      require (agents.contains egpuTarget) (blocked "rollout_agent_group_invalid")
      return (agents, egpuTarget)
  | _ => .error (blocked "egpu_target_group_invalid")

/-- `status.get("status")` of a JSON object. -/
def stateOf (status : Dict) : Value :=
  getOrNone status "status"

/-- `ensure_cluster_healthy` -/
def ensureClusterHealthy (env : PreflightEnv) : Except Raised Unit := do
  require env.healthHelperPresent (blocked "runbook_k3s_status_helper_missing")
  let completed ← run env.health.reply
  match env.health.json with
  | some (.dict status) =>
      if (stateOf status).same (.str "healthy") then
        require (completed.returncode == 0) (unknown "rollout_k3s_status_exit_mismatch")
      else if (stateOf status).same (.str "converging") then
        .error (blocked "rollout_cluster_converging")
      else if (stateOf status).same (.str "blocked") then
        .error (blocked "rollout_cluster_blocked")
      else if (stateOf status).same (.str "unknown") then
        .error (unknown "rollout_cluster_unknown")
      else .error (unknown "rollout_k3s_status_contract_invalid")
  | _ => .error (unknown "rollout_k3s_status_contract_invalid")

/-- `ensure_no_active_fresh_boot` -/
def ensureNoActiveFreshBoot (env : PreflightEnv) : Except Raised Unit := do
  require env.bootStatusHelperPresent (blocked "fresh_boot_status_helper_missing")
  let completed ← run env.bootStatus
  require ((parseKv completed.stdout).get "status" != some "in_progress".toList)
    (blocked "fresh_boot_job_already_active")

section Run

variable [UnicodeData]

/-- `latest_accepted` -/
def latestAccepted (env : PreflightEnv) : Except Raised Dict := do
  require env.acceptedDirectory (blocked "accepted_generation_missing")
  let text (value : Dict) (key : String) : List Char := ((value.get key).getD (.str "")).text
  match (env.acceptedFiles.filterMap id).find? fun value =>
      isSafeRunId (text value "generation_run_id") &&
        isKernelRelease (text value "exact_kernel_release") &&
        isSelector (text value "pxe_candidate_selector") with
  | some value => return value
  | none => .error (unknown "accepted_generation_contract_invalid")

/-- `expected_accepted_generation`, its run id. -/
def expectedAcceptedGeneration (env : PreflightEnv) : Except Raised (Option String) := do
  let runId := strip env.expectedRunId
  let sha256 := strip env.expectedSha256
  if runId.isEmpty && sha256.isEmpty then return none
  else do
    require (isSafeRunId runId && isSha256 sha256) (unknown "accepted_generation_expectation_invalid")
    let isExpected (value : Dict) : Bool :=
      (getOrNone value "generation_run_id").same (.str (String.ofList runId))
    match env.expectedFile with
    | .missing => .error (unknown "accepted_generation_expected_record_missing")
    | .unreadable => .error (unknown "accepted_generation_expected_record_invalid")
    | .content current value => do
        require (current == sha256 && isExpected value &&
            (getOrNone value "gate_version").same (.str "rpi5-common-kernel-gate-v2"))
          (unknown "accepted_generation_expectation_changed")
        let latest ← latestAccepted env
        require (isExpected latest) (unknown "accepted_generation_expectation_superseded")
        return some (String.ofList runId)

/-- What is fixed before the selector playbook. -/
structure Plan where
  policy : Policy
  accepted : Dict
  agents : List String

/-- `str(accepted["generation_run_id"])` -/
def generationOf (accepted : Dict) : List Char :=
  (getOrNone accepted "generation_run_id").text

/-- The expected generation, which a rollback does not ask for. -/
def expectedFor (env : PreflightEnv) : Phase → Except Raised (Option String)
  | .rollbackLastPhase => .ok none
  | .forward _ => expectedAcceptedGeneration env

/-- The names a phase may choose its targets from. -/
def policyTargets : Phase → List String → List String → List String
  | .forward .fullFleet, fleet, _ | .rollbackLastPhase, fleet, _ => fleet
  | .forward _, _, agents => agents

/-- A forward phase begins in a healthy cluster. -/
def ensureHealthyFor (env : PreflightEnv) : Phase → Except Raised Unit
  | .forward _ => ensureClusterHealthy env
  | .rollbackLastPhase => .ok ⟨⟩

/-- The checks of `main` before the selector playbook. -/
def preflight (env : PreflightEnv) (store : Store) (phase : Phase) : Except Raised Plan := do
  require env.applyRequested (blocked "missing_HOMECLUSTER_RPI5_COMMON_KERNEL_ROLLOUT_APPLY")
  startProgress env
  transition env.inspectionWritten
  require env.inventoryUsable (blocked "inventory_entrypoint_invalid")
  let branch ← run env.branch
  let dirty ← run env.dirty
  require (branch.returncode == 0 && strip branch.stdout == "stg".toList)
    (blocked "infra_runtime_branch_not_stg")
  require (dirty.returncode == 0 && (strip dirty.stdout).isEmpty) (blocked "infra_checkout_dirty")
  let expected ← expectedFor env phase
  let accepted ← latestAccepted env
  require (expected.all fun runId =>
      (getOrNone accepted "generation_run_id").same (.str runId))
    (unknown "accepted_generation_expectation_superseded")
  let (agents, egpuTarget) ← inventoryTargets env.inventory
  let fleet ← env.fleet
  let policy ← targetPolicy store phase (policyTargets phase fleet agents) egpuTarget
    (generationOf accepted)
  ensureHealthyFor env phase
  ensureNoActiveFreshBoot env
  transition env.preflightWritten
  return ⟨policy, accepted, agents⟩

/-- The flags as `target_policy` leaves them. -/
def startGlobals (phase : Phase) : Globals where
  currentAction := some phase
  lastFreshBootStatus := []
  lastKernelAcceptance := none
  lastSelectorChanged := none
  preflightAcceptance := none

/-- `_LAST_SELECTOR_CHANGED` after the selector playbook. -/
def selectorFlag (targets : List String) : ResultFile → Option Bool
  | .missing => some false
  | .unreadable | .malformed => none
  | .object value =>
      match value.get "targets" with
      | none => some (selectorsChanged targets value)
      | some (.list items) =>
          let names := items.filterMap fun item => match item with
            | .str name => some name
            | _ => none
          if names.length == items.length then some (selectorsChanged names value) else none
      | some _ => none

/-- The result file as `main` reads it. -/
def readResult : ResultFile → Except Raised Dict
  | .missing | .malformed => .ok []
  | .unreadable => .error .other
  | .object value => .ok value

/-- `selector_result.get("status") == status` -/
def hasStatus (status : String) (selectorResult : Dict) : Bool :=
  (stateOf selectorResult).same (.str status)

/-- The reason that `selector_failure_contract` gives. -/
def selectorFailureReason (returncode : Int) (selectorResult : Dict) : String :=
  if returncode != 0 && ((selectorResult.get "status").getD (.str "")).text == "applied".toList then
    "selector_apply_process_failed_after_applied_result"
  else "selector_apply_failed"

/-- The status that a call of the wait helper reports. -/
def waitStatus (completed : Completed) : List Char :=
  ((parseKv completed.stdout).get "status").getD "unknown".toList

/-- The wait helper's last word before the deadline. -/
def watch : List RunReply → Except Raised (List Char)
  | [] => .ok "in_progress".toList
  | reply :: replies => do
      let completed ← run reply
      let status := waitStatus completed
      if status == "in_progress".toList then watch replies
      else if status ∈ ["pass".toList, "fail".toList, "blocked".toList, "unknown".toList] then
        .ok status
      else .ok "unknown".toList

/-- The first `run_fresh_boot`: the run id and the status. -/
def originalRunFreshBoot (env : FreshBootEnv) : Except Raised (List Char × List Char) := do
  require env.helpersPresent (blocked "fresh_boot_helper_missing")
  let started ← run env.start
  let values := parseKv started.stdout
  require (values.get "status" == some "started".toList ||
      values.get "status" == some "in_progress".toList)
    (blocked (String.ofList ((values.get "reason").getD "fresh_boot_start_failed".toList)))
  let runId := (values.get "run_id").getD []
  require (isStamp runId) (unknown "fresh_boot_run_id_invalid")
  let status ← watch env.waits
  return (runId, status)

/-- `run_fresh_boot` -/
def runFreshBoot (env : FreshBootEnv) : Except Raised (List Char × List Char) := do
  transition env.startedWritten
  transition env.waitingWritten
  let boot ← originalRunFreshBoot env
  transition env.watchedWritten
  return boot

/-- Whether a phase has to see the model server answer. -/
def needsLlm : Phase → Bool
  | .forward .egpuCanary | .forward .fullFleet => true
  | _ => false

/-- `final_status == "healthy"` -/
def observesHealthy (status : JsonReply) : Bool :=
  match status.json with
  | some (.dict value) =>
      ((Mapping.get value "status").getD (.str "unknown")).text == "healthy".toList
  | _ => false

/-- `llm_status` is `pass` or `not_required`. -/
def llmAccepts (needed : Bool) (reply : RunReply) : Except Raised Bool :=
  if needed then do
    let llm ← run reply
    let values := parseKv llm.stdout
    return llm.returncode == 0 && values.get "llm_status" == some "healthy".toList &&
      values.get "llm_failed_check_ids" == some "none".toList &&
      values.get "llm_unknown_check_ids" == some "none".toList
  else .ok true

/-- One attempt of the acceptance after the boot. -/
def attempt (needed : Bool) (observation : Observation) : Except Raised Bool := do
  let observed ← run observation.status.reply
  if observed.returncode == 0 && observesHealthy observation.status then
    llmAccepts needed observation.llm
  else .ok false

/-- `POSTBOOT_ACCEPTANCE_MAX_ATTEMPTS` -/
def maxAttempts : Nat := 60

/-- The attempts from the one with the given number on, of which so many remain. -/
def settle (needed : Bool) (observation : Nat → Observation) :
    Nat → Nat → Except Raised Bool
  | _, 0 => .ok false
  | number, remaining + 1 => do
      let accepted ← attempt needed (observation number)
      if accepted then .ok true
      else if !(observation number).timeLeft then .ok false
      else settle needed observation (number + 1) remaining

/-- `_run_phase_acceptance_impl` where nothing is cached. -/
def acceptPhase (env : AcceptanceEnv) (phase : Phase) : Except Raised Bool := do
  let completed ← run env.playbook
  if completed.returncode != 0 then .ok false
  else if !env.statusHelperPresent then .ok false
  else if needsLlm phase && !env.llmHelperPresent then .ok false
  else settle (needsLlm phase) env.observation 1 maxAttempts

/-- `_run_phase_acceptance_impl` -/
def runPhaseAcceptanceImpl (env : AcceptanceEnv) (phase : Phase) (globals : Globals) :
    Except Raised (Bool × Globals) :=
  match globals.preflightAcceptance with
  | some cached => .ok (cached, { globals with preflightAcceptance := none })
  | none => do
      let accepted ← acceptPhase env phase
      return (accepted, globals.withAcceptance accepted)

/-- `run_phase_acceptance` -/
def runPhaseAcceptance (env : AcceptanceEnv) (phase : Phase) (globals : Globals) :
    Except Raised (Bool × Globals) := do
  transition env.startedWritten
  let outcome ← runPhaseAcceptanceImpl env phase globals
  transition env.finishedWritten
  return outcome

/-! ## The run -/

/-- The result that `main` prints. -/
structure Result where
  status : String
  reason : String
  phaseRecord : Option Dict

/-- The arguments of a phase record of the run. -/
def recordArgs (env : Env) (plan : Plan) (selectorResult : Dict) (freshBootRunId : List Char)
    (acceptanceStatus : String) : RecordArgs where
  phase := plan.policy.recordPhase
  targets := plan.policy.targets
  selectorResult
  accepted := plan.accepted
  freshBootRunId
  acceptanceStatus
  startedAt := env.preflight.startedAt
  completedAt := env.completedAt

/-- The result after the selector playbook failed. -/
def selectorFailed (env : Env) (plan : Plan) (globals : Globals) (returncode : Int)
    (selectorResult : Dict) : Result where
  status := "fail"
  reason := selectorFailureReason returncode selectorResult
  phaseRecord := some (phaseRecordValue globals (recordArgs env plan selectorResult [] "fail"))

/-- The result after a fresh boot that did not pass. -/
def bootFailed (env : Env) (plan : Plan) (globals : Globals) (selectorResult : Dict)
    (runId status : List Char) : Result where
  status := if status == "fail".toList then "fail" else "unknown"
  reason := String.ofList ("fresh_boot_".toList ++ status)
  phaseRecord := some (phaseRecordValue globals (recordArgs env plan selectorResult runId "fail"))

/-- The acceptance status that a finished acceptance asks for. -/
def requestedAcceptance (phase : Phase) (accepted : Bool) : String :=
  match accepted, phase with
  | true, .rollbackLastPhase => "rolled_back"
  | true, .forward _ => "pass"
  | false, _ => "fail"

/-- The result after the acceptance of the phase. -/
def phaseDecided (env : Env) (phase : Phase) (plan : Plan) (globals : Globals)
    (selectorResult : Dict) (runId : List Char) (accepted : Bool) : Result where
  status := if accepted then "pass" else "fail"
  reason := match accepted, phase with
    | true, .rollbackLastPhase => "rollback_accepted"
    | true, _ => phase.text ++ "_accepted"
    | false, _ => phase.text ++ "_acceptance_failed"
  phaseRecord := some (phaseRecordValue globals
    (recordArgs env plan selectorResult runId (requestedAcceptance phase accepted)))

/-- `main` after the selectors were applied. -/
def bootAndAccept (env : Env) (phase : Phase) (plan : Plan) (globals : Globals)
    (selectorResult : Dict) : Except Raised Result := do
  let (runId, status) ← runFreshBoot env.freshBoot
  let globals := globals.withBoot status
  if status != "pass".toList then
    return bootFailed env plan globals selectorResult runId status
  else do
    let (accepted, globals) ← runPhaseAcceptance env.acceptance phase globals
    return phaseDecided env phase plan globals selectorResult runId accepted

/-- `main` inside the temporary directory. -/
def applySelectors (env : Env) (phase : Phase) (plan : Plan) : Except Raised Result := do
  transition env.selector.startedWritten
  let apply ← run env.selector.apply
  let globals := (startGlobals phase).withSelectors
    (selectorFlag plan.policy.targets env.selector.resultFile)
  let selectorResult ← readResult env.selector.resultFile
  transition env.selector.finishedWritten
  if apply.returncode != 0 || !hasStatus "applied" selectorResult then
    return selectorFailed env plan globals apply.returncode selectorResult
  else bootAndAccept env phase plan globals selectorResult

/-- A body inside a temporary directory, which is removed whatever the body does. -/
def inTemporary {α : Type} (created removed : Bool) (body : Except Raised α) : Except Raised α :=
  if !created || !removed then .error .other else body

/-- The body of the `try` statement of `main`. -/
def rollout (env : Env) (store : Store) (phase : Phase) : Except Raised Result := do
  let plan ← preflight env.preflight store phase
  inTemporary env.selector.temporaryCreated env.selector.temporaryRemoved
    (applySelectors env phase plan)

/-- `main`: the result it prints, if it prints one. -/
def main (env : Env) (store : Store) (phase : Phase) : Option Result :=
  match rollout env store phase with
  | .ok result => some result
  | .error (.rolloutError reason status) => some ⟨status, reason, none⟩
  | .error .other => none

/-- The exit code of `main` after a result. -/
def Result.exitCode (result : Result) : Nat :=
  if result.status = "pass" then 0
  else if result.status = "blocked" || result.status = "unknown" then 2 else 1

end Run

end HomeclusterInfra.Rollout
