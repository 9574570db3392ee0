import HomeclusterInfra.Library.Assignments
import HomeclusterInfra.Library.HexGroups
import HomeclusterInfra.Library.Interruption
import HomeclusterInfra.PxeReceipt.Declaration
import Mathlib.Data.List.Infix
import Mathlib.Data.Rat.Defs
import Mathlib.Logic.Function.Basic

/-!
# The wrapper of ansible-pull

The wrapper runs one role of a node. It resolves the branch, reads the pin of the source, brings
the checkout there and runs the playbook; a trap then writes how the run ended, and receipts of a
run that succeeded.

Runs take a lock one after another. Each goes in steps, any of which may fail, and a run may be
killed before any step. A line of a file is written whole or not at all, and a character stands
for a byte.
-/

set_option autoImplicit false

namespace HomeclusterInfra.AnsiblePull

open Text Shell Interruption Assignments PxeReceipt

/-! ## Files -/

structure File where
  text : List Char
  mtime : Rat

/-- The files of `/run/ansible-pull`. -/
abbrev Directory : Type :=
  List Char → Option File

def Directory.put (directory : Directory) (name : List Char) (file : File) : Directory :=
  Function.update directory name (some file)

def Directory.remove (directory : Directory) (name : List Char) : Directory :=
  Function.update directory name none

/-- `[A-Za-z0-9_.@-]` -/
def isFileChar (char : Char) : Bool :=
  char.isAlphanum || ['_', '.', '@', '-'].contains char

/-- `tr -c 'A-Za-z0-9_.@-' '_'` -/
def safeName (role : List Char) : List Char :=
  role.map fun char => if isFileChar char then char else '_'

/-- `state_file_for_role` -/
def stateFile (role : List Char) : List Char :=
  safeName role ++ ".env".toList

def postPullFile (role : List Char) : List Char :=
  safeName role ++ ".post-pull.env".toList

def pinnedExecutionFile (role : List Char) : List Char :=
  safeName role ++ ".pinned-execution.env".toList

/-- `STATE_FILE` -/
def lastFile : List Char :=
  "last.env".toList

/-! ## Branches -/

/-- `branch_from_stage` -/
def branchFromStage (stage : List Char) : Option (List Char) :=
  if stage = "stg".toList || stage = "staging".toList then some "stg".toList
  else if stage = "prod".toList || stage = "prd".toList || stage = "production".toList then
    some "main".toList
  else none

/-- The words of a list that is not quoted. -/
def fieldsOf (text : List Char) : List (List Char) :=
  (text.splitOnP fun char => char = ' ' || char = '\t' || char = '\n').filter (· ≠ [])

/-- `branch_is_allowed` -/
def branchIsAllowed (allowed candidate : List Char) : Bool :=
  (fieldsOf (if allowed = [] then "main stg".toList else allowed)).contains candidate

/-- `resolve_branch`: the branch, or what `BRANCH` is where it fails. -/
def resolveBranch (stage branch allowed : List Char) : Except (List Char) (List Char) :=
  match branchFromStage stage with
  | none => .error branch
  | some stageBranch =>
      let chosen := if branch = [] then stageBranch else branch
      if chosen ≠ stageBranch || !branchIsAllowed allowed chosen then .error chosen
      else .ok chosen

/-! ## The pin of the source -/

structure Pin where
  mode : List Char
  revision : List Char
  buildId : List Char
  digest : List Char
deriving DecidableEq

/-- What the wrapper reads of the line of `pxe-source-pin.py`. -/
def readPin (sourceMode output : List Char) : Option Pin :=
  if '\n' ∈ output then none
  else
    let words := (output.splitOn ' ').filter (· ≠ [])
    let pin : Pin := ⟨words.getD 0 [], words.getD 1 [], words.getD 2 [], words.getD 3 []⟩
    if 4 < words.length || pin.mode ≠ sourceMode then none
    else if pin.mode = "legacy".toList then
      if pin.revision ++ ' ' :: pin.buildId ++ ' ' :: pin.digest = "- - -".toList then some pin
      else none
    else if pin.mode = "pinned".toList then
      if isHex 40 pin.revision && isHex 64 pin.digest && isBuildId pin.buildId then some pin
      else none
    else none

/-! ## A run -/

/-- What a run is given, and what the commands answer it. -/
structure Run where
  role : List Char
  roles : List Char
  stage : List Char
  branch : List Char
  allowedBranches : List Char
  sourceMode : List Char
  /-- The exit status of a command that fails. -/
  failureCode : Nat
  failureCode_pos : 0 < failureCode
  /-- The line of `pxe-source-pin.py`, unless it fails. -/
  pinOutput : Option (List Char)
  /-- `pinned_prepare_is_current`, before the fetch and before the installation. -/
  prepared : Bool
  installed : Bool
  hasCheckout : Bool
  hasOldGalaxyRole : Bool
  /-- The tree is clean after the checkout was reset, and after the installation. -/
  fetchedClean : Bool
  installedClean : Bool
  galaxyIsCurrent : Bool
  /-- The checkout before the playbook. -/
  headBefore : List Char
  elapsed : Int
  statusTime : Rat
  /-- The checkout after it. -/
  headAfter : List Char
  headAfter_line : '\n' ∉ headAfter
  checkoutAfter : Bool
  cleanAfter : Bool
  pinOutputAfter : List Char
  bootId : List Char
  bootId_line : '\n' ∉ bootId
  postPullEpoch : List Char
  postPullTime : Rat
  executionEpoch : List Char
  executionTime : Rat

/-- `[ "${SOURCE_MODE}" = pinned ]` -/
def Run.pinned (run : Run) : Bool :=
  run.sourceMode = "pinned".toList

/-- Where a run stopped: the exit status, `CURRENT_STEP` and `BRANCH`. -/
structure Stopped where
  rc : Nat
  step : String
  branch : List Char

/-- What a run that came to its end has found. -/
structure Completed where
  branch : List Char
  sourcePin : List Char
  pin : Pin

/-- How a run ended, for the trap. -/
structure Outcome where
  rc : Nat
  step : String
  branch : List Char
  completed : Option Completed

/-- The files, and which runs have begun to write how they ended: into the file that all runs
share, and into the file of their role. -/
structure Station where
  files : Directory
  opened : List (Run × Outcome)
  logged : List (Run × Outcome)

def Station.put (station : Station) (name : List Char) (file : File) : Station :=
  { station with files := station.files.put name file }

def Station.remove (station : Station) (name : List Char) : Station :=
  { station with files := station.files.remove name }

/-- A part of the script. -/
abbrev Script (α : Type) : Type :=
  Program Stopped Station α

/-- `tr -c 'A-Za-z0-9_' '_'`, without one `_` at each end. -/
def safeInventoryName (value : List Char) : List Char :=
  dropMark '_' (dropHead ['_'] (value.map fun char =>
    if char.isAlphanum || char = '_' then char else '_'))

section Body

variable (run : Run) (branch : List Char)

/-- A command at a step. The script stops where it fails. -/
def command (step : String) : Script Unit :=
  change ⟨run.failureCode, step, branch⟩ id

/-- A command whose failure is passed over. -/
def tolerated : Script Unit :=
  catching (command run branch "") fun _ => pure ()

/-- Roles that an earlier installation left in the checkout are removed. -/
def cleanupOldGalaxyRoles : Script Unit :=
  if run.hasOldGalaxyRole then command run branch "cleanup_old_galaxy_roles" else pure ()

/-- The checkout is brought to the pin, unless that is done. Returned is the step. -/
def fetchPin : Script String :=
  if run.prepared then pure "pinned_prepare_check"
  else do
    command run branch "pinned_prepare_check"
    if run.hasCheckout then pure () else command run branch "git_init"
    command run branch "git_fetch_pin"
    cleanupOldGalaxyRoles run branch
    command run branch "git_reset_pin"
    demand run.fetchedClean ⟨2, "git_reset_pin", branch⟩
    command run branch "git_reset_pin"
    pure "git_reset_pin"

/-- The checkout is brought to the branch. -/
def fetchBranch : Script String :=
  if run.hasCheckout then do
    command run branch "git_fetch"
    cleanupOldGalaxyRoles run branch
    command run branch "git_reset"
    pure "git_reset"
  else do
    command run branch "git_clone"
    pure "git_clone"

/-- The step at which the checkout is where it should be. -/
def fetch (pinned : Bool) : Script String :=
  if pinned then fetchPin run branch else fetchBranch run branch

/-- The roles and collections are installed. -/
def installGalaxy (pinned : Bool) : Script Unit := do
  command run branch "ansible_galaxy_roles"
  command run branch "ansible_galaxy_collections"
  if pinned then do
    demand run.galaxyIsCurrent ⟨1, "verify_galaxy_install", branch⟩
    demand run.installedClean ⟨1, "verify_galaxy_install", branch⟩
    command run branch "verify_galaxy_install"
  else pure ()

/-- They are installed, unless a pinned run finds them. -/
def install (pinned : Bool) : Script Unit :=
  if !pinned || !run.installed then installGalaxy run branch pinned else pure ()

/-- The checkout of a pinned run is at the pin, and nothing in it is changed. -/
def verifySourcePin (pinned : Bool) (pin : Pin) : Script Unit := do
  demand (!pinned || captured run.headBefore == pin.revision) ⟨2, "verify_source_pin", branch⟩
  if pinned then do
    command run branch "verify_source_pin"
    command run branch "verify_source_pin"
  else pure ()

/-- The script up to its trap, with the branch that was resolved. -/
def runBranch : Script Completed := do
  command run branch "source_pin"
  match run.pinOutput with
  | none => raise ⟨run.failureCode, "source_pin", branch⟩
  | some output =>
      match readPin run.sourceMode (captured output) with
      | none => raise ⟨2, "source_pin", branch⟩
      | some pin => do
          demand (safeInventoryName run.role ≠ []) ⟨1, "runtime_inventory", branch⟩
          command run branch "runtime_inventory"
          command run branch "role_extra_vars"
          tolerated run branch
          command run branch "prepare_dest"
          let step ← fetch run branch run.pinned
          command run branch step
          install run branch run.pinned
          verifySourcePin run branch run.pinned pin
          command run branch "ansible_pull"
          pure ⟨branch, captured output, pin⟩

end Body

/-- The script up to its trap. -/
def body (run : Run) : Script Completed :=
  match resolveBranch run.stage run.branch run.allowedBranches with
  | .error branch => raise ⟨1, "branch_resolve", branch⟩
  | .ok branch => runBranch run branch

/-! ## How a run ended -/

def intText : Int → List Char
  | .ofNat n => natText n
  | .negSucc n => '-' :: natText (n + 1)

/-- `${value:-unknown}` -/
def orUnknown (value : List Char) : List Char :=
  if value = [] then "unknown".toList else value

/-- The lines of `log_state`. -/
def statusEntries (run : Run) (outcome : Outcome) : List Entry :=
  [("ROLE".toList, run.role), ("STAGE".toList, orUnknown run.stage),
    ("BRANCH".toList, orUnknown outcome.branch), ("RC".toList, natText outcome.rc),
    ("ELAPSED_SECS".toList, intText run.elapsed), ("STEP".toList, outcome.step.toList)]

section Finish

variable (run : Run) (outcome : Outcome)

/-- `log_state`: a file is emptied before it is written. -/
def logState : Script Unit := do
  let stopped : Stopped := ⟨1, outcome.step, outcome.branch⟩
  let written : File := ⟨print (statusEntries run outcome), run.statusTime⟩
  change stopped id
  change stopped fun station =>
    { station.put lastFile ⟨[], run.statusTime⟩ with opened := station.opened ++ [(run, outcome)] }
  change stopped fun station => station.put lastFile written
  change stopped fun station =>
    { station.put (stateFile run.role) ⟨[], run.statusTime⟩ with
      logged := station.logged ++ [(run, outcome)] }
  change stopped fun station => station.put (stateFile run.role) written

/-- Whether a part of the script succeeds. -/
def attempt (part : Script Unit) : Script Bool :=
  catching (do part; pure true) fun _ => pure false

/-- A command of the trap. -/
def inTrap (act : Station → Station) : Script Bool :=
  attempt (change ⟨1, outcome.step, outcome.branch⟩ act)

/-- The lines of a receipt. One that cannot be written is missing; what counts is the last. -/
def writeLines : List Entry → Bool → Script (List Entry × Bool)
  | [], status => pure ([], status)
  | entry :: entries, _ => do
      let ok ← inTrap outcome id
      let rest ← writeLines entries ok
      pure (if ok then entry :: rest.1 else rest.1, rest.2)

/-- A receipt is written under another name and moved. -/
def writeReceipt (name : List Char) (entries : List Entry) (time : Rat) : Script Unit := do
  let opened ← inTrap outcome id
  if opened then do
    let lines ← writeLines outcome entries true
    if lines.2 then do
      let _moved ← inTrap outcome fun station => station.put name ⟨print lines.1, time⟩
      pure ()
    else pure ()
  else pure ()

/-- `^[0-9a-f]{8}(-[0-9a-f]{4}){3}-[0-9a-f]{12}$` -/
def isBootId (text : List Char) : Bool :=
  HexGroups.isHexGroups [8, 4, 4, 4, 12] text

def isEpoch (text : List Char) : Bool :=
  text ≠ [] && text.all Char.isDigit

def isStaging (stage : List Char) : Bool :=
  stage = "stg".toList || stage = "staging".toList

/-- When `record_post_pull_identity` writes a receipt. -/
def observesCheckout : Bool :=
  outcome.rc = 0 && outcome.step = "complete" && isStaging run.stage &&
    outcome.branch = "stg".toList && run.checkoutAfter && run.role ≠ [] &&
    run.role.all isFileChar && isBootId run.bootId && isHex 40 run.headAfter &&
    isEpoch run.postPullEpoch

def postPullEntries : List Entry :=
  [("SCHEMA".toList, ['1']), ("ROLE".toList, run.role), ("STAGE".toList, run.stage),
    ("BRANCH".toList, outcome.branch), ("BOOT_ID".toList, run.bootId),
    ("CHECKOUT_HEAD_AFTER_SUCCESS".toList, run.headAfter),
    ("RECORDED_AT_EPOCH".toList, run.postPullEpoch)]

/-- `record_post_pull_identity` -/
def recordPostPullIdentity : Script Unit := do
  let removed ← inTrap outcome fun station => station.remove (postPullFile run.role)
  if removed && observesCheckout run outcome then
    writeReceipt outcome (postPullFile run.role) (postPullEntries run outcome) run.postPullTime
  else pure ()

/-- When `record_pinned_execution_identity` writes a receipt. -/
def executesPin (completed : Completed) : Bool :=
  outcome.rc = 0 && outcome.step = "complete" && run.pinned &&
    completed.pin.mode = "pinned".toList && isStaging run.stage &&
    outcome.branch = "stg".toList && run.role ≠ [] && run.role.all isFileChar &&
    isHex 40 completed.pin.revision && isBuildId completed.pin.buildId &&
    isHex 64 completed.pin.digest && captured run.pinOutputAfter = completed.sourcePin &&
    run.headAfter = completed.pin.revision && run.cleanAfter && isBootId run.bootId &&
    isEpoch run.executionEpoch

def evidenceScope : List Char :=
  "pinned_playbook_success_not_role_task_attested".toList

def executionEntries (pin : Pin) : List Entry :=
  [("SCHEMA".toList, ['1']), ("ROLE".toList, run.role), ("STAGE".toList, run.stage),
    ("BRANCH".toList, outcome.branch), ("BOOT_ID".toList, run.bootId),
    ("EVIDENCE_SCOPE".toList, evidenceScope), ("BUILD_ID".toList, pin.buildId),
    ("PIN_REVISION".toList, pin.revision), ("DECLARATION_SHA256".toList, pin.digest),
    ("CHECKOUT_HEAD_AFTER_SUCCESS".toList, run.headAfter),
    ("RECORDED_AT_EPOCH".toList, run.executionEpoch)]

/-- `record_pinned_execution_identity` -/
def recordPinnedExecutionIdentity : Script Unit := do
  let removed ← inTrap outcome fun station => station.remove (pinnedExecutionFile run.role)
  match outcome.completed with
  | none => pure ()
  | some completed =>
      if removed && executesPin run outcome completed then
        writeReceipt outcome (pinnedExecutionFile run.role)
          (executionEntries run outcome completed.pin) run.executionTime
      else pure ()

/-- `finish` -/
def finish : Script Unit := do
  logState run outcome
  recordPostPullIdentity run outcome
  recordPinnedExecutionIdentity run outcome

end Finish

/-- The end of the body, whether it came there or stopped. -/
def settle (run : Run) : Script Outcome :=
  catching (do let completed ← body run; pure ⟨0, "complete", completed.branch, some completed⟩)
    fun stopped => pure ⟨stopped.rc, stopped.step, stopped.branch, none⟩

/-- The wrapper. The trap is set for a role that is among the roles. -/
def wrapper (run : Run) : Script Unit :=
  if run.role = [] then raise ⟨1, "init", run.branch⟩
  else if run.roles ≠ [] ∧
      ¬ (',' :: run.role ++ [',']) <:+: (',' :: run.roles ++ [',']) then pure ()
  else do
    let outcome ← settle run
    finish run outcome

/-! ## Runs and boots -/

inductive Event where
  | boot
  | run (run : Run) (faults : List Fault)

/-- A boot begins with an empty directory. -/
def booted : Station :=
  ⟨fun _ => none, [], []⟩

def Event.after (station : Station) : Event → Station
  | .boot => booted
  | .run given faults => (wrapper given).state station faults

def afterAll (station : Station) (events : List Event) : Station :=
  events.foldl Event.after station

end HomeclusterInfra.AnsiblePull
