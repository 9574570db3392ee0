import HomeclusterInfra.Library.Checked
import HomeclusterInfra.Library.PyValue

/-!
# Phase records

A rollout run ends with a result, and a run that came as far as the selector
playbook puts a phase record into it: the targets, the selectors before and
after, and a verdict. The verdict depends on what was asked for and on a few
module-level flags that the steps of the run set.

Records and the result file of the playbook are JSON objects. The operator
hints of a result, its diagnostics, are left out.
-/

set_option autoImplicit false

namespace HomeclusterInfra.Rollout

open Text Python

/-! ## Phases -/

/-- `RUNTIME_PHASES` -/
inductive RuntimePhase where
  | genericCanary
  | egpuCanary
  | fleetRollout
  | fullFleet
deriving DecidableEq

/-- `PHASES` -/
inductive Phase where
  | forward (phase : RuntimePhase)
  | rollbackLastPhase
deriving DecidableEq

def RuntimePhase.text : RuntimePhase → String
  | .genericCanary => "generic_canary"
  | .egpuCanary => "egpu_canary"
  | .fleetRollout => "fleet_rollout"
  | .fullFleet => "full_fleet"

def Phase.text : Phase → String
  | .forward phase => phase.text
  | .rollbackLastPhase => "rollback_last_phase"

/-- `reversed(RUNTIME_PHASES)` -/
def reversedPhases : List RuntimePhase :=
  [.fullFleet, .fleetRollout, .egpuCanary, .genericCanary]

theorem mem_reversedPhases (phase : RuntimePhase) : phase ∈ reversedPhases := by
  cases phase <;> decide

/-- The runtime phase of a name. -/
def RuntimePhase.ofText (text : List Char) : Option RuntimePhase :=
  reversedPhases.find? fun phase => phase.text.toList == text

@[simp] theorem RuntimePhase.ofText_text (phase : RuntimePhase) :
    RuntimePhase.ofText phase.text.toList = some phase := by
  cases phase <;> decide

/-! ## Patterns -/

/-- `[0-9]{8}T[0-9]{6}Z` -/
def isStamp (text : List Char) : Bool :=
  text.length == 16 && (text.take 8).all Char.isDigit && text.getD 8 ' ' == 'T' &&
    ((text.drop 9).take 6).all Char.isDigit && text.getD 15 ' ' == 'Z'

/-- `SAFE_RUN_ID` -/
def isSafeRunId (text : List Char) : Bool :=
  isStamp (text.take 16) && text.getD 16 ' ' == '-' && !(text.drop 17).isEmpty &&
    (text.drop 17).all fun char => char.isAlphanum || char == '.' || char == '_' || char == '-'

/-- `KERNEL_RELEASE` -/
def isKernelRelease (text : List Char) : Bool :=
  let suffix := "-v8-homecluster+".toList
  let front := text.take (text.length - suffix.length)
  front ++ suffix == text && !front.isEmpty && front.all (· != '\n')

/-- `SELECTOR` -/
def isSelector (text : List Char) : Bool :=
  text.length == 13 && (text.take 8).all Char.isDigit &&
    (text.drop 8 == "-rpi4".toList || text.drop 8 == "-rpi5".toList)

/-! ## Key-value output -/

/-- `[A-Za-z_][A-Za-z0-9_]*` -/
def isKey : List Char → Bool
  | [] => false
  | first :: rest => (first.isAlpha || first == '_') &&
      rest.all fun char => char.isAlphanum || char == '_'

/-- `parse_kv` -/
def parseKv (output : List Char) : Mapping (List Char) :=
  (splitlines output).foldl
    (fun result raw =>
      let key := raw.takeWhile (· != '=')
      if raw.contains '=' && isKey key then
        result.set (String.ofList key) (raw.drop (key.length + 1))
      else result)
    []

/-! ## The verdict -/

/-- The module-level flags of a run. -/
structure Globals where
  /-- `_CURRENT_ACTION` -/
  currentAction : Option Phase
  /-- `_LAST_FRESH_BOOT_STATUS` -/
  lastFreshBootStatus : List Char
  /-- `_LAST_KERNEL_ACCEPTANCE` -/
  lastKernelAcceptance : Option Bool
  /-- `_LAST_SELECTOR_CHANGED` -/
  lastSelectorChanged : Option Bool
  /-- `_PREFLIGHT_ACCEPTANCE` -/
  preflightAcceptance : Option Bool

/-- The flags after the selector playbook. -/
def Globals.withSelectors (globals : Globals) (changed : Option Bool) : Globals :=
  { globals with lastSelectorChanged := changed }

/-- The flags after the fresh boot. -/
def Globals.withBoot (globals : Globals) (status : List Char) : Globals :=
  { globals with lastFreshBootStatus := status }

/-- The flags after the acceptance of the phase. -/
def Globals.withAcceptance (globals : Globals) (accepted : Bool) : Globals :=
  { globals with lastKernelAcceptance := some accepted }

/-- `mapping.get(key)` -/
def getOrNone (mapping : Dict) (key : String) : Value :=
  (mapping.get key).getD .none

theorem getOrNone_eq_str {mapping : Dict} {key text : String} :
    getOrNone mapping key = .str text ↔ mapping.get key = some (.str text) := by
  unfold getOrNone
  cases mapping.get key <;> simp

theorem getOrNone_eq_bool {mapping : Dict} {key : String} {flag : Bool} :
    getOrNone mapping key = .bool flag ↔ mapping.get key = some (.bool flag) := by
  unfold getOrNone
  cases mapping.get key <;> simp

/-- `selectors_changed` -/
def selectorsChanged (targets : List String) (selectorResult : Dict) : Bool :=
  match selectorResult.get "previous_selector_by_node",
    selectorResult.get "applied_selector_by_node" with
  | some (.dict previous), some (.dict applied) =>
      targets.any fun target =>
        !(getOrNone previous target).equal (getOrNone applied target)
  | _, _ => false

/-- The releases that a board boots from. -/
structure Selector where
  tftpRelease : String
  rootfsRelease : String
deriving DecidableEq

/-- Both releases have the form of one. -/
def Selector.wellFormed (selector : Selector) : Bool :=
  isSelector selector.tftpRelease.toList && isSelector selector.rootfsRelease.toList

/-- A selector map has this selector for a target. -/
def HasSelector (selectors : Dict) (target : String) (selector : Selector) : Prop :=
  ∃ fields, selectors.get target = some (.dict fields) ∧
    Mapping.get fields "tftp_release" = some (.str selector.tftpRelease) ∧
    Mapping.get fields "rootfs_release" = some (.str selector.rootfsRelease)

theorem HasSelector.unique {selectors : Dict} {target : String} {first second : Selector}
    (one : HasSelector selectors target first) (other : HasSelector selectors target second) :
    first = second := by
  obtain ⟨fields, present, tftp, rootfs⟩ := one
  obtain ⟨fields', present', tftp', rootfs'⟩ := other
  obtain rfl := Value.dict.inj (Option.some.inj (present.symm.trans present'))
  cases first
  cases second
  have sameTftp := Value.str.inj (Option.some.inj (tftp.symm.trans tftp'))
  have sameRootfs := Value.str.inj (Option.some.inj (rootfs.symm.trans rootfs'))
  simp only at sameTftp sameRootfs
  rw [sameTftp, sameRootfs]

/-- What `main` hands to `phase_record_value`, and the clock it reads. -/
structure RecordArgs where
  phase : RuntimePhase
  targets : List String
  selectorResult : Dict
  accepted : Dict
  freshBootRunId : List Char
  acceptanceStatus : String
  startedAt : String
  completedAt : String

/-- The part of a phase record that says how the phase went. -/
structure Verdict where
  acceptanceStatus : String
  rebootAcceptanceStatus : String
  kernelAcceptanceStatus : String
  rollbackRecommended : Bool

/-- The branches at the end of `phase_record_value`. -/
def verdict (globals : Globals) (args : RecordArgs) : Verdict :=
  let requested := args.acceptanceStatus
  let boot := globals.lastFreshBootStatus
  if globals.currentAction = some .rollbackLastPhase then
    { acceptanceStatus := requested
      rebootAcceptanceStatus := if boot.isEmpty then "not_run" else String.ofList boot
      kernelAcceptanceStatus := "not_applicable"
      rollbackRecommended := false }
  else if globals.currentAction = some (.forward .fullFleet) &&
      globals.lastSelectorChanged = some false && args.freshBootRunId.isEmpty &&
      requested = "pass" && globals.lastKernelAcceptance = some true then
    { acceptanceStatus := "pass"
      rebootAcceptanceStatus := "not_required"
      kernelAcceptanceStatus := "pass"
      rollbackRecommended := false }
  else if args.freshBootRunId.isEmpty then
    { acceptanceStatus := if requested = "fail" then "selector_failed" else requested
      rebootAcceptanceStatus := "not_run"
      kernelAcceptanceStatus := "not_run"
      rollbackRecommended := false }
  else if !boot.isEmpty && boot != "pass".toList then
    { acceptanceStatus := String.ofList ("reboot_".toList ++ boot)
      rebootAcceptanceStatus := String.ofList boot
      kernelAcceptanceStatus := "not_run"
      rollbackRecommended := false }
  else if requested = "fail" || globals.lastKernelAcceptance = some false then
    { acceptanceStatus := "fail"
      rebootAcceptanceStatus := "pass"
      kernelAcceptanceStatus := "fail"
      rollbackRecommended := selectorsChanged args.targets args.selectorResult }
  else
    { acceptanceStatus := requested
      rebootAcceptanceStatus := "pass"
      kernelAcceptanceStatus := if globals.lastKernelAcceptance.isSome then "pass" else "not_run"
      rollbackRecommended := false }

/-! ## The record -/

section Records

variable [UnicodeData]

/-- `str(value)` as a value. -/
def strOf (value : Value) : Value :=
  .str (String.ofList value.text)

/-- `first or second or … or ""` -/
def firstTruthy : List (Option Value) → Value
  | [] => .str ""
  | some value :: rest => if value.truthy then value else firstTruthy rest
  | none :: rest => firstTruthy rest

/-- `artifact_reference` -/
def artifactReference (accepted : Dict) : Dict :=
  let read (keys : List String) : List Char := (firstTruthy (keys.map accepted.get)).text
  let manifest := read ["kernel_artifact_manifest_sha256", "generation_manifest_sha256"]
  let identified := if manifest.isEmpty then Value.str ""
    else .str (String.ofList ("sha256:".toList ++ manifest))
  [("kernel_artifact_id",
      strOf (firstTruthy [accepted.get "kernel_artifact_id", some identified])),
    ("kernel_artifact_build_release",
      .str (String.ofList (read ["kernel_artifact_build_release", "pxe_candidate_selector"]))),
    ("kernel_artifact_manifest_sha256", .str (String.ofList manifest)),
    ("kernel_artifact_payload_sha256",
      .str (String.ofList (read ["kernel_artifact_payload_sha256", "artifact_payload_sha256"]))),
    ("pxe_release_id",
      .str (String.ofList (read ["pxe_release_id", "pxe_candidate_selector"]))),
    ("pxe_release_manifest_sha256",
      .str (String.ofList (read ["pxe_release_manifest_sha256"])))]

/-- The first `phase_record_value`, which the second one completes. -/
def originalPhaseRecordValue (args : RecordArgs) : Dict :=
  [("phase", .str args.phase.text),
    ("targets", .list (args.targets.map .str)),
    ("previous_selector_by_node",
      (args.selectorResult.get "previous_selector_by_node").getD (.dict [])),
    ("applied_selector_by_node",
      (args.selectorResult.get "applied_selector_by_node").getD (.dict [])),
    ("accepted_generation_run_id", strOf (getOrNone args.accepted "generation_run_id")),
    ("exact_kernel_release", strOf (getOrNone args.accepted "exact_kernel_release")),
    ("fresh_boot_run_id", .str (String.ofList args.freshBootRunId)),
    ("acceptance_status", .str args.acceptanceStatus),
    ("acceptance_version", .str "rpi5-common-kernel-phase-v1"),
    ("started_at", .str args.startedAt),
    ("completed_at", .str args.completedAt)]

/-- `phase_record_value` up to the branches. -/
def describedRecord (globals : Globals) (args : RecordArgs) : Dict :=
  let action := (globals.currentAction.map Phase.text).getD args.phase.text
  let described :=
    ((originalPhaseRecordValue args).set "requested_action" (.str action)).update
      (artifactReference args.accepted)
  ((described.set "pre_rollout_cluster_status" (.str "not_checked")).set
    "pre_rollout_cluster_issues" (.str "none")).set
    "selector_changed" (.bool (selectorsChanged args.targets args.selectorResult))

/-- `phase_record_value` -/
def phaseRecordValue (globals : Globals) (args : RecordArgs) : Dict :=
  let verdict := verdict globals args
  ((((describedRecord globals args).set
    "acceptance_status" (.str verdict.acceptanceStatus)).set
    "reboot_acceptance_status" (.str verdict.rebootAcceptanceStatus)).set
    "kernel_acceptance_status" (.str verdict.kernelAcceptanceStatus)).set
    "rollback_recommended" (.bool verdict.rollbackRecommended)

variable (globals : Globals) (args : RecordArgs)

/-- The keys that the record has from its description on and the verdict leaves alone. -/
theorem get_phaseRecordValue_of_ne {key : String} (acceptance : "acceptance_status" ≠ key)
    (reboot : "reboot_acceptance_status" ≠ key) (kernel : "kernel_acceptance_status" ≠ key)
    (recommended : "rollback_recommended" ≠ key) :
    (phaseRecordValue globals args).get key = (describedRecord globals args).get key := by
  simp only [phaseRecordValue]
  rw [Mapping.get_set_of_ne _ _ recommended, Mapping.get_set_of_ne _ _ kernel,
    Mapping.get_set_of_ne _ _ reboot, Mapping.get_set_of_ne _ _ acceptance]

/-- The description adds to the first record value and changes nothing in it. -/
theorem get_describedRecord {key : String}
    (kept : key ∈ ["phase", "targets", "previous_selector_by_node", "applied_selector_by_node",
      "accepted_generation_run_id"]) :
    (describedRecord globals args).get key = (originalPhaseRecordValue args).get key := by
  have other : key ∉ (artifactReference args.accepted).map Prod.fst := by
    simp only [artifactReference, List.map_cons, List.map_nil]
    simp only [List.mem_cons, List.not_mem_nil, or_false] at kept
    rcases kept with rfl | rfl | rfl | rfl | rfl <;> decide
  simp only [List.mem_cons, List.not_mem_nil, or_false] at kept
  have apart : "selector_changed" ≠ key ∧ "pre_rollout_cluster_issues" ≠ key ∧
      "pre_rollout_cluster_status" ≠ key ∧ "requested_action" ≠ key := by
    rcases kept with rfl | rfl | rfl | rfl | rfl <;> decide
  simp only [describedRecord]
  rw [Mapping.get_set_of_ne _ _ apart.1, Mapping.get_set_of_ne _ _ apart.2.1,
    Mapping.get_set_of_ne _ _ apart.2.2.1, Mapping.get_update_of_notMem _ other,
    Mapping.get_set_of_ne _ _ apart.2.2.2]

/-- What a later run reads from a phase record. -/
structure ReadsAs (record : Dict) (args : RecordArgs) (verdict : Verdict) : Prop where
  phase : record.get "phase" = some (.str args.phase.text)
  targets : record.get "targets" = some (.list (args.targets.map .str))
  previous : record.get "previous_selector_by_node" =
    some ((args.selectorResult.get "previous_selector_by_node").getD (.dict []))
  generation : record.get "accepted_generation_run_id" =
    some (strOf (getOrNone args.accepted "generation_run_id"))
  acceptance : record.get "acceptance_status" = some (.str verdict.acceptanceStatus)
  reboot : record.get "reboot_acceptance_status" = some (.str verdict.rebootAcceptanceStatus)
  recommended : record.get "rollback_recommended" = some (.bool verdict.rollbackRecommended)

/-- **A phase record holds its arguments and its verdict.** -/
theorem phaseRecordValue_readsAs :
    ReadsAs (phaseRecordValue globals args) args (verdict globals args) where
  phase := by
    rw [get_phaseRecordValue_of_ne _ _ (by decide) (by decide) (by decide) (by decide),
      get_describedRecord _ _ (by decide)]
    rfl
  targets := by
    rw [get_phaseRecordValue_of_ne _ _ (by decide) (by decide) (by decide) (by decide),
      get_describedRecord _ _ (by decide)]
    rfl
  previous := by
    rw [get_phaseRecordValue_of_ne _ _ (by decide) (by decide) (by decide) (by decide),
      get_describedRecord _ _ (by decide)]
    rfl
  generation := by
    rw [get_phaseRecordValue_of_ne _ _ (by decide) (by decide) (by decide) (by decide),
      get_describedRecord _ _ (by decide)]
    rfl
  acceptance := by
    simp only [phaseRecordValue]
    rw [Mapping.get_set_of_ne _ _ (by decide), Mapping.get_set_of_ne _ _ (by decide),
      Mapping.get_set_of_ne _ _ (by decide), Mapping.get_set_self]
  reboot := by
    simp only [phaseRecordValue]
    rw [Mapping.get_set_of_ne _ _ (by decide), Mapping.get_set_of_ne _ _ (by decide),
      Mapping.get_set_self]
  recommended := Mapping.get_set_self _ _ _

end Records

end HomeclusterInfra.Rollout
