import HomeclusterInfra.Library.Checked
import HomeclusterInfra.PxeCatalog.Values

/-!
# Variables of the roles

The builders of role variables. Each reads the variables of a host and the
configuration of its PXE client and supplies its own defaults.
-/

set_option autoImplicit false

namespace HomeclusterInfra.PxeCatalog

open Text Checked Python
open Mapping (copy)
open Value (asMapping? cleanString equal)

/-- How building the catalog fails. -/
inductive Failure where
  | valueError (message : String)
  | typeError
  deriving DecidableEq

/-! ## Keys -/

/-- `_TERRAFORM_STG_GROUP_VAR_KEYS` -/
def terraformStgGroupVarKeys : List String :=
  ["k3s_observability_apply_package_atom", "k3s_observability_apply_package_accept_keywords",
    "k3s_observability_apply_package_licenses", "k3s_observability_apply_state_mount_src",
    "k3s_observability_apply_state_mount_path", "k3s_observability_apply_state_mount_fstype",
    "k3s_observability_apply_state_mount_opts", "k3s_observability_apply_stage_name",
    "k3s_observability_apply_infra_bundle_name", "k3s_observability_apply_site_input_bundle_name",
    "k3s_observability_apply_run_root", "k3s_observability_apply_work_root",
    "k3s_observability_apply_service_name", "k3s_observability_apply_kubeconfig_path",
    "k3s_observability_apply_k3s_data_dir", "k3s_observability_apply_lock_timeout",
    "k3s_observability_apply_parallelism", "k3s_observability_apply_wait_timeout_secs",
    "k3s_observability_apply_retry_secs", "k3s_observability_apply_post_ready_settle_secs",
    "k3s_observability_apply_metallb_crd_wait_timeout_secs",
    "k3s_observability_apply_metallb_ready_wait_timeout_secs",
    "k3s_observability_apply_cert_manager_ready_wait_timeout_secs",
    "k3s_observability_apply_after_units"]

/-- `_K3S_LOCAL_STORAGE_BOOL_KEYS` -/
def k3sLocalStorageBoolKeys : List String :=
  ["k3s_local_storage_enabled", "k3s_local_storage_allow_format", "k3s_local_storage_force_format",
    "k3s_local_storage_ephemeral_agent_data", "k3s_local_storage_wipe_signatures",
    "k3s_local_storage_require_partition", "k3s_local_storage_killall_on_mount_change",
    "k3s_local_storage_scrub_containerd_on_boot", "k3s_local_storage_node_password_sync_enabled",
    "k3s_local_storage_reset_identity_when_local_password_missing"]

/-- `_K3S_LOCAL_STORAGE_VALUE_KEYS` -/
def k3sLocalStorageValueKeys : List String :=
  ["k3s_local_storage_device", "k3s_local_storage_mountpoint", "k3s_local_storage_filesystem_type",
    "k3s_local_storage_label", "k3s_local_storage_mount_options",
    "k3s_local_storage_killall_script_path", "k3s_local_storage_scrub_containerd_confirm",
    "k3s_local_storage_scrub_containerd_required_confirm", "k3s_local_storage_containerd_dir",
    "k3s_local_storage_node_password_sync_service_name",
    "k3s_local_storage_node_password_sync_script_path",
    "k3s_local_storage_node_password_sync_dropin_name", "k3s_local_storage_state_dir",
    "k3s_local_storage_node_password_state_path", "k3s_local_storage_server_ca_hash_state_path",
    "k3s_local_storage_cluster_token_path"]

/-- `_K3S_ISCSI_SESSION_BOOL_KEYS` -/
def k3sIscsiSessionBoolKeys : List String :=
  ["k3s_iscsi_session_enabled", "k3s_iscsi_session_login_enabled"]

/-- `_K3S_ISCSI_SESSION_VALUE_KEYS` -/
def k3sIscsiSessionValueKeys : List String :=
  ["k3s_iscsi_session_portal", "k3s_iscsi_session_target_iqn", "k3s_iscsi_session_initiator_iqn",
    "k3s_iscsi_session_device_path", "k3s_iscsi_session_node_startup",
    "k3s_iscsi_session_open_iscsi_package", "k3s_iscsi_session_discovery_timeout",
    "k3s_iscsi_session_udev_settle_timeout"]

/-- `_RPI5_EGPU_LOCAL_LLM_BOOL_KEYS` -/
def rpi5EgpuLocalLlmBoolKeys : List String :=
  ["rpi5_egpu_local_llm_enabled", "rpi5_egpu_local_swap_enabled", "rpi5_egpu_llama_enabled",
    "rpi5_egpu_llama_disable_webui", "rpi5_egpu_llama_models_storage_enabled",
    "rpi5_egpu_llama_models_storage_allow_empty_dir_replace", "rpi5_egpu_llama_build_enabled",
    "rpi5_egpu_llama_validate_runtime"]

/-- `_RPI5_EGPU_LOCAL_LLM_VALUE_KEYS` -/
def rpi5EgpuLocalLlmValueKeys : List String :=
  ["rpi5_egpu_local_swap_path", "rpi5_egpu_local_swap_size", "rpi5_egpu_local_swap_size_bytes",
    "rpi5_egpu_local_swap_priority", "rpi5_egpu_local_swap_swappiness",
    "rpi5_egpu_local_swap_mountpoint", "rpi5_egpu_local_swap_mount_fstype",
    "rpi5_egpu_local_swap_mount_source", "rpi5_egpu_local_swap_service_name",
    "rpi5_egpu_llama_user", "rpi5_egpu_llama_group", "rpi5_egpu_llama_home",
    "rpi5_egpu_llama_models_dir", "rpi5_egpu_llama_model_path", "rpi5_egpu_llama_source_dir",
    "rpi5_egpu_llama_build_dir", "rpi5_egpu_llama_build_jobs", "rpi5_egpu_llama_service_name",
    "rpi5_egpu_llama_bind_host", "rpi5_egpu_llama_port", "rpi5_egpu_llama_context_size",
    "rpi5_egpu_llama_gpu_layers", "rpi5_egpu_llama_condition_host",
    "rpi5_egpu_llama_models_storage_dir", "rpi5_egpu_llama_models_storage_mountpoint",
    "rpi5_egpu_llama_models_storage_fstype", "rpi5_egpu_llama_models_storage_mount_source",
    "rpi5_egpu_llama_health_retries", "rpi5_egpu_llama_health_delay"]

/-- `_RPI5_EGPU_LOCAL_LLM_SEQUENCE_KEYS` -/
def rpi5EgpuLocalLlmSequenceKeys : List String :=
  ["rpi5_egpu_llama_extra_args"]

/-- The keys that let a role destroy what a disk holds. -/
def storageFlags : List String :=
  ["k3s_local_storage_allow_format", "k3s_local_storage_force_format",
    "k3s_local_storage_ephemeral_agent_data"]

/-! ## Reading variables -/

/-- `mapping.get(key)` -/
def valueAt (vars : Vars) (key : String) : Value :=
  (vars.get key).getD .none

/-- `_as_bool(mapping.get(key, default))` -/
def flag (vars : Vars) (key : String) (default : Bool) : Bool :=
  ((vars.get key).getD (.bool default)).asBool

/-- A mapping under a key; any other value counts as an empty one. -/
def mappingAt (vars : Vars) (key : String) : Vars :=
  ((vars.get key).bind asMapping?).getD []

/-- `result[key] = _as_bool(hv.get(key))` -/
def boolOf (value : Value) : Value :=
  .bool value.asBool

/-- A list of strings. -/
def strings (texts : List String) : Value :=
  .list (texts.map .str)

mutual
/-- A value under a key that is there already: mappings are merged, anything
else stays. -/
def mergeValue (current : Value) : Value → Value
  | .dict fields =>
      match current with
      | .dict inner => .dict (mergeNestedMapping inner fields)
      | other => other
  | _ => current

/-- `_merge_nested_mapping`, without the list of conflicts. -/
def mergeNestedMapping : Vars → List (String × Value) → Vars
  | base, [] => base
  | base, (key, value) :: rest =>
      mergeNestedMapping
        (base.set key ((base.get key).elim value fun current => mergeValue current value)) rest
end

/-! ## Builders -/

section Builders

variable [UnicodeData]

/-- `_append_clean_unique` -/
def appendCleanUnique (items : List String) (value : Value) : List String :=
  let item := value.cleanString
  if item ≠ "" ∧ item ∉ items then items ++ [item] else items

/-- `_build_base_vars` -/
def buildBaseVars (hv cfg : Vars) : Vars :=
  if !flag (mappingAt cfg "ansible_pull") "distcc_vars_enabled" true then []
  else
    match (hv.get "distcc").bind asMapping? with
    | none => []
    | some distcc =>
        if !flag distcc "enabled" false then []
        else copy hv id ["distcc_default_allow"] [("distcc", .dict distcc)]

/-- `_build_terraform_stg_group_vars` -/
def buildTerraformStgGroupVars (hv : Vars) : Vars :=
  copy hv id terraformStgGroupVarKeys []

/-- `_persistent_stg_storage_vars` -/
def persistentStgStorageVars (values : Vars) : Except Failure Vars :=
  storageFlags.foldlM (fun result key => do
    require (!flag result key false)
      (.valueError ("persistent staging server cannot enable " ++ key))
    pure (result.set key (.bool false))) values

/-- `_build_k3s_local_storage_vars` -/
def buildK3sLocalStorageVars (hv : Vars) (defaultEphemeralAgentData : Bool)
    (defaultNodePasswordSyncEnabled : Option Bool) : Vars :=
  let ephemeral := "k3s_local_storage_ephemeral_agent_data"
  let sync := "k3s_local_storage_node_password_sync_enabled"
  let result : Vars := [
    ("k3s_local_storage_enabled",
      boolOf (firstPresent [hv.get "k3s_local_storage_enabled", some (.bool false)])),
    ("k3s_local_storage_mountpoint", .str "/var/lib/rancher/k3s"),
    ("k3s_local_storage_filesystem_type", .str "ext4"),
    ("k3s_local_storage_mount_options",
      .str "defaults,noatime,lazytime,nodiscard,errors=remount-ro"),
    ("k3s_local_storage_allow_format", .bool true),
    ("k3s_local_storage_force_format", .bool false),
    (ephemeral,
      boolOf (firstPresent [hv.get ephemeral, some (.bool defaultEphemeralAgentData)]))]
  let result :=
    if defaultNodePasswordSyncEnabled.isSome || hv.has sync then
      result.set sync
        (boolOf (firstPresent [hv.get sync, defaultNodePasswordSyncEnabled.map .bool]))
    else result
  copy hv id k3sLocalStorageValueKeys (copy hv boolOf k3sLocalStorageBoolKeys result)

/-- `_build_k3s_iscsi_session_vars` -/
def buildK3sIscsiSessionVars (hv : Vars) : Vars :=
  copy hv id k3sIscsiSessionValueKeys (copy hv boolOf k3sIscsiSessionBoolKeys [])

/-- `_build_rpi5_egpu_local_llm_vars` -/
def buildRpi5EgpuLocalLlmVars (hv : Vars) : Vars :=
  copy hv (fun value => .list value.asList) rpi5EgpuLocalLlmSequenceKeys
    (copy hv id rpi5EgpuLocalLlmValueKeys (copy hv boolOf rpi5EgpuLocalLlmBoolKeys []))

/-- The address of a node. -/
def nodeIp (hv cfg : Vars) : String :=
  (firstPresent [hv.get "k3s_node_ip", hv.get "ansible_host", cfg.get "ip"]).cleanString

/-- `_build_k3s_stg_agent_vars` -/
def buildK3sStgAgentVars (hostname : String) (hv cfg : Vars) (overlayId : String) :
    Except Failure Vars := do
  let agentCfg := mappingAt hv "k3s_agent"
  let wanted := (valueAt hv "k3s_agent_snapshotter").cleanString
  let snapshotter := if wanted = "" then "native" else wanted
  require (snapshotter = "native" || snapshotter = "overlayfs")
    (.valueError "k3s_agent_snapshotter must be native or overlayfs")
  require (!(snapshotter = "overlayfs" &&
      (!(valueAt hv "k3s_local_storage_enabled").asBool ||
        (valueAt hv "k3s_local_storage_filesystem_type").cleanString ≠ "ext4")))
    (.valueError "k3s_agent_snapshotter=overlayfs requires dedicated ext4 k3s local storage")
  let labels := ((valueAt agentCfg "node-label").asList ++
    (valueAt hv "k3s_agent_extra_node_labels").asList).foldl appendCleanUnique []
  let agent : Vars := [
    ("node-ip", .str (nodeIp hv cfg)),
    ("node-name", .str (if overlayId = "" then hostname else overlayId)),
    ("node-label", strings (if labels.isEmpty then ["example.com/k3s-workload=true"] else labels)),
    ("snapshotter", .str snapshotter),
    ("data-dir", .str "/var/lib/rancher/k3s")]
  let result : Vars := [
    ("k3s_agent", .dict (copy agentCfg id ["kubelet-arg"] agent)),
    ("k3s_build_cluster", .bool true),
    ("k3s_control_node", .bool false),
    ("k3s_primary_control_node", .bool false),
    ("k3s_control_delegate", .str "k3s_stg_server"),
    ("k3s_controller_list", strings ["k3s_stg_server"])]
  pure ((((copy hv boolOf ["k3s_start_on_boot"] result).update
    (buildK3sLocalStorageVars hv true none)).update
    (buildK3sIscsiSessionVars hv)).update (buildRpi5EgpuLocalLlmVars hv))

/-- The list of node taints: a text is one taint, and a number cannot be iterated. -/
def nodeTaints (value : Value) : Except Failure (List Value) :=
  match value with
  | .str text => pure [.str text]
  | .list items => pure items
  | .dict fields => pure (fields.map fun field => .str field.1)
  | _ => .error .typeError

/-- `result["k3s_server"]["node-taint"]`, when the host has taints. -/
def addNodeTaints (hv server : Vars) : Except Failure Vars :=
  let taints := valueAt hv "k3s_server_node_taints"
  if taints.truthy then do
    let taints ← nodeTaints taints
    pure (server.set "node-taint" (.list taints))
  else pure server

/-- `_build_k3s_stg_server_vars` -/
def buildK3sStgServerVars (hostname : String) (hv cfg : Vars) (overlayId kubeconfigMode : String) :
    Except Failure Vars := do
  let ip := nodeIp hv cfg
  let nodeName := if overlayId = "" then hostname else overlayId
  let server : Vars := [
    ("disable", strings ["traefik", "servicelb"]),
    ("node-ip", .str ip),
    ("node-name", .str nodeName),
    ("node-external-ip", strings (if ip = "" then [] else [ip])),
    ("tls-san", strings ([ip, nodeName].filter (· ≠ ""))),
    ("snapshotter", .str "native"),
    ("data-dir", .str "/var/lib/rancher/k3s"),
    ("write-kubeconfig-mode", .str kubeconfigMode)]
  let server ← addNodeTaints hv server
  pure (((copy hv boolOf ["k3s_start_on_boot"] [("k3s_server", .dict server)]).update
    (buildK3sLocalStorageVars hv false (some false))).update (buildK3sIscsiSessionVars hv))

end Builders

end HomeclusterInfra.PxeCatalog
