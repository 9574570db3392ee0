import Mathlib.Data.List.Sort
import HomeclusterInfra.PxeCatalog.RoleVars

/-!
# The client catalog

For each enabled PXE client of a router the catalog generates the variables of
its roles. They come from the builders for the roles that the client lists and
from its `extra_vars`, which may name any role; two guards look at the result.
-/

set_option autoImplicit false

namespace HomeclusterInfra.PxeCatalog

open Text Checked Python
open Mapping (copy)
open Value (asMapping? cleanString equal)

/-- An element of `ansible_pull_client_vars`. -/
structure Item where
  overlayId : String
  role : String
  vars : Vars

section

variable [UnicodeData]

/-! ## The roles of a client -/

/-- `cfg["ansible_pull"]` -/
def ansiblePull (cfg : Vars) : Vars :=
  mappingAt cfg "ansible_pull"

/-- The cleaned names of the roles. -/
def roleNames (cfg : Vars) : List String :=
  ((valueAt cfg "roles").asList.map cleanString).filter (· ≠ "")

/-- The role is among the cleaned names. -/
def lists (cfg : Vars) (role : String) : Bool :=
  (roleNames cfg).contains role

/-- A `*_vars_enabled` switch of a role. -/
def switchedOn (cfg : Vars) (role : String) : Bool :=
  flag (ansiblePull cfg) (role ++ "_vars_enabled") true

/-- The variables that `host_tailscale` is given. -/
def hostTailscaleVars (hv : Vars) : Vars :=
  [("host_tailscale_enabled", .bool true),
    ("host_tailscale_hostname", (hv.get "host_tailscale_hostname").getD (.str "")),
    ("host_tailscale_storage_device", (hv.get "k3s_local_storage_device").getD (.str ""))]

/-- The roles with variables after the check of the host variables. -/
def addHostTailscale (hv : Vars) (roles : Mapping Vars) : Except Failure (Mapping Vars) :=
  if flag hv "host_tailscale_enabled" false then do
    require (flag hv "k3s_local_storage_enabled" false &&
        !(flag hv "k3s_local_storage_force_format" false ||
          flag hv "k3s_local_storage_ephemeral_agent_data" false))
      (.valueError "host Tailscale requires persistent node storage")
    pure (roles.set "host_tailscale" (hostTailscaleVars hv))
  else pure roles

/-- The variables of the `base` role. -/
def addBase (hv cfg : Vars) (roles : Mapping Vars) : Mapping Vars :=
  if !lists cfg "base" then roles
  else
    let distcc := buildBaseVars hv cfg
    let roles := if distcc.isEmpty then roles else roles.set "base" distcc
    let picoclaw := mappingAt hv "picoclaw"
    if picoclaw.isEmpty then roles
    else
      roles.set "base"
        (mergeNestedMapping ((roles.get "base").getD []) [("picoclaw", .dict picoclaw)])

/-- `role_extra_vars[role] = ...` under a condition. -/
def setWhen (condition : Bool) (role : String) (build : Except Failure Vars)
    (roles : Mapping Vars) : Except Failure (Mapping Vars) :=
  if condition then do
    let vars ← build
    pure (roles.set role vars)
  else pure roles

/-- The variables of `k3s_prd_server`. -/
def buildK3sPrdServerVars (hostname : String) (hv cfg : Vars) (overlayId : String) :
    Except Failure Vars := do
  let vars ← buildK3sStgServerVars hostname hv cfg overlayId "0644"
  let vars := vars.update [
    ("k3s_build_cluster", .bool false),
    ("k3s_control_node", .bool true),
    ("k3s_flannel_backend", (hv.get "k3s_flannel_backend").getD (.str "vxlan")),
    ("k3s_flannel_mtu", (hv.get "k3s_flannel_mtu").getD (.int 1400))]
  pure (if (valueAt hv "k3s_release_version").truthy then
      vars.set "k3s_release_version" (valueAt hv "k3s_release_version")
    else vars)

/-- The storage variables of a storage role. -/
def buildStorageRoleVars (storageHv hv : Vars) (sync : Option Bool) : Vars :=
  (buildK3sLocalStorageVars storageHv false sync).update (buildK3sIscsiSessionVars hv)

/-- The variables that the builders supply, `storageHv` being the host variables
for the staging server. -/
def builtRoles (hostname : String) (hv storageHv cfg : Vars) (overlayId : String) :
    Except Failure (Mapping Vars) := do
  let roles ← addHostTailscale hv []
  let roles := addBase hv cfg roles
  let roles ← setWhen (lists cfg "k3s_stg_server" && switchedOn cfg "k3s_stg_server")
    "k3s_stg_server" (buildK3sStgServerVars hostname storageHv cfg overlayId "0600") roles
  let roles ← setWhen (lists cfg "k3s_stg_agent" && switchedOn cfg "k3s_stg_agent")
    "k3s_stg_agent" (buildK3sStgAgentVars hostname hv cfg overlayId) roles
  let roles ← setWhen (lists cfg "k3s_stg_storage" && switchedOn cfg "k3s_stg_storage")
    "k3s_stg_storage"
    (pure (buildStorageRoleVars storageHv hv
      (if lists cfg "k3s_stg_server" then some false else none))) roles
  let roles ← setWhen (lists cfg "k3s_prd_server")
    "k3s_prd_server" (buildK3sPrdServerVars hostname hv cfg overlayId) roles
  setWhen (lists cfg "k3s_prd_storage")
    "k3s_prd_storage" (pure (buildStorageRoleVars hv hv (some false))) roles

/-- `ansible_pull["extra_vars"]` -/
def extraVars (cfg : Vars) : Vars :=
  mappingAt (ansiblePull cfg) "extra_vars"

/-- One round of the loop over `extra_vars`. -/
def addExtraVars (roles : Mapping Vars) (entry : String × Value) :
    Except Failure (Mapping Vars) := do
  let role := String.ofList (strip entry.1.toList)
  require (role ≠ "host_tailscale")
    (.valueError "host Tailscale boot configuration must use allow-listed host variables")
  match entry.2.asMapping? with
  | some vars =>
      if role = "" then pure roles
      else pure (roles.set role (mergeNestedMapping ((roles.get role).getD []) vars))
  | none => pure roles

/-- The guard of a persistent staging server. -/
def guardStgServer (cfg : Vars) (roles : Mapping Vars) : Except Failure (Mapping Vars) :=
  if lists cfg "k3s_stg_server" then
    ["k3s_stg_storage", "k3s_stg_server"].foldlM (fun roles role =>
      setWhen (lists cfg role) role (persistentStgStorageVars ((roles.get role).getD [])) roles)
      roles
  else pure roles

/-- The guard of `host_tailscale`. -/
def guardHostTailscale (roles : Mapping Vars) : Except Failure Unit :=
  match roles.get "host_tailscale" with
  | none => pure ()
  | some tailscale =>
      ["k3s_stg_storage", "k3s_prd_storage"].forM fun role => do
        let vars := (roles.get role).getD []
        require (!(flag vars "k3s_local_storage_force_format" false ||
            flag vars "k3s_local_storage_ephemeral_agent_data" false))
          (.valueError "host Tailscale cannot use destructive storage overrides")
        require (vars.isEmpty || equal ((vars.get "k3s_local_storage_device").getD (.str ""))
            (valueAt tailscale "host_tailscale_storage_device"))
          (.valueError "host Tailscale device must match the effective storage role")

/-- `stg_storage_hv` -/
def stgStorageHv (hv cfg : Vars) : Except Failure Vars :=
  if lists cfg "k3s_stg_server" then persistentStgStorageVars hv else pure hv

/-- `role_extra_vars` as it is emitted. -/
def roleExtraVars (hostname : String) (hv cfg : Vars) (overlayId : String) :
    Except Failure (Mapping Vars) := do
  let storageHv ← stgStorageHv hv cfg
  let roles ← builtRoles hostname hv storageHv cfg overlayId
  let roles ← (extraVars cfg).foldlM addExtraVars roles
  let roles ← guardStgServer cfg roles
  guardHostTailscale roles
  pure roles

/-- The group variables, with those generated for `terraform_stg`. -/
def groupVars (hv cfg : Vars) : Vars :=
  let explicit := mappingAt (ansiblePull cfg) "group_vars"
  let generated := buildTerraformStgGroupVars hv
  if lists cfg "terraform_stg" && flag (ansiblePull cfg) "terraform_stg_group_vars_enabled" true &&
      !generated.isEmpty then
    explicit.set "role_terraform_stg"
      (.dict (match (explicit.get "role_terraform_stg").bind asMapping? with
        | some vars => mergeNestedMapping generated vars
        | none => generated))
  else explicit

/-- The items of the roles, sorted by role. -/
def items (overlayId : String) (roles : Mapping Vars) : List Item :=
  ((roles.map Prod.fst).insertionSort (· ≤ ·)).filterMap fun role =>
    (roles.get role).map fun vars => ⟨overlayId, role, vars⟩

/-- `_generated_role_client_vars` -/
def generatedRoleClientVars (hostname : String) (hv cfg : Vars) (overlayId : String) :
    Except Failure (Vars × List Item) := do
  let roles ← roleExtraVars hostname hv cfg overlayId
  pure (groupVars hv cfg, items overlayId roles)

/-! ## Clients -/

/-- The value of the first of two keys that is there, if it is a mapping. -/
def clientSection (cfg : Vars) (first second : String) : Vars :=
  ((firstPresent [cfg.get first, cfg.get second]).asMapping?).getD []

/-- The name of a client. -/
def clientName (hostname : String) (cfg : Vars) : String :=
  let name := (firstPresent [(clientSection cfg "pxe_host" "host").get "name",
    cfg.get "name"]).cleanString
  if name = "" then hostname else name

/-- The overlay of a client. -/
def overlayId (hostname : String) (cfg : Vars) : String :=
  (firstPresent [(clientSection cfg "overlay" "overlay_client").get "id", cfg.get "overlay_id",
    cfg.get "id", some (.str (clientName hostname cfg))]).cleanString

/-- `_build_generated_client`, as far as it concerns Ansible variables. -/
def buildGeneratedClient (hostname : String) (hv cfg : Vars) : Except Failure (Vars × List Item) :=
  generatedRoleClientVars hostname hv cfg (overlayId hostname cfg)

/-- `_sorted_inventory_hosts` -/
def sortedInventoryHosts (groups : Vars) (hostvars : Vars) : List String :=
  let hosts := match groups.get "all" with
    | some (.list hosts) => hosts.map fun host : Value => String.ofList host.text
    | _ => hostvars.map Prod.fst
  hosts.insertionSort (· ≤ ·)

/-- The variables of a host and the configuration of its client, when the
client is enabled and belongs to the router. -/
def enabledClient (hostvars : Vars) (routerName hostname : String) : Option (Vars × Vars) := do
  let hv ← (hostvars.get hostname).bind asMapping?
  let cfg ← (hv.get "openwrt_pxe_client").bind asMapping?
  let router := valueAt cfg "router"
  let target := String.ofList (strip (if router.truthy then router.text else routerName.toList))
  if flag cfg "enabled" false && target = routerName then some (hv, cfg) else none

/-- The clients of a router: their hosts, host variables and configurations. -/
def clients (hostvars groups : Vars) (routerName : String) : List (String × Vars × Vars) :=
  (sortedInventoryHosts groups hostvars).filterMap fun hostname =>
    (enabledClient hostvars routerName hostname).map fun client => (hostname, client)

/-- `build_openwrt_pxe_client_catalog`, its generated group variables and client
variables. -/
def buildOpenwrtPxeClientCatalog (hostvars groups : Vars) (routerName : String) (enabled : Value) :
    Except Failure (Vars × List Item) :=
  if enabled.asBool then
    (clients hostvars groups routerName).foldlM (fun result client => do
      let (groupVars, items) ← buildGeneratedClient client.1 client.2.1 client.2.2
      pure (mergeNestedMapping result.1 groupVars, result.2 ++ items)) ([], [])
  else pure ([], [])

end

end HomeclusterInfra.PxeCatalog
