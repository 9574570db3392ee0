import HomeclusterInfra.PxeCatalog.Catalog

/-!
# Storage variables

What the builders and `extra_vars` put under the keys that decide about a disk:
the three flags and the device. A builder of storage variables sets every flag,
to the host's value or to its own default, and passes the device on. Merging
never changes a flag that is set.
-/

set_option autoImplicit false

namespace HomeclusterInfra.PxeCatalog

open Text Checked Python
open Mapping (copy get_copy)
open Value (asMapping? equal)

/-- The key of the device. -/
def storageDevice : String :=
  "k3s_local_storage_device"

/-- The keys that decide about a disk. -/
def storageKeys : List String :=
  storageDevice :: storageFlags

/-- Storage variables made from those of a host: every flag is set, and the
device is the host's. -/
structure StorageVars (hv : Vars) (ephemeral : Bool) (vars : Vars) : Prop where
  allowFormat : vars.get "k3s_local_storage_allow_format" =
    some (.bool (flag hv "k3s_local_storage_allow_format" true))
  forceFormat : vars.get "k3s_local_storage_force_format" =
    some (.bool (flag hv "k3s_local_storage_force_format" false))
  ephemeralAgentData : vars.get "k3s_local_storage_ephemeral_agent_data" =
    some (.bool (flag hv "k3s_local_storage_ephemeral_agent_data" ephemeral))
  device : vars.get storageDevice = hv.get storageDevice

/-- Variables with nothing under the keys that decide about a disk. -/
def NoStorage (vars : Vars) : Prop :=
  ∀ key ∈ storageKeys, vars.get key = none

/-- Two collections of variables agree about a disk. -/
def SameStorage (first second : Vars) : Prop :=
  ∀ key ∈ storageKeys, first.get key = second.get key

theorem StorageVars.congr {hv first second : Vars} {ephemeral : Bool}
    (storage : StorageVars hv ephemeral first) (same : SameStorage second first) :
    StorageVars hv ephemeral second where
  allowFormat := (same _ (by decide)).trans storage.allowFormat
  forceFormat := (same _ (by decide)).trans storage.forceFormat
  ephemeralAgentData := (same _ (by decide)).trans storage.ephemeralAgentData
  device := (same _ (by decide)).trans storage.device

/-! ## Builders -/

theorem copyFlag (hv : Vars) (key : String) (default : Bool) :
    ((hv.get key).map boolOf).or (some (.bool default)) = some (.bool (flag hv key default)) := by
  cases found : hv.get key with
  | none => simp [flag, found, Value.asBool, Value.truthy]
  | some value => simp [flag, found, boolOf]

/-- What `_build_k3s_local_storage_vars` says about a disk. -/
theorem storageVars_local (hv : Vars) (ephemeral : Bool) (sync : Option Bool) :
    StorageVars hv ephemeral (buildK3sLocalStorageVars hv ephemeral sync) := by
  have other : ∀ (key : String) (vars : Vars) (value : Value),
      "k3s_local_storage_node_password_sync_enabled" ≠ key →
      (if sync.isSome || hv.has "k3s_local_storage_node_password_sync_enabled" then
        vars.set "k3s_local_storage_node_password_sync_enabled" value else vars).get key =
      vars.get key := by
    intro key vars value ne
    split
    · exact Mapping.get_set_of_ne vars value ne
    · rfl
  refine ⟨?_, ?_, ?_, ?_⟩
  · rw [buildK3sLocalStorageVars, get_copy, if_neg (by decide), get_copy, if_pos (by decide),
      other _ _ _ (by decide)]
    exact copyFlag hv _ true
  · rw [buildK3sLocalStorageVars, get_copy, if_neg (by decide), get_copy, if_pos (by decide),
      other _ _ _ (by decide)]
    exact copyFlag hv _ false
  · rw [buildK3sLocalStorageVars, get_copy, if_neg (by decide), get_copy, if_pos (by decide),
      other _ _ _ (by decide)]
    cases found : hv.get "k3s_local_storage_ephemeral_agent_data" with
    | none => simp [flag, found, boolOf, firstPresent, Value.asBool, Value.truthy]
    | some value => simp [flag, found, boolOf]
  · rw [buildK3sLocalStorageVars, get_copy, if_pos (by decide), get_copy, if_neg (by decide),
      other _ _ _ (by decide)]
    simp [storageDevice]

theorem keys_local_nodup (hv : Vars) (ephemeral : Bool) (sync : Option Bool) :
    ((buildK3sLocalStorageVars hv ephemeral sync).map Prod.fst).Nodup := by
  unfold buildK3sLocalStorageVars
  refine Mapping.keys_copy_nodup _ _ _ (Mapping.keys_copy_nodup _ _ _ ?_)
  split
  · exact Mapping.keys_set_nodup (by simp)
  · simp

/-- Updating with variables that have nothing about a disk. -/
theorem sameStorage_update (vars : Vars) {other : Vars} (none : NoStorage other) :
    SameStorage (vars.update other) vars := by
  intro key member
  exact Mapping.get_update_of_notMem vars (Mapping.get_eq_none.1 (none key member))

/-- Storage variables put into variables that have nothing about a disk. -/
theorem storageVars_update {vars : Vars} (none : NoStorage vars) (hv : Vars) (ephemeral : Bool)
    (sync : Option Bool) :
    StorageVars hv ephemeral (vars.update (buildK3sLocalStorageVars hv ephemeral sync)) := by
  refine (storageVars_local hv ephemeral sync).congr fun key member => ?_
  rw [Mapping.get_update_of_nodup vars key (keys_local_nodup hv ephemeral sync), none key member,
    Option.or_none]

/-- Copying keys that have nothing to do with a disk. -/
theorem sameStorage_copy (source : Vars) (convert : Value → Value) {keys : List String}
    (target : Vars) (apart : ∀ key ∈ storageKeys, key ∉ keys) :
    SameStorage (copy source convert keys target) target := by
  intro key member
  rw [get_copy, if_neg (apart key member)]

theorem noStorage_nil : NoStorage [] :=
  fun _ _ => rfl

theorem NoStorage.congr {first second : Vars} (none : NoStorage first)
    (same : SameStorage second first) : NoStorage second :=
  fun key member => (same key member).trans (none key member)

theorem SameStorage.trans {first second third : Vars} (one : SameStorage first second)
    (two : SameStorage second third) : SameStorage first third :=
  fun key member => (one key member).trans (two key member)

section Builders

theorem noStorage_iscsi (hv : Vars) : NoStorage (buildK3sIscsiSessionVars hv) :=
  noStorage_nil.congr ((sameStorage_copy _ _ _ (by decide)).trans
    (sameStorage_copy _ _ _ (by decide)))

theorem noStorage_egpu (hv : Vars) : NoStorage (buildRpi5EgpuLocalLlmVars hv) :=
  noStorage_nil.congr ((sameStorage_copy _ _ _ (by decide)).trans
    ((sameStorage_copy _ _ _ (by decide)).trans (sameStorage_copy _ _ _ (by decide))))

theorem storageVars_storageRole (storageHv hv : Vars) (sync : Option Bool) :
    StorageVars storageHv false (buildStorageRoleVars storageHv hv sync) :=
  (storageVars_local storageHv false sync).congr (sameStorage_update _ (noStorage_iscsi hv))

variable [UnicodeData] {hostname overlayId mode : String} {hv cfg vars : Vars}

/-- What the agent builder says about a disk: it defaults to ephemeral data. -/
theorem storageVars_agent (built : buildK3sStgAgentVars hostname hv cfg overlayId = .ok vars) :
    StorageVars hv true vars := by
  simp only [buildK3sStgAgentVars, require_bind_eq_ok, pure_eq_ok] at built
  obtain ⟨-, -, same⟩ := built
  rw [← same]
  refine (storageVars_update ?_ hv true none).congr
    ((sameStorage_update _ (noStorage_egpu hv)).trans (sameStorage_update _ (noStorage_iscsi hv)))
  refine NoStorage.congr ?_ (sameStorage_copy _ _ _ (by decide))
  intro key member
  simp only [storageKeys, storageFlags, storageDevice, List.mem_cons, List.not_mem_nil,
    or_false] at member
  rcases member with rfl | rfl | rfl | rfl <;> rfl

theorem storageVars_server
    (built : buildK3sStgServerVars hostname hv cfg overlayId mode = .ok vars) :
    StorageVars hv false vars := by
  simp only [buildK3sStgServerVars, bind_eq_ok, pure_eq_ok] at built
  obtain ⟨server, -, same⟩ := built
  rw [← same]
  refine (storageVars_update ?_ hv false (some false)).congr
    (sameStorage_update _ (noStorage_iscsi hv))
  refine NoStorage.congr ?_ (sameStorage_copy _ _ _ (by decide))
  intro key member
  simp only [storageKeys, storageFlags, storageDevice, List.mem_cons, List.not_mem_nil,
    or_false] at member
  rcases member with rfl | rfl | rfl | rfl <;> rfl

theorem storageVars_prdServer
    (built : buildK3sPrdServerVars hostname hv cfg overlayId = .ok vars) :
    StorageVars hv false vars := by
  simp only [buildK3sPrdServerVars, bind_eq_ok, pure_eq_ok] at built
  obtain ⟨server, made, same⟩ := built
  rw [← same]
  refine (storageVars_server made).congr ?_
  have updated : SameStorage (server.update [
      ("k3s_build_cluster", .bool false),
      ("k3s_control_node", .bool true),
      ("k3s_flannel_backend", (hv.get "k3s_flannel_backend").getD (.str "vxlan")),
      ("k3s_flannel_mtu", (hv.get "k3s_flannel_mtu").getD (.int 1400))]) server := by
    refine sameStorage_update _ fun key member => ?_
    simp only [storageKeys, storageFlags, storageDevice, List.mem_cons, List.not_mem_nil,
      or_false] at member
    rcases member with rfl | rfl | rfl | rfl <;> rfl
  split
  · refine SameStorage.trans (fun key member => ?_) updated
    exact Mapping.get_set_of_ne _ _ fun same => by
      subst same
      exact absurd member (by decide)
  · exact updated

omit [UnicodeData] in
theorem noStorage_base (hv cfg : Vars) : NoStorage (buildBaseVars hv cfg) := by
  unfold buildBaseVars
  split
  · exact noStorage_nil
  · split
    · exact noStorage_nil
    · split
      · exact noStorage_nil
      · refine NoStorage.congr ?_ (sameStorage_copy _ _ _ (by decide))
        intro key member
        simp only [storageKeys, storageFlags, storageDevice, List.mem_cons, List.not_mem_nil,
          or_false] at member
        rcases member with rfl | rfl | rfl | rfl <;> rfl

end Builders

/-! ## Merging -/

/-- What merging leaves under a key depends on what stood under that key. -/
theorem get_merge_congr {key : String} (overlay : List (String × Value)) {base other : Vars}
    (same : base.get key = other.get key) :
    (mergeNestedMapping base overlay).get key = (mergeNestedMapping other overlay).get key := by
  induction overlay generalizing base other with
  | nil => simpa [mergeNestedMapping] using same
  | cons entry overlay ih =>
      obtain ⟨name, value⟩ := entry
      rw [mergeNestedMapping, mergeNestedMapping]
      refine ih ?_
      rw [Mapping.get_set, Mapping.get_set]
      split
      case isTrue here =>
          subst here
          rw [same]
      case isFalse => exact same

/-- A value that is no mapping stays. -/
theorem mergeValue_of_plain {current : Value} (plain : current.asMapping? = none)
    (value : Value) : mergeValue current value = current := by
  cases value with
  | dict fields =>
      cases current with
      | dict inner => cases plain
      | _ => simp [mergeValue]
  | _ => simp [mergeValue]

theorem get_merge_of_plain {key : String} {current : Value} (overlay : List (String × Value))
    {base : Vars} (found : base.get key = some current) (plain : current.asMapping? = none) :
    (mergeNestedMapping base overlay).get key = some current := by
  induction overlay generalizing base with
  | nil => simpa [mergeNestedMapping] using found
  | cons entry overlay ih =>
      obtain ⟨name, value⟩ := entry
      rw [mergeNestedMapping]
      refine ih ?_
      rw [Mapping.get_set]
      split
      case isTrue here =>
          subst here
          rw [found]
          exact congrArg some (mergeValue_of_plain plain value)
      case isFalse => exact found

/-! ## Extra variables -/

section Extra

/-- The mappings that `extra_vars` gives for a role. -/
def extraEntries (cfg : Vars) (role : String) : List Vars :=
  (extraVars cfg).filterMap fun entry =>
    if String.ofList (strip entry.1.toList) = role ∧ role ≠ "" then entry.2.asMapping? else none

/-- The variables of a role after its `extra_vars`. -/
def withExtraVars (cfg : Vars) (role : String) (start : Vars) : Vars :=
  (extraEntries cfg role).foldl mergeNestedMapping start

/-- The variables of a role, if any. -/
def varsOf (roles : Mapping Vars) (role : String) : Vars :=
  (roles.get role).getD []

theorem varsOf_set (roles : Mapping Vars) (name : String) (vars : Vars) (role : String) :
    varsOf (roles.set name vars) role = if name = role then vars else varsOf roles role := by
  rw [varsOf, Mapping.get_set]
  split <;> rfl

theorem foldl_merge_congr {key : String} (entries : List Vars) {base other : Vars}
    (same : base.get key = other.get key) :
    (entries.foldl mergeNestedMapping base).get key =
      (entries.foldl mergeNestedMapping other).get key := by
  induction entries generalizing base other with
  | nil => exact same
  | cons entry entries ih => exact ih (get_merge_congr entry same)

theorem get_withExtraVars_congr {cfg : Vars} {role key : String} {base other : Vars}
    (same : base.get key = other.get key) :
    (withExtraVars cfg role base).get key = (withExtraVars cfg role other).get key :=
  foldl_merge_congr _ same

theorem get_withExtraVars_of_plain {cfg : Vars} {role key : String} {base : Vars} {current : Value}
    (found : base.get key = some current) (plain : current.asMapping? = none) :
    (withExtraVars cfg role base).get key = some current := by
  unfold withExtraVars
  induction extraEntries cfg role generalizing base with
  | nil => exact found
  | cons entry entries ih => exact ih (get_merge_of_plain entry found plain)

/-- The loop over `extra_vars` merges the mappings given for a role into its variables. -/
theorem varsOf_addExtraVars {entries : Vars} {roles after : Mapping Vars} (role : String)
    (added : entries.foldlM addExtraVars roles = .ok after) :
    varsOf after role = (entries.filterMap fun entry =>
      if String.ofList (strip entry.1.toList) = role ∧ role ≠ "" then entry.2.asMapping?
      else none).foldl mergeNestedMapping (varsOf roles role) := by
  induction entries generalizing roles with
  | nil =>
      rw [List.foldlM_nil, pure_eq_ok] at added
      rw [added]
      rfl
  | cons entry entries ih =>
      rw [List.foldlM_cons, bind_eq_ok] at added
      obtain ⟨middle, step, rest⟩ := added
      rw [ih rest, List.filterMap_cons]
      simp only [addExtraVars, require_bind_eq_ok] at step
      obtain ⟨-, step⟩ := step
      cases mapping : entry.2.asMapping? with
      | none =>
          simp only [mapping, pure_eq_ok] at step
          rw [step]
          simp
      | some vars =>
          simp only [mapping] at step
          split at step
          case isTrue empty =>
              rw [pure_eq_ok] at step
              rw [step, if_neg]
              rintro ⟨same, nonempty⟩
              exact nonempty (same ▸ empty)
          case isFalse nonempty =>
              rw [pure_eq_ok] at step
              rw [← step, varsOf_set]
              by_cases same : String.ofList (strip entry.1.toList) = role
              · subst same
                rw [if_pos rfl, if_pos ⟨rfl, nonempty⟩]
                rfl
              · rw [if_neg same, if_neg fun both => same both.1]

end Extra

/-! ## The guard of the staging server -/

/-- What passes the guard has no flag that reads true, and has every flag off
afterwards. -/
theorem persistentStgStorageVars_ok {values after : Vars}
    (guarded : persistentStgStorageVars values = .ok after) :
    (∀ key ∈ storageFlags, flag values key false = false) ∧
      (∀ key ∈ storageFlags, after.get key = some (.bool false)) ∧
      ∀ key ∉ storageFlags, after.get key = values.get key := by
  have flag_set : ∀ (vars : Vars) (name key : String), name ≠ key →
      flag (vars.set name (.bool false)) key false = flag vars key false := by
    intro vars name key ne
    rw [flag, flag, Mapping.get_set_of_ne _ _ ne]
  simp only [persistentStgStorageVars, storageFlags, List.foldlM_cons, List.foldlM_nil,
    bind_eq_ok, require_eq_ok, pure_eq_ok, exists_const, Bool.not_eq_true'] at guarded
  obtain ⟨_, ⟨allow, rfl⟩, _, ⟨force, rfl⟩, _, ⟨ephemeral, rfl⟩, rfl⟩ := guarded
  rw [flag_set _ _ _ (by decide)] at force
  rw [flag_set _ _ _ (by decide), flag_set _ _ _ (by decide)] at ephemeral
  refine ⟨?_, ?_, ?_⟩
  · intro key member
    simp only [storageFlags, List.mem_cons, List.not_mem_nil, or_false] at member
    rcases member with rfl | rfl | rfl
    · exact allow
    · exact force
    · exact ephemeral
  · intro key member
    simp only [storageFlags, List.mem_cons, List.not_mem_nil, or_false] at member
    rcases member with rfl | rfl | rfl <;> simp [Mapping.get_set]
  · intro key apart
    simp only [storageFlags, List.mem_cons, List.not_mem_nil, or_false, not_or] at apart
    rw [Mapping.get_set_of_ne _ _ (Ne.symm apart.2.2), Mapping.get_set_of_ne _ _ (Ne.symm apart.2.1),
      Mapping.get_set_of_ne _ _ (Ne.symm apart.1)]

end HomeclusterInfra.PxeCatalog
