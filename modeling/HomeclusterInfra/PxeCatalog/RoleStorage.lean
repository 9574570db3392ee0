import HomeclusterInfra.PxeCatalog.Storage

/-!
# What the roles of a client say about its disk

The variables of a role that a builder supplies are storage variables of the
host; all other roles have nothing about a disk until `extra_vars` are merged.
The guard of the staging server then turns the flags of its two roles off.
-/

set_option autoImplicit false

namespace HomeclusterInfra.PxeCatalog

open Text Checked Python
open Value (asMapping? equal)

variable [UnicodeData]

/-- A builder supplies storage variables for the role. -/
def builds (cfg : Vars) (role : String) : Bool :=
  lists cfg role &&
    (role = "k3s_prd_server" || role = "k3s_prd_storage" ||
      ((role = "k3s_stg_server" || role = "k3s_stg_agent" || role = "k3s_stg_storage") &&
        switchedOn cfg role))

/-- The flags of the role are turned off by the guard of the staging server. -/
def guarded (cfg : Vars) (role : String) : Bool :=
  lists cfg "k3s_stg_server" && lists cfg role &&
    (role = "k3s_stg_storage" || role = "k3s_stg_server")

/-! ## Builders -/

omit [UnicodeData] in
theorem get_setWhen {condition : Bool} {name : String} {build : Except Failure Vars}
    {roles after : Mapping Vars} (set : setWhen condition name build roles = .ok after) :
    ∃ vars, (condition = true → build = .ok vars) ∧ ∀ role, after.get role =
      if condition = true ∧ name = role then some vars else roles.get role := by
  cases condition with
  | false =>
      simp only [setWhen, Bool.false_eq_true, if_false, pure_eq_ok] at set
      subst set
      exact ⟨[], by simp, by simp⟩
  | true =>
      simp only [setWhen, if_true, bind_eq_ok, pure_eq_ok] at set
      obtain ⟨vars, built, rfl⟩ := set
      refine ⟨vars, fun _ => built, fun role => ?_⟩
      rw [Mapping.get_set]
      simp

theorem get_addBase_of_ne (hv cfg : Vars) (roles : Mapping Vars) {role : String}
    (ne : "base" ≠ role) : (addBase hv cfg roles).get role = roles.get role := by
  have distcc : (if (buildBaseVars hv cfg).isEmpty then roles
      else roles.set "base" (buildBaseVars hv cfg)).get role = roles.get role := by
    split
    · rfl
    · exact Mapping.get_set_of_ne _ _ ne
  unfold addBase
  split
  · rfl
  · simp only
    split
    · exact distcc
    · rw [Mapping.get_set_of_ne _ _ ne]
      exact distcc

theorem noStorage_addBase (hv cfg : Vars) {roles : Mapping Vars}
    (none : NoStorage (varsOf roles "base")) :
    NoStorage (varsOf (addBase hv cfg roles) "base") := by
  have distcc : NoStorage (varsOf (if (buildBaseVars hv cfg).isEmpty then roles
      else roles.set "base" (buildBaseVars hv cfg)) "base") := by
    split
    · exact none
    · rw [varsOf_set, if_pos rfl]
      exact noStorage_base hv cfg
  unfold addBase
  split
  · exact none
  · simp only
    split
    · exact distcc
    · rw [varsOf_set, if_pos rfl]
      intro key member
      rw [mergeNestedMapping, mergeNestedMapping, Mapping.get_set_of_ne]
      · exact distcc key member
      · intro same
        subst same
        exact absurd member (by decide)

omit [UnicodeData] in
/-- The check of the host variables, and what `host_tailscale` is given. -/
theorem addHostTailscale_ok {hv : Vars} {after : Mapping Vars}
    (added : addHostTailscale hv [] = .ok after) :
    (flag hv "host_tailscale_enabled" false = true →
      flag hv "k3s_local_storage_force_format" false = false ∧
        flag hv "k3s_local_storage_ephemeral_agent_data" false = false) ∧
      ∀ role, after.get role =
        if flag hv "host_tailscale_enabled" false = true ∧ "host_tailscale" = role then
          some (hostTailscaleVars hv) else none := by
  unfold addHostTailscale at added
  split at added
  case isTrue wanted =>
      simp only [require_bind_eq_ok, pure_eq_ok, Bool.and_eq_true, Bool.not_eq_true',
        Bool.or_eq_false_iff] at added
      obtain ⟨⟨-, flags⟩, rfl⟩ := added
      refine ⟨fun _ => flags, fun role => ?_⟩
      simp [Mapping.set, wanted]
  case isFalse unwanted =>
      rw [pure_eq_ok] at added
      subst added
      exact ⟨fun wanted => absurd wanted unwanted, fun role => by simp [unwanted]⟩

/-- What the builders supply. -/
structure Built (hv storageHv cfg : Vars) (roles : Mapping Vars) : Prop where
  checked : flag hv "host_tailscale_enabled" false = true →
    flag hv "k3s_local_storage_force_format" false = false ∧
      flag hv "k3s_local_storage_ephemeral_agent_data" false = false
  hostTailscale : roles.get "host_tailscale" =
    if flag hv "host_tailscale_enabled" false = true then some (hostTailscaleVars hv) else none
  storage : ∀ role, builds cfg role = true →
    StorageVars (if role = "k3s_stg_server" ∨ role = "k3s_stg_storage" then storageHv else hv)
      (role = "k3s_stg_agent") (varsOf roles role)
  others : ∀ role, builds cfg role = false → NoStorage (varsOf roles role)

omit [UnicodeData] in
theorem noStorage_hostTailscale (hv : Vars) : NoStorage (hostTailscaleVars hv) := by
  intro key member
  simp only [storageKeys, storageFlags, storageDevice, List.mem_cons, List.not_mem_nil,
    or_false] at member
  rcases member with rfl | rfl | rfl | rfl <;> rfl

theorem builtRoles_ok {hostname overlayId : String} {hv storageHv cfg : Vars}
    {roles : Mapping Vars} (built : builtRoles hostname hv storageHv cfg overlayId = .ok roles) :
    Built hv storageHv cfg roles := by
  simp only [builtRoles, bind_eq_ok] at built
  obtain ⟨tailscale, first, server, second, agent, third, storage, fourth, production, fifth,
    last⟩ := built
  obtain ⟨checked, getTailscale⟩ := addHostTailscale_ok first
  obtain ⟨serverVars, serverBuilt, getServer⟩ := get_setWhen second
  obtain ⟨agentVars, agentBuilt, getAgent⟩ := get_setWhen third
  obtain ⟨storageVars, storageBuilt, getStorage⟩ := get_setWhen fourth
  obtain ⟨prdVars, prdBuilt, getPrd⟩ := get_setWhen fifth
  obtain ⟨prdStorageVars, prdStorageBuilt, getPrdStorage⟩ := get_setWhen last
  have chain : ∀ role, roles.get role =
      if lists cfg "k3s_prd_storage" = true ∧ "k3s_prd_storage" = role then some prdStorageVars
      else if lists cfg "k3s_prd_server" = true ∧ "k3s_prd_server" = role then some prdVars
      else if (lists cfg "k3s_stg_storage" && switchedOn cfg "k3s_stg_storage") = true ∧
        "k3s_stg_storage" = role then some storageVars
      else if (lists cfg "k3s_stg_agent" && switchedOn cfg "k3s_stg_agent") = true ∧
        "k3s_stg_agent" = role then some agentVars
      else if (lists cfg "k3s_stg_server" && switchedOn cfg "k3s_stg_server") = true ∧
        "k3s_stg_server" = role then some serverVars
      else (addBase hv cfg tailscale).get role := by
    intro role
    rw [getPrdStorage, getPrd, getStorage, getAgent, getServer]
  refine ⟨checked, ?_, ?_, ?_⟩
  · rw [chain, get_addBase_of_ne hv cfg tailscale (by decide), getTailscale]
    simp
  · intro role supplied
    simp only [builds, Bool.and_eq_true, Bool.or_eq_true, decide_eq_true_eq] at supplied
    obtain ⟨listed, (rfl | rfl) | ⟨(rfl | rfl) | rfl, on⟩⟩ := supplied
    · rw [varsOf, chain]
      simpa [listed] using storageVars_prdServer (prdBuilt listed)
    · rw [varsOf, chain]
      obtain rfl := Except.ok.inj (prdStorageBuilt listed)
      simpa [listed] using storageVars_storageRole hv hv (some false)
    · rw [varsOf, chain]
      simpa [listed, on] using storageVars_server (serverBuilt (by simp [listed, on]))
    · rw [varsOf, chain]
      simpa [listed, on] using storageVars_agent (agentBuilt (by simp [listed, on]))
    · rw [varsOf, chain]
      obtain rfl := Except.ok.inj (storageBuilt (by simp [listed, on]))
      simpa [listed, on] using storageVars_storageRole storageHv hv
        (if lists cfg "k3s_stg_server" then some false else none)
  · intro role unsupplied
    have below : varsOf roles role = varsOf (addBase hv cfg tailscale) role := by
      rw [varsOf, chain]
      repeat rw [if_neg (by
        rintro ⟨on, rfl⟩
        simp_all [builds])]
      rfl
    rw [below]
    by_cases base : "base" = role
    · subst base
      refine noStorage_addBase hv cfg ?_
      rw [varsOf, getTailscale, if_neg fun both => absurd both.2 (by decide)]
      exact noStorage_nil
    · rw [varsOf, get_addBase_of_ne hv cfg tailscale base, getTailscale]
      split
      · exact noStorage_hostTailscale hv
      · exact noStorage_nil

/-! ## Guards -/

/-- The host variables that the builders for the staging server read. -/
theorem stgStorageHv_ok {hv cfg storageHv : Vars} (guarded : stgStorageHv hv cfg = .ok storageHv) :
    (lists cfg "k3s_stg_server" = true → ∀ key ∈ storageFlags, flag hv key false = false) ∧
      (lists cfg "k3s_stg_server" = false → storageHv = hv) ∧
      storageHv.get storageDevice = hv.get storageDevice := by
  unfold stgStorageHv at guarded
  split at guarded
  case isTrue listed =>
      obtain ⟨flags, -, rest⟩ := persistentStgStorageVars_ok guarded
      exact ⟨fun _ => flags, fun unlisted => absurd listed (by simp [unlisted]),
        rest _ (by decide)⟩
  case isFalse unlisted =>
      rw [pure_eq_ok] at guarded
      subst guarded
      exact ⟨fun listed => absurd listed unlisted, fun _ => rfl, rfl⟩

/-- The guard turns the flags of its roles off and leaves everything else alone. -/
theorem guardStgServer_ok {cfg : Vars} {roles after : Mapping Vars}
    (passed : guardStgServer cfg roles = .ok after) (role : String) :
    (guarded cfg role = true → ∀ key ∈ storageFlags,
      (varsOf after role).get key = some (.bool false)) ∧
      (guarded cfg role = false → varsOf after role = varsOf roles role) ∧
      (varsOf after role).get storageDevice = (varsOf roles role).get storageDevice ∧
      ((role ≠ "k3s_stg_storage" ∧ role ≠ "k3s_stg_server") → after.get role = roles.get role) := by
  unfold guardStgServer at passed
  split at passed
  case isFalse unlisted =>
      rw [pure_eq_ok] at passed
      subst passed
      exact ⟨fun yes => by simp [guarded, unlisted] at yes, fun _ => rfl, rfl, fun _ => rfl⟩
  case isTrue listed =>
      simp only [List.foldlM_cons, List.foldlM_nil, bind_eq_ok, pure_eq_ok] at passed
      obtain ⟨middle, first, final, second, same⟩ := passed
      rw [same] at second
      obtain ⟨storage, storageGuarded, getStorage⟩ := get_setWhen first
      obtain ⟨server, serverGuarded, getServer⟩ := get_setWhen second
      have chain : ∀ role, after.get role =
          if lists cfg "k3s_stg_server" = true ∧ "k3s_stg_server" = role then some server
          else if lists cfg "k3s_stg_storage" = true ∧ "k3s_stg_storage" = role then some storage
          else roles.get role := by
        intro role
        rw [getServer, getStorage]
      by_cases isServer : "k3s_stg_server" = role
      · subst isServer
        have before : middle.get "k3s_stg_server" = roles.get "k3s_stg_server" := by
          rw [getStorage, if_neg fun both => absurd both.2 (by decide)]
        have passed := serverGuarded listed
        rw [before] at passed
        obtain ⟨-, off, rest⟩ := persistentStgStorageVars_ok passed
        have here : varsOf after "k3s_stg_server" = server := by
          rw [varsOf, chain, if_pos ⟨listed, rfl⟩]
          rfl
        rw [here]
        exact ⟨fun _ => off, fun no => by simp [guarded, listed] at no, rest _ (by decide),
          fun ne => absurd rfl ne.2⟩
      · by_cases isStorage : lists cfg "k3s_stg_storage" = true ∧ "k3s_stg_storage" = role
        · obtain ⟨storageListed, rfl⟩ := isStorage
          obtain ⟨-, off, rest⟩ := persistentStgStorageVars_ok (storageGuarded storageListed)
          have here : varsOf after "k3s_stg_storage" = storage := by
            rw [varsOf, chain, if_neg fun both => isServer both.2, if_pos ⟨storageListed, rfl⟩]
            rfl
          rw [here]
          exact ⟨fun _ => off, fun no => by simp [guarded, listed, storageListed] at no,
            rest _ (by decide), fun ne => absurd rfl ne.1⟩
        · have here : after.get role = roles.get role := by
            rw [chain, if_neg fun both => isServer both.2, if_neg isStorage]
          have same : varsOf after role = varsOf roles role := by
            rw [varsOf, here]
            rfl
          refine ⟨fun yes => ?_, fun _ => same, by rw [same], fun _ => here⟩
          simp only [guarded, Bool.and_eq_true, Bool.or_eq_true, decide_eq_true_eq] at yes
          rcases yes with ⟨⟨-, roleListed⟩, rfl | rfl⟩
          · exact absurd ⟨roleListed, rfl⟩ isStorage
          · exact absurd rfl isServer

omit [UnicodeData] in
/-- What passes the guard of `host_tailscale`. -/
theorem guardHostTailscale_ok {roles : Mapping Vars} {tailscale : Vars} {done : Unit}
    (passed : guardHostTailscale roles = .ok done)
    (emitted : roles.get "host_tailscale" = some tailscale)
    {role : String} (member : role = "k3s_stg_storage" ∨ role = "k3s_prd_storage") :
    flag (varsOf roles role) "k3s_local_storage_force_format" false = false ∧
      flag (varsOf roles role) "k3s_local_storage_ephemeral_agent_data" false = false ∧
      ((varsOf roles role).isEmpty = true ∨
        equal (((varsOf roles role).get storageDevice).getD (.str ""))
          (valueAt tailscale "host_tailscale_storage_device") = true) := by
  simp only [guardHostTailscale, emitted, forM_eq_ok] at passed
  have here := passed role (by simpa using member)
  simp only [require_bind_eq_ok, require_eq_ok, Bool.or_eq_true, Bool.not_eq_true',
    Bool.or_eq_false_iff] at here
  exact ⟨here.1.1, here.1.2, here.2⟩

/-! ## The emitted roles -/

/-- The device that a builder passes on to the role. -/
def suppliedDevice (hv cfg : Vars) (role : String) : Vars :=
  if builds cfg role then
    ((hv.get storageDevice).map fun device => (storageDevice, device)).toList
  else []

theorem get_suppliedDevice {hv cfg : Vars} {role : String} (supplied : builds cfg role = true) :
    (suppliedDevice hv cfg role).get storageDevice = hv.get storageDevice := by
  rw [suppliedDevice, if_pos supplied]
  cases hv.get storageDevice <;> simp

/-- What the emitted variables of a client say about its disk. -/
structure Emitted (hv cfg : Vars) (roles : Mapping Vars) : Prop where
  persistent : lists cfg "k3s_stg_server" = true → ∀ key ∈ storageFlags, flag hv key false = false
  checked : flag hv "host_tailscale_enabled" false = true →
    flag hv "k3s_local_storage_force_format" false = false ∧
      flag hv "k3s_local_storage_ephemeral_agent_data" false = false
  hostTailscale : roles.get "host_tailscale" =
    if flag hv "host_tailscale_enabled" false = true then some (hostTailscaleVars hv) else none
  /-- The guard of the staging server turned the flags off. -/
  off : ∀ role, guarded cfg role = true → ∀ key ∈ storageFlags,
    (varsOf roles role).get key = some (.bool false)
  /-- The flags of a builder are the host's or the builder's own. -/
  supplied : ∀ role, guarded cfg role = false → builds cfg role = true →
    (varsOf roles role).get "k3s_local_storage_allow_format" =
        some (.bool (flag hv "k3s_local_storage_allow_format" true)) ∧
      (varsOf roles role).get "k3s_local_storage_force_format" =
        some (.bool (flag hv "k3s_local_storage_force_format" false)) ∧
      (varsOf roles role).get "k3s_local_storage_ephemeral_agent_data" =
        some (.bool (flag hv "k3s_local_storage_ephemeral_agent_data" (role = "k3s_stg_agent")))
  /-- Where no builder is, the flags are those of `extra_vars`. -/
  free : ∀ role, guarded cfg role = false → builds cfg role = false → ∀ key ∈ storageFlags,
    (varsOf roles role).get key = (withExtraVars cfg role []).get key
  device : ∀ role, (varsOf roles role).get storageDevice =
    (withExtraVars cfg role (suppliedDevice hv cfg role)).get storageDevice
  /-- What the guard of `host_tailscale` saw. -/
  storageRoles : flag hv "host_tailscale_enabled" false = true →
    ∀ role, role = "k3s_stg_storage" ∨ role = "k3s_prd_storage" →
      flag (varsOf roles role) "k3s_local_storage_force_format" false = false ∧
        flag (varsOf roles role) "k3s_local_storage_ephemeral_agent_data" false = false ∧
        ((varsOf roles role).isEmpty = true ∨
          equal (((varsOf roles role).get storageDevice).getD (.str ""))
            ((hv.get storageDevice).getD (.str "")) = true)

omit [UnicodeData] in
/-- No entry of `extra_vars` reaches the variables of `host_tailscale`. -/
theorem get_hostTailscale_addExtraVars {entries : Vars} {roles after : Mapping Vars}
    (added : entries.foldlM addExtraVars roles = .ok after) :
    after.get "host_tailscale" = roles.get "host_tailscale" := by
  refine foldlM_invariant
    (fun _ (current : Mapping Vars) => current.get "host_tailscale" = roles.get "host_tailscale")
    ?_ entries [] roles after rfl added
  intro consumed current entry next kept step
  simp only [addExtraVars, require_bind_eq_ok, decide_eq_true_eq] at step
  obtain ⟨apart, step⟩ := step
  split at step
  · split at step
    · rw [pure_eq_ok] at step
      rwa [← step]
    · rw [pure_eq_ok] at step
      rw [← step, Mapping.get_set_of_ne _ _ apart]
      exact kept
  · rw [pure_eq_ok] at step
    rwa [← step]

/-- **What a successful generation emits about the disk of a client.** -/
theorem roleExtraVars_ok {hostname overlayId : String} {hv cfg : Vars} {roles : Mapping Vars}
    (generated : roleExtraVars hostname hv cfg overlayId = .ok roles) : Emitted hv cfg roles := by
  simp only [roleExtraVars, bind_eq_ok, pure_eq_ok] at generated
  obtain ⟨storageHv, made, start, builders, merged, extras, final, guards, done, tailscale,
    same⟩ := generated
  subst same
  obtain ⟨persistent, unlisted, deviceKept⟩ := stgStorageHv_ok made
  have built := builtRoles_ok builders
  have extra : ∀ role, varsOf merged role = withExtraVars cfg role (varsOf start role) :=
    fun role => varsOf_addExtraVars role extras
  have flags_start : ∀ role, guarded cfg role = false → builds cfg role = true →
      StorageVars hv (role = "k3s_stg_agent") (varsOf start role) := by
    intro role unguarded supplied
    have storage := built.storage role supplied
    by_cases staging : role = "k3s_stg_server" ∨ role = "k3s_stg_storage"
    · have listed : lists cfg role = true := by
        rw [builds, Bool.and_eq_true] at supplied
        exact supplied.1
      have noServer : lists cfg "k3s_stg_server" = false := by
        rcases staging with rfl | rfl
        · simp [guarded, listed] at unguarded
        · simpa [guarded, listed] using unguarded
      rwa [if_pos staging, unlisted noServer] at storage
    · rwa [if_neg staging] at storage
  have hostTailscale : final.get "host_tailscale" =
      if flag hv "host_tailscale_enabled" false = true then some (hostTailscaleVars hv)
      else none := by
    rw [(guardStgServer_ok guards "host_tailscale").2.2.2 ⟨by decide, by decide⟩,
      get_hostTailscale_addExtraVars extras]
    exact built.hostTailscale
  refine ⟨persistent, built.checked, hostTailscale, ?_, ?_, ?_, ?_, ?_⟩
  · intro role yes
    exact (guardStgServer_ok guards role).1 yes
  · intro role unguarded supplied
    have storage := flags_start role unguarded supplied
    rw [(guardStgServer_ok guards role).2.1 unguarded, extra]
    exact ⟨get_withExtraVars_of_plain storage.allowFormat rfl,
      get_withExtraVars_of_plain storage.forceFormat rfl,
      get_withExtraVars_of_plain storage.ephemeralAgentData rfl⟩
  · intro role unguarded unsupplied key member
    rw [(guardStgServer_ok guards role).2.1 unguarded, extra]
    exact get_withExtraVars_congr (built.others role unsupplied key (.tail _ member))
  · intro role
    rw [(guardStgServer_ok guards role).2.2.1, extra]
    refine get_withExtraVars_congr ?_
    cases supplied : builds cfg role with
    | true =>
        rw [(built.storage role supplied).device, get_suppliedDevice supplied]
        split
        · exact deviceKept
        · rfl
    | false =>
        rw [built.others role supplied storageDevice (by decide), suppliedDevice, supplied]
        rfl
  · intro wanted role member
    rw [if_pos wanted] at hostTailscale
    exact guardHostTailscale_ok tailscale hostTailscale member

end HomeclusterInfra.PxeCatalog
