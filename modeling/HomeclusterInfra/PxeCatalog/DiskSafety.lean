import HomeclusterInfra.PxeCatalog.RoleStorage

/-!
# Which disks the catalog protects

Two promises of the catalog: a persistent staging server is given no destructive
storage flag, and `host_tailscale` is emitted only beside persistent storage on
its own device. Each is compared with what the host variables and the client
configuration must be like for it to hold.
-/

set_option autoImplicit false

namespace HomeclusterInfra.PxeCatalog

open Text Checked Python
open Value (asMapping? equal)

variable [UnicodeData]

/-! ## Clients and items -/

omit [UnicodeData] in
theorem mem_items {overlayId : String} {roles : Mapping Vars} {item : Item} :
    item ∈ items overlayId roles ↔
      item.overlayId = overlayId ∧ roles.get item.role = some item.vars := by
  rw [items, List.mem_filterMap]
  constructor
  · rintro ⟨role, -, found⟩
    obtain ⟨vars, here, rfl⟩ := Option.map_eq_some_iff.1 found
    exact ⟨rfl, here⟩
  · rintro ⟨rfl, here⟩
    refine ⟨item.role, ?_, by rw [here]; rfl⟩
    rw [List.mem_insertionSort]
    exact List.mem_map_of_mem (Mapping.mem_of_get here)

omit [UnicodeData] in
/-- What is said of the items of a role is said of its variables. -/
theorem forall_items {overlayId : String} {roles : Mapping Vars} (holds : String → Vars → Prop)
    (empty : ∀ role, holds role []) :
    (∀ item ∈ items overlayId roles, holds item.role item.vars) ↔
      ∀ role, holds role (varsOf roles role) := by
  constructor
  · intro each role
    cases found : roles.get role with
    | none =>
        rw [varsOf, found]
        exact empty role
    | some vars =>
        rw [varsOf, found]
        exact each ⟨overlayId, role, vars⟩ (mem_items.2 ⟨rfl, found⟩)
  · intro each item member
    have here := each item.role
    rwa [varsOf, (mem_items.1 member).2] at here

/-- The catalog is built of the items of its clients, one client after another. -/
theorem catalog_client {hostvars groups : Vars} {routerName : String} {enabled : Value}
    {result : Vars × List Item} {client : String × Vars × Vars} (on : enabled.asBool = true)
    (built : buildOpenwrtPxeClientCatalog hostvars groups routerName enabled = .ok result)
    (member : client ∈ clients hostvars groups routerName) :
    ∃ generated, buildGeneratedClient client.1 client.2.1 client.2.2 = .ok generated ∧
      ∃ before after, result.2 = before ++ generated.2 ++ after := by
  rw [buildOpenwrtPxeClientCatalog, if_pos on] at built
  obtain ⟨-, each⟩ := foldlM_invariant
    (fun consumed (state : Vars × List Item) => True ∧ ∀ client ∈ consumed,
      ∃ generated, buildGeneratedClient client.1 client.2.1 client.2.2 = .ok generated ∧
        ∃ before after, state.2 = before ++ generated.2 ++ after)
    (fun consumed state next after kept step => by
      simp only [bind_eq_ok, pure_eq_ok] at step
      obtain ⟨generated, made, rfl⟩ := step
      refine ⟨trivial, fun client among => ?_⟩
      rcases List.mem_append.1 among with earlier | last
      · obtain ⟨others, ok, before, rest, same⟩ := kept.2 client earlier
        exact ⟨others, ok, before, rest ++ generated.2, by simp [same]⟩
      · obtain rfl := List.mem_singleton.1 last
        exact ⟨generated, made, state.2, [], by simp⟩)
    (clients hostvars groups routerName) [] _ result ⟨trivial, by simp⟩ built
  exact each client (by simpa using member)

/-- The items generated for a client are those of the emitted roles. -/
theorem generated_items {hostname : String} {hv cfg : Vars} {generated : Vars × List Item}
    (built : buildGeneratedClient hostname hv cfg = .ok generated) :
    ∃ roles, Emitted hv cfg roles ∧ generated.2 = items (overlayId hostname cfg) roles := by
  simp only [buildGeneratedClient, generatedRoleClientVars, bind_eq_ok, pure_eq_ok] at built
  obtain ⟨roles, made, rfl⟩ := built
  exact ⟨roles, roleExtraVars_ok made, rfl⟩

/-! ## Flags -/

omit [UnicodeData] in
theorem flag_of_get {vars : Vars} {key : String} {value default : Bool}
    (found : vars.get key = some (.bool value)) : flag vars key default = value := by
  simp [flag, found, Value.asBool, Value.truthy]

omit [UnicodeData] in
theorem flag_congr {first second : Vars} {key : String} {default : Bool}
    (same : first.get key = second.get key) : flag first key default = flag second key default := by
  rw [flag, flag, same]

omit [UnicodeData] in
/-- A flag that defaults to true is off only when it is there and off. -/
theorem flag_true_eq_false {vars : Vars} {key : String} :
    flag vars key true = false ↔ vars.has key = true ∧ flag vars key false = false := by
  cases found : vars.get key with
  | none => simp [flag, Mapping.has, found, Value.asBool, Value.truthy]
  | some value => simp [flag, Mapping.has, found]

omit [UnicodeData] in
theorem flag_nil (key : String) : flag [] key false = false :=
  rfl

/-! ## The persistent staging server -/

/-- No item reads a destructive flag as true. -/
def NoDestructiveFlag (items : List Item) : Prop :=
  ∀ item ∈ items, ∀ key ∈ storageFlags, flag item.vars key false = false

/-- What keeps destructive flags away from a persistent staging server: the
builders that read the host variables unguarded find the flags they would
otherwise default to, and `extra_vars` sets no flag for a role that neither a
builder supplies nor the guard looks at. -/
structure ServerProtected (hv cfg : Vars) : Prop where
  agent : builds cfg "k3s_stg_agent" = true →
    hv.has "k3s_local_storage_allow_format" = true ∧
      hv.has "k3s_local_storage_ephemeral_agent_data" = true
  production : ∀ role, role = "k3s_prd_server" ∨ role = "k3s_prd_storage" →
    lists cfg role = true → hv.has "k3s_local_storage_allow_format" = true
  extra : ∀ role, guarded cfg role = false → builds cfg role = false → ∀ key ∈ storageFlags,
    flag (withExtraVars cfg role []) key false = false

/-- The builders for a persistent staging server, apart from the guarded ones. -/
theorem builds_unguarded {cfg : Vars} {role : String} (supplied : builds cfg role = true)
    (unguarded : guarded cfg role = false) (server : lists cfg "k3s_stg_server" = true) :
    role = "k3s_stg_agent" ∨
      ((role = "k3s_prd_server" ∨ role = "k3s_prd_storage") ∧ lists cfg role = true) := by
  simp only [builds, Bool.and_eq_true, Bool.or_eq_true, decide_eq_true_eq] at supplied
  obtain ⟨listed, production | ⟨(rfl | rfl) | rfl, -⟩⟩ := supplied
  · exact .inr ⟨production, listed⟩
  · simp [guarded, listed] at unguarded
  · exact .inl rfl
  · simp [guarded, listed, server] at unguarded

theorem serverProtected_iff {hv cfg : Vars} {roles : Mapping Vars} (emitted : Emitted hv cfg roles)
    (server : lists cfg "k3s_stg_server" = true) :
    (∀ role, ∀ key ∈ storageFlags, flag (varsOf roles role) key false = false) ↔
      ServerProtected hv cfg := by
  have hostOff := emitted.persistent server
  constructor
  · intro off
    refine ⟨?_, ?_, ?_⟩
    · intro supplied
      have unguarded : guarded cfg "k3s_stg_agent" = false := by simp [guarded]
      obtain ⟨allow, -, ephemeral⟩ := emitted.supplied _ unguarded supplied
      have allowOff := off "k3s_stg_agent" "k3s_local_storage_allow_format" (by decide)
      have ephemeralOff := off "k3s_stg_agent" "k3s_local_storage_ephemeral_agent_data" (by decide)
      rw [flag_of_get allow] at allowOff
      rw [flag_of_get ephemeral, decide_eq_true rfl] at ephemeralOff
      exact ⟨(flag_true_eq_false.1 allowOff).1, (flag_true_eq_false.1 ephemeralOff).1⟩
    · intro role production listed
      have supplied : builds cfg role = true := by
        rcases production with rfl | rfl <;> simp [builds, listed]
      have unguarded : guarded cfg role = false := by
        rcases production with rfl | rfl <;> simp [guarded]
      obtain ⟨allow, -, -⟩ := emitted.supplied _ unguarded supplied
      have allowOff := off role "k3s_local_storage_allow_format" (by decide)
      rw [flag_of_get allow] at allowOff
      exact (flag_true_eq_false.1 allowOff).1
    · intro role unguarded unsupplied key member
      rw [← flag_congr (emitted.free role unguarded unsupplied key member)]
      exact off role key member
  · intro safe role key member
    cases guards : guarded cfg role with
    | true => exact flag_of_get (emitted.off role guards key member)
    | false =>
        cases supplied : builds cfg role with
        | false =>
            rw [flag_congr (emitted.free role guards supplied key member)]
            exact safe.extra role guards supplied key member
        | true =>
            obtain ⟨allow, force, ephemeral⟩ := emitted.supplied role guards supplied
            have allowThere : hv.has "k3s_local_storage_allow_format" = true := by
              rcases builds_unguarded supplied guards server with rfl | ⟨production, listed⟩
              · exact (safe.agent supplied).1
              · exact safe.production role production listed
            simp only [storageFlags, List.mem_cons, List.not_mem_nil, or_false] at member
            rcases member with rfl | rfl | rfl
            · rw [flag_of_get allow, flag_true_eq_false]
              exact ⟨allowThere, hostOff _ (by decide)⟩
            · rw [flag_of_get force]
              exact hostOff _ (by decide)
            · rw [flag_of_get ephemeral]
              by_cases agent : role = "k3s_stg_agent"
              · subst agent
                rw [decide_eq_true rfl, flag_true_eq_false]
                exact ⟨(safe.agent supplied).2, hostOff _ (by decide)⟩
              · rw [decide_eq_false agent]
                exact hostOff _ (by decide)

/-- **When a persistent staging server is safe from destructive flags.** In a
catalog that could be built, the items of a client with the server role have no
flag that reads true exactly when its variables protect it. -/
theorem persistent_server_iff {hostvars groups : Vars} {routerName : String} {enabled : Value}
    {result : Vars × List Item} {client : String × Vars × Vars} (on : enabled.asBool = true)
    (built : buildOpenwrtPxeClientCatalog hostvars groups routerName enabled = .ok result)
    (member : client ∈ clients hostvars groups routerName)
    (server : lists client.2.2 "k3s_stg_server" = true) :
    ∃ generated, buildGeneratedClient client.1 client.2.1 client.2.2 = .ok generated ∧
      (∃ before after, result.2 = before ++ generated.2 ++ after) ∧
      (NoDestructiveFlag generated.2 ↔ ServerProtected client.2.1 client.2.2) := by
  obtain ⟨generated, made, inside⟩ := catalog_client on built member
  obtain ⟨roles, emitted, same⟩ := generated_items made
  refine ⟨generated, made, inside, ?_⟩
  rw [← serverProtected_iff emitted server, NoDestructiveFlag, same]
  exact forall_items (fun _ vars => ∀ key ∈ storageFlags, flag vars key false = false)
    fun _ key _ => flag_nil key

/-! ### A server that is also an agent -/

section Fixtures

omit [UnicodeData]

/-- The inventory of one client with the given roles and host variables. -/
def fixtureInventory (roles : List String) (hv : Vars) : Vars :=
  [("fixture-server", .dict (hv ++ [("openwrt_pxe_client", .dict [("enabled", .bool true),
    ("router", .str "router1"), ("roles", strings roles)])]))]

/-- Its catalog. -/
def fixtureCatalog (roles : List String) (hv : Vars) : Except Failure (Vars × List Item) :=
  @buildOpenwrtPxeClientCatalog asciiData (fixtureInventory roles hv) [] "router1" (.bool true)

/-- Its client. -/
def fixtureClients (roles : List String) (hv : Vars) : List (String × Vars × Vars) :=
  @clients asciiData (fixtureInventory roles hv) [] "router1"

/-- A catalog that can be built and has an item that passes a test. -/
theorem exists_item (result : Except Failure (Vars × List Item)) (test : Item → Bool)
    (found : result.toOption.any (fun built => built.2.any test) = true) :
    ∃ built, result = .ok built ∧ ∃ item ∈ built.2, test item = true := by
  cases result with
  | error failure => cases found
  | ok built => exact ⟨built, rfl, List.any_eq_true.1 found⟩

theorem persistent_server_iff_fixture :
    ∃ (_ : UnicodeData) (result : Vars × List Item) (client : String × Vars × Vars),
      fixtureCatalog ["k3s_stg_storage", "k3s_stg_server"] [] = .ok result ∧
      ∃ generated, buildGeneratedClient client.1 client.2.1 client.2.2 = .ok generated ∧
        (∃ before after, result.2 = before ++ generated.2 ++ after) ∧
        (NoDestructiveFlag generated.2 ↔ ServerProtected client.2.1 client.2.2) := by
  let _ : UnicodeData := asciiData
  obtain ⟨result, built, -⟩ :=
    exists_item (fixtureCatalog ["k3s_stg_storage", "k3s_stg_server"] []) (fun _ => true)
      (by decide +kernel)
  refine ⟨asciiData, result,
    (fixtureClients ["k3s_stg_storage", "k3s_stg_server"] []).get ⟨0, by decide +kernel⟩,
    built, ?_⟩
  exact persistent_server_iff (by decide) built (List.get_mem _ _) (by decide +kernel)

/-- **A client that is a staging server and a staging agent gets ephemeral
data**: the agent builder reads the unguarded host variables. -/
theorem agent_role_of_persistent_server :
    ∃ (_ : UnicodeData) (result : Vars × List Item) (client : String × Vars × Vars),
      fixtureCatalog ["k3s_stg_server", "k3s_stg_agent"] [] = .ok result ∧
        client ∈ fixtureClients ["k3s_stg_server", "k3s_stg_agent"] [] ∧
        lists client.2.2 "k3s_stg_server" = true ∧
        ∃ item ∈ result.2, item.overlayId = client.1 ∧
          flag item.vars "k3s_local_storage_ephemeral_agent_data" false = true := by
  obtain ⟨result, built, item, member, test⟩ := exists_item
    (fixtureCatalog ["k3s_stg_server", "k3s_stg_agent"] [])
    (fun item => item.overlayId == "fixture-server" &&
      flag item.vars "k3s_local_storage_ephemeral_agent_data" false) (by decide +kernel)
  rw [Bool.and_eq_true, beq_iff_eq] at test
  refine ⟨asciiData, result,
    (fixtureClients ["k3s_stg_server", "k3s_stg_agent"] []).get ⟨0, by decide +kernel⟩, built,
    List.get_mem _ _, by decide +kernel, item, member, ?_, test.2⟩
  rw [test.1]
  decide +kernel

end Fixtures

/-! ## Host Tailscale -/

/-- Beside an item for `host_tailscale` no item asks for the destruction of what
is stored, and every item with a device has the device of `host_tailscale`. -/
def PersistentStorage (items : List Item) : Prop :=
  ∀ tailscale ∈ items, tailscale.role = "host_tailscale" →
    ∀ item ∈ items, item.role ≠ "host_tailscale" →
      flag item.vars "k3s_local_storage_force_format" false = false ∧
        flag item.vars "k3s_local_storage_ephemeral_agent_data" false = false ∧
        ∀ device, item.vars.get storageDevice = some device →
          equal device (valueAt tailscale.vars "host_tailscale_storage_device") = true

/-- What keeps the storage of `host_tailscale` persistent: a staging agent finds
the flag it would otherwise default to, and outside the two storage roles
`extra_vars` sets neither a flag nor another device. -/
structure TailscaleProtected (hv cfg : Vars) : Prop where
  agent : builds cfg "k3s_stg_agent" = true →
    hv.has "k3s_local_storage_ephemeral_agent_data" = true
  extra : ∀ role, role ≠ "k3s_stg_storage" → role ≠ "k3s_prd_storage" →
    guarded cfg role = false → builds cfg role = false →
      flag (withExtraVars cfg role []) "k3s_local_storage_force_format" false = false ∧
        flag (withExtraVars cfg role []) "k3s_local_storage_ephemeral_agent_data" false = false
  device : ∀ role, role ≠ "k3s_stg_storage" → role ≠ "k3s_prd_storage" →
    ∀ device, (withExtraVars cfg role (suppliedDevice hv cfg role)).get storageDevice =
        some device →
      equal device ((hv.get storageDevice).getD (.str "")) = true

/-- The storage variables of a role are persistent and on a device. -/
def PersistentOn (device : Value) (vars : Vars) : Prop :=
  flag vars "k3s_local_storage_force_format" false = false ∧
    flag vars "k3s_local_storage_ephemeral_agent_data" false = false ∧
    ∀ other, vars.get storageDevice = some other → equal other device = true

omit [UnicodeData] in
theorem NoStorage.persistentOn {vars : Vars} (none : NoStorage vars) (device : Value) :
    PersistentOn device vars := by
  refine ⟨?_, ?_, ?_⟩
  · rw [flag, none _ (by decide)]
    rfl
  · rw [flag, none _ (by decide)]
    rfl
  · intro other found
    rw [none _ (by decide)] at found
    cases found

theorem tailscaleProtected_iff {hv cfg : Vars} {roles : Mapping Vars}
    (emitted : Emitted hv cfg roles) (wanted : flag hv "host_tailscale_enabled" false = true) :
    (∀ role, role ≠ "host_tailscale" →
        PersistentOn ((hv.get storageDevice).getD (.str "")) (varsOf roles role)) ↔
      TailscaleProtected hv cfg := by
  obtain ⟨forceOff, ephemeralOff⟩ := emitted.checked wanted
  have tailscale : PersistentOn ((hv.get storageDevice).getD (.str ""))
      (varsOf roles "host_tailscale") := by
    rw [varsOf, emitted.hostTailscale, if_pos wanted]
    exact (noStorage_hostTailscale hv).persistentOn _
  constructor
  · intro others
    have each : ∀ role, PersistentOn ((hv.get storageDevice).getD (.str ""))
        (varsOf roles role) := by
      intro role
      by_cases here : role = "host_tailscale"
      · rw [here]
        exact tailscale
      · exact others role here
    refine ⟨?_, ?_, ?_⟩
    · intro supplied
      obtain ⟨-, -, ephemeral⟩ := emitted.supplied _ (by simp [guarded]) supplied
      have off := (each "k3s_stg_agent").2.1
      rw [flag_of_get ephemeral, decide_eq_true rfl] at off
      exact (flag_true_eq_false.1 off).1
    · intro role _ _ unguarded unsupplied
      have free := emitted.free role unguarded unsupplied
      rw [← flag_congr (free "k3s_local_storage_force_format" (by decide)),
        ← flag_congr (free "k3s_local_storage_ephemeral_agent_data" (by decide))]
      exact ⟨(each role).1, (each role).2.1⟩
    · intro role _ _ device found
      rw [← emitted.device role] at found
      exact (each role).2.2 device found
  · intro safe role _
    by_cases checked : role = "k3s_stg_storage" ∨ role = "k3s_prd_storage"
    · obtain ⟨force, ephemeral, device⟩ := emitted.storageRoles wanted role checked
      refine ⟨force, ephemeral, fun other found => ?_⟩
      rcases device with empty | same
      · rw [List.isEmpty_iff.1 empty] at found
        cases found
      · rwa [found] at same
    · rw [not_or] at checked
      refine ⟨?_, ?_, ?_⟩
      · cases guards : guarded cfg role with
        | true => exact flag_of_get (emitted.off role guards _ (by decide))
        | false =>
            cases supplied : builds cfg role with
            | true =>
                rw [flag_of_get (emitted.supplied role guards supplied).2.1]
                exact forceOff
            | false =>
                rw [flag_congr (emitted.free role guards supplied _ (by decide))]
                exact (safe.extra role checked.1 checked.2 guards supplied).1
      · cases guards : guarded cfg role with
        | true => exact flag_of_get (emitted.off role guards _ (by decide))
        | false =>
            cases supplied : builds cfg role with
            | true =>
                rw [flag_of_get (emitted.supplied role guards supplied).2.2]
                by_cases agent : role = "k3s_stg_agent"
                · subst agent
                  rw [decide_eq_true rfl, flag_true_eq_false]
                  exact ⟨safe.agent supplied, ephemeralOff⟩
                · rw [decide_eq_false agent]
                  exact ephemeralOff
            | false =>
                rw [flag_congr (emitted.free role guards supplied _ (by decide))]
                exact (safe.extra role checked.1 checked.2 guards supplied).2
      · intro device found
        rw [emitted.device role] at found
        exact safe.device role checked.1 checked.2 device found

/-- **When `host_tailscale` is emitted only beside persistent storage.** In a
catalog that could be built, the items of a client keep its storage persistent
exactly when its variables protect it, if `host_tailscale` is enabled at all. -/
theorem host_tailscale_iff {hostvars groups : Vars} {routerName : String} {enabled : Value}
    {result : Vars × List Item} {client : String × Vars × Vars} (on : enabled.asBool = true)
    (built : buildOpenwrtPxeClientCatalog hostvars groups routerName enabled = .ok result)
    (member : client ∈ clients hostvars groups routerName) :
    ∃ generated, buildGeneratedClient client.1 client.2.1 client.2.2 = .ok generated ∧
      (∃ before after, result.2 = before ++ generated.2 ++ after) ∧
      (PersistentStorage generated.2 ↔
        (flag client.2.1 "host_tailscale_enabled" false = true →
          TailscaleProtected client.2.1 client.2.2)) := by
  obtain ⟨generated, made, inside⟩ := catalog_client on built member
  obtain ⟨roles, emitted, same⟩ := generated_items made
  refine ⟨generated, made, inside, ?_⟩
  rw [PersistentStorage, same]
  have tailscale := emitted.hostTailscale
  by_cases wanted : flag client.2.1 "host_tailscale_enabled" false = true
  · rw [if_pos wanted] at tailscale
    have others := @forall_items (overlayId client.1 client.2.2) roles
      (fun role vars => role ≠ "host_tailscale" →
        PersistentOn ((client.2.1.get storageDevice).getD (.str "")) vars)
      fun role _ => noStorage_nil.persistentOn _
    constructor
    · intro keeps _
      refine (tailscaleProtected_iff emitted wanted).1 (others.1 fun item member apart => ?_)
      exact keeps ⟨overlayId client.1 client.2.2, "host_tailscale", hostTailscaleVars client.2.1⟩
        (mem_items.2 ⟨rfl, tailscale⟩) rfl item member apart
    · intro safe item isItem isTailscale other member apart
      have found := (mem_items.1 isItem).2
      rw [isTailscale, tailscale] at found
      rw [← Option.some.inj found]
      exact others.2 ((tailscaleProtected_iff emitted wanted).2 (safe wanted)) other member apart
  · rw [if_neg wanted] at tailscale
    refine iff_of_true ?_ fun yes => absurd yes wanted
    intro item member isTailscale
    have found := (mem_items.1 member).2
    rw [isTailscale, tailscale] at found
    cases found

section Fixtures

omit [UnicodeData]

/-- The variables of a host that wants `host_tailscale` and says nothing about
ephemeral data. -/
def tailscaleHost : Vars :=
  [("host_tailscale_enabled", .bool true), ("k3s_local_storage_enabled", .bool true),
    (storageDevice, .str "/dev/disk/by-id/fixture-part1")]

theorem host_tailscale_iff_fixture :
    ∃ (_ : UnicodeData) (result : Vars × List Item) (client : String × Vars × Vars),
      fixtureCatalog ["k3s_prd_storage", "k3s_prd_server"] tailscaleHost = .ok result ∧
      ∃ generated, buildGeneratedClient client.1 client.2.1 client.2.2 = .ok generated ∧
        (∃ before after, result.2 = before ++ generated.2 ++ after) ∧
        (PersistentStorage generated.2 ↔
          (flag client.2.1 "host_tailscale_enabled" false = true →
            TailscaleProtected client.2.1 client.2.2)) := by
  let _ : UnicodeData := asciiData
  obtain ⟨result, built, -⟩ := exists_item
    (fixtureCatalog ["k3s_prd_storage", "k3s_prd_server"] tailscaleHost) (fun _ => true)
    (by decide +kernel)
  refine ⟨asciiData, result,
    (fixtureClients ["k3s_prd_storage", "k3s_prd_server"] tailscaleHost).get
      ⟨0, by decide +kernel⟩, built, ?_⟩
  exact host_tailscale_iff (by decide) built (List.get_mem _ _)

/-- **A staging agent with `host_tailscale` gets ephemeral data** when its host
does not say otherwise. -/
theorem agent_role_beside_host_tailscale :
    ∃ (_ : UnicodeData) (result : Vars × List Item),
      fixtureCatalog ["k3s_stg_agent"] tailscaleHost = .ok result ∧
        ¬ PersistentStorage result.2 := by
  obtain ⟨result, built, item, member, test⟩ := exists_item
    (fixtureCatalog ["k3s_stg_agent"] tailscaleHost)
    (fun item => item.role != "host_tailscale" &&
      flag item.vars "k3s_local_storage_ephemeral_agent_data" false) (by decide +kernel)
  obtain ⟨again, same, tailscale, among, isTailscale⟩ := exists_item
    (fixtureCatalog ["k3s_stg_agent"] tailscaleHost)
    (fun item => item.role == "host_tailscale") (by decide +kernel)
  obtain rfl := Except.ok.inj (built.symm.trans same)
  rw [Bool.and_eq_true, bne_iff_ne] at test
  refine ⟨asciiData, result, built, fun persistent => ?_⟩
  have off := (persistent tailscale among (beq_iff_eq.1 isTailscale) item member test.1).2.1
  rw [test.2] at off
  cases off

end Fixtures

end HomeclusterInfra.PxeCatalog
