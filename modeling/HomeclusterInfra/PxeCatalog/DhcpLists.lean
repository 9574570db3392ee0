import HomeclusterInfra.PxeCatalog.Catalog

/-!
# The PXE and DHCP lists of a catalog

For each client of a router the catalog generates a DHCP host, a PXE boot entry
and an overlay client. They are appended to lists that were written by hand
before the clients were described with their hosts, the legacy lists, from which
the entries of generated clients are left out.

An entry is identified by one text: the first of a few fields that is not empty.
A legacy entry is left out when its text is that of a generated entry, whichever
fields the two texts come from.
-/

set_option autoImplicit false

namespace HomeclusterInfra.PxeCatalog

open Text Checked Python
open Value (asMapping? cleanString)

section

variable [UnicodeData]

/-! ## Generated entries -/

/-- The `default_*` arguments and `option_code`. -/
structure Defaults where
  optionCode : Value := .str "224"
  filename : Value := .str "start4.elf"
  serveraddress : Value := .str ""
  servername : Value := .str ""
  force : Value := .int 1

/-- `_mapping_value` -/
def mappingValue (cfg nested : Vars) (key : String) : Value :=
  firstPresent [nested.get key, cfg.get key]

/-- `[_clean_string(item) for item in _as_list(value) if _clean_string(item)]` -/
def cleanedItems (value : Value) : List String :=
  (value.asList.map cleanString).filter (· ≠ "")

/-- `networkid` of `_build_generated_client` -/
def clientNetworkid (hostname : String) (cfg : Vars) : String :=
  let networkid := (mappingValue cfg (clientSection cfg "pxe_host" "host") "networkid").cleanString
  if networkid = "" then clientName hostname cfg else networkid

/-- `role` of `_build_generated_client` -/
def clientRole (cfg : Vars) : Value :=
  match mappingValue cfg (clientSection cfg "overlay" "overlay_client") "role" with
  | .none => ((valueAt cfg "roles").asList.head?).getD .none
  | role => role

/-- `_option_value_for_client` -/
def optionValueForClient (cfg overlay : Vars) (overlayId : String) (role : Value) : String :=
  let wanted := (firstPresent [overlay.get "option_value", cfg.get "option_value"]).cleanString
  let roles := ",".intercalate (cleanedItems (firstPresent [cfg.get "roles", overlay.get "roles"]))
  let stage := (firstPresent [cfg.get "stage", cfg.get "tftp_stage"]).cleanString
  let part := fun (name text : String) => if text = "" then [] else [name ++ "=" ++ text]
  if wanted ≠ "" then wanted
  else ",".intercalate (["overlay_id=" ++ overlayId] ++ part "role" role.cleanString ++
    part "roles" roles ++ part "stage" stage)

/-- Set the fields whose values are not blank. -/
def setPresent (entry : Vars) (fields : List (String × Value)) : Vars :=
  fields.foldl (fun entry field =>
    if field.2.cleanString = "" then entry else entry.set field.1 field.2) entry

/-- Set a list unless it is empty. -/
def setItems (entry : Vars) (key : String) (items : List String) : Vars :=
  if items.isEmpty then entry else entry.set key (strings items)

/-- `_generated_pxe_host` -/
def generatedPxeHost (defaults : Defaults) (cfg nested hv : Vars) (name networkid : String)
    (optionValue : String) : Vars :=
  let own := mappingValue cfg nested
  let copied := fun key : String => (key, own key)
  let host := setPresent [("name", .str name), ("networkid", .str networkid)]
    ([copied "mac",
      ("ip", firstPresent [some (own "ip"), hv.get "ansible_host"]),
      ("filename", firstPresent [some (own "filename"), some (own "bootfile"),
        some defaults.filename]),
      ("force", firstPresent [some (own "force"), some defaults.force]),
      copied "board_hash",
      ("tftp_stage", firstPresent [some (own "tftp_stage"), cfg.get "stage"])] ++
    ["tftp_release", "rootfs_release", "cmdline_root_arg", "cmdline_ip", "cmdline_extra_args",
      "rpi_kernel_image", "rpi_initramfs", "rpi_device_tree", "rpi4_kernel_image",
      "rpi4_initramfs", "rpi4_device_tree", "rpi5_kernel_image", "rpi5_initramfs",
      "rpi5_device_tree", "rpi5_extra_config", "rpi5_pciex1_enabled"].map copied)
  let tags := match own "tags" with
    | .none =>
        let tag := (firstPresent [cfg.get "stage", host.get "tftp_stage"]).cleanString
        .list (if tag = "" then [] else [.str tag])
    | tags => tags
  let options := match own "dhcp_options" with
    | .none =>
        if optionValue = "" then .none
        else .list [.str (defaults.optionCode.cleanString ++ ",\"" ++ optionValue ++ "\"")]
    | options => options
  setItems (setItems host "tags" (cleanedItems tags)) "dhcp_options" (cleanedItems options)

/-- `_generated_pxe_boot` -/
def generatedPxeBoot (defaults : Defaults) (cfg boot pxeHost : Vars) (name networkid : String) :
    Option Vars :=
  let orElse := fun (key text : String) =>
    if (valueAt boot key).cleanString = "" then text else (valueAt boot key).cleanString
  let filename := (firstPresent [boot.get "filename", boot.get "bootfile", pxeHost.get "filename",
    some defaults.filename]).cleanString
  let serveraddress := (firstPresent [boot.get "serveraddress", cfg.get "serveraddress",
    some defaults.serveraddress]).cleanString
  let servername := (firstPresent [boot.get "servername", cfg.get "servername",
    some defaults.servername, some (.str serveraddress)]).cleanString
  if flag boot "enabled" true && !(filename = "" && serveraddress = "" && servername = "") then
    some [("name", .str (orElse "name" name)), ("networkid", .str (orElse "networkid" networkid)),
      ("filename", .str filename), ("serveraddress", .str serveraddress),
      ("servername", .str servername)]
  else none

/-- `_generated_overlay_client` -/
def generatedOverlayClient (cfg overlay : Vars) (overlayId : String) (role : Value)
    (optionValue : String) : Option Vars :=
  if flag overlay "enabled" true && overlayId ≠ "" then
    let client := setPresent [("id", .str overlayId)] [("role", .str role.cleanString)]
    let client :=
      if optionValue = "" then client else client.set "option_value" (.str optionValue)
    some (setPresent client (["ansible_extra_vars", "mac"].map fun key =>
      (key, firstPresent [overlay.get key, cfg.get key])))
  else none

/-- The entries of one client. -/
structure Entries where
  pxeHost : Vars
  pxeBoot : Option Vars
  overlayClient : Option Vars

/-- `_build_generated_client`, as far as it concerns the lists. -/
def generatedEntries (defaults : Defaults) (hostname : String) (hv cfg : Vars) : Entries :=
  let overlay := clientSection cfg "overlay" "overlay_client"
  let name := clientName hostname cfg
  let networkid := clientNetworkid hostname cfg
  let id := overlayId hostname cfg
  let role := clientRole cfg
  let optionValue := optionValueForClient cfg overlay id role
  let pxeHost := generatedPxeHost defaults cfg (clientSection cfg "pxe_host" "host") hv name
    networkid optionValue
  ⟨pxeHost, generatedPxeBoot defaults cfg (clientSection cfg "pxe_boot" "boot") pxeHost name
    networkid, generatedOverlayClient cfg overlay id role optionValue⟩

/-! ## Merging with the legacy lists -/

/-- `_clean_string(item.get(key))` -/
def textAt (item : Vars) (key : String) : String :=
  (valueAt item key).cleanString

/-- `_item_key` -/
def itemKey (item : Vars) : List String → String
  | [] => ""
  | key :: keys => if textAt item key = "" then itemKey item keys else textAt item key

/-- `_non_shadowed_legacy` -/
def nonShadowedLegacy (legacy generated : List Vars) (keys : List String) : List Vars :=
  let generatedKeys := (generated.map fun item => itemKey item keys).filter (· ≠ "")
  legacy.filter fun item => !generatedKeys.contains (itemKey item keys)

/-- The legacy entries that are not shadowed, and after them the generated ones. -/
def mergedList (legacy generated : List Vars) (keys : List String) : List Vars :=
  nonShadowedLegacy legacy generated keys ++ generated

/-- The mappings of a list. -/
def mappings (value : Value) : List Vars :=
  value.asList.filterMap asMapping?

structure Lists where
  pxeHosts : List Vars
  pxeBoots : List Vars
  overlayClients : List Vars

/-- The entries of all clients, each kind in the order of the clients. -/
def generatedLists (defaults : Defaults) (hostvars groups : Vars) (routerName : String)
    (enabled : Value) : Lists :=
  let visited := if enabled.asBool then clients hostvars groups routerName else []
  let entries := visited.map fun client =>
    generatedEntries defaults client.1 client.2.1 client.2.2
  ⟨entries.map Entries.pxeHost, entries.filterMap Entries.pxeBoot,
    entries.filterMap Entries.overlayClient⟩

/-- `build_openwrt_pxe_client_catalog`, its `pxe_hosts`, `pxe_boots` and `overlay_clients`. -/
def catalogLists (defaults : Defaults) (hostvars groups : Vars) (routerName : String)
    (enabled legacyPxeHosts legacyPxeBoots legacyOverlayClients : Value) :
    Except Failure Lists := do
  let _ ← buildOpenwrtPxeClientCatalog hostvars groups routerName enabled
  let generated := generatedLists defaults hostvars groups routerName enabled
  return ⟨mergedList (mappings legacyPxeHosts) generated.pxeHosts ["name", "networkid", "mac"],
    mergedList (mappings legacyPxeBoots) generated.pxeBoots ["name", "networkid"],
    mergedList (mappings legacyOverlayClients) generated.overlayClients ["id"]⟩

/-! ## Identities -/

/-- One of the fields has the same text in both, which is not empty. -/
def Shares (keys : List String) (first second : Vars) : Prop :=
  ∃ key ∈ keys, textAt first key ≠ "" ∧ textAt first key = textAt second key

/-- The text is that of the first of the fields that is not empty. -/
def Identity (keys : List String) (item : Vars) (text : String) : Prop :=
  ∃ before key after, keys = before ++ key :: after ∧
    (∀ earlier ∈ before, textAt item earlier = "") ∧ textAt item key = text ∧ text ≠ ""

/-- The first fields of both that are not empty have one text. -/
def SameIdentity (keys : List String) (first second : Vars) : Prop :=
  ∃ text, Identity keys first text ∧ Identity keys second text

instance (keys : List String) (first second : Vars) : Decidable (Shares keys first second) :=
  inferInstanceAs (Decidable (∃ key ∈ keys, _))

variable {keys : List String} {item first second : Vars} {text : String}

theorem itemKey_eq_iff (nonempty : text ≠ "") :
    itemKey item keys = text ↔ Identity keys item text := by
  induction keys with
  | nil =>
      constructor
      · intro same
        exact absurd same.symm nonempty
      · rintro ⟨before, key, after, split, -⟩
        cases before <;> cases split
  | cons key keys ih =>
      rw [itemKey]
      by_cases blank : textAt item key = ""
      · rw [if_pos blank, ih]
        constructor
        · rintro ⟨before, other, after, rfl, empty, same, _⟩
          exact ⟨key :: before, other, after, rfl, List.forall_mem_cons.mpr ⟨blank, empty⟩, same,
            nonempty⟩
        · rintro ⟨before, other, after, split, empty, same, _⟩
          cases before with
          | nil =>
              cases split
              exact absurd (same.symm.trans blank) nonempty
          | cons earlier before =>
              cases split
              exact ⟨before, other, after, rfl, (List.forall_mem_cons.mp empty).2, same, nonempty⟩
      · rw [if_neg blank]
        constructor
        · intro same
          exact ⟨[], key, keys, rfl, List.forall_mem_nil _, same, nonempty⟩
        · rintro ⟨before, other, after, split, empty, same, _⟩
          cases before with
          | nil =>
              cases split
              exact same
          | cons earlier before =>
              cases split
              exact absurd (List.forall_mem_cons.mp empty).1 blank

theorem sameIdentity_iff : SameIdentity keys first second ↔
    itemKey first keys ≠ "" ∧ itemKey first keys = itemKey second keys := by
  constructor
  · rintro ⟨text, one, other⟩
    have nonempty : text ≠ "" := by
      obtain ⟨-, -, -, -, -, -, nonempty⟩ := one
      exact nonempty
    rw [(itemKey_eq_iff nonempty).mpr one, (itemKey_eq_iff nonempty).mpr other]
    exact ⟨nonempty, rfl⟩
  · rintro ⟨nonempty, same⟩
    exact ⟨_, (itemKey_eq_iff nonempty).mp rfl, (itemKey_eq_iff nonempty).mp same.symm⟩

instance (keys : List String) (first second : Vars) : Decidable (SameIdentity keys first second) :=
  decidable_of_iff _ sameIdentity_iff.symm

/-- **A legacy entry is left out exactly when a generated one has its identity.** -/
theorem mergedList_eq (legacy generated : List Vars) (keys : List String) :
    mergedList legacy generated keys =
      (legacy.filter fun item => ∀ other ∈ generated, ¬ SameIdentity keys item other) ++
        generated := by
  have alike : ∀ item : Vars, (!((generated.map fun item => itemKey item keys).filter
        (· ≠ "")).contains (itemKey item keys)) =
      decide (∀ other ∈ generated, ¬ SameIdentity keys item other) := by
    intro item
    rw [Bool.eq_iff_iff, decide_eq_true_eq, Bool.not_eq_true', ← Bool.not_eq_true,
      List.contains_iff_mem, List.mem_filter, List.mem_map, decide_eq_true_eq]
    constructor
    · intro absent other among same
      obtain ⟨nonempty, keysAlike⟩ := sameIdentity_iff.mp same
      exact absent ⟨⟨other, among, keysAlike.symm⟩, nonempty⟩
    · rintro apart ⟨⟨other, among, keysAlike⟩, nonempty⟩
      exact apart other among (sameIdentity_iff.mpr ⟨nonempty, keysAlike.symm⟩)
  unfold mergedList nonShadowedLegacy
  simp only [alike]

/-- Entries with one name have one identity. -/
theorem sameIdentity_of_first {key : String} (nonempty : textAt first key ≠ "")
    (same : textAt first key = textAt second key) : SameIdentity (key :: keys) first second :=
  ⟨textAt first key, ⟨[], key, keys, rfl, List.forall_mem_nil _, rfl, nonempty⟩,
    [], key, keys, rfl, List.forall_mem_nil _, same.symm, nonempty⟩

/-- With one field, identity is a shared field. -/
theorem sameIdentity_single {key : String} :
    SameIdentity [key] first second ↔ Shares [key] first second := by
  have only : ∀ item : Vars, itemKey item [key] = textAt item key := by
    intro item
    rw [itemKey, itemKey]
    split
    next blank => exact blank.symm
    next => rfl
  rw [sameIdentity_iff, only, only]
  unfold Shares
  simp only [List.mem_singleton, exists_eq_left]

/-! ## The lists of a catalog -/

/-- Nothing is described twice: the legacy entries that share no field with a generated one, and
after them the generated ones. -/
def DescribedOnce (keys : List String) (legacy generated merged : List Vars) : Prop :=
  merged = (legacy.filter fun item => ∀ other ∈ generated, ¬ Shares keys item other) ++ generated

/-- The legacy entries whose identity is that of no generated one, and after them the generated
ones. None that is kept has its first field in common with a generated one. -/
def MergedByIdentity (key : String) (keys : List String) (legacy generated merged : List Vars) :
    Prop :=
  ∃ kept, merged = kept ++ generated ∧
    (kept = legacy.filter fun item => ∀ other ∈ generated, ¬ SameIdentity (key :: keys) item other) ∧
    ∀ item ∈ kept, ∀ other ∈ generated, textAt item key ≠ "" → textAt item key ≠ textAt other key

theorem mergedByIdentity (key : String) (keys : List String) (legacy generated : List Vars) :
    MergedByIdentity key keys legacy generated (mergedList legacy generated (key :: keys)) := by
  refine ⟨_, mergedList_eq legacy generated (key :: keys), rfl, ?_⟩
  intro item member other among nonempty same
  have apart := of_decide_eq_true (List.mem_filter.mp member).2
  exact apart other among (sameIdentity_of_first nonempty same)

theorem describedOnce_single (key : String) (legacy generated : List Vars) :
    DescribedOnce [key] legacy generated (mergedList legacy generated [key]) := by
  unfold DescribedOnce
  rw [mergedList_eq]
  simp only [sameIdentity_single]

variable {defaults : Defaults} {hostvars groups : Vars} {routerName : String}
  {enabled legacyPxeHosts legacyPxeBoots legacyOverlayClients : Value} {lists : Lists}

/-- **The lists of a catalog hold each identity once.** Every generated entry is appended, and of
the legacy entries those stay, unchanged and in their order, whose identity no generated one has.
Hosts and boot entries are identified by the first field of theirs that is not empty, overlay
clients by their id, so no two of these share it. -/
theorem catalogLists_merged (built : catalogLists defaults hostvars groups routerName enabled
      legacyPxeHosts legacyPxeBoots legacyOverlayClients = .ok lists) :
    MergedByIdentity "name" ["networkid", "mac"] (mappings legacyPxeHosts)
        (generatedLists defaults hostvars groups routerName enabled).pxeHosts lists.pxeHosts ∧
      MergedByIdentity "name" ["networkid"] (mappings legacyPxeBoots)
        (generatedLists defaults hostvars groups routerName enabled).pxeBoots lists.pxeBoots ∧
      DescribedOnce ["id"] (mappings legacyOverlayClients)
        (generatedLists defaults hostvars groups routerName enabled).overlayClients
        lists.overlayClients := by
  obtain ⟨_, -, same⟩ := bind_eq_ok.mp built
  rw [← pure_eq_ok.mp same]
  exact ⟨mergedByIdentity _ _ _ _, mergedByIdentity _ _ _ _, describedOnce_single _ _ _⟩

end

/-! A client that was renamed when it was described with its host. -/

section Renamed

/-- The characters of this example are ASCII. -/
local instance : UnicodeData :=
  asciiData

def renamedHost : Vars :=
  [("node1", .dict [("openwrt_pxe_client",
    .dict [("enabled", .bool true), ("mac", .str "dc:a6:32:00:00:01")])])]

/-- The same machine under its old name. -/
def oldName : Value :=
  .list [.dict [("name", .str "rpi4a"), ("mac", .str "dc:a6:32:00:00:01")]]

def renamedLists : Except Failure Lists :=
  catalogLists {} renamedHost [] "router1" (.bool true) oldName .none .none

theorem catalogLists_merged_renamed : ∃ lists, renamedLists = .ok lists ∧
    MergedByIdentity "name" ["networkid", "mac"] (mappings oldName)
      (generatedLists {} renamedHost [] "router1" (.bool true)).pxeHosts lists.pxeHosts := by
  have built : ∃ lists, renamedLists = .ok lists := ⟨_, rfl⟩
  obtain ⟨lists, built⟩ := built
  exact ⟨lists, built, (catalogLists_merged built).1⟩

/-- The two names of the machine are both in the list. -/
theorem hosts_described_twice : ∃ lists, renamedLists = .ok lists ∧
    ¬ DescribedOnce ["name", "networkid", "mac"] (mappings oldName)
      (generatedLists {} renamedHost [] "router1" (.bool true)).pxeHosts lists.pxeHosts := by
  refine ⟨_, rfl, ?_⟩
  intro once
  have lengths := congrArg List.length once
  exact absurd lengths (by decide)

end Renamed

end HomeclusterInfra.PxeCatalog
