import HomeclusterInfra.Library.PyValue
import HomeclusterInfra.Library.SharedSearch
import HomeclusterInfra.Library.Shell

/-!
# The targets of an inventory

`pi_k3s_inventory_targets.py` reads the groups of an inventory that
`ansible-inventory` printed and turns the one control host and the agents into ssh
targets. `group_hosts` follows the children of a group with one set of seen groups for
all its calls; it finds the hosts of every group below, whatever the groups share and
however they are nested. The recursion depth of the interpreter is a parameter.

A resolution lists the control host first and every host once, with its target, and no
two hosts have the same address.
-/

set_option autoImplicit false

namespace HomeclusterInfra.Convergence.Inventory

open Text Python Checked SharedSearch Shell

/-! ## Groups -/

/-- `string_list` -/
def stringList : Option Value → List String
  | some (.list items) =>
      items.foldl (fun result item =>
        match item with
        | .str text => if text ∈ result then result else result ++ [text]
        | _ => result) []
  | _ => []

/-- What `group_hosts` reads of a group. -/
def readGroup (inventory : Dict) : Store String String := fun group =>
  match inventory.get group with
  | some (.dict data) =>
      some (stringList (Mapping.get data "hosts"), stringList (Mapping.get data "children"))
  | _ => none

/-- `group_hosts`, none where the recursion is cut off. -/
def groupHosts (depth : Nat) (inventory : Dict) (group : String) : Option (List String) :=
  (SharedSearch.collect (readGroup inventory) depth [] group).map Prod.fst

/-! ## Targets -/

section Targets

variable [UnicodeData] (decimal : Char → Option Nat)

/-- `bounded` -/
def bounded (value : Value) (limit : Nat) : List Char :=
  ((strip value.text).filter (· ≠ '\x00')).take limit

/-- `hostvars` -/
def hostvars (inventory : Dict) : List (String × Dict) :=
  match inventory.get "_meta" with
  | some (.dict metadata) =>
      match Mapping.get metadata "hostvars" with
      | some (.dict raw) => raw.filterMap fun entry => entry.2.asMapping?.map (entry.1, ·)
      | _ => []
  | _ => []

/-- The digits of an integer, between which single underscores may stand. -/
def readDigits (text : List Char) : Option (List Nat) :=
  let pieces := text.splitOn '_'
  if pieces.all (!·.isEmpty) then pieces.flatten.mapM decimal else none

/-- The value of the digits of a text, where there are few enough. -/
def readNatural (text : List Char) : Option Int :=
  match readDigits decimal text with
  | some digits =>
      if digits.length ≤ 4300 then some (digits.foldl (fun value digit => 10 * value + digit) 0 : Nat)
      else none
  | none => none

/-- `int` of a value; none where it raises. -/
def intOf : Value → Option Int
  | .bool value => some (if value then 1 else 0)
  | .int value => some value
  | .float value => some (value.num.tdiv value.den)
  | .str text =>
      match strip text.toList with
      | '-' :: rest => (readNatural decimal rest).map (- ·)
      | '+' :: rest => readNatural decimal rest
      | rest => readNatural decimal rest
  | _ => none

/-- One of the first characters and up to `more` of the others. -/
def isWord (first others : Char → Bool) (more : Nat) : List Char → Bool
  | [] => false
  | char :: rest => first char && rest.all others && rest.length ≤ more

/-- `HOST_RE.fullmatch` -/
def isHost : List Char → Bool :=
  isWord Char.isAlphanum (fun char => char.isAlphanum || ['.', '_', '-'].contains char) 127

/-- `VALUE_RE.fullmatch` -/
def isAddress : List Char → Bool :=
  isWord Char.isAlphanum (fun char => char.isAlphanum || ['.', '_', ':', '%', '-'].contains char) 254

/-- `USER_RE.fullmatch` -/
def isUser : List Char → Bool :=
  isWord (fun char => char.isAlpha || char = '_')
    (fun char => char.isAlphanum || ['.', '_', '-'].contains char) 63

/-- `ssh_target`, or the reason why there is none. -/
def sshTarget (host : String) (values : Dict) : Except String (List Char) := do
  require (isHost host.toList) "invalid_inventory_hostname"
  let address := bounded ((values.get "ansible_host").getD (.str host)) 255
  let user := bounded ((values.get "ansible_user").getD (.str "ansible")) 64
  match intOf decimal ((values.get "ansible_port").getD (.int 22)) with
  | none => .error "invalid_ansible_port"
  | some port => do
      require (port = 22) "nonstandard_ansible_port_unsupported"
      require (isAddress address) "invalid_ansible_host"
      require (isUser user) "invalid_ansible_user"
      return user ++ '@' :: address

/-! ## The resolution -/

/-- `fallback_required` -/
structure Fallback where
  reason : String
  failedHost : Option (List Char)
deriving DecidableEq

/-- `resolved` -/
structure Resolved where
  inventoryPath : List Char
  controlGroup : List Char
  agentGroup : List Char
  controlHost : String
  controlSsh : List Char
  nodeHosts : List String
  nodeSshList : List (List Char)
  nodeTargetMap : Mapping (List Char)
  expectedNodes : Nat
deriving DecidableEq

/-- What the loop over the hosts fills. -/
structure Placed where
  targets : Mapping (List Char)
  addresses : Mapping String

/-- The part of a target behind the first `@`. -/
def addressOf (target : List Char) : String :=
  String.ofList (afterFirst '@' target)

/-- One round of the loop. -/
def place (hostVariables : List (String × Dict)) (placed : Placed) (host : String) :
    Except Fallback Placed := do
  let target ← (sshTarget decimal host ((hostVariables.lookup host).getD [])).mapError
    fun reason => ⟨reason, some (bounded (.str host) 128)⟩
  require ((placed.addresses.get (addressOf target)).all (· = host))
    ⟨"duplicate_ansible_host", some (bounded (.str host) 128)⟩
  return ⟨placed.targets.set host target, placed.addresses.set (addressOf target) host⟩

/-- What is done with the hosts of both groups. -/
def resolveHosts (inventory : Dict) (controlGroup agentGroup inventoryPath : String)
    (controls agents : List String) : Except Fallback Resolved := do
  require (!controls.isEmpty) ⟨"control_group_empty", none⟩
  require (controls.length = 1) ⟨"control_group_not_singleton", none⟩
  require (!(agents.isEmpty && !inventory.has agentGroup)) ⟨"agent_group_missing", none⟩
  let orderedHosts := addNew [] (controls ++ agents)
  let placed ← orderedHosts.foldlM (place decimal (hostvars inventory)) ⟨[], []⟩
  let controlHost := controls.headD ""
  let targetOf := fun host => (placed.targets.get host).getD []
  return {
    inventoryPath := bounded (.str inventoryPath) 300
    controlGroup := bounded (.str controlGroup) 128
    agentGroup := bounded (.str agentGroup) 128
    controlHost := controlHost
    controlSsh := targetOf controlHost
    nodeHosts := orderedHosts
    nodeSshList := orderedHosts.map targetOf
    nodeTargetMap := placed.targets
    expectedNodes := orderedHosts.length }

/-- `resolve_inventory`, none where the recursion is cut off. -/
def resolveInventory (depth : Nat) (inventory : Dict)
    (controlGroup agentGroup inventoryPath : String) : Option (Except Fallback Resolved) := do
  let controls ← groupHosts depth inventory controlGroup
  let agents ← groupHosts depth inventory agentGroup
  return resolveHosts decimal inventory controlGroup agentGroup inventoryPath controls agents

end Targets

/-! ## Hosts below a group -/

/-- A field of a group lists the name. -/
def Lists (inventory : Dict) (field group name : String) : Prop :=
  ∃ data items, inventory.get group = some (.dict data) ∧
    Mapping.get data field = some (.list items) ∧ .str name ∈ items

/-- The host is in the group or in one below it. -/
def Reaches (inventory : Dict) (root host : String) : Prop :=
  ∃ group, Relation.ReflTransGen (Lists inventory "children") root group ∧
    Lists inventory "hosts" group host

variable {inventory : Dict} {group host : String}

/-- The text of an item, where it is one. -/
def textOf : Value → Option String
  | .str text => some text
  | _ => none

theorem textOf_eq_some {value : Value} {text : String} :
    textOf value = some text ↔ value = .str text := by
  cases value <;> simp [textOf]

theorem stringList_eq (items : List Value) :
    stringList (some (.list items)) = addNew [] (items.filterMap textOf) := by
  have loop : ∀ found : List String, items.foldl (fun result item =>
      match item with
      | .str text => if text ∈ result then result else result ++ [text]
      | _ => result) found = addNew found (items.filterMap textOf) := by
    induction items with
    | nil => exact fun _ => rfl
    | cons item items ih =>
        intro found
        cases item with
        | str text => exact ih _
        | _ => exact ih found
  exact loop []

theorem stringList_nodup (value : Option Value) : (stringList value).Nodup := by
  unfold stringList
  split
  next items =>
    have distinct : (addNew [] (items.filterMap textOf)).Nodup := addNew_nodup List.nodup_nil
    rw [← stringList_eq] at distinct
    exact distinct
  next => exact List.nodup_nil

theorem mem_stringList {value : Option Value} {name : String} :
    name ∈ stringList value ↔ ∃ items, value = some (.list items) ∧ .str name ∈ items := by
  constructor
  · intro member
    unfold stringList at member
    split at member
    next items =>
      have listed : name ∈ addNew [] (items.filterMap textOf) := stringList_eq items ▸ member
      obtain ⟨item, among, is⟩ := List.mem_filterMap.mp ((mem_addNew.mp listed).resolve_left
        List.not_mem_nil)
      rw [textOf_eq_some.mp is] at among
      exact ⟨items, rfl, among⟩
    next => cases member
  · rintro ⟨items, rfl, among⟩
    rw [stringList_eq, mem_addNew]
    exact Or.inr (List.mem_filterMap.mpr ⟨_, among, rfl⟩)

theorem readGroup_eq_some {own children : List String} :
    readGroup inventory group = some (own, children) ↔
      ∃ data, inventory.get group = some (.dict data) ∧
        own = stringList (Mapping.get data "hosts") ∧
        children = stringList (Mapping.get data "children") := by
  constructor
  · intro read
    unfold readGroup at read
    split at read
    next data here =>
      cases read
      exact ⟨data, here, rfl, rfl⟩
    next => cases read
  · rintro ⟨data, here, rfl, rfl⟩
    rw [readGroup, here]

/-- The traversal follows the children of the groups. -/
theorem child_readGroup : Child (readGroup inventory) = Lists inventory "children" := by
  funext parent child
  apply propext
  constructor
  · rintro ⟨own, children, read, listed⟩
    obtain ⟨data, here, -, rfl⟩ := readGroup_eq_some.mp read
    obtain ⟨items, found, among⟩ := mem_stringList.mp listed
    exact ⟨data, items, here, found, among⟩
  · rintro ⟨data, items, here, found, among⟩
    exact ⟨_, _, readGroup_eq_some.mpr ⟨data, here, rfl, rfl⟩,
      mem_stringList.mpr ⟨items, found, among⟩⟩

/-- It collects their hosts. -/
theorem stores_readGroup : Stores (readGroup inventory) = Lists inventory "hosts" := by
  funext group host
  apply propext
  constructor
  · rintro ⟨own, children, read, listed⟩
    obtain ⟨data, here, rfl, -⟩ := readGroup_eq_some.mp read
    obtain ⟨items, found, among⟩ := mem_stringList.mp listed
    exact ⟨data, items, here, found, among⟩
  · rintro ⟨data, items, here, found, among⟩
    exact ⟨_, _, readGroup_eq_some.mpr ⟨data, here, rfl, rfl⟩,
      mem_stringList.mpr ⟨items, found, among⟩⟩

theorem once_readGroup (inventory : Dict) (group : String) (own children : List String)
    (read : readGroup inventory group = some (own, children)) : own.Nodup := by
  obtain ⟨data, -, rfl, -⟩ := readGroup_eq_some.mp read
  exact stringList_nodup _

/-- Only the groups of the inventory store anything. -/
theorem within_readGroup :
    Within (readGroup inventory) (inventory.map Prod.fst).toFinset := by
  intro group stored
  obtain ⟨⟨own, children⟩, read⟩ := Option.isSome_iff_exists.mp stored
  obtain ⟨data, here, -⟩ := readGroup_eq_some.mp read
  exact List.mem_toFinset.mpr (List.mem_map_of_mem (Mapping.mem_of_get here))

/-- What a call that ends returns. -/
theorem groupHosts_eq_some {depth : Nat} {hosts : List String}
    (ends : groupHosts depth inventory group = some hosts) :
    hosts.Nodup ∧ ∀ host, host ∈ hosts ↔ Reaches inventory group host := by
  obtain ⟨⟨found, after⟩, collected, rfl⟩ := Option.map_eq_some_iff.mp ends
  refine ⟨(collect_collects (once_readGroup inventory) collected).distinct, fun host => ?_⟩
  rw [mem_collect_iff (once_readGroup inventory) collected, child_readGroup, stores_readGroup]
  rfl

/-- **The hosts of a group are found**, each once, within as many steps as there are
groups. -/
theorem groupHosts_ends (inventory : Dict) (group : String) : ∃ hosts : List String,
    (∀ depth, inventory.length < depth → groupHosts depth inventory group = some hosts) ∧
      hosts.Nodup ∧ ∀ host, host ∈ hosts ↔ Reaches inventory group host := by
  have few : ((inventory.map Prod.fst).toFinset.filter (· ∉ ([] : List String))).card ≤
      inventory.length :=
    calc ((inventory.map Prod.fst).toFinset.filter (· ∉ ([] : List String))).card
        ≤ (inventory.map Prod.fst).toFinset.card := Finset.card_filter_le _ _
      _ ≤ (inventory.map Prod.fst).length := List.toFinset_card_le _
      _ = inventory.length := List.length_map _
  obtain ⟨⟨hosts, after⟩, collected⟩ :=
    @collect_ends _ _ _ _ _ _ group _ within_readGroup (once_readGroup inventory) _ few
  have ends : ∀ depth, inventory.length < depth →
      groupHosts depth inventory group = some hosts := by
    intro depth deep
    rw [groupHosts, collected depth deep]
    rfl
  exact ⟨hosts, ends, groupHosts_eq_some (ends (inventory.length + 1) (Nat.lt_succ_self _))⟩

/-- Two groups that share a child and lead back to the first. -/
example :
    let names := fun names : List String => Value.list (names.map .str)
    groupHosts 4 [("a", .dict [("children", names ["b", "c"])]),
      ("b", .dict [("hosts", names ["x"]), ("children", names ["d", "a"])]),
      ("c", .dict [("hosts", names ["y", "x"]), ("children", names ["d"])]),
      ("d", .dict [("hosts", names ["z"])])] "a" = some ["x", "z", "y"] := by
  rfl

/-! ## What a resolution says -/

theorem not_at_of_isWord {first others : Char → Bool} {more : Nat} {text : List Char}
    (notFirst : first '@' = false) (notOther : others '@' = false)
    (word : isWord first others more text = true) : '@' ∉ text := by
  cases text with
  | nil => exact List.not_mem_nil
  | cons char rest =>
      rw [isWord, Bool.and_eq_true, Bool.and_eq_true, List.all_eq_true] at word
      intro member
      rcases List.mem_cons.mp member with rfl | later
      · rw [notFirst] at word
        cases word.1.1
      · have here := word.1.2 '@' later
        rw [notOther] at here
        cases here

theorem set_of_notMem {targets : Mapping (List Char)} (fresh : host ∉ targets.map Prod.fst)
    (target : List Char) : targets.set host target = targets ++ [(host, target)] := by
  induction targets with
  | nil => rfl
  | cons entry targets ih =>
      obtain ⟨name, value⟩ := entry
      rw [List.map_cons, List.mem_cons, not_or] at fresh
      rw [Mapping.set, if_neg (Ne.symm fresh.1), ih fresh.2]
      rfl

section Resolution

variable [UnicodeData] {decimal : Char → Option Nat}

/-- **A target is a user and an address.** -/
theorem sshTarget_eq_ok {values : Dict} {target : List Char}
    (found : sshTarget decimal host values = .ok target) :
    ∃ user address, isUser user = true ∧ isAddress address = true ∧
      target = user ++ '@' :: address ∧ addressOf target = String.ofList address := by
  obtain ⟨-, found⟩ := require_bind_eq_ok.mp found
  split at found
  next => cases found
  next =>
    obtain ⟨-, found⟩ := require_bind_eq_ok.mp found
    obtain ⟨address, found⟩ := require_bind_eq_ok.mp found
    obtain ⟨user, found⟩ := require_bind_eq_ok.mp found
    rw [pure_eq_ok] at found
    have noAt := not_at_of_isWord (by rfl) (by rfl) user
    exact ⟨_, _, user, address, found.symm, by rw [← found, addressOf, afterFirst_append noAt]⟩

/-- The loop has gone through some hosts. -/
structure Places (decimal : Char → Option Nat) (hostVariables : List (String × Dict))
    (hosts : List String) (placed : Placed) : Prop where
  keys : placed.targets.map Prod.fst = hosts
  remembered : ∀ host ∈ hosts, ∃ target,
    sshTarget decimal host ((hostVariables.lookup host).getD []) = .ok target ∧
      placed.targets.get host = some target ∧
      placed.addresses.get (addressOf target) = some host

theorem place_eq_ok {hostVariables : List (String × Dict)} {placed next : Placed} :
    place decimal hostVariables placed host = .ok next ↔ ∃ target,
      sshTarget decimal host ((hostVariables.lookup host).getD []) = .ok target ∧
        (∀ previous, placed.addresses.get (addressOf target) = some previous →
          previous = host) ∧
        next = ⟨placed.targets.set host target, placed.addresses.set (addressOf target) host⟩ := by
  have raised : ∀ (outcome : Except String (List Char)) target,
      (outcome.mapError fun reason =>
        (⟨reason, some (bounded (.str host) 128)⟩ : Fallback)) = .ok target ↔
        outcome = .ok target := by
    intro outcome target
    cases outcome <;> simp [Except.mapError]
  simp only [Inventory.place, bind_eq_ok, raised, require_eq_ok, pure_eq_ok]
  constructor
  · rintro ⟨target, found, -, unshared, rfl⟩
    refine ⟨target, found, fun previous before => ?_, rfl⟩
    rw [before] at unshared
    exact of_decide_eq_true unshared
  · rintro ⟨target, found, unshared, rfl⟩
    refine ⟨target, found, ⟨⟩, ?_, rfl⟩
    rcases before : placed.addresses.get (addressOf target) with - | previous
    · rfl
    · exact decide_eq_true (unshared previous before)

/-- One host. -/
theorem Places.place {hostVariables : List (String × Dict)} {hosts : List String}
    {placed next : Placed} (places : Places decimal hostVariables hosts placed)
    (fresh : host ∉ hosts) (placing : place decimal hostVariables placed host = .ok next) :
    Places decimal hostVariables (hosts ++ [host]) next := by
  obtain ⟨target, found, unshared, rfl⟩ := place_eq_ok.mp placing
  constructor
  case keys =>
    show (placed.targets.set host target).map Prod.fst = hosts ++ [host]
    rw [set_of_notMem (places.keys ▸ fresh), List.map_append, places.keys]
    rfl
  case remembered =>
    intro other member
    rcases List.mem_append.mp member with before | last
    · obtain ⟨earlier, foundEarlier, kept, address⟩ := places.remembered other before
      have apart : host ≠ other := by
        rintro rfl
        exact fresh before
      refine ⟨earlier, foundEarlier, (Mapping.get_set_of_ne _ _ apart).trans kept, ?_⟩
      rw [Mapping.get_set]
      split
      next same =>
        rw [← same] at address
        exact absurd (unshared other address).symm apart
      next => exact address
    · obtain rfl := List.mem_singleton.mp last
      exact ⟨target, found, Mapping.get_set_self .., Mapping.get_set_self ..⟩

theorem places_foldlM {hostVariables : List (String × Dict)} {hosts : List String}
    {placed : Placed} (distinct : hosts.Nodup)
    (filled : hosts.foldlM (place decimal hostVariables) ⟨[], []⟩ = .ok placed) :
    Places decimal hostVariables hosts placed := by
  have run := foldlM_invariant
    (fun consumed placed => consumed.Nodup → Places decimal hostVariables consumed placed)
    (fun consumed state element next places placing distinct => by
      rw [List.nodup_append] at distinct
      exact (places distinct.1).place
        (fun member => distinct.2.2 element member element List.mem_cons_self rfl) placing)
    hosts [] ⟨[], []⟩ placed
    (fun _ => ⟨rfl, fun _ none_yet => absurd none_yet List.not_mem_nil⟩) filled
  exact run distinct

/-- What holds when the hosts of both groups are resolved. -/
theorem resolveHosts_eq_ok {controlGroup agentGroup inventoryPath : String}
    {controls agents : List String} {resolved : Resolved}
    (found : resolveHosts decimal inventory controlGroup agentGroup inventoryPath controls agents =
      .ok resolved) :
    ∃ control placed, controls = [control] ∧ resolved.controlHost = control ∧
      resolved.nodeHosts = addNew [] (controls ++ agents) ∧
      Places decimal (hostvars inventory) resolved.nodeHosts placed ∧
      resolved.nodeTargetMap = placed.targets ∧
      resolved.nodeSshList = resolved.nodeHosts.map (fun host => (placed.targets.get host).getD []) ∧
      resolved.expectedNodes = resolved.nodeHosts.length := by
  simp only [resolveHosts, bind_eq_ok, require_eq_ok, pure_eq_ok, decide_eq_true_eq] at found
  obtain ⟨-, -, -, single, -, -, placed, filled, rfl⟩ := found
  obtain ⟨control, rfl⟩ := List.length_eq_one_iff.mp single
  exact ⟨control, placed, rfl, rfl, rfl, places_foldlM (addNew_nodup List.nodup_nil) filled, rfl,
    rfl, rfl⟩

/-- **The resolver finds the hosts of a group, and resolves them as it says.** -/
theorem resolver_correct (decimal : Char → Option Nat) (inventory : Dict) :
    (∀ group, ∃ hosts : List String,
      (∀ depth, inventory.length < depth → groupHosts depth inventory group = some hosts) ∧
        hosts.Nodup ∧ ∀ host, host ∈ hosts ↔ Reaches inventory group host) ∧
      ∀ depth controlGroup agentGroup inventoryPath resolved,
        resolveInventory decimal depth inventory controlGroup agentGroup inventoryPath =
            some (.ok resolved) →
          ∃ rest, resolved.nodeHosts = resolved.controlHost :: rest ∧
            (∀ host, Reaches inventory controlGroup host ↔ host = resolved.controlHost) ∧
            resolved.nodeHosts.Nodup ∧
            (∀ host, host ∈ resolved.nodeHosts ↔
              Reaches inventory controlGroup host ∨ Reaches inventory agentGroup host) ∧
            resolved.nodeTargetMap.map Prod.fst = resolved.nodeHosts ∧
            resolved.nodeSshList.map some = resolved.nodeHosts.map resolved.nodeTargetMap.get ∧
            resolved.expectedNodes = resolved.nodeHosts.length ∧
            (∀ target ∈ resolved.nodeSshList, ∃ user address, isUser user = true ∧
              isAddress address = true ∧ target = user ++ '@' :: address ∧
              addressOf target = String.ofList address) ∧
            (resolved.nodeSshList.map addressOf).Nodup := by
  refine ⟨groupHosts_ends inventory, ?_⟩
  intro depth controlGroup agentGroup inventoryPath resolved found
  obtain ⟨controls, foundControls, found⟩ := Option.bind_eq_some_iff.mp found
  obtain ⟨agents, foundAgents, found⟩ := Option.bind_eq_some_iff.mp found
  obtain ⟨-, inControls⟩ := groupHosts_eq_some foundControls
  obtain ⟨-, inAgents⟩ := groupHosts_eq_some foundAgents
  obtain ⟨control, placed, rfl, rfl, hosts, places, targets, sshList, number⟩ :=
    resolveHosts_eq_ok (Option.some.inj found)
  obtain ⟨rest, front⟩ := addNew_eq_append [resolved.controlHost] agents
  have targetOf : ∀ host ∈ resolved.nodeHosts, ∃ target,
      sshTarget decimal host (((hostvars inventory).lookup host).getD []) = .ok target ∧
        placed.targets.get host = some target ∧ (placed.targets.get host).getD [] = target ∧
        placed.addresses.get (addressOf target) = some host := by
    intro host member
    obtain ⟨target, is, kept, address⟩ := places.remembered host member
    exact ⟨target, is, kept, by rw [kept]; rfl, address⟩
  refine ⟨rest, hosts.trans front, fun host => ?_, ?_, fun host => ?_, ?_, ?_, number, ?_, ?_⟩
  · rw [← inControls, List.mem_singleton]
  · rw [hosts]
    exact addNew_nodup List.nodup_nil
  · rw [hosts, mem_addNew, List.mem_append, inControls, inAgents]
    exact ⟨fun either => either.resolve_left List.not_mem_nil, Or.inr⟩
  · rw [targets, places.keys]
  · rw [sshList, targets, List.map_map]
    refine List.map_congr_left fun host member => ?_
    obtain ⟨target, -, kept, is, -⟩ := targetOf host member
    show some ((placed.targets.get host).getD []) = _
    rw [is, kept]
  · rw [sshList]
    intro target member
    obtain ⟨host, among, rfl⟩ := List.mem_map.mp member
    obtain ⟨target, is, -, same, -⟩ := targetOf host among
    rw [same]
    exact sshTarget_eq_ok is
  · rw [sshList, List.map_map]
    refine List.Nodup.map_on ?_ (hosts ▸ addNew_nodup List.nodup_nil)
    intro first one second other same
    obtain ⟨target, -, -, is, address⟩ := targetOf first one
    obtain ⟨target', -, -, is', address'⟩ := targetOf second other
    simp only [Function.comp, is, is'] at same
    rw [same, address'] at address
    exact (Option.some.inj address).symm

end Resolution

/-- A control host, which a rack of the agents lists again, and one more host. -/
def sampleInventory : Dict :=
  [("server", .dict [("hosts", .list [.str "cp1"])]),
    ("agents", .dict [("children", .list [.str "rack"])]),
    ("rack", .dict [("hosts", .list [.str "node1", .str "cp1"]),
      ("children", .list [.str "agents"])]),
    ("_meta", .dict [("hostvars", .dict [("cp1", .dict [("ansible_host", .str "10.0.0.1")]),
      ("node1", .dict [("ansible_host", .str "10.0.0.2"), ("ansible_user", .str "root")])])])]

def sampleResolved : Resolved where
  inventoryPath := "hosts.yml".toList
  controlGroup := "server".toList
  agentGroup := "agents".toList
  controlHost := "cp1"
  controlSsh := "ansible@10.0.0.1".toList
  nodeHosts := ["cp1", "node1"]
  nodeSshList := ["ansible@10.0.0.1".toList, "root@10.0.0.2".toList]
  nodeTargetMap := [("cp1", "ansible@10.0.0.1".toList), ("node1", "root@10.0.0.2".toList)]
  expectedNodes := 2

theorem resolver_correct_sample :
    @resolveInventory asciiData (fun _ => none) 5 sampleInventory "server" "agents" "hosts.yml" =
        some (.ok sampleResolved) ∧
      (∀ host, Reaches sampleInventory "server" host ↔ host = "cp1") ∧
        ∀ host, host ∈ ["cp1", "node1"] ↔
          Reaches sampleInventory "server" host ∨ Reaches sampleInventory "agents" host := by
  have found : @resolveInventory asciiData (fun _ => none) 5 sampleInventory "server" "agents"
      "hosts.yml" = some (.ok sampleResolved) := by
    decide +kernel
  obtain ⟨_, _, control, -, members, -⟩ := (@resolver_correct asciiData (fun _ => none)
    sampleInventory).2 5 "server" "agents" "hosts.yml" sampleResolved found
  exact ⟨found, control, members⟩

end HomeclusterInfra.Convergence.Inventory
