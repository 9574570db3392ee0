import Mathlib.Data.List.Dedup
import HomeclusterInfra.Library.PathSearch
import HomeclusterInfra.Rollout.Main

/-!
# The staging fleet

`staging_fleet` decides which hosts a staging action may touch: the one server
of the staging cluster and its three agents, all of them below the group
`env_stg` of the inventory and none below `env_prod`.

The groups of an inventory are what `ansible-inventory` printed, so nothing is
promised about them: groups may be missing, may share children, may be their own
descendants or may hold something else than a list. The recursion depth of the
interpreter is a parameter here.
-/

set_option autoImplicit false

namespace HomeclusterInfra.Rollout

open Text Python Checked PathSearch

/-! ## The groups of an inventory -/

/-- `for … in value` -/
def iterate : Value → Except Raised (List Value)
  | .list items => .ok items
  | .str text => .ok (text.toList.map fun char => .str (String.ofList [char]))
  | .dict fields => .ok (fields.map fun field => .str field.1)
  | _ => .error .other

/-- A child as a key of the inventory. A list or an object cannot be a key, and
a number names no group. -/
def groupKey : Value → Option (Except Raised String)
  | .str name => some (.ok name)
  | .list _ | .dict _ => some (.error .other)
  | _ => none

/-- The hosts of a group, and its children. -/
def expandGroup (inventory : Dict) : Expansion String String Raised := fun group =>
  match inventory.get group with
  | none => .ok ([], [])
  | some (.dict item) => do
      let children ← iterate ((Mapping.get item "children").getD (.list []))
      return (groupHosts inventory group, children.filterMap groupKey)
  | some _ => .error (blocked "inventory_group_invalid")

/-- `members` -/
def members (depth : Nat) (inventory : Dict) (group : String) :
    Except (Option Raised) (List String) :=
  gather (expandGroup inventory) (blocked "inventory_group_cycle") depth [] group

/-- `staging_fleet` -/
def stagingFleet (depth : Nat) (inventory : Dict) (agents : List String) :
    Except (Option Raised) (List String) := do
  let invalid := some (blocked "staging_fleet_target_contract_invalid")
  let servers := groupHosts inventory "k3s_stg_server"
  let fleet := (servers ++ agents).dedup
  require (servers.length == 1 && agents.length == 3 && fleet.length == 4) invalid
  let staging ← members depth inventory "env_stg"
  require (fleet.all staging.contains) invalid
  let production ← members depth inventory "env_prod"
  require (!fleet.any production.contains) invalid
  return servers ++ sortedNames agents

/-! ## Hosts below a group -/

/-- The children of one group name the other. -/
def ChildOf (inventory : Dict) (parent child : String) : Prop :=
  ∃ item children, inventory.get parent = some (.dict item) ∧
    iterate ((Mapping.get item "children").getD (.list [])) = .ok children ∧
    .str child ∈ children

/-- The host is in the group or in one below it. -/
def Reaches (inventory : Dict) (root host : String) : Prop :=
  ∃ group, Relation.ReflTransGen (ChildOf inventory) root group ∧
    host ∈ groupHosts inventory group

/-- The group is below itself or above a group that is. -/
def LeadsToCycle (inventory : Dict) (root : String) : Prop :=
  ∃ group, Relation.ReflTransGen (ChildOf inventory) root group ∧
    Relation.TransGen (ChildOf inventory) group group

theorem groupKey_eq_some {value : Value} {name : String} :
    groupKey value = some (.ok name) ↔ value = .str name := by
  cases value <;> simp [groupKey]

variable {inventory : Dict} {depth : Nat} {group root host : String} {hosts agents : List String}

/-- What a group that can be read holds. -/
theorem expandGroup_eq_ok {own : List String} {children : List (Except Raised String)} :
    expandGroup inventory group = .ok (own, children) ↔
      own = groupHosts inventory group ∧
        ((inventory.get group = none ∧ children = []) ∨
          ∃ item items, inventory.get group = some (.dict item) ∧
            iterate ((Mapping.get item "children").getD (.list [])) = .ok items ∧
            children = items.filterMap groupKey) := by
  unfold expandGroup
  split
  next missing =>
    have hostless : groupHosts inventory group = [] := by
      unfold groupHosts
      rw [missing]
    rw [hostless, missing]
    constructor
    · rintro ⟨⟩
      exact ⟨rfl, .inl ⟨rfl, rfl⟩⟩
    · rintro ⟨rfl, ⟨-, rfl⟩ | ⟨_, _, none_there, -⟩⟩
      · rfl
      · cases none_there
  next item found =>
    rw [found]
    simp only [bind_eq_ok, pure_eq_ok, Prod.mk.injEq]
    constructor
    · rintro ⟨items, read, rfl, rfl⟩
      exact ⟨rfl, .inr ⟨item, items, rfl, read, rfl⟩⟩
    · rintro ⟨rfl, ⟨missing, -⟩ | ⟨other, items, same, read, rfl⟩⟩
      · cases missing
      · cases same
        exact ⟨items, read, rfl, rfl⟩
  next other apart found =>
    rw [found]
    constructor
    · rintro ⟨⟩
    · rintro ⟨-, ⟨missing, -⟩ | ⟨item, _, same, -⟩⟩
      · cases missing
      · exact absurd (Option.some.inj same) (apart item)

/-- The traversal follows the children that name groups. -/
theorem child_expandGroup : Child (expandGroup inventory) = ChildOf inventory := by
  funext parent child
  apply propext
  constructor
  · rintro ⟨own, children, expanded, listed⟩
    obtain ⟨-, ⟨-, rfl⟩ | ⟨item, items, found, read, rfl⟩⟩ := expandGroup_eq_ok.mp expanded
    · cases listed
    · obtain ⟨value, among, named⟩ := List.mem_filterMap.mp listed
      rw [groupKey_eq_some.mp named] at among
      exact ⟨item, items, found, read, among⟩
  · rintro ⟨item, items, found, read, among⟩
    exact ⟨_, _, expandGroup_eq_ok.mpr ⟨rfl, .inr ⟨item, items, found, read, rfl⟩⟩,
      List.mem_filterMap.mpr ⟨_, among, rfl⟩⟩

/-- **The members of a group are the hosts below it.** -/
theorem mem_members_iff (done : members depth inventory group = .ok hosts) :
    host ∈ hosts ↔ Reaches inventory group host := by
  rw [mem_gather_iff done]
  unfold Holds Reaches
  rw [child_expandGroup]
  constructor
  · rintro ⟨last, own, children, reach, expanded, stored⟩
    rw [(expandGroup_eq_ok.mp expanded).1] at stored
    exact ⟨last, reach, stored⟩
  · rintro ⟨last, reach, stored⟩
    obtain ⟨own, children, expanded⟩ := expands_of_gather done (child_expandGroup ▸ reach)
    exact ⟨last, own, children, reach, expanded, (expandGroup_eq_ok.mp expanded).1 ▸ stored⟩

theorem not_leadsToCycle_of_members (done : members depth inventory group = .ok hosts) :
    ¬ LeadsToCycle inventory group := by
  have acyclic := not_cyclic_of_gather done
  unfold Cyclic at acyclic
  rw [child_expandGroup] at acyclic
  exact acyclic

/-- Only the groups of the inventory have children. -/
theorem inner_expandGroup :
    Inner (expandGroup inventory) (inventory.map Prod.fst).toFinset := by
  intro group own children expanded some_child
  obtain ⟨-, ⟨-, none_there⟩ | ⟨item, items, found, -⟩⟩ := expandGroup_eq_ok.mp expanded
  · exact absurd none_there some_child
  · exact List.mem_toFinset.mpr (List.mem_map_of_mem (Mapping.mem_of_get found))

/-- **The members of a group are found** within as many steps as there are groups. -/
theorem members_ends : ∃ outcome, outcome ≠ .error none ∧
    ∀ depth, inventory.length < depth → members depth inventory group = outcome := by
  apply gather_ends inner_expandGroup
  calc ((inventory.map Prod.fst).toFinset.filter (· ∉ [])).card
      ≤ (inventory.map Prod.fst).toFinset.card := Finset.card_filter_le _ _
    _ ≤ (inventory.map Prod.fst).length := List.toFinset_card_le _
    _ = inventory.length := List.length_map _

/-! ## The fleet -/

theorem sortedNames_perm (names : List String) : (sortedNames names).Perm names :=
  List.perm_insertionSort _ names

/-- The two steps that can be cut off end, so the whole does. -/
theorem stagingFleet_ne_cut
    (staging : members depth inventory "env_stg" ≠ .error none)
    (production : members depth inventory "env_prod" ≠ .error none) :
    stagingFleet depth inventory agents ≠ .error none := by
  intro cut
  unfold stagingFleet at cut
  simp only [bind_eq_error, require_eq_error, reduceCtorEq, and_false, false_or] at cut
  obtain ⟨_, -, failed | ⟨_, -, _, -, failed | ⟨_, -, _, -, failed⟩⟩⟩ := cut
  · exact staging failed
  · exact production failed
  · cases failed

/-- **The fleet is found** within as many steps as there are groups. -/
theorem stagingFleet_ends (inventory : Dict) (agents : List String) :
    ∃ outcome, outcome ≠ .error none ∧
      ∀ depth, inventory.length < depth → stagingFleet depth inventory agents = outcome := by
  obtain ⟨staging, staging_ends, same_staging⟩ := @members_ends inventory "env_stg"
  obtain ⟨production, production_ends, same_production⟩ := @members_ends inventory "env_prod"
  refine ⟨stagingFleet (inventory.length + 1) inventory agents, ?_, ?_⟩
  · apply stagingFleet_ne_cut
    · rw [same_staging _ (Nat.lt_succ_self _)]
      exact staging_ends
    · rw [same_production _ (Nat.lt_succ_self _)]
      exact production_ends
  · intro depth deep
    unfold stagingFleet
    rw [same_staging depth deep, same_production depth deep,
      same_staging _ (Nat.lt_succ_self _), same_production _ (Nat.lt_succ_self _)]

/-- What holds of a fleet that was found. -/
theorem stagingFleet_eq_ok (found : stagingFleet depth inventory agents = .ok hosts) :
    ∃ server staging production, groupHosts inventory "k3s_stg_server" = [server] ∧
      agents.length = 3 ∧ (server :: agents).dedup.length = 4 ∧
      members depth inventory "env_stg" = .ok staging ∧
      (∀ host ∈ server :: agents, host ∈ staging) ∧
      members depth inventory "env_prod" = .ok production ∧
      (∀ host ∈ server :: agents, host ∉ production) ∧
      hosts = server :: sortedNames agents := by
  unfold stagingFleet at found
  simp only [bind_eq_ok, pure_eq_ok, require_eq_ok, Bool.and_eq_true, beq_iff_eq, List.all_eq_true,
    Bool.not_eq_true', List.any_eq_false, List.contains_iff_mem, List.mem_dedup] at found
  obtain ⟨-, ⟨⟨one_server, three⟩, four⟩, staging, in_staging, -, all_in, production,
    in_production, -, none_in, rfl⟩ := found
  obtain ⟨server, only⟩ := List.length_eq_one_iff.mp one_server
  rw [only] at four all_in none_in
  rw [only]
  exact ⟨server, staging, production, rfl, three, four, in_staging, all_in, in_production,
    none_in, rfl⟩

theorem nodup_of_dedup_length {names : List String}
    (same : names.dedup.length = names.length) : names.Nodup := by
  rw [← (List.dedup_sublist names).eq_of_length same]
  exact List.nodup_dedup names

/-- **The staging fleet is found on every inventory, and no production host is in it.**
The fleet is the one server and after it the three agents in their order, four
hosts below `env_stg` and none below `env_prod`. Where one of these groups leads
to a cycle there is no fleet. -/
theorem stagingFleet_is_staging (inventory : Dict) (agents : List String) :
    ∃ outcome : Except Raised (List String),
      (∀ depth, inventory.length < depth →
        stagingFleet depth inventory agents = outcome.mapError some) ∧
      (∀ fleet, outcome = .ok fleet → ∃ server sorted,
        groupHosts inventory "k3s_stg_server" = [server] ∧ fleet = server :: sorted ∧
        sorted.Perm agents ∧ sorted.Pairwise (· ≤ ·) ∧ fleet.length = 4 ∧ fleet.Nodup ∧
        ∀ host ∈ fleet, Reaches inventory "env_stg" host ∧
          ¬ Reaches inventory "env_prod" host) ∧
      (LeadsToCycle inventory "env_stg" ∨ LeadsToCycle inventory "env_prod" →
        ∃ raised, outcome = .error raised) := by
  obtain ⟨result, ends, same⟩ := stagingFleet_ends inventory agents
  have found := same (inventory.length + 1) (Nat.lt_succ_self _)
  cases result with
  | error failure =>
      cases failure with
      | none => exact absurd rfl ends
      | some raised =>
          refine ⟨.error raised, same, ?_, fun _ => ⟨raised, rfl⟩⟩
          rintro fleet ⟨⟩
  | ok fleet =>
      obtain ⟨server, staging, production, only, three, four, in_staging, all_in, in_production,
        none_in, rfl⟩ := stagingFleet_eq_ok found
      refine ⟨.ok (server :: sortedNames agents), same, ?_, ?_⟩
      · rintro fleet ⟨⟩
        have perm : (server :: sortedNames agents).Perm (server :: agents) :=
          (sortedNames_perm agents).cons server
        have distinct : (server :: agents).Nodup := by
          apply nodup_of_dedup_length
          rw [four, List.length_cons, three]
        refine ⟨server, sortedNames agents, only, rfl, sortedNames_perm agents,
          List.pairwise_insertionSort _ _, ?_, perm.nodup_iff.mpr distinct, ?_⟩
        · rw [perm.length_eq, List.length_cons, three]
        · intro host among
          have listed := perm.mem_iff.mp among
          exact ⟨(mem_members_iff in_staging).mp (all_in host listed),
            fun reached => none_in host listed ((mem_members_iff in_production).mpr reached)⟩
      · rintro (cycle | cycle)
        · exact absurd cycle (not_leadsToCycle_of_members in_staging)
        · exact absurd cycle (not_leadsToCycle_of_members in_production)

/-- The fleet of a small inventory, and the same inventory with a cycle in it. -/
example :
    let hosts := fun names : List String => Value.dict [("hosts", .list (names.map .str))]
    let groups := fun names : List String => Value.dict [("children", .list (names.map .str))]
    let clusters : Dict := [("env_stg", groups ["k3s_stg_server", "k3s_stg_agents"]),
      ("k3s_stg_server", hosts ["pi4"]), ("k3s_stg_agents", hosts ["a", "b", "c"])]
    stagingFleet 9 clusters ["b", "c", "a"] = .ok ["pi4", "a", "b", "c"] ∧
      stagingFleet 9 (("env_prod", groups ["env_prod"]) :: clusters) ["a", "b", "c"] =
        .error (some (blocked "inventory_group_cycle")) :=
  ⟨by rfl, by rfl⟩

end HomeclusterInfra.Rollout
