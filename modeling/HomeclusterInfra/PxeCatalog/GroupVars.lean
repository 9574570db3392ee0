import HomeclusterInfra.Library.Nested
import HomeclusterInfra.Library.PyEquality
import HomeclusterInfra.PxeCatalog.Catalog

/-!
# Merging group variables

`_merge_nested_mapping` merges the group variables of the clients one after the
other, and the result into the legacy variables. What was there first stays, and
the paths where something else was added are reported.

It turns the keys of the overlay into texts before it looks them up. For mappings
whose keys are texts no leaf of the base is lost, and none of the overlay unless
a leaf of the base stands on its way; a conflict is reported exactly where the two
disagree. Without a conflict the order of the clients does not matter
(`group_vars_merge`).

The values of an inventory are trees here: no two clients hold the same object.
-/

set_option autoImplicit false

namespace HomeclusterInfra.PxeCatalog

open Text Checked Python Nested
open Value (asMapping? equal Distinct)

/-! ## Keys of any kind -/

/-- A key of a mapping, a text or an integer. -/
inductive Key where
  | str (text : String)
  | int (value : Int)
  deriving DecidableEq

/-- The text of a key. -/
def Key.name : Key → String
  | .str text => text
  | .int value => String.ofList (JsonText.intText value)

/-- `str(key)` -/
def Key.text (key : Key) : Key :=
  .str key.name

/-- A nested mapping with such keys. Its leaves are values that are no mappings. -/
abbrev Tree := Nested Key Value

/-- `_merge_nested_mapping` with keys of any kind, and the paths of its conflicts. -/
def mergeTrees (base overlay : List (Key × Tree)) : List (Key × Tree) × List (List Key) :=
  mergeFields Key.text [] base overlay

mutual
/-- A value as a tree. -/
def tree : Value → Tree
  | .dict fields => .mapping (treeFields fields)
  | value => .leaf value

def treeFields : List (String × Value) → List (Key × Tree)
  | [] => []
  | (key, value) :: fields => (.str key, tree value) :: treeFields fields
end

/-- The conflicts that `_merge_nested_mapping` reports, each its path in one text. -/
def mergeConflicts (base overlay : Vars) : List String :=
  (mergeTrees (treeFields base) (treeFields overlay)).2.map fun path =>
    ".".intercalate (path.map Key.name)

section Catalog

variable [UnicodeData]

/-- The clients of a router among some hosts, in the order of the hosts. -/
def clientsAmong (hostvars : Vars) (routerName : String) (hosts : List String) :
    List (String × Vars × Vars) :=
  hosts.filterMap fun hostname =>
    (enabledClient hostvars routerName hostname).map fun client => (hostname, client)

/-- The merged group variables and their conflicts, client after client. -/
def mergeClients (visited : List (String × Vars × Vars)) : Except Failure (Vars × List String) :=
  visited.foldlM (fun result client => do
    let (vars, _) ← buildGeneratedClient client.1 client.2.1 client.2.2
    pure (mergeNestedMapping result.1 vars, result.2 ++ mergeConflicts result.1 vars)) ([], [])

/-- `ansible_pull_group_vars` and `ansible_pull_group_var_conflicts` of
`build_openwrt_pxe_client_catalog`, which visits the hosts in the order given. -/
def catalogGroupVars (hostvars : Vars) (routerName : String) (enabled : Value)
    (hosts : List String) (legacy : Vars) : Except Failure (Vars × List String) := do
  let visited := if enabled.asBool then clientsAmong hostvars routerName hosts else []
  let (generated, conflicts) ← mergeClients visited
  pure (mergeNestedMapping legacy generated, conflicts ++ mergeConflicts legacy generated)

end Catalog

/-! ## Values as trees -/

section Trees

theorem lookup_treeFields (fields : Vars) (key : String) :
    (treeFields fields).lookup (.str key) = (fields.get key).map tree := by
  induction fields with
  | nil => rfl
  | cons field fields ih =>
      obtain ⟨name, value⟩ := field
      rw [treeFields, List.lookup_cons, Mapping.get_cons]
      by_cases same : name = key
      · subst same
        simp
      · have other : Key.str key ≠ Key.str name := fun keys => same (Key.str.inj keys).symm
        rw [beq_false_of_ne other, if_neg same]
        exact ih

theorem names_treeFields (fields : Vars) :
    (treeFields fields).map Prod.fst = (fields.map Prod.fst).map Key.str := by
  induction fields with
  | nil => rfl
  | cons field fields ih =>
      obtain ⟨name, value⟩ := field
      rw [treeFields, List.map_cons, ih, List.map_cons, List.map_cons]

theorem treeFields_set (fields : Vars) (key : String) (value : Value) :
    treeFields (fields.set key value) = put (treeFields fields) (.str key) (tree value) := by
  induction fields with
  | nil => rfl
  | cons field fields ih =>
      obtain ⟨name, old⟩ := field
      by_cases same : name = key
      · rw [Mapping.set, if_pos same, treeFields, treeFields, put, if_pos (congrArg Key.str same)]
      · have other : Key.str name ≠ Key.str key := fun keys => same (Key.str.inj keys)
        rw [Mapping.set, if_neg same, treeFields, treeFields, put, if_neg other, ih]

mutual
/-- **On text keys `_merge_nested_mapping` is the merge of the catalog.** -/
theorem tree_mergeValue : ∀ (current value : Value) (path : List Key),
    tree (mergeValue current value) = (mergeNode Key.text path (tree current) (tree value)).1
  | current, .dict fields, path => by
      cases current with
      | dict inner =>
          rw [mergeValue, tree, tree, tree, mergeNode]
          exact congrArg Nested.mapping (treeFields_merge inner fields path)
      | none | bool | int | float | str | list => rfl
  | current, .none, path => by cases current <;> rfl
  | current, .bool _, path => by cases current <;> rfl
  | current, .int _, path => by cases current <;> rfl
  | current, .float _, path => by cases current <;> rfl
  | current, .str _, path => by cases current <;> rfl
  | current, .list _, path => by cases current <;> rfl

theorem treeFields_merge : ∀ (base : Vars) (overlay : List (String × Value)) (path : List Key),
    treeFields (mergeNestedMapping base overlay) =
      (mergeFields Key.text path (treeFields base) (treeFields overlay)).1
  | base, [], path => rfl
  | base, (key, value) :: overlay, path => by
      rw [mergeNestedMapping, treeFields, mergeFields_fst_cons _ _ rfl, lookup_treeFields,
        treeFields_merge _ overlay path, treeFields_set]
      cases base.get key with
      | none => rfl
      | some current =>
          rw [Option.elim_some, Option.map_some, Option.elim_some,
            tree_mergeValue current value (path ++ [Key.str key])]
end

theorem eq_of_tree_leaf {value other : Value} (leaf : tree value = .leaf other) : value = other := by
  cases value with
  | dict fields => cases leaf
  | none | bool | int | float | str | list => exact Nested.leaf.inj leaf

theorem dict_of_tree_mapping {value : Value} {fields : List (Key × Tree)}
    (mapping : tree value = .mapping fields) : ∃ inner, value = .dict inner := by
  cases value with
  | dict inner => exact ⟨inner, rfl⟩
  | none | bool | int | float | str | list => cases mapping

/-- The merge reports nothing exactly when the two agree. -/
theorem mergeTrees_quiet_iff {base overlay : List (Key × Tree)}
    (normal : Everywhere (Normal Key.text) (.mapping overlay : Tree)) :
    (mergeTrees base overlay).2 = [] ↔ Agree (.mapping base : Tree) (.mapping overlay) := by
  have node : (mergeNode Key.text [] (.mapping base : Tree) (.mapping overlay)).2 =
      (mergeTrees base overlay).2 := rfl
  rw [← node]
  exact mergeNode_conflicts_iff [] normal

/-! ## Distinct keys -/

/-- The tree of a value without repeated keys is normal. -/
theorem tree_normal (value : Value) (distinct : Distinct value) :
    Everywhere (Normal Key.text) (tree value) := by
  match value with
  | .dict fields =>
      refine everywhere_mapping ⟨?_, ?_⟩ ?_
      · rw [names_treeFields]
        exact distinct.1.map fun _ _ same => Key.str.inj same
      · rw [names_treeFields]
        intro key member
        obtain ⟨name, -, rfl⟩ := List.mem_map.1 member
        rfl
      · intro key node found
        have named : key ∈ (treeFields fields).map Prod.fst :=
          List.mem_map.2 ⟨_, Keyed.mem_of_lookup found, rfl⟩
        rw [names_treeFields] at named
        obtain ⟨name, -, rfl⟩ := List.mem_map.1 named
        rw [lookup_treeFields] at found
        obtain ⟨inner, got, rfl⟩ := Option.map_eq_some_iff.1 found
        have smaller : sizeOf inner < 1 + sizeOf fields := by
          have listed := List.sizeOf_lt_of_mem (Mapping.mem_of_get got)
          rw [Prod.mk.sizeOf_spec] at listed
          omega
        exact tree_normal inner (Value.distinct_of_get distinct got)
  | .none | .bool _ | .int _ | .float _ | .str _ | .list _ => exact everywhere_leaf _
termination_by sizeOf value

/-- The leaves of a value without repeated keys have none. -/
theorem tree_leaves {value : Value} (distinct : Distinct value) (place : List Key) (leaf : Value)
    (found : at? place (tree value) = some (.leaf leaf)) : Distinct leaf := by
  induction place generalizing value with
  | nil => rwa [← eq_of_tree_leaf (Option.some.inj found)]
  | cons key place ih =>
      cases value with
      | dict fields =>
          obtain ⟨node, inFields, deeper⟩ := Option.bind_eq_some_iff.1 found
          have named : key ∈ (treeFields fields).map Prod.fst :=
            List.mem_map.2 ⟨_, Keyed.mem_of_lookup inFields, rfl⟩
          rw [names_treeFields] at named
          obtain ⟨name, -, rfl⟩ := List.mem_map.1 named
          obtain ⟨inner, got, rfl⟩ := Option.map_eq_some_iff.1
            ((lookup_treeFields fields name).symm.trans inFields)
          exact ih (Value.distinct_of_get distinct got) deeper
      | none | bool | int | float | str | list => cases found

theorem tree_proper {fields : Vars} (distinct : Distinct (.dict fields)) :
    Proper Key.text Distinct (.mapping (treeFields fields)) :=
  ⟨⟨_, rfl⟩, tree_normal (.dict fields) distinct, fun place leaf =>
    @tree_leaves (.dict fields) distinct place leaf⟩

theorem equal_partialEquivalence : PartialEquivalence (β := Value) Distinct :=
  ⟨fun distinct others => Value.equal_symm _ _ distinct others,
    fun distinct others _ => Value.equal_trans _ _ _ distinct others⟩

theorem distinct_set {fields : Vars} {key : String} {value : Value}
    (distinct : Distinct (.dict fields)) (added : Distinct value) :
    Distinct (.dict (fields.set key value)) := by
  refine ⟨Mapping.keys_set_nodup distinct.1, Value.fieldsDistinct_iff.2 ?_⟩
  have all := Value.fieldsDistinct_iff.1 distinct.2
  clear distinct
  induction fields with
  | nil =>
      rintro field member
      rw [List.mem_singleton.1 member]
      exact added
  | cons field fields ih =>
      obtain ⟨name, old⟩ := field
      rw [List.forall_mem_cons] at all
      rw [Mapping.set]
      split
      · rw [List.forall_mem_cons]
        exact ⟨added, all.2⟩
      · rw [List.forall_mem_cons]
        exact ⟨all.1, ih all.2⟩

mutual
theorem distinct_mergeValue : ∀ current value : Value, Distinct current → Distinct value →
    Distinct (mergeValue current value)
  | current, .dict fields, distinct, added => by
      cases current with
      | dict inner => exact distinct_merge inner fields distinct added.2
      | none | bool | int | float | str | list => exact distinct
  | current, .none, distinct, _ => by cases current <;> exact distinct
  | current, .bool _, distinct, _ => by cases current <;> exact distinct
  | current, .int _, distinct, _ => by cases current <;> exact distinct
  | current, .float _, distinct, _ => by cases current <;> exact distinct
  | current, .str _, distinct, _ => by cases current <;> exact distinct
  | current, .list _, distinct, _ => by cases current <;> exact distinct

theorem distinct_merge : ∀ (base : Vars) (overlay : List (String × Value)),
    Distinct (.dict base) → Value.FieldsDistinct overlay →
      Distinct (.dict (mergeNestedMapping base overlay))
  | _, [], distinct, _ => distinct
  | base, (key, value) :: overlay, distinct, added => by
      rw [mergeNestedMapping]
      refine distinct_merge _ overlay (distinct_set distinct ?_) added.2
      cases found : base.get key with
      | none => exact added.1
      | some current =>
          exact distinct_mergeValue current value (Value.distinct_of_get distinct found) added.1
end

theorem distinct_mappingAt {vars : Vars} (distinct : Distinct (.dict vars)) (key : String) :
    Distinct (.dict (mappingAt vars key)) := by
  rw [mappingAt]
  cases found : vars.get key with
  | none => exact ⟨List.nodup_nil, trivial⟩
  | some value =>
      cases value with
      | dict fields => exact Value.distinct_of_get distinct found
      | none | bool | int | float | str | list => exact ⟨List.nodup_nil, trivial⟩

theorem distinct_copy {source : Vars} (distinct : Distinct (.dict source)) (keys : List String)
    {target : Vars} (start : Distinct (.dict target)) :
    Distinct (.dict (Mapping.copy source id keys target)) := by
  unfold Mapping.copy
  induction keys generalizing target with
  | nil => exact start
  | cons key keys ih =>
      rw [List.foldl_cons]
      refine ih ?_
      cases found : source.get key with
      | none => exact start
      | some value => exact distinct_set start (Value.distinct_of_get distinct found)

/-- The group variables of a client have no repeated keys. -/
theorem distinct_groupVars [UnicodeData] {hv cfg : Vars} (hostDistinct : Distinct (.dict hv))
    (clientDistinct : Distinct (.dict cfg)) : Distinct (.dict (groupVars hv cfg)) := by
  have explicit := distinct_mappingAt (distinct_mappingAt clientDistinct "ansible_pull") "group_vars"
  have generated : Distinct (.dict (buildTerraformStgGroupVars hv)) :=
    distinct_copy hostDistinct _ ⟨List.nodup_nil, trivial⟩
  simp only [groupVars]
  split
  · refine distinct_set explicit ?_
    cases found : (mappingAt (ansiblePull cfg) "group_vars").get "role_terraform_stg" with
    | none => exact generated
    | some value =>
        cases value with
        | dict fields =>
            exact distinct_merge _ fields generated (Value.distinct_of_get explicit found).2
        | none | bool | int | float | str | list => exact generated
  · exact explicit

/-! ## Trees that are the same -/

theorem same_child {one other : Value} {fields others : Vars} {key : String}
    (same : Same (.mapping (treeFields fields)) (.mapping (treeFields others)))
    (found : fields.get key = some one) (held : others.get key = some other) :
    Same (tree one) (tree other) := by
  intro place
  have below := same (.str key :: place)
  rw [at?_mapping, at?_mapping, lookup_treeFields, lookup_treeFields, found, held] at below
  exact below

theorem get_of_same {fields others : Vars} {key : String} {one : Value}
    (same : Same (.mapping (treeFields fields)) (.mapping (treeFields others)))
    (found : fields.get key = some one) : ∃ other, others.get key = some other := by
  have here := same [.str key]
  rw [at?_mapping, at?_mapping, lookup_treeFields, lookup_treeFields, found] at here
  cases held : others.get key with
  | some other => exact ⟨other, rfl⟩
  | none =>
      rw [held] at here
      cases here

theorem get_of_same_right {fields others : Vars} {key : String} {other : Value}
    (same : Same (.mapping (treeFields fields)) (.mapping (treeFields others)))
    (held : others.get key = some other) : ∃ one, fields.get key = some one := by
  have here := same [.str key]
  rw [at?_mapping, at?_mapping, lookup_treeFields, lookup_treeFields, held] at here
  cases found : fields.get key with
  | some one => exact ⟨one, rfl⟩
  | none =>
      rw [found] at here
      cases here

/-- **Values whose trees are the same are equal.** -/
theorem equal_of_same (first second : Value) (distinctFirst : Distinct first)
    (distinctSecond : Distinct second) (same : Same (tree first) (tree second)) :
    equal first second = true := by
  have here := same []
  rw [at?_nil, at?_nil] at here
  cases here with
  | some matched =>
      match first with
      | .dict fields =>
          obtain ⟨others, rfl⟩ : ∃ others, second = .dict others := by
            rcases matched with eq | alike
            · exact dict_of_tree_mapping eq.symm
            · rw [tree] at alike
              generalize shape : tree second = node at alike
              cases alike with
              | mapping => exact dict_of_tree_mapping shape
          have length : fields.length = others.length := by
            refine Nat.le_antisymm (Value.length_le_of_held distinctFirst.1 ?_)
              (Value.length_le_of_held distinctSecond.1 ?_)
            · intro key value member
              exact get_of_same same (Mapping.get_of_mem distinctFirst.1 member)
            · intro key value member
              exact get_of_same_right same (Mapping.get_of_mem distinctSecond.1 member)
          refine (Value.equal_dict distinctFirst.1).2 ⟨others, rfl, length, ?_⟩
          intro key value member
          have found := Mapping.get_of_mem distinctFirst.1 member
          obtain ⟨other, held⟩ := get_of_same same found
          have smaller : sizeOf value < 1 + sizeOf fields := by
            have listed := List.sizeOf_lt_of_mem member
            rw [Prod.mk.sizeOf_spec] at listed
            omega
          exact ⟨other, held, equal_of_same value other (Value.distinct_of_get distinctFirst found)
            (Value.distinct_of_get distinctSecond held) (same_child same found held)⟩
      | .none | .bool _ | .int _ | .float _ | .str _ | .list _ =>
          rcases matched with eq | alike
          · rw [eq_of_tree_leaf eq.symm]
            exact Value.equal_refl _
          · simp only [tree] at alike
            generalize shape : tree second = node at alike
            cases alike with
            | leaf equals => rwa [eq_of_tree_leaf shape]
termination_by sizeOf first

end Trees

/-! ## Clients in any order -/

section Clients

variable [UnicodeData]

/-- One merge of the fold over the clients. -/
def mergeStep (result : Vars × List String) (vars : Vars) : Vars × List String :=
  (mergeNestedMapping result.1 vars, result.2 ++ mergeConflicts result.1 vars)

/-- The group variables of the visited clients. -/
def visitedVars (visited : List (String × Vars × Vars)) : List Vars :=
  visited.map fun client => groupVars client.2.1 client.2.2

theorem buildGeneratedClient_fst {hostname : String} {hv cfg : Vars} {built : Vars × List Item}
    (ok : buildGeneratedClient hostname hv cfg = .ok built) : built.1 = groupVars hv cfg := by
  simp only [buildGeneratedClient, generatedRoleClientVars, bind_eq_ok, pure_eq_ok] at ok
  obtain ⟨roles, -, rfl⟩ := ok
  rfl

/-- The clients are merged when each of them can be built. -/
theorem mergeClients_eq_ok {visited : List (String × Vars × Vars)} {result : Vars × List String} :
    mergeClients visited = .ok result ↔
      (∀ client ∈ visited, ∃ built,
        buildGeneratedClient client.1 client.2.1 client.2.2 = .ok built) ∧
      (visitedVars visited).foldl mergeStep ([], []) = result := by
  unfold mergeClients visitedVars
  generalize ([], []) = start
  induction visited generalizing start with
  | nil => simp
  | cons client visited ih =>
      rw [List.foldlM_cons, bind_eq_ok, List.forall_mem_cons, List.map_cons, List.foldl_cons]
      constructor
      · rintro ⟨middle, step, rest⟩
        simp only [bind_eq_ok, pure_eq_ok] at step
        obtain ⟨built, ok, rfl⟩ := step
        rw [ih] at rest
        rw [← buildGeneratedClient_fst ok]
        exact ⟨⟨⟨built, ok⟩, rest.1⟩, rest.2⟩
      · rintro ⟨⟨⟨built, ok⟩, others⟩, rest⟩
        refine ⟨mergeStep start built.1, ?_, (ih _).2 ⟨others, ?_⟩⟩
        · simp only [bind_eq_ok, pure_eq_ok]
          exact ⟨built, ok, rfl⟩
        · rw [buildGeneratedClient_fst ok]
          exact rest

omit [UnicodeData] in
/-- Merging the clients is merging their trees. -/
theorem tree_mergeClients (all : List Vars) :
    Nested.mapping (treeFields (all.foldl mergeStep ([], [])).1) =
        (mergeAll Key.text (.mapping []) (all.map fun vars => .mapping (treeFields vars))).1 ∧
      ((all.foldl mergeStep ([], [])).2 = [] ↔
        (mergeAll Key.text (.mapping []) (all.map fun vars => .mapping (treeFields vars))).2 = []) := by
  induction all using List.reverseRecOn with
  | nil => exact ⟨rfl, iff_of_true rfl rfl⟩
  | append_singleton all vars ih =>
      obtain ⟨trees, quiet⟩ := ih
      rw [List.foldl_append, List.foldl_cons, List.foldl_nil, List.map_append, List.map_cons,
        List.map_nil, mergeAll_snoc, ← trees]
      constructor
      · rw [mergeStep, treeFields_merge _ _ []]
        rfl
      · rw [mergeStep, List.append_eq_nil_iff, List.append_eq_nil_iff, quiet, mergeConflicts,
          List.map_eq_nil_iff]
        rfl

omit [UnicodeData] in
theorem distinct_mergeClients {all : List Vars} (distinct : ∀ vars ∈ all, Distinct (.dict vars)) :
    Distinct (.dict (all.foldl mergeStep ([], [])).1) := by
  induction all using List.reverseRecOn with
  | nil => exact ⟨List.nodup_nil, trivial⟩
  | append_singleton all vars ih =>
      rw [List.foldl_append, List.foldl_cons, List.foldl_nil]
      refine distinct_merge _ vars (ih fun other member => distinct other
        (List.mem_append_left _ member)) ?_
      exact (distinct vars (List.mem_append_right _ List.mem_cons_self)).2

/-- An enabled client is a mapping in the variables of its host. -/
theorem enabledClient_eq_some {hostvars : Vars} {routerName hostname : String} {hv cfg : Vars}
    (found : enabledClient hostvars routerName hostname = some (hv, cfg)) :
    hostvars.get hostname = some (.dict hv) ∧
      Mapping.get hv "openwrt_pxe_client" = some (.dict cfg) := by
  simp only [enabledClient, bind, Option.bind_eq_some_iff, Option.ite_none_right_eq_some,
    Option.some.injEq, Prod.mk.injEq] at found
  obtain ⟨_, ⟨host, inHosts, mapping⟩, _, ⟨client, inHost, clientMapping⟩, -, rfl, rfl⟩ := found
  have asDict : ∀ {value : Value} {fields : Vars}, value.asMapping? = some fields →
      value = .dict fields := by
    intro value fields same
    cases value with
    | dict inner => rw [Option.some.inj same]
    | none | bool | int | float | str | list => cases same
  rw [inHosts, inHost, asDict mapping, asDict clientMapping]
  exact ⟨rfl, rfl⟩

theorem distinct_visitedVars {hostvars : Vars} {routerName : String} {hosts : List String}
    (distinct : Distinct (.dict hostvars)) :
    ∀ vars ∈ visitedVars (clientsAmong hostvars routerName hosts), Distinct (.dict vars) := by
  intro vars member
  obtain ⟨client, listed, rfl⟩ := List.mem_map.1 member
  obtain ⟨hostname, -, found⟩ := List.mem_filterMap.1 listed
  obtain ⟨⟨hv, cfg⟩, enabled, rfl⟩ := Option.map_eq_some_iff.1 found
  obtain ⟨inHosts, inHost⟩ := enabledClient_eq_some enabled
  have hostDistinct := Value.distinct_of_get distinct inHosts
  exact distinct_groupVars hostDistinct (Value.distinct_of_get hostDistinct inHost)

omit [UnicodeData] in
/-- Group variables without conflict, in any order: the trees gather the same, and any two of
them agree. -/
theorem gathers_of_quiet {all : List Vars} (distinct : ∀ vars ∈ all, Distinct (.dict vars))
    (quiet : (all.foldl mergeStep ([], [])).2 = []) :
    (all.map fun vars => (.mapping (treeFields vars) : Tree)).Pairwise AgreeBoth ∧
      Gathers Key.text Distinct (all.map fun vars => (.mapping (treeFields vars) : Tree))
        (.mapping (treeFields (all.foldl mergeStep ([], [])).1)) := by
  obtain ⟨trees, conflicts⟩ := tree_mergeClients all
  have proper : ∀ source ∈ all.map fun vars => (.mapping (treeFields vars) : Tree),
      Proper Key.text Distinct source := by
    intro source member
    obtain ⟨vars, listed, rfl⟩ := List.mem_map.1 member
    exact tree_proper (distinct vars listed)
  obtain ⟨pairs, gathers⟩ := mergeAll_quiet_iff equal_partialEquivalence proper
  rw [trees]
  exact ⟨pairs.1 (conflicts.1 quiet), gathers (conflicts.1 quiet)⟩

omit [UnicodeData] in
theorem quiet_of_pairs {all : List Vars} (distinct : ∀ vars ∈ all, Distinct (.dict vars))
    (pairs : (all.map fun vars => (.mapping (treeFields vars) : Tree)).Pairwise AgreeBoth) :
    (all.foldl mergeStep ([], [])).2 = [] := by
  refine (tree_mergeClients all).2.2 ((mergeAll_quiet_iff equal_partialEquivalence ?_).1.2 pairs)
  intro source member
  obtain ⟨vars, listed, rfl⟩ := List.mem_map.1 member
  exact tree_proper (distinct vars listed)

omit [UnicodeData] in
theorem mergeConflicts_eq_nil {base overlay : Vars} (distinct : Distinct (.dict overlay)) :
    mergeConflicts base overlay = [] ↔
      Agree (.mapping (treeFields base) : Tree) (.mapping (treeFields overlay)) := by
  rw [mergeConflicts, List.map_eq_nil_iff]
  exact mergeTrees_quiet_iff (tree_proper distinct).normal

/-- **The order in which the clients are visited does not matter when there is no conflict.** -/
theorem catalogGroupVars_perm {hostvars legacy : Vars} {routerName : String} {enabled : Value}
    {hosts others : List String} (sameHosts : hosts.Perm others)
    (distinct : Distinct (.dict hostvars)) (legacyDistinct : Distinct (.dict legacy))
    {vars : Vars} (built : catalogGroupVars hostvars routerName enabled hosts legacy = .ok (vars, [])) :
    ∃ again, catalogGroupVars hostvars routerName enabled others legacy = .ok (again, []) ∧
      equal (.dict vars) (.dict again) = true := by
  simp only [catalogGroupVars, bind_eq_ok, pure_eq_ok] at built ⊢
  obtain ⟨result, merged, same⟩ := built
  obtain ⟨rfl, noConflicts⟩ := Prod.mk.inj same
  obtain ⟨quiet, agreed⟩ := List.append_eq_nil_iff.1 noConflicts
  obtain ⟨each, rfl⟩ := mergeClients_eq_ok.1 merged
  -- The visited clients, in both orders.
  generalize visitedEq : (if enabled.asBool then clientsAmong hostvars routerName hosts else []) =
    visited at each quiet agreed
  generalize againEq : (if enabled.asBool then clientsAmong hostvars routerName others else []) =
    visitedAgain
  have permuted : visited.Perm visitedAgain := by
    rw [← visitedEq, ← againEq]
    split
    · exact sameHosts.filterMap _
    · exact .nil
  have allDistinct : ∀ vars ∈ visitedVars visited, Distinct (.dict vars) := by
    rw [← visitedEq]
    split
    · exact distinct_visitedVars distinct
    · intro vars member
      cases member
  have sameVars : (visitedVars visited).Perm (visitedVars visitedAgain) := permuted.map _
  have againDistinct : ∀ vars ∈ visitedVars visitedAgain, Distinct (.dict vars) :=
    fun vars member => allDistinct vars (sameVars.mem_iff.2 member)
  have sameTrees := sameVars.map fun vars => (.mapping (treeFields vars) : Tree)
  obtain ⟨pairs, gathers⟩ := gathers_of_quiet allDistinct quiet
  have quietAgain := quiet_of_pairs againDistinct
    ((sameTrees.pairwise_iff fun agree => ⟨agree.2, agree.1⟩).1 pairs)
  obtain ⟨-, gathersAgain⟩ := gathers_of_quiet againDistinct quietAgain
  have merges := distinct_mergeClients allDistinct
  have mergesAgain := distinct_mergeClients againDistinct
  -- The legacy variables are merged with trees that are the same.
  obtain ⟨agreedAgain, sameResult⟩ := mergeNode_same equal_partialEquivalence
    (tree_proper legacyDistinct) gathers.proper gathersAgain.proper
    (gathers.same gathersAgain sameTrees pairs) ((mergeConflicts_eq_nil merges).1 agreed) []
  have mergedAgain := mergeClients_eq_ok.2 ⟨fun client member => each client
    (permuted.mem_iff.2 member), rfl⟩
  refine ⟨mergeNestedMapping legacy ((visitedVars visitedAgain).foldl mergeStep ([], [])).1,
    ⟨_, mergedAgain, ?_⟩, ?_⟩
  · rw [quietAgain, (mergeConflicts_eq_nil mergesAgain).2 agreedAgain, List.append_nil]
  · refine equal_of_same _ _ (distinct_merge legacy _ legacyDistinct merges.2)
      (distinct_merge legacy _ legacyDistinct mergesAgain.2) ?_
    rw [tree, tree, treeFields_merge _ _ [], treeFields_merge _ _ []]
    exact sameResult

end Clients

/-! ## What a merge promises -/

/-- What merging promises of two mappings: all of the base, what the base leaves room for, a
conflict exactly where the two disagree, and without one the same result in the other order. -/
structure Lossless (base overlay : List (Key × Tree)) : Prop where
  keeps : ∀ place leaf, at? place (.mapping base) = some (.leaf leaf) →
    at? place (.mapping (mergeTrees base overlay).1) = some (.leaf leaf)
  adds : ∀ place leaf, at? place (.mapping overlay) = some (.leaf leaf) →
    at? place (.mapping base) = none →
    (∀ before, before <+: place → ∀ value, at? before (.mapping base) ≠ some (.leaf value)) →
      at? place (.mapping (mergeTrees base overlay).1) = some (.leaf leaf)
  quiet_iff : (mergeTrees base overlay).2 = [] ↔
    Agree (.mapping base : Tree) (.mapping overlay)
  commutes : (mergeTrees base overlay).2 = [] →
    Same (.mapping (mergeTrees base overlay).1 : Tree) (.mapping (mergeTrees overlay base).1)

/-- Mappings whose keys are texts are merged without loss. -/
theorem lossless {base overlay : List (Key × Tree)}
    (normalBase : Everywhere (Normal Key.text) (.mapping base : Tree))
    (normalOverlay : Everywhere (Normal Key.text) (.mapping overlay : Tree)) :
    Lossless base overlay := by
  have quiet := @mergeTrees_quiet_iff base overlay normalOverlay
  refine ⟨fun place leaf found => ?_, fun place leaf found absent free => ?_, quiet,
    fun none => ?_⟩
  · obtain ⟨after, reached, kept⟩ := mergeNode_keeps normalOverlay found []
    rw [kept.leaf] at reached
    exact reached
  · exact mergeNode_adds normalOverlay found absent free []
  · exact mergeNode_comm normalBase normalOverlay (quiet.1 none) [] []

/-- **Merging group variables is lossless on mappings with text keys, and the order of the clients
matters only where a conflict is reported.** -/
theorem group_vars_merge [UnicodeData] :
    (∀ base overlay : List (Key × Tree),
      Everywhere (Normal Key.text) (.mapping base : Tree) →
      Everywhere (Normal Key.text) (.mapping overlay : Tree) → Lossless base overlay) ∧
    (∀ (hostvars legacy : Vars) (routerName : String) (enabled : Value)
      (hosts others : List String) (vars : Vars), hosts.Perm others →
      Distinct (.dict hostvars) → Distinct (.dict legacy) →
      catalogGroupVars hostvars routerName enabled hosts legacy = .ok (vars, []) →
        ∃ again, catalogGroupVars hostvars routerName enabled others legacy = .ok (again, []) ∧
          equal (.dict vars) (.dict again) = true) :=
  ⟨fun _ _ => lossless, fun _ _ _ _ _ _ _ sameHosts distinct legacyDistinct =>
    catalogGroupVars_perm sameHosts distinct legacyDistinct⟩

/-- A host with a client that has one group variable of its own. -/
def sampleHost (name : String) : String × Value :=
  (name, .dict [("openwrt_pxe_client", .dict [("enabled", .bool true),
    ("ansible_pull", .dict [("group_vars", .dict [("role_base", .dict [(name, .int 1)])])])])])

def sampleHosts : Vars :=
  [sampleHost "rpi4", sampleHost "rpi5"]

theorem group_vars_merge_sample :
    let _ : UnicodeData := asciiData
    Lossless (treeFields sampleHosts) (treeFields [sampleHost "rpi6"]) ∧
      ∃ vars again,
        catalogGroupVars sampleHosts "router1" (.bool true) ["rpi4", "rpi5"] [] = .ok (vars, []) ∧
        catalogGroupVars sampleHosts "router1" (.bool true) ["rpi5", "rpi4"] [] = .ok (again, []) ∧
        equal (.dict vars) (.dict again) = true := by
  intro _
  have distinct : ∀ hosts : Vars, hosts = sampleHosts ∨ hosts = [sampleHost "rpi6"] →
      Distinct (.dict hosts) := by
    rintro hosts (rfl | rfl) <;>
      simp [sampleHosts, sampleHost, Value.Distinct, Value.FieldsDistinct]
  refine ⟨group_vars_merge.1 _ _ (tree_normal (.dict _) (distinct _ (.inl rfl)))
    (tree_normal (.dict _) (distinct _ (.inr rfl))), ?_⟩
  have built : catalogGroupVars sampleHosts "router1" (.bool true) ["rpi4", "rpi5"] [] =
      .ok ([("role_base", .dict [("rpi4", .int 1), ("rpi5", .int 1)])], []) := by
    rfl
  obtain ⟨again, rebuilt, equals⟩ := group_vars_merge.2 sampleHosts [] "router1" (.bool true)
    ["rpi4", "rpi5"] ["rpi5", "rpi4"] _ (.swap _ _ _) (distinct _ (.inl rfl))
    ⟨List.nodup_nil, trivial⟩ built
  exact ⟨_, again, built, rebuilt, equals⟩

/-- **A leaf of an overlay is lost below a leaf of the base, and a key that is no text is not
kept**: neither `a.b` nor the key `1` is found in the merged mapping. -/
theorem overlay_leaf_lost :
    (at? [Key.str "a", Key.str "b"] (.mapping [(.str "a", .mapping [(.str "b", .leaf (.int 2))])] :
        Tree) = some (.leaf (.int 2)) ∧
      at? [Key.str "a", Key.str "b"] (.mapping [(.str "a", .leaf (.int 1))] : Tree) = none ∧
      at? [Key.str "a", Key.str "b"] (.mapping (mergeTrees [(.str "a", .leaf (.int 1))]
        [(.str "a", .mapping [(.str "b", .leaf (.int 2))])]).1) = none) ∧
    (at? [Key.int 1] (.mapping [(.int 1, .leaf (.int 2))] : Tree) = some (.leaf (.int 2)) ∧
      at? [Key.int 1] (.mapping [] : Tree) = none ∧
      at? [Key.int 1] (.mapping (mergeTrees [] [(.int 1, .leaf (.int 2))]).1) = none) := by
  exact ⟨⟨rfl, rfl, rfl⟩, rfl, rfl, rfl⟩

end HomeclusterInfra.PxeCatalog
