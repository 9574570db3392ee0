import HomeclusterInfra.PxeCatalog.GroupVars

/-!
# What building a catalog does to its inputs

Host variables are mapping objects, and one object may stand in several places: a
YAML anchor puts the same `group_vars` under several clients. The build copies
what it changes, with one exception: the variables generated for `terraform_stg`
are assigned into the `group_vars` object of the client.

So the inputs stay as they were exactly when every client that is visited finds
its generated variables in its `group_vars` already (`inputs_kept_iff`).
-/

set_option autoImplicit false

namespace HomeclusterInfra.PxeCatalog

open Text Checked Python Nested
open Value (asMapping? equal Distinct)

/-! ## Objects -/

/-- What each `group_vars` object holds. -/
abbrev Store := Nat → Vars

/-- No object has a key twice. -/
def DistinctStore (store : Store) : Prop :=
  ∀ ref, Distinct (.dict (store ref))

/-- Host variables that share `group_vars` objects: what is read from them depends on what the
objects hold, and on that only up to equality. -/
structure SharedInputs where
  read : Store → Vars
  /-- The `group_vars` object of the client of a host, if that is a mapping. -/
  object : String → Option Nat
  reads_object : ∀ (store : Store) (hostname : String) (hv cfg : Vars),
    (read store).get hostname = some (.dict hv) →
    Mapping.get hv "openwrt_pxe_client" = some (.dict cfg) →
      (Mapping.get (ansiblePull cfg) "group_vars").bind asMapping? = (object hostname).map store
  reads_distinct : ∀ store, DistinctStore store → Distinct (.dict (read store))
  reads_equal : ∀ store other : Store,
    (∀ ref, equal (.dict (store ref)) (.dict (other ref)) = true) →
      equal (.dict (read store)) (.dict (read other)) = true

section Build

variable [UnicodeData] (inputs : SharedInputs) (routerName : String)
  (entries : String → Vars → Vars → Except Failure Unit)

/-- The variables of `terraform_stg` are assigned into the group variables. -/
def assignsTerraform (hv cfg : Vars) : Bool :=
  lists cfg "terraform_stg" && flag (ansiblePull cfg) "terraform_stg_group_vars_enabled" true &&
    !(buildTerraformStgGroupVars hv).isEmpty

/-- What happens before the assignment may fail: the entries of the client, and the storage
variables of a staging server. -/
def beforeAssignment (hostname : String) (hv cfg : Vars) : Except Failure Unit := do
  entries hostname hv cfg
  let _ ← stgStorageHv hv cfg
  pure ()

/-- One host: what the objects hold afterwards, and the failure that ends the build. -/
def visitHost (hostname : String) (store : Store) : Store × Option Failure :=
  match enabledClient (inputs.read store) routerName hostname with
  | none => (store, none)
  | some (hv, cfg) =>
      match beforeAssignment entries hostname hv cfg with
      | .error failure => (store, some failure)
      | .ok _ =>
          ((inputs.object hostname).elim store fun ref =>
              Function.update store ref (groupVars hv cfg),
            match buildGeneratedClient hostname hv cfg with
            | .error failure => some failure
            | .ok _ => none)

/-- The hosts that are visited, each with what the objects hold before. -/
def visits : List String → Store → List (String × Store)
  | [], _ => []
  | hostname :: hosts, store =>
      (hostname, store) ::
        match visitHost inputs routerName entries hostname store with
        | (_, some _) => []
        | (next, none) => visits hosts next

/-- What the objects hold when the build has returned or raised. -/
def afterBuild : List String → Store → Store
  | [], store => store
  | hostname :: hosts, store =>
      match visitHost inputs routerName entries hostname store with
      | (next, some _) => next
      | (next, none) => afterBuild hosts next

/-- All input mappings are equal. -/
def SameInputs (store other : Store) : Prop :=
  equal (.dict (inputs.read store)) (.dict (inputs.read other)) = true ∧
    ∀ ref, equal (.dict (store ref)) (.dict (other ref)) = true

/-- **The build keeps its inputs**: every client is built from inputs equal to those that were
given, and they are equal to those afterwards. -/
def KeepsInputs (hosts : List String) (store : Store) : Prop :=
  (∀ visit ∈ visits inputs routerName entries hosts store, SameInputs inputs store visit.2) ∧
    SameInputs inputs store (afterBuild inputs routerName entries hosts store)

/-- Some variables hold what is generated: wherever that has something, they have the same. -/
def Held (generated vars : Vars) : Prop :=
  ∀ place node, at? place (tree (.dict generated)) = some node →
    ∃ other, at? place (tree (.dict vars)) = some other ∧ Matches node other

/-- The `group_vars` object of a client holds its generated variables already, if they are going
to be assigned. -/
def FindsVars (hostname : String) (store : Store) : Prop :=
  ∀ hv cfg ref, enabledClient (inputs.read store) routerName hostname = some (hv, cfg) →
    inputs.object hostname = some ref →
    (beforeAssignment entries hostname hv cfg).isOk = true → assignsTerraform hv cfg = true →
      ∃ vars, (store ref).get "role_terraform_stg" = some (.dict vars) ∧
        Held (buildTerraformStgGroupVars hv) vars

end Build

/-! ## Equal values have the same tree -/

theorem same_of_equal {first second : Value} (distinct : Distinct first)
    (equals : equal first second = true) : Same (tree first) (tree second) := by
  intro place
  induction place generalizing first second with
  | nil =>
      rw [at?_nil, at?_nil]
      refine .some (.inr ?_)
      cases first with
      | dict fields =>
          obtain ⟨others, rfl, -⟩ := (Value.equal_dict distinct.1).1 equals
          exact .mapping _ _
      | list items =>
          obtain ⟨others, rfl, -⟩ := Value.equal_list.1 equals
          exact .leaf equals
      | none | bool | int | float | str =>
          cases second with
          | dict others => cases equals
          | none | bool | int | float | str | list => exact .leaf equals
  | cons key place ih =>
      cases first with
      | dict fields =>
          obtain ⟨others, rfl, length, values⟩ := (Value.equal_dict distinct.1).1 equals
          rw [tree, tree, at?_mapping, at?_mapping]
          by_cases named : ∃ name, key = .str name
          · obtain ⟨name, rfl⟩ := named
            rw [lookup_treeFields, lookup_treeFields]
            cases found : Mapping.get fields name with
            | some value =>
                obtain ⟨other, held, same⟩ := values name value (Mapping.mem_of_get found)
                rw [held]
                exact ih (Value.distinct_of_get distinct found) same
            | none =>
                have names := Value.names_perm distinct.1 length fun key value member =>
                  (values key value member).imp fun _ both => both.1
                have missing : Mapping.get others name = none := by
                  rw [Mapping.get_eq_none, ← names.mem_iff, ← Mapping.get_eq_none]
                  exact found
                rw [missing]
                exact .none
          · have strange : ∀ vars : Vars, (treeFields vars).lookup key = none := by
              intro vars
              rw [lookup_eq_none, names_treeFields]
              intro member
              obtain ⟨name, -, rfl⟩ := List.mem_map.1 member
              exact named ⟨name, rfl⟩
            rw [strange, strange]
            exact .none
      | list items =>
          obtain ⟨others, rfl, -⟩ := Value.equal_list.1 equals
          exact .none
      | none | bool | int | float | str =>
          cases second with
          | dict others => cases equals
          | none | bool | int | float | str | list => exact .none

/-! ## One assignment -/

section Assignment

/-- Setting a key leaves a mapping equal exactly when the key had an equal value. -/
theorem equal_set_iff {vars : Vars} {key : String} {value : Value}
    (distinct : Distinct (.dict vars)) :
    equal (.dict vars) (.dict (vars.set key value)) = true ↔
      ∃ old, vars.get key = some old ∧ equal old value = true := by
  rw [Value.equal_dict distinct.1]
  constructor
  · rintro ⟨_, same, length, values⟩
    obtain rfl := Value.dict.inj same
    rw [Mapping.length_set] at length
    cases found : vars.get key with
    | none =>
        rw [found] at length
        simp at length
    | some old =>
        obtain ⟨other, held, equals⟩ := values key old (Mapping.mem_of_get found)
        rw [Mapping.get_set_self] at held
        rw [← Option.some.inj held] at equals
        exact ⟨old, rfl, equals⟩
  · rintro ⟨old, found, equals⟩
    refine ⟨_, rfl, ?_, fun name inner member => ?_⟩
    · rw [Mapping.length_set, found]
      rfl
    · have held := Mapping.get_of_mem distinct.1 member
      by_cases same : key = name
      · subst same
        rw [found] at held
        rw [← Option.some.inj held]
        exact ⟨value, Mapping.get_set_self _ _ _, equals⟩
      · exact ⟨inner, by rw [Mapping.get_set_of_ne _ _ same, held], Value.equal_refl inner⟩

theorem matches_symm {one other : Tree} (matched : Matches one other)
    (okOne : ∀ value, one = .leaf value → Distinct value)
    (okOther : ∀ value, other = .leaf value → Distinct value) : Matches other one := by
  rcases matched with rfl | alike
  · exact .inl rfl
  · cases alike with
    | leaf equal =>
        exact .inr (.leaf (equal_partialEquivalence.symm (okOne _ rfl) (okOther _ rfl) equal))
    | mapping fields others => exact .inr (.mapping others fields)

theorem matches_of_kept {before after other : Tree} (kept : Kept before after)
    (matched : Matches after other) : Matches before other := by
  rcases kept with rfl | ⟨fields, inner, rfl, rfl⟩
  · exact matched
  · rcases matched with rfl | alike
    · exact .inr (.mapping _ _)
    · cases alike with
      | mapping => exact .inr (.mapping _ _)

theorem matches_kept {before after other : Tree} (kept : Kept before after)
    (matched : Matches before other) : Matches after other := by
  rcases kept with rfl | ⟨fields, inner, rfl, rfl⟩
  · exact matched
  · rcases matched with rfl | alike
    · exact .inr (.mapping _ _)
    · cases alike with
      | mapping => exact .inr (.mapping _ _)

variable {generated vars : Vars}

/-- **Merging what is generated with what is explicit changes nothing exactly when the explicit
variables hold what is generated.** -/
theorem equal_merge_iff (distinctGenerated : Distinct (.dict generated))
    (distinct : Distinct (.dict vars)) :
    equal (.dict vars) (.dict (mergeNestedMapping generated vars)) = true ↔
      Held generated vars := by
  have merges := distinct_merge generated vars distinctGenerated distinct.2
  have normal := tree_normal (.dict vars) distinct
  have shape : tree (.dict (mergeNestedMapping generated vars)) =
      (mergeNode Key.text [] (tree (.dict generated)) (tree (.dict vars))).1 := by
    rw [tree, treeFields_merge _ _ []]
    rfl
  constructor
  · intro equals place node found
    have related := same_of_equal distinct equals place
    obtain ⟨after, reached, kept⟩ := mergeNode_keeps normal found []
    rw [shape, reached] at related
    generalize held : at? place (tree (.dict vars)) = other at related
    cases related with
    | some matched =>
        refine ⟨_, rfl, matches_of_kept kept (matches_symm matched (fun value leaf => ?_)
          fun value leaf => ?_)⟩
        · exact tree_leaves distinct place value (leaf ▸ held)
        · refine tree_leaves merges place value ?_
          rw [shape, ← leaf]
          exact reached
  · intro all
    refine equal_of_same _ _ distinct merges fun place => ?_
    rw [shape]
    cases inGenerated : at? place (tree (.dict generated)) with
    | some node =>
        obtain ⟨other, held, matched⟩ := all place node inGenerated
        obtain ⟨after, reached, kept⟩ := mergeNode_keeps normal inGenerated []
        rw [held, reached]
        refine .some (matches_symm (matches_kept kept matched) (fun value leaf => ?_)
          fun value leaf => ?_)
        · rcases kept with rfl | ⟨_, _, -, mapping⟩
          · exact tree_leaves distinctGenerated place value (leaf ▸ inGenerated)
          · rw [mapping] at leaf
            cases leaf
        · exact tree_leaves distinct place value (leaf ▸ held)
    | none =>
        cases inVars : at? place (tree (.dict vars)) with
        | none =>
            have missing : at? place (mergeNode Key.text [] (tree (.dict generated))
                (tree (.dict vars))).1 = none := by
              rw [Option.eq_none_iff_forall_ne_some]
              intro node reached
              rw [mergeNode_new normal reached inGenerated] at inVars
              cases inVars
            rw [missing]
            exact .none
        | some node =>
            rw [mergeNode_adds normal inVars inGenerated]
            · exact .some (.inl rfl)
            · -- A generated leaf on the way would be a leaf of the explicit variables as well.
              rintro before ⟨rest, rfl⟩ value leaf
              obtain ⟨other, held, matched⟩ := all before _ leaf
              rw [at?_append, held, Option.bind_some] at inVars
              have isLeaf : ∃ inner, other = .leaf inner := by
                rcases matched with same | alike
                · exact ⟨value, same.symm⟩
                · cases alike with
                  | leaf => exact ⟨_, rfl⟩
              obtain ⟨inner, rfl⟩ := isLeaf
              cases rest with
              | nil =>
                  rw [List.append_nil, leaf] at inGenerated
                  cases inGenerated
              | cons key rest => cases inVars

end Assignment

/-! ## The inputs over a build -/

section Runs

variable [UnicodeData] {inputs : SharedInputs} {routerName : String}
  {entries : String → Vars → Vars → Except Failure Unit} {store other third : Store}

omit [UnicodeData] in
theorem SameInputs.refl (inputs : SharedInputs) (store : Store) : SameInputs inputs store store :=
  ⟨Value.equal_refl _, fun _ => Value.equal_refl _⟩

omit [UnicodeData] in
theorem SameInputs.symm (distinct : DistinctStore store) (others : DistinctStore other)
    (same : SameInputs inputs store other) : SameInputs inputs other store :=
  ⟨Value.equal_symm _ _ (inputs.reads_distinct _ distinct) (inputs.reads_distinct _ others) same.1,
    fun ref => Value.equal_symm _ _ (distinct ref) (others ref) (same.2 ref)⟩

omit [UnicodeData] in
theorem SameInputs.trans (distinct : DistinctStore store) (others : DistinctStore other)
    (first : SameInputs inputs store other) (second : SameInputs inputs other third) :
    SameInputs inputs store third :=
  ⟨Value.equal_trans _ _ _ (inputs.reads_distinct _ distinct) (inputs.reads_distinct _ others)
      first.1 second.1,
    fun ref => Value.equal_trans _ _ _ (distinct ref) (others ref) (first.2 ref) (second.2 ref)⟩

omit [UnicodeData] in
/-- Only the object that is written may differ. -/
theorem sameInputs_update (ref : Nat) (vars : Vars) :
    SameInputs inputs store (Function.update store ref vars) ↔
      equal (.dict (store ref)) (.dict vars) = true := by
  constructor
  · intro same
    have here := same.2 ref
    rwa [Function.update_self] at here
  · intro equals
    have all : ∀ at_, equal (.dict (store at_)) (.dict (Function.update store ref vars at_)) =
        true := by
      intro at_
      by_cases here : at_ = ref
      · subst here
        rwa [Function.update_self]
      · rw [Function.update_of_ne here]
        exact Value.equal_refl _
    exact ⟨inputs.reads_equal _ _ all, all⟩

/-- The explicit group variables of a client are what its object holds. -/
theorem mappingAt_group_vars {hostname : String} {hv cfg : Vars} {ref : Nat}
    (client : enabledClient (inputs.read store) routerName hostname = some (hv, cfg))
    (object : inputs.object hostname = some ref) :
    mappingAt (ansiblePull cfg) "group_vars" = store ref := by
  obtain ⟨inHosts, inHost⟩ := enabledClient_eq_some client
  rw [mappingAt, inputs.reads_object store hostname hv cfg inHosts inHost, object]
  rfl

/-- Building a client leaves its object equal exactly when that holds what is generated. -/
theorem equal_groupVars_iff {hostname : String} {hv cfg : Vars} {ref : Nat}
    (distinct : DistinctStore store)
    (client : enabledClient (inputs.read store) routerName hostname = some (hv, cfg))
    (object : inputs.object hostname = some ref) :
    equal (.dict (store ref)) (.dict (groupVars hv cfg)) = true ↔
      (assignsTerraform hv cfg = true →
        ∃ vars, (store ref).get "role_terraform_stg" = some (.dict vars) ∧
          Held (buildTerraformStgGroupVars hv) vars) := by
  have explicit := mappingAt_group_vars client object
  have hostDistinct := Value.distinct_of_get (inputs.reads_distinct _ distinct)
    (enabledClient_eq_some client).1
  have generated : Distinct (.dict (buildTerraformStgGroupVars hv)) :=
    distinct_copy hostDistinct _ ⟨List.nodup_nil, trivial⟩
  rw [groupVars, explicit]
  by_cases assigns : assignsTerraform hv cfg = true
  · simp only [assigns, true_implies]
    rw [assignsTerraform] at assigns
    rw [if_pos assigns, equal_set_iff (distinct ref)]
    constructor
    · rintro ⟨old, found, equals⟩
      cases old with
      | dict vars =>
          rw [found, Option.bind_some] at equals
          exact ⟨vars, found, (equal_merge_iff generated
            (Value.distinct_of_get (distinct ref) found)).1 equals⟩
      | none | bool | int | float | str | list =>
          rw [found] at equals
          cases equals
    · rintro ⟨vars, found, held⟩
      refine ⟨_, found, ?_⟩
      rw [found, Option.bind_some]
      exact (equal_merge_iff generated (Value.distinct_of_get (distinct ref) found)).2 held
  · rw [if_neg (by rwa [assignsTerraform] at assigns)]
    exact iff_of_true (Value.equal_refl _) fun yes => absurd yes assigns

/-- **Visiting a host keeps the inputs exactly when its client finds its variables.** -/
theorem visitHost_same_iff {hostname : String} (distinct : DistinctStore store) :
    SameInputs inputs store (visitHost inputs routerName entries hostname store).1 ↔
      FindsVars inputs routerName entries hostname store := by
  unfold visitHost FindsVars
  cases client : enabledClient (inputs.read store) routerName hostname with
  | none =>
      refine iff_of_true (.refl inputs store) ?_
      intro hv cfg ref found
      cases found
  | some found =>
      obtain ⟨hv, cfg⟩ := found
      cases before : beforeAssignment entries hostname hv cfg with
      | error failure =>
          refine iff_of_true (by simpa only [before] using SameInputs.refl inputs store) ?_
          intro _ _ _ same _ reached
          obtain ⟨rfl, rfl⟩ := Prod.mk.inj (Option.some.inj same)
          rw [before] at reached
          cases reached
      | ok done =>
          simp only [before]
          cases object : inputs.object hostname with
          | none =>
              refine iff_of_true (.refl inputs store) ?_
              intro _ _ _ _ found
              cases found
          | some ref =>
              rw [Option.elim_some, sameInputs_update, equal_groupVars_iff distinct client object]
              constructor
              · intro finds _ _ _ same found reached assigns
                obtain ⟨rfl, rfl⟩ := Prod.mk.inj (Option.some.inj same)
                obtain rfl := Option.some.inj found
                exact finds assigns
              · intro finds assigns
                exact finds hv cfg ref rfl rfl (by rw [before]; rfl) assigns

/-- Visiting a host keeps the keys of the objects distinct. -/
theorem visitHost_distinct {hostname : String} (distinct : DistinctStore store) :
    DistinctStore (visitHost inputs routerName entries hostname store).1 := by
  unfold visitHost
  split
  next => exact distinct
  next hv cfg client =>
      split
      next => exact distinct
      next =>
          cases inputs.object hostname with
          | none => exact distinct
          | some ref =>
              intro at_
              by_cases here : at_ = ref
              · subst here
                simp only [Option.elim_some, Function.update_self]
                have host := Value.distinct_of_get (inputs.reads_distinct _ distinct)
                  (enabledClient_eq_some client).1
                exact distinct_groupVars host
                  (Value.distinct_of_get host (enabledClient_eq_some client).2)
              · simp only [Option.elim_some, Function.update_of_ne here]
                exact distinct at_

/-- The rest of a build begins with what the objects hold then. -/
theorem sameInputs_next (hosts : List String) (next : Store)
    (later : ∀ visit ∈ visits inputs routerName entries hosts next, SameInputs inputs store visit.2)
    (last : SameInputs inputs store (afterBuild inputs routerName entries hosts next)) :
    SameInputs inputs store next := by
  cases hosts with
  | nil => exact last
  | cons hostname hosts => exact later (hostname, next) List.mem_cons_self

/-- **The build keeps its inputs exactly when every client that it visits finds its variables.** -/
theorem inputs_kept_iff (inputs : SharedInputs) (routerName : String)
    (entries : String → Vars → Vars → Except Failure Unit) (hosts : List String) (store : Store)
    (distinct : DistinctStore store) :
    KeepsInputs inputs routerName entries hosts store ↔
      ∀ visit ∈ visits inputs routerName entries hosts store,
        FindsVars inputs routerName entries visit.1 visit.2 := by
  have both : ∀ (hosts : List String) (now : Store), DistinctStore now →
      SameInputs inputs store now →
      (((∀ visit ∈ visits inputs routerName entries hosts now, SameInputs inputs store visit.2) ∧
        SameInputs inputs store (afterBuild inputs routerName entries hosts now)) ↔
      ∀ visit ∈ visits inputs routerName entries hosts now,
        FindsVars inputs routerName entries visit.1 visit.2) := by
    intro hosts
    induction hosts with
    | nil =>
        intro now _ same
        refine iff_of_true ⟨?_, same⟩ ?_
        · rintro visit ⟨⟩
        · rintro visit ⟨⟩
    | cons hostname hosts ih =>
        intro now distinctNow same
        have distinctNext := @visitHost_distinct _ inputs routerName entries now hostname distinctNow
        have step := @visitHost_same_iff _ inputs routerName entries now hostname distinctNow
        -- The step keeps the inputs that were given when it keeps those it is reached with.
        have fromStart : SameInputs inputs store
            (visitHost inputs routerName entries hostname now).1 ↔
              FindsVars inputs routerName entries hostname now := by
          rw [← step]
          exact ⟨fun next => (same.symm distinct distinctNow).trans distinctNow distinct next,
            fun next => same.trans distinct distinctNow next⟩
        rw [visits, afterBuild, List.forall_mem_cons, List.forall_mem_cons]
        generalize visitHost inputs routerName entries hostname now = result at *
        obtain ⟨next, failure⟩ := result
        cases failure with
        | some failure =>
            constructor
            · rintro ⟨-, last⟩
              refine ⟨fromStart.1 last, ?_⟩
              rintro visit ⟨⟩
            · rintro ⟨finds, -⟩
              refine ⟨⟨same, ?_⟩, fromStart.2 finds⟩
              rintro visit ⟨⟩
        | none =>
            constructor
            · rintro ⟨⟨-, later⟩, last⟩
              have reached : SameInputs inputs store next :=
                sameInputs_next hosts next later last
              exact ⟨fromStart.1 reached, (ih next distinctNext reached).1 ⟨later, last⟩⟩
            · rintro ⟨finds, later⟩
              obtain ⟨visited, last⟩ := (ih next distinctNext (fromStart.2 finds)).2 later
              exact ⟨⟨same, visited⟩, last⟩
  exact both hosts store distinct (.refl inputs store)

end Runs

/-! ## Two clients that share their group variables -/

/-- A client with the role `terraform_stg` and some group variables. -/
def sharedClient (vars : Vars) : Vars :=
  [("enabled", .bool true), ("roles", .list [.str "terraform_stg"]),
    ("ansible_pull", .dict [("group_vars", .dict vars)])]

/-- A host with such a client and one variable for it. -/
def sharedHost (stage : String) (vars : Vars) : Value :=
  .dict [("k3s_observability_apply_stage_name", .str stage),
    ("openwrt_pxe_client", .dict (sharedClient vars))]

/-- Two hosts whose clients have the same `group_vars` object. -/
def sharedInventory (first second : String) : SharedInputs where
  read store := [("rpi4", sharedHost first (store 0)), ("rpi5", sharedHost second (store 0))]
  object hostname := if hostname = "rpi4" ∨ hostname = "rpi5" then some 0 else none
  reads_object := by
    intro store hostname hv cfg inHosts inHost
    have shape : ∀ stage, Value.dict hv = sharedHost stage (store 0) →
        (Mapping.get (ansiblePull cfg) "group_vars").bind asMapping? = some (store 0) := by
      intro stage same
      obtain rfl := Value.dict.inj same
      obtain rfl : _ = cfg := Value.dict.inj (Option.some.inj inHost)
      rfl
    rw [Mapping.get_cons, Mapping.get_cons] at inHosts
    split at inHosts
    next here =>
        rw [if_pos (.inl here.symm)]
        exact shape first (Option.some.inj inHosts).symm
    next =>
        split at inHosts
        next here =>
            rw [if_pos (.inr here.symm)]
            exact shape second (Option.some.inj inHosts).symm
        next => cases inHosts
  reads_distinct := by
    intro store distinct
    have held := distinct 0
    simp only [Value.Distinct] at held
    simp [sharedHost, sharedClient, Value.Distinct, Value.FieldsDistinct, Value.ItemsDistinct, held]
  reads_equal := by
    intro store other equals
    have field : ∀ (name : String) (value : Value), name = name ∧ equal value value = true :=
      fun _ value => ⟨rfl, Value.equal_refl value⟩
    have pull : equal (.dict [("group_vars", .dict (store 0))])
        (.dict [("group_vars", .dict (other 0))]) = true :=
      Value.equal_of_forall₂ (by simp) (.cons ⟨rfl, equals 0⟩ .nil)
    have same : ∀ stage, equal (sharedHost stage (store 0)) (sharedHost stage (other 0)) = true := by
      intro stage
      have client : equal (.dict (sharedClient (store 0))) (.dict (sharedClient (other 0))) = true :=
        Value.equal_of_forall₂ (by simp [sharedClient])
          (.cons (field _ _) (.cons (field _ _) (.cons ⟨rfl, pull⟩ .nil)))
      exact Value.equal_of_forall₂ (by simp) (.cons (field _ _) (.cons ⟨rfl, client⟩ .nil))
    exact Value.equal_of_forall₂ (by simp) (.cons ⟨rfl, same first⟩ (.cons ⟨rfl, same second⟩ .nil))

/-- An object that holds what both clients generate. -/
def heldStore : Store :=
  fun _ => [("role_terraform_stg", .dict [("k3s_observability_apply_stage_name", .str "stg")])]

theorem inputs_kept_sample :
    let _ : UnicodeData := asciiData
    KeepsInputs (sharedInventory "stg" "stg") "router1" (fun _ _ _ => .ok ()) ["rpi4", "rpi5"]
      heldStore := by
  intro _
  refine (inputs_kept_iff (sharedInventory "stg" "stg") "router1" (fun _ _ _ => .ok ())
    ["rpi4", "rpi5"] heldStore ?_).2 ?_
  · intro ref
    simp [heldStore, Value.Distinct, Value.FieldsDistinct]
  · have generated : Held [("k3s_observability_apply_stage_name", .str "stg")]
        [("k3s_observability_apply_stage_name", .str "stg")] :=
      fun _ node found => ⟨node, found, .inl rfl⟩
    have stays : ∀ hostname, hostname = "rpi4" ∨ hostname = "rpi5" →
        visitHost (sharedInventory "stg" "stg") "router1" (fun _ _ _ => .ok ()) hostname heldStore =
          (heldStore, none) := by
      have same := Function.update_eq_self 0 heldStore
      rintro _ (rfl | rfl)
      · exact (by rfl : _ = (Function.update heldStore 0 (heldStore 0), none)).trans (by rw [same])
      · exact (by rfl : _ = (Function.update heldStore 0 (heldStore 0), none)).trans (by rw [same])
    have finds : ∀ hostname, hostname = "rpi4" ∨ hostname = "rpi5" →
        FindsVars (sharedInventory "stg" "stg") "router1" (fun _ _ _ => .ok ()) hostname
          heldStore := by
      intro hostname isHost hv cfg ref client _ _ _
      refine ⟨[("k3s_observability_apply_stage_name", .str "stg")], rfl, ?_⟩
      have host : hv = [("k3s_observability_apply_stage_name", .str "stg"),
          ("openwrt_pxe_client", .dict (sharedClient (heldStore 0)))] := by
        rcases isHost with rfl | rfl
        · exact (Prod.mk.inj (Option.some.inj client)).1.symm
        · exact (Prod.mk.inj (Option.some.inj client)).1.symm
      rw [host]
      exact generated
    rw [visits, stays "rpi4" (.inl rfl)]
    simp only [visits, stays "rpi5" (.inr rfl), List.forall_mem_cons]
    exact ⟨finds _ (.inl rfl), finds _ (.inr rfl),
      fun _ member => absurd member List.not_mem_nil⟩

/-- **A client that generates variables writes them into an object that two clients share.** -/
theorem shared_object_changed :
    let _ : UnicodeData := asciiData
    ¬ KeepsInputs (sharedInventory "stg" "stg") "router1" (fun _ _ _ => .ok ()) ["rpi4", "rpi5"]
      fun _ => [] := by
  intro _ keeps
  have changed : equal (.dict []) (.dict (afterBuild (sharedInventory "stg" "stg") "router1"
      (fun _ _ _ => .ok ()) ["rpi4", "rpi5"] (fun _ => []) 0)) = false := by
    decide +kernel
  have same := keeps.2.2 0
  rw [changed] at same
  cases same

end HomeclusterInfra.PxeCatalog
