import Mathlib.Data.List.Sort
import HomeclusterInfra.Rollout.Records

/-!
# Targets of a phase

Before a rollout touches anything it decides on its targets. A forward phase
reads the records of the phases before it, and `rollback_last_phase` looks for
the last phase whose record recommends a rollback.

The records are those of the accepted generation. The store holds one record
for each runtime phase, and an empty one where the file is missing or
unreadable.
-/

set_option autoImplicit false

namespace HomeclusterInfra.Rollout

open Text Python Checked

/-- What a step of the run raises: a `RolloutError`, for which `main` prints a
result, or another exception, which leaves `main` without one. -/
inductive Raised where
  | rolloutError (reason status : String)
  | other
deriving DecidableEq

/-- `RolloutError(reason)` -/
def blocked (reason : String) : Raised :=
  .rolloutError reason "blocked"

/-- `RolloutError(reason, "unknown")` -/
def unknown (reason : String) : Raised :=
  .rolloutError reason "unknown"

/-! ## The store -/

/-- `rollout-phases/`, as `phase_record` reads it. -/
abbrev Store := RuntimePhase → Dict

/-- The caller stores a record under the name of its phase. -/
def Store.put (store : Store) (record : Dict) : Store :=
  match record.get "phase" with
  | some (.str name) =>
      match RuntimePhase.ofText name.toList with
      | some phase => Function.update store phase record
      | none => store
  | _ => store

/-- `phase_record_for_generation`, where the run id has the form of one. -/
def generationRecord (store : Store) (phase : RuntimePhase) (generation : List Char) : Dict :=
  if getOrNone (store phase) "accepted_generation_run_id" |>.same (.str (String.ofList generation))
  then store phase else []

/-- `phase_record_for_generation` -/
def phaseRecordForGeneration (store : Store) (phase : RuntimePhase) (generation : List Char) :
    Except Raised Dict := do
  require (isSafeRunId generation) (unknown "accepted_generation_run_id_invalid")
  return generationRecord store phase generation

/-- `record.get("acceptance_status") == status` -/
def hasAcceptance (status : String) (record : Dict) : Bool :=
  (getOrNone record "acceptance_status").same (.str status)

/-- The strings among the items of `set(value)`. Other items equal no name. -/
def nameSet : Value → Except Raised (List String)
  | .list items => do
      require (items.all fun item => match item with
        | .list _ | .dict _ => false
        | _ => true) .other
      return items.filterMap fun item => match item with
        | .str name => some name
        | _ => none
  | .str text => .ok (text.toList.map fun char => String.ofList [char])
  | .dict fields => .ok (fields.map Prod.fst)
  | _ => .error .other

/-- What a phase is to work on. -/
structure Policy where
  targets : List String
  rollbackSelectors : Dict
  recordPhase : RuntimePhase

/-- `sorted` on strings. -/
def sortedNames (names : List String) : List String :=
  names.insertionSort (· ≤ ·)

/-- The first `target_policy`, for the phases the second one leaves to it. -/
def originalTargetPolicy (store : Store) (phase : RuntimePhase) (agents : List String)
    (egpuTarget : String) (generation : List Char) : Except Raised Policy := do
  let generic ← phaseRecordForGeneration store .genericCanary generation
  let egpu ← phaseRecordForGeneration store .egpuCanary generation
  let fleet ← phaseRecordForGeneration store .fleetRollout generation
  let fullFleet ← phaseRecordForGeneration store .fullFleet generation
  match phase with
  | .fullFleet =>
      require (!hasAcceptance "pass" fullFleet) (blocked "full_fleet_already_accepted")
      require (!agents.isEmpty && agents.contains egpuTarget)
        (blocked "full_fleet_target_contract_invalid")
      return ⟨agents, [], phase⟩
  | .genericCanary =>
      require (!hasAcceptance "pass" generic) (blocked "generic_canary_already_accepted")
      match sortedNames (agents.filter (· != egpuTarget)) with
      | [] => .error (blocked "generic_canary_target_unavailable")
      | candidate :: _ => return ⟨[candidate], [], phase⟩
  | .egpuCanary =>
      require (hasAcceptance "pass" generic) (blocked "generic_canary_gate_missing")
      require (!hasAcceptance "pass" egpu) (blocked "egpu_canary_already_accepted")
      return ⟨[egpuTarget], [], phase⟩
  | .fleetRollout =>
      require (hasAcceptance "pass" egpu) (blocked "egpu_canary_gate_missing")
      require (!hasAcceptance "pass" fleet) (blocked "fleet_rollout_already_accepted")
      let first ← nameSet ((generic.get "targets").getD (.list []))
      let second ← nameSet ((egpu.get "targets").getD (.list []))
      let targets := agents.filter fun name => !(first ++ second).contains name
      require (!targets.isEmpty) (blocked "fleet_rollout_targets_empty")
      return ⟨targets, [], phase⟩

/-- The record asks for a rollback:
`acceptance_status == "fail" and rollback_recommended is True`. -/
def recommendsRollback (record : Dict) : Bool :=
  hasAcceptance "fail" record &&
    (getOrNone record "rollback_recommended").same (.bool true)

theorem recommendsRollback_iff {record : Dict} : recommendsRollback record = true ↔
    record.get "acceptance_status" = some (.str "fail") ∧
      record.get "rollback_recommended" = some (.bool true) := by
  unfold recommendsRollback hasAcceptance
  rw [Bool.and_eq_true, Value.same_str, Value.same_bool, getOrNone_eq_str, getOrNone_eq_bool]

/-- A record of another generation asks for nothing. -/
theorem recommendsRollback_generationRecord {store : Store} {phase : RuntimePhase}
    {generation : List Char} :
    recommendsRollback (generationRecord store phase generation) = true ↔
      (store phase).get "accepted_generation_run_id" =
        some (.str (String.ofList generation)) ∧ recommendsRollback (store phase) = true := by
  unfold generationRecord
  split
  next same =>
      rw [Value.same_str, getOrNone_eq_str] at same
      simp [same]
  next differs =>
      rw [Value.same_str, getOrNone_eq_str] at differs
      simp only [differs, false_and, iff_false]
      decide

theorem generationRecord_of_recommends {store : Store} {phase : RuntimePhase}
    {generation : List Char}
    (asks : recommendsRollback (generationRecord store phase generation) = true) :
    generationRecord store phase generation = store phase := by
  unfold generationRecord
  rw [if_pos (Value.same_str.mpr (getOrNone_eq_str.mpr
    (recommendsRollback_generationRecord.mp asks).1))]

/-- The last phase of the generation whose record asks for a rollback. -/
def failedPhase (store : Store) (generation : List Char) : Option RuntimePhase :=
  reversedPhases.find? fun phase => recommendsRollback (generationRecord store phase generation)

theorem recommends_of_failedPhase {store : Store} {generation : List Char} {phase : RuntimePhase}
    (found : failedPhase store generation = some phase) :
    recommendsRollback (generationRecord store phase generation) = true := by
  have asks := List.find?_some found
  exact asks

/-- The name of a target that is one of the agents. -/
def agentName (agents : List String) : Value → Option String
  | .str name => if agents.contains name then some name else none
  | _ => none

section Rollback

variable [UnicodeData]

/-- Whether the previous selector of a target has two release names. -/
def selectorUsable (previous : Dict) (target : String) : Bool :=
  match previous.get target with
  | some (.dict selector) =>
      isSelector ((Mapping.get selector "tftp_release").getD (.str "")).text &&
        isSelector ((Mapping.get selector "rootfs_release").getD (.str "")).text
  | _ => false

/-- What a rollback makes of the record it found. -/
def rollbackPolicy (failed : Dict) (agents : List String) : Except Raised Policy :=
  match RuntimePhase.ofText ((failed.get "phase").getD (.str "")).text,
      failed.get "previous_selector_by_node" with
  | some phase, some (.dict previous) => do
      require (!previous.isEmpty) (blocked "known_rollback_unavailable")
      match failed.get "targets" with
      | some (.list items) => do
          let targets := items.filterMap (agentName agents)
          require (!items.isEmpty && targets.length == items.length)
            (unknown "rollback_target_contract_invalid")
          require (targets.all (selectorUsable previous))
            (unknown "rollback_selector_contract_invalid")
          return ⟨targets, previous, phase⟩
      | _ => .error (unknown "rollback_target_contract_invalid")
  | _, _ => .error (blocked "known_rollback_unavailable")

/-- The branch of `target_policy` for `rollback_last_phase`. -/
def rollbackTargetPolicy (store : Store) (agents : List String) (generation : List Char) :
    Except Raised Policy := do
  require (isSafeRunId generation) (unknown "accepted_generation_run_id_invalid")
  match failedPhase store generation with
  | some phase => rollbackPolicy (generationRecord store phase generation) agents
  | none => .error (blocked "known_rollback_unavailable")

/-- `target_policy`, without the flags it resets. -/
def targetPolicy (store : Store) (phase : Phase) (agents : List String) (egpuTarget : String)
    (generation : List Char) : Except Raised Policy :=
  match phase with
  | .forward phase => originalTargetPolicy store phase agents egpuTarget generation
  | .rollbackLastPhase => rollbackTargetPolicy store agents generation

/-! ## What a rollback resolves from -/

/-- A record from which a rollback takes a policy. -/
structure ResolvesFrom (store : Store) (agents : List String) (generation : List Char)
    (policy : Policy) (found : RuntimePhase) : Prop where
  first : failedPhase store generation = some found
  policy : rollbackPolicy (generationRecord store found generation) agents = .ok policy

theorem rollbackTargetPolicy_ok {store : Store} {agents : List String} {generation : List Char}
    {policy : Policy} :
    rollbackTargetPolicy store agents generation = .ok policy ↔
      isSafeRunId generation = true ∧
        ∃ found, ResolvesFrom store agents generation policy found := by
  unfold rollbackTargetPolicy
  rw [require_bind_eq_ok]
  refine and_congr_right fun _ => ?_
  constructor
  · intro resolved
    split at resolved
    next found first => exact ⟨found, first, resolved⟩
    · cases resolved
  · rintro ⟨found, first, resolved⟩
    rw [first]
    exact resolved

end Rollback

end HomeclusterInfra.Rollout
