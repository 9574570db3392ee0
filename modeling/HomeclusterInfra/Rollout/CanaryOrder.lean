import HomeclusterInfra.Rollout.ForwardRuns

/-!
# The order of the canaries

The generic canary runs on one agent, the eGPU canary on the agent with the
eGPU, and the fleet rollout on the agents that remain. The gates of the phases
read what earlier runs and rollbacks left in the store, and the fleet rollout
finds its targets by subtraction from what these records say.

The gates hold together by one fact: a record that passed is never written
over, since no policy resolves to its phase any more. The main result is
`canary_order`.
-/

set_option autoImplicit false

namespace HomeclusterInfra.Rollout

open Text Python Checked Runs

/-! ## Passed phases -/

section Gates

variable {store : Store} {generation : List Char}

/-- The stored record of a phase belongs to the generation. -/
def Stored (store : Store) (generation : List Char) (phase : RuntimePhase) : Prop :=
  (store phase).get "accepted_generation_run_id" = some (.str (String.ofList generation))

/-- The stored record of a phase belongs to the generation and passed. -/
def Accepted (store : Store) (generation : List Char) (phase : RuntimePhase) : Prop :=
  Stored store generation phase ∧
    (store phase).get "acceptance_status" = some (.str "pass")

/-- The phase whose acceptance a phase waits for. -/
def gateOf : RuntimePhase → Option RuntimePhase
  | .egpuCanary => some .genericCanary
  | .fleetRollout => some .egpuCanary
  | .genericCanary | .fullFleet => none

theorem generationRecord_of_stored {phase : RuntimePhase}
    (stored : Stored store generation phase) :
    generationRecord store phase generation = store phase := by
  unfold generationRecord
  rw [if_pos (Value.same_str.mpr (getOrNone_eq_str.mpr stored))]

theorem generationRecord_of_not_stored {phase : RuntimePhase}
    (unstored : ¬ Stored store generation phase) :
    generationRecord store phase generation = [] := by
  unfold generationRecord
  rw [if_neg]
  intro same
  exact unstored (getOrNone_eq_str.mp (Value.same_str.mp same))

/-- The gates read whether a phase is accepted. -/
theorem hasAcceptance_pass_iff {phase : RuntimePhase} :
    hasAcceptance "pass" (generationRecord store phase generation) = true ↔
      Accepted store generation phase := by
  by_cases stored : Stored store generation phase
  · rw [generationRecord_of_stored stored, hasAcceptance, Value.same_str, getOrNone_eq_str]
    exact ⟨fun passed => ⟨stored, passed⟩, And.right⟩
  · rw [generationRecord_of_not_stored stored]
    refine iff_of_false (by decide) fun accepted => stored accepted.1

/-- A record that asks for a rollback has not passed. -/
theorem not_accepted_of_recommends {phase : RuntimePhase}
    (asks : recommendsRollback (generationRecord store phase generation) = true) :
    ¬ Accepted store generation phase := by
  rintro ⟨-, passed⟩
  have failed := (recommendsRollback_iff.mp
    (recommendsRollback_generationRecord.mp asks).2).1
  rw [passed] at failed
  exact absurd (Value.str.inj (Option.some.inj failed)) (by decide)

end Gates

/-! ## The agents -/

/-- The generation that is rolled out and the agents of the inventory. -/
structure Site where
  generation : List Char
  agents : List String
  egpuTarget : String

/-- The targets that the record of a canary has. -/
def CanaryTargets (site : Site) : RuntimePhase → List String → Prop
  | .genericCanary, targets =>
      ∃ candidate ∈ site.agents, candidate ≠ site.egpuTarget ∧ targets = [candidate]
  | .egpuCanary, targets => targets = [site.egpuTarget]
  | .fleetRollout, _ | .fullFleet, _ => True

/-- The records in the store have the order of the phases. -/
structure Ordered (site : Site) (store : Store) : Prop where
  /-- A record is stored under the phase that it names. -/
  named : ∀ phase, Stored store site.generation phase →
    (store phase).get "phase" = some (.str phase.text)
  gated : ∀ phase earlier, Accepted store site.generation phase → gateOf phase = some earlier →
    Accepted store site.generation earlier
  targets : ∀ phase, Accepted store site.generation phase → ∃ targets,
    (store phase).get "targets" = some (.list (targets.map .str)) ∧
      CanaryTargets site phase targets

/-- No record of the generation is stored. -/
def Untouched (site : Site) (store : Store) : Prop :=
  ∀ phase, ¬ Stored store site.generation phase

theorem Ordered.of_untouched {site : Site} {store : Store} (untouched : Untouched site store) :
    Ordered site store where
  named phase stored := absurd stored (untouched phase)
  gated phase _ accepted := absurd accepted.1 (untouched phase)
  targets phase accepted := absurd accepted.1 (untouched phase)

/-- The targets of three phases have no name in common and are all agents. -/
structure Partition (agents generic egpu fleet : List String) : Prop where
  genericEgpu : generic.Disjoint egpu
  genericFleet : generic.Disjoint fleet
  egpuFleet : egpu.Disjoint fleet
  all : ∀ name, name ∈ agents ↔ name ∈ generic ∨ name ∈ egpu ∨ name ∈ fleet

/-! ## What a forward phase resolves to -/

section Forward

variable {site : Site} {store : Store} {names : List String} {policy : Policy}

/-- A list of names is read back as the set of them. -/
theorem nameSet_names (targets : List String) :
    nameSet (.list (targets.map .str)) = .ok targets := by
  simp only [nameSet, bind_eq_ok, require_eq_ok, pure_eq_ok, exists_const]
  constructor
  · rw [List.all_eq_true]
    intro item member
    obtain ⟨name, -, rfl⟩ := List.mem_map.mp member
    rfl
  · rw [List.filterMap_map]
    exact List.filterMap_some

/-- What the gates of a forward phase let through. -/
structure Gated (store : Store) (generation : List Char) (phase : RuntimePhase) : Prop where
  pending : ¬ Accepted store generation phase
  after : ∀ earlier, gateOf phase = some earlier → Accepted store generation earlier

theorem not_accepted_of_require {generation : List Char} {phase : RuntimePhase}
    (pending : (!hasAcceptance "pass" (generationRecord store phase generation)) = true) :
    ¬ Accepted store generation phase := by
  rw [← hasAcceptance_pass_iff, Bool.not_eq_true]
  exact (Bool.not_eq_true' _).mp pending

/-- Records of a generation with the form of one are read as they are. -/
theorem phaseRecordForGeneration_ok {phase : RuntimePhase} {generation : List Char}
    {record : Dict} :
    phaseRecordForGeneration store phase generation = .ok record ↔
      isSafeRunId generation = true ∧ record = generationRecord store phase generation := by
  simp only [phaseRecordForGeneration, bind_eq_ok, require_eq_ok, pure_eq_ok, exists_const]
  exact and_congr_right fun _ => ⟨Eq.symm, Eq.symm⟩

theorem gated_of_originalTargetPolicy {egpuTarget : String} {generation : List Char}
    {phase : RuntimePhase}
    (resolved : originalTargetPolicy store phase names egpuTarget generation = .ok policy) :
    Gated store generation phase := by
  simp only [originalTargetPolicy, bind_eq_ok, phaseRecordForGeneration_ok] at resolved
  obtain ⟨_, ⟨-, rfl⟩, _, ⟨-, rfl⟩, _, ⟨-, rfl⟩, _, ⟨-, rfl⟩, resolved⟩ := resolved
  cases phase with
  | genericCanary =>
      obtain ⟨_, pending, -⟩ := bind_eq_ok.mp resolved
      refine ⟨not_accepted_of_require (require_eq_ok.mp pending), ?_⟩
      rintro earlier ⟨⟩
  | egpuCanary =>
      simp only [bind_eq_ok, require_eq_ok] at resolved
      obtain ⟨-, gate, -, pending, -⟩ := resolved
      refine ⟨not_accepted_of_require pending, ?_⟩
      rintro earlier ⟨⟩
      exact hasAcceptance_pass_iff.mp gate
  | fleetRollout =>
      simp only [bind_eq_ok, require_eq_ok] at resolved
      obtain ⟨-, gate, -, pending, -⟩ := resolved
      refine ⟨not_accepted_of_require pending, ?_⟩
      rintro earlier ⟨⟩
      exact hasAcceptance_pass_iff.mp gate
  | fullFleet =>
      obtain ⟨_, pending, -⟩ := bind_eq_ok.mp resolved
      refine ⟨not_accepted_of_require (require_eq_ok.mp pending), ?_⟩
      rintro earlier ⟨⟩

/-- The canaries resolve to the targets of a canary. -/
theorem canaryTargets_of_originalTargetPolicy {phase : RuntimePhase} {fleet : List String}
    (resolved : originalTargetPolicy store phase (policyTargets (.forward phase) fleet site.agents)
      site.egpuTarget site.generation = .ok policy) :
    CanaryTargets site phase policy.targets := by
  simp only [originalTargetPolicy, bind_eq_ok, phaseRecordForGeneration_ok] at resolved
  obtain ⟨_, ⟨-, rfl⟩, _, ⟨-, rfl⟩, _, ⟨-, rfl⟩, _, ⟨-, rfl⟩, resolved⟩ := resolved
  cases phase with
  | genericCanary =>
      obtain ⟨-, -, resolved⟩ := bind_eq_ok.mp resolved
      split at resolved
      · cases resolved
      next candidate rest sorted =>
          rw [pure_eq_ok] at resolved
          subst resolved
          have member : candidate ∈ sortedNames (site.agents.filter (· != site.egpuTarget)) := by
            rw [show sortedNames (site.agents.filter (· != site.egpuTarget)) =
              candidate :: rest from sorted]
            exact List.mem_cons_self
          obtain ⟨agent, apart⟩ := List.mem_filter.mp ((List.mem_insertionSort _).mp member)
          exact ⟨candidate, agent, bne_iff_ne.mp apart, rfl⟩
  | egpuCanary =>
      simp only [bind_eq_ok, pure_eq_ok] at resolved
      obtain ⟨-, -, -, -, rfl⟩ := resolved
      rfl
  | fleetRollout => trivial
  | fullFleet => trivial

/-- **The fleet rollout resolves to the agents that the canaries left**, where
the records are in order. -/
theorem partition_of_fleetRollout (ordered : Ordered site store)
    (egpuAgent : site.egpuTarget ∈ site.agents)
    (resolved : originalTargetPolicy store .fleetRollout site.agents site.egpuTarget
      site.generation = .ok policy) :
    ∃ generic egpu,
      (store .genericCanary).get "targets" = some (.list (generic.map .str)) ∧
      (store .egpuCanary).get "targets" = some (.list (egpu.map .str)) ∧
      Partition site.agents generic egpu policy.targets := by
  have egpuAccepted := (gated_of_originalTargetPolicy resolved).after .egpuCanary rfl
  have genericAccepted := ordered.gated _ _ egpuAccepted rfl
  obtain ⟨generic, genericListed, candidate, agent, apart, rfl⟩ :=
    ordered.targets _ genericAccepted
  obtain ⟨egpu, egpuListed, rfl⟩ := ordered.targets _ egpuAccepted
  refine ⟨[candidate], [site.egpuTarget], genericListed, egpuListed, ?_⟩
  simp only [originalTargetPolicy, bind_eq_ok, phaseRecordForGeneration_ok] at resolved
  obtain ⟨_, ⟨-, rfl⟩, _, ⟨-, rfl⟩, _, ⟨-, rfl⟩, _, ⟨-, rfl⟩, _, -, _, -, first, firstRead,
    second, secondRead, _, -, resolved⟩ := resolved
  rw [generationRecord_of_stored genericAccepted.1, genericListed, Option.getD_some,
    nameSet_names] at firstRead
  rw [generationRecord_of_stored egpuAccepted.1, egpuListed, Option.getD_some,
    nameSet_names] at secondRead
  obtain rfl := Except.ok.inj firstRead
  obtain rfl := Except.ok.inj secondRead
  rw [pure_eq_ok] at resolved
  subst resolved
  have remaining : ∀ name, name ∈ site.agents.filter (fun name =>
      !([candidate] ++ [site.egpuTarget]).contains name) ↔
        name ∈ site.agents ∧ name ≠ candidate ∧ name ≠ site.egpuTarget := by
    intro name
    simp [List.mem_filter]
  constructor
  · rw [List.disjoint_singleton, List.mem_singleton]
    exact Ne.symm apart
  · intro name first second
    exact ((remaining name).mp second).2.1 (List.mem_singleton.mp first)
  · intro name first second
    exact ((remaining name).mp second).2.2 (List.mem_singleton.mp first)
  · intro name
    rw [remaining, List.mem_singleton, List.mem_singleton]
    constructor
    · intro member
      by_cases first : name = candidate
      · exact .inl first
      · by_cases second : name = site.egpuTarget
        · exact .inr (.inl second)
        · exact .inr (.inr ⟨member, first, second⟩)
    · rintro (rfl | rfl | remains)
      · exact agent
      · exact egpuAgent
      · exact remains.1

end Forward

/-! ## What a rollback resolves to -/

section Rollback

variable [UnicodeData] {site : Site} {store : Store} {names : List String} {policy : Policy}

/-- A rollback resolves to a phase that is not accepted. -/
theorem pending_of_rollbackTargetPolicy (ordered : Ordered site store)
    (resolved : rollbackTargetPolicy store names site.generation = .ok policy) :
    ¬ Accepted store site.generation policy.recordPhase := by
  obtain ⟨-, found, first, taken⟩ := rollbackTargetPolicy_ok.mp resolved
  have asks := recommends_of_failedPhase first
  have stored : Stored store site.generation found :=
    (recommendsRollback_generationRecord.mp asks).1
  rw [generationRecord_of_recommends asks] at taken
  obtain ⟨name, named, phase⟩ := (rollbackPolicy_ok taken).phase
  rw [ordered.named found stored] at named
  obtain rfl := Option.some.inj named
  rw [Value.text, RuntimePhase.ofText_text] at phase
  rw [← Option.some.inj phase]
  exact not_accepted_of_recommends asks

/-- **No policy resolves to a phase that is accepted.** -/
theorem pending_of_targetPolicy (ordered : Ordered site store) {phase : Phase} {egpuTarget : String}
    (resolved : targetPolicy store phase names egpuTarget site.generation = .ok policy) :
    ¬ Accepted store site.generation policy.recordPhase := by
  cases phase with
  | forward phase =>
      rw [(isSafeRunId_of_originalTargetPolicy resolved).2]
      exact (gated_of_originalTargetPolicy resolved).pending
  | rollbackLastPhase => exact pending_of_rollbackTargetPolicy ordered resolved

/-! ## What a run leaves -/

/-- The run finds this generation and this inventory, if it finds any. -/
structure AtSite (site : Site) (env : Env) : Prop where
  generation : ∀ accepted, latestAccepted env.preflight = .ok accepted →
    generationOf accepted = site.generation
  inventory : ∀ agents egpuTarget,
    inventoryTargets env.preflight.inventory = .ok (agents, egpuTarget) →
      agents = site.agents ∧ egpuTarget = site.egpuTarget

/-- The record that a run leaves in the store. -/
structure Leaves (site : Site) (store : Store) (phase : Phase) (policy : Policy) (record : Dict) :
    Prop where
  resolved : ∃ fleet, targetPolicy store phase (policyTargets phase fleet site.agents)
    site.egpuTarget site.generation = .ok policy
  named : record.get "phase" = some (.str policy.recordPhase.text)
  targets : record.get "targets" = some (.list (policy.targets.map .str))
  forward : record.get "acceptance_status" = some (.str "pass") → phase ≠ .rollbackLastPhase

omit [UnicodeData] in
theorem requestedAcceptance_ne_pass {accepted : Bool} :
    requestedAcceptance .rollbackLastPhase accepted ≠ "pass" := by
  cases accepted <;> decide

/-- A run leaves the store as it is, or leaves the record of its policy. -/
theorem storeAfter_cases {env : Env} {phase : Phase} (atSite : AtSite site env) :
    storeAfter env store phase = store ∨ ∃ policy record,
      Leaves site store phase policy record ∧
        storeAfter env store phase = Function.update store policy.recordPhase record := by
  cases left : (main env store phase).bind Result.phaseRecord with
  | none =>
      refine .inl ?_
      rw [storeAfter, left]
  | some record =>
      obtain ⟨result, printed, recorded⟩ := Option.bind_eq_some_iff.mp left
      obtain ⟨plan, reported, planned, -, ending⟩ := ending_of_record printed recorded
      obtain ⟨latest, egpuTarget, fleet, targets, -, resolved⟩ := preflight_ok planned
      obtain ⟨sameAgents, rfl⟩ := atSite.inventory _ _ targets
      rw [atSite.generation _ latest, sameAgents] at resolved
      refine .inr ⟨plan.policy, record, ?_, ?_⟩
      · have action : ∀ changed : Globals, changed.currentAction = some phase →
            ∀ requested runId, (phase = .rollbackLastPhase → requested ≠ "pass") →
              record = phaseRecordValue changed (recordArgs env plan reported runId requested) →
                Leaves site store phase plan.policy record := by
          rintro changed action requested runId other rfl
          have reads := phaseRecordValue_readsAs changed
            (recordArgs env plan reported runId requested)
          refine ⟨⟨fleet, resolved⟩, reads.phase, reads.targets, ?_⟩
          rintro passed rfl
          rw [reads.acceptance] at passed
          simp only [verdict, action, if_true, Option.some.injEq, Value.str.injEq] at passed
          exact other rfl passed
        cases ending with
        | selectorFailed _ written => exact action _ rfl _ _ (fun _ => by decide) written
        | bootFailed _ _ _ _ written => exact action _ rfl _ _ (fun _ => by decide) written
        | decided _ _ _ written =>
            refine action _ rfl _ _ ?_ written
            rintro rfl
            exact requestedAcceptance_ne_pass
      · rw [storeAfter_of_record printed recorded, ending.put_eq]

/-- A record that passed is left by a forward run of its phase. -/
theorem Leaves.passed {phase : Phase} {record : Dict}
    (leaves : Leaves site store phase policy record)
    (passed : record.get "acceptance_status" = some (.str "pass")) :
    Gated store site.generation policy.recordPhase ∧
      CanaryTargets site policy.recordPhase policy.targets := by
  obtain ⟨fleet, resolved⟩ := leaves.resolved
  cases phase with
  | rollbackLastPhase => exact absurd rfl (leaves.forward passed)
  | forward phase =>
      rw [(isSafeRunId_of_originalTargetPolicy resolved).2]
      exact ⟨gated_of_originalTargetPolicy resolved, canaryTargets_of_originalTargetPolicy resolved⟩

theorem Leaves.pending {phase : Phase} {record : Dict} (ordered : Ordered site store)
    (leaves : Leaves site store phase policy record) :
    ¬ Accepted store site.generation policy.recordPhase := by
  obtain ⟨fleet, resolved⟩ := leaves.resolved
  exact pending_of_targetPolicy ordered resolved

section Update

omit [UnicodeData]

variable {written phase : RuntimePhase} {record : Dict}

theorem accepted_update_of_ne (apart : phase ≠ written) :
    Accepted (Function.update store written record) site.generation phase ↔
      Accepted store site.generation phase := by
  unfold Accepted Stored
  rw [Function.update_of_ne apart]

/-- What is accepted stays accepted when a pending phase is written. -/
theorem Accepted.update (accepted : Accepted store site.generation phase)
    (pending : ¬ Accepted store site.generation written) :
    Accepted (Function.update store written record) site.generation phase := by
  have apart : phase ≠ written := by
    rintro rfl
    exact pending accepted
  exact (accepted_update_of_ne apart).mpr accepted

end Update

/-- The step of the run: the record of a run keeps the order. -/
theorem Ordered.update {phase : Phase} {record : Dict} (ordered : Ordered site store)
    (leaves : Leaves site store phase policy record) :
    Ordered site (Function.update store policy.recordPhase record) := by
  have pending := leaves.pending ordered
  constructor
  · intro other stored
    by_cases same : other = policy.recordPhase
    · rw [same, Function.update_self, leaves.named]
    · rw [Stored, Function.update_of_ne same] at stored
      rw [Function.update_of_ne same]
      exact ordered.named other stored
  · intro other earlier accepted gate
    by_cases same : other = policy.recordPhase
    · subst same
      rw [Accepted, Function.update_self] at accepted
      exact ((leaves.passed accepted.2).1.after earlier gate).update pending
    · exact (ordered.gated other earlier ((accepted_update_of_ne same).mp accepted) gate).update
        pending
  · intro other accepted
    by_cases same : other = policy.recordPhase
    · subst same
      rw [Accepted, Function.update_self] at accepted
      refine ⟨policy.targets, ?_, (leaves.passed accepted.2).2⟩
      rw [Function.update_self, leaves.targets]
    · rw [Function.update_of_ne same]
      exact ordered.targets other ((accepted_update_of_ne same).mp accepted)

/-! ## Runs of the phases -/

/-- A run of a phase, with what it meets. -/
structure PhaseRun where
  env : Env
  phase : Phase

/-- The store after one run more. -/
def afterRun (store : Store) (run : PhaseRun) : Store :=
  storeAfter run.env store run.phase

/-- The store after runs. -/
def afterRuns (store : Store) (runs : List PhaseRun) : Store :=
  runs.foldl afterRun store

theorem afterRuns_append (store : Store) (before later : List PhaseRun) :
    afterRuns store (before ++ later) = afterRuns (afterRuns store before) later :=
  List.foldl_append

/-- The step: one run keeps the order and what is accepted. -/
theorem Ordered.afterRun {run : PhaseRun} (ordered : Ordered site store)
    (atSite : AtSite site run.env) :
    Ordered site (afterRun store run) ∧ ∀ phase, Accepted store site.generation phase →
      Accepted (Rollout.afterRun store run) site.generation phase := by
  rcases @storeAfter_cases _ site store run.env run.phase atSite with
    same | ⟨policy, record, leaves, after⟩
  · rw [Rollout.afterRun, same]
    exact ⟨ordered, fun _ accepted => accepted⟩
  · rw [Rollout.afterRun, after]
    exact ⟨ordered.update leaves, fun _ accepted => accepted.update (leaves.pending ordered)⟩

/-- The run: any number of runs keep the order and what is accepted. -/
theorem Ordered.afterRuns {runs : List PhaseRun} (ordered : Ordered site store)
    (atSite : ∀ run ∈ runs, AtSite site run.env) :
    Ordered site (afterRuns store runs) ∧ ∀ phase, Accepted store site.generation phase →
      Accepted (Rollout.afterRuns store runs) site.generation phase := by
  induction runs generalizing store with
  | nil => exact ⟨ordered, fun _ accepted => accepted⟩
  | cons run runs ih =>
      obtain ⟨next, kept⟩ := ordered.afterRun (atSite run List.mem_cons_self)
      obtain ⟨last, keptLast⟩ := ih next fun other member =>
        atSite other (List.mem_cons_of_mem run member)
      exact ⟨last, fun phase accepted => keptLast phase (kept phase accepted)⟩

/-- The canaries are in order in a store: what each phase may resolve to. -/
structure CanaryOrder (site : Site) (store : Store) : Prop where
  fleetRollout : ∀ policy, targetPolicy store (.forward .fleetRollout) site.agents
      site.egpuTarget site.generation = .ok policy →
    Accepted store site.generation .genericCanary ∧
      Accepted store site.generation .egpuCanary ∧
      ∃ generic egpu,
        (store .genericCanary).get "targets" = some (.list (generic.map .str)) ∧
        (store .egpuCanary).get "targets" = some (.list (egpu.map .str)) ∧
        Partition site.agents generic egpu policy.targets
  egpuCanary : ∀ policy, targetPolicy store (.forward .egpuCanary) site.agents
      site.egpuTarget site.generation = .ok policy →
    Accepted store site.generation .genericCanary

/-- **The canaries run in order and share the agents out.** After any runs of the
phases the fleet rollout resolves only after both canaries, to the agents they
left, and the eGPU canary only after the generic one. A phase that was accepted
once is not resolved again. -/
theorem canary_order (site : Site) (egpuAgent : site.egpuTarget ∈ site.agents) (store : Store)
    (untouched : Untouched site store) (runs : List PhaseRun)
    (atSite : ∀ run ∈ runs, AtSite site run.env) :
    CanaryOrder site (afterRuns store runs) ∧
      ∀ before later, runs = before ++ later → ∀ phase,
        Accepted (afterRuns store before) site.generation phase →
          ∀ action names policy, targetPolicy (afterRuns store runs) action names site.egpuTarget
            site.generation = .ok policy → policy.recordPhase ≠ phase := by
  have ordered : Ordered site (afterRuns store runs) :=
    ((Ordered.of_untouched untouched).afterRuns atSite).1
  refine ⟨⟨fun policy resolved => ?_, fun policy resolved => ?_⟩, ?_⟩
  · rw [targetPolicy] at resolved
    have egpu := (gated_of_originalTargetPolicy resolved).after .egpuCanary rfl
    exact ⟨ordered.gated _ _ egpu rfl, egpu, partition_of_fleetRollout ordered egpuAgent resolved⟩
  · rw [targetPolicy] at resolved
    exact (gated_of_originalTargetPolicy resolved).after .genericCanary rfl
  · rintro before later rfl phase accepted action names policy resolved rfl
    have start := ((Ordered.of_untouched untouched).afterRuns
      fun run member => atSite run (List.mem_append_left later member)).1
    have still := (start.afterRuns
      fun run member => atSite run (List.mem_append_right before member)).2 _ accepted
    rw [← afterRuns_append] at still
    exact pending_of_targetPolicy ordered resolved still

section Fixtures

omit [UnicodeData]

/-- Three agents, one of them with the eGPU. -/
def fixtureSite : Site where
  generation := "20260801T000000Z-a".toList
  agents := ["agent-a", "agent-b", "agent-e"]
  egpuTarget := "agent-e"

/-- A run that is accepted where the inventory has these agents. -/
def fixtureCanary : Env :=
  { fixtureEnv (fixtureApplied "20260701-rpi5" "20260801-rpi5") (fixtureBoot "pass")
      (fixtureAcceptance 0) with
    preflight := { fixturePreflight with
      inventory := ⟨prints "", some (.dict [
        ("k3s_stg_agents", .dict [
          ("hosts", .list [.str "agent-b", .str "agent-e", .str "agent-a"])]),
        ("rpi5_egpu_artifact_bundle", .dict [("hosts", .list [.str "agent-e"])])])⟩ } }

/-- The two canaries, the second one tried too early at first. -/
def fixtureCanaries : List PhaseRun :=
  [⟨fixtureCanary, .forward .egpuCanary⟩, ⟨fixtureCanary, .forward .genericCanary⟩,
    ⟨fixtureCanary, .forward .egpuCanary⟩]

theorem fixtureCanary_atSite : @AtSite asciiData fixtureSite fixtureCanary := by
  let _ : UnicodeData := asciiData
  constructor
  · intro accepted latest
    obtain rfl := Except.ok.inj latest
    rfl
  · intro agents egpuTarget targets
    obtain ⟨rfl, rfl⟩ := Prod.mk.inj (Except.ok.inj targets)
    decide +kernel

theorem canary_order_fixture :
    ∃ (_ : UnicodeData) (policy : Policy), targetPolicy (afterRuns (fun _ => []) fixtureCanaries)
      (.forward .fleetRollout) fixtureSite.agents fixtureSite.egpuTarget fixtureSite.generation =
        .ok policy ∧ CanaryOrder fixtureSite (afterRuns (fun _ => []) fixtureCanaries) := by
  let _ : UnicodeData := asciiData
  obtain ⟨policy, resolved⟩ := exists_of_isSome (show
    (targetPolicy (afterRuns (fun _ => []) fixtureCanaries) (.forward .fleetRollout)
      fixtureSite.agents fixtureSite.egpuTarget fixtureSite.generation).toOption.isSome = true by
        decide +kernel)
  refine ⟨asciiData, policy, resolved, (canary_order fixtureSite (by decide) (fun _ => [])
    (fun phase stored => nomatch stored) fixtureCanaries fun run member => ?_).1⟩
  simp only [fixtureCanaries, List.mem_cons, List.not_mem_nil, or_false] at member
  rcases member with rfl | rfl | rfl
  · exact fixtureCanary_atSite
  · exact fixtureCanary_atSite
  · exact fixtureCanary_atSite

end Fixtures

end Rollback

end HomeclusterInfra.Rollout
