import HomeclusterInfra.Rollout.AfterMutation

/-!
# When a rollback is recommended

The verdict of a phase record is read from flags that several steps set. Over a
whole run they come down to three endings: the selector playbook failed, the
boot did not pass, or the acceptance of the phase was run. Only in the last one
a rollback can be recommended.

A rollback in turn takes its targets and selectors from one record of the
accepted generation that recommends it.
-/

set_option autoImplicit false

namespace HomeclusterInfra.Rollout

open Text Python Checked

/-! ## Endings -/

theorem isStamp_ne_nil {text : List Char} (stamp : isStamp text = true) : text ≠ [] := by
  rintro rfl
  exact absurd stamp (by decide)

/-- The wait helper's last word is a word. -/
theorem watch_ne_nil {replies : List RunReply} {status : List Char}
    (watched : watch replies = .ok status) : status ≠ [] := by
  induction replies with
  | nil =>
      obtain rfl := Except.ok.inj watched
      decide
  | cons reply replies ih =>
      rw [watch, bind_eq_ok] at watched
      obtain ⟨completed, -, watched⟩ := watched
      simp only at watched
      split at watched
      · exact ih watched
      · split at watched
        next known =>
            obtain rfl := Except.ok.inj watched
            intro empty
            rw [empty] at known
            exact absurd known (by decide)
        · obtain rfl := Except.ok.inj watched
          decide

theorem runFreshBoot_ne_nil {env : FreshBootEnv} {runId status : List Char}
    (booted : runFreshBoot env = .ok (runId, status)) : runId ≠ [] ∧ status ≠ [] := by
  obtain ⟨-, -, -, ⟨completed, -, -, stamp, rfl⟩, watched, -⟩ := runFreshBoot_ok.mp booted
  exact ⟨isStamp_ne_nil stamp, watch_ne_nil watched⟩

/-! ## Verdicts of a forward phase -/

section Verdict

variable {globals : Globals} {args : RecordArgs} {phase : RuntimePhase}

/-- A run whose selector playbook failed recommends nothing. -/
theorem verdict_selectorFailed (action : globals.currentAction = some (.forward phase))
    (unbooted : args.freshBootRunId = []) (requested : args.acceptanceStatus = "fail") :
    (verdict globals args).rollbackRecommended = false ∧
      (verdict globals args).acceptanceStatus = "selector_failed" := by
  simp [verdict, action, unbooted, requested]

/-- A boot that did not pass is no reason for a rollback. -/
theorem verdict_bootFailed (action : globals.currentAction = some (.forward phase))
    (booted : args.freshBootRunId ≠ []) (known : globals.lastFreshBootStatus ≠ [])
    (failed : globals.lastFreshBootStatus ≠ "pass".toList) :
    (verdict globals args).rollbackRecommended = false ∧
      (verdict globals args).acceptanceStatus =
        String.ofList ("reboot_".toList ++ globals.lastFreshBootStatus) := by
  have branch : (!globals.lastFreshBootStatus.isEmpty &&
      globals.lastFreshBootStatus != "pass".toList) = true := by
    rw [Bool.and_eq_true, Bool.not_eq_true', List.isEmpty_eq_false_iff, bne_iff_ne]
    exact ⟨known, failed⟩
  simp only [verdict, action, branch]
  simp [booted]

/-- After a boot that passed, a rejected phase recommends a rollback exactly when
a selector changed. -/
theorem verdict_rejected (action : globals.currentAction = some (.forward phase))
    (booted : args.freshBootRunId ≠ []) (passed : globals.lastFreshBootStatus = "pass".toList)
    (requested : args.acceptanceStatus = "fail") :
    (verdict globals args).rollbackRecommended =
        selectorsChanged args.targets args.selectorResult ∧
      (verdict globals args).acceptanceStatus = "fail" ∧
      (verdict globals args).rebootAcceptanceStatus = "pass" := by
  simp [verdict, action, booted, passed, requested]

/-- An accepted phase recommends nothing. -/
theorem verdict_accepted (action : globals.currentAction = some (.forward phase))
    (booted : args.freshBootRunId ≠ []) (passed : globals.lastFreshBootStatus = "pass".toList)
    (requested : args.acceptanceStatus = "pass")
    (accepted : globals.lastKernelAcceptance = some true) :
    (verdict globals args).rollbackRecommended = false ∧
      (verdict globals args).acceptanceStatus = "pass" := by
  simp [verdict, action, booted, passed, requested, accepted]

end Verdict

section Runs

variable [UnicodeData]

/-- The selector playbook exited with 0 and reported that it applied the
selectors, and the boot after it passed. -/
structure BootPassed (env : Env) (reported : Dict) : Prop where
  succeeded : ∃ apply, env.selector.apply = .completed apply ∧ apply.returncode = 0
  applied : hasStatus "applied" reported = true
  booted : ∃ runId, runFreshBoot env.freshBoot = .ok (runId, "pass".toList)

/-- The ending of a run that leaves a phase record. -/
inductive Ending (env : Env) (phase : Phase) (plan : Plan) (reported : Dict) (record : Dict) :
    Prop where
  | selectorFailed (unbooted : ¬ BootPassed env reported)
      (written : record = phaseRecordValue (selectorGlobals env phase plan)
        (recordArgs env plan reported [] "fail"))
  | bootFailed {runId status : List Char} (unbooted : ¬ BootPassed env reported)
      (named : runId ≠ []) (known : status ≠ []) (failed : status ≠ "pass".toList)
      (written : record = phaseRecordValue ((selectorGlobals env phase plan).withBoot status)
        (recordArgs env plan reported runId "fail"))
  | decided {runId : List Char} {accepted : Bool} (booted : BootPassed env reported)
      (named : runId ≠ []) (accepts : acceptPhase env.acceptance phase = .ok accepted)
      (written : record = phaseRecordValue
        (((selectorGlobals env phase plan).withBoot "pass".toList).withAcceptance accepted)
        (recordArgs env plan reported runId (requestedAcceptance phase accepted)))

/-- **Every run that leaves a record has one of three endings.** -/
theorem ending_of_record {env : Env} {store : Store} {phase : Phase} {result : Result}
    {record : Dict} (printed : main env store phase = some result)
    (recorded : result.phaseRecord = some record) :
    ∃ plan reported, preflight env.preflight store phase = .ok plan ∧
      readResult env.selector.resultFile = .ok reported ∧
      Ending env phase plan reported record := by
  obtain ⟨plan, planned, -, -, -, apply, ran, reported, read, -, ends⟩ :=
    rollout_ok.mp (main_of_record printed recorded)
  refine ⟨plan, reported, planned, read, ?_⟩
  split at ends
  next failed =>
      obtain rfl := Except.ok.inj ends
      refine .selectorFailed (fun passed => ?_) (Option.some.inj recorded).symm
      obtain ⟨apply', ran', zero⟩ := passed.succeeded
      obtain rfl := RunReply.completed.inj (ran.symm.trans ran')
      simp [zero, passed.applied] at failed
  next applied =>
      simp only [Bool.or_eq_true, bne_iff_ne, ne_eq, Bool.not_eq_true', not_or, not_not,
        Bool.not_eq_false] at applied
      obtain ⟨runId, status, booted, ends⟩ := (bootAndAccept_ok rfl).mp ends
      obtain ⟨named, known⟩ := runFreshBoot_ne_nil booted
      rcases ends with ⟨failed, rfl⟩ | ⟨rfl, -, -, accepted, accepts, rfl⟩
      · refine .bootFailed (fun passed => ?_) named known failed (Option.some.inj recorded).symm
        obtain ⟨runId', booted'⟩ := passed.booted
        exact failed (Prod.mk.inj (Except.ok.inj (booted.symm.trans booted'))).2
      · exact .decided ⟨⟨apply, ran, applied.1⟩, applied.2, runId, booted⟩ named accepts
          (Option.some.inj recorded).symm

/-! ## What a rollback resolves to -/

/-- A plan has the accepted generation and a policy resolved for it. -/
theorem preflight_ok {env : PreflightEnv} {store : Store} {phase : Phase} {plan : Plan}
    (planned : preflight env store phase = .ok plan) :
    latestAccepted env = .ok plan.accepted ∧
      ∃ egpuTarget fleet, inventoryTargets env.inventory = .ok (plan.agents, egpuTarget) ∧
        env.fleet = .ok fleet ∧
        targetPolicy store phase (policyTargets phase fleet plan.agents) egpuTarget
          (generationOf plan.accepted) = .ok plan.policy := by
  simp only [preflight, bind_eq_ok, pure_eq_ok, require_eq_ok, transition_eq_ok,
    exists_const] at planned
  obtain ⟨-, -, -, -, -, branch, -, dirty, -, -, -, expected, -, accepted, latest, -,
    ⟨names, egpuTarget⟩, targets, fleet, fleetOk, policy, resolved, -, -, -, -, -, rfl⟩ := planned
  exact ⟨latest, egpuTarget, fleet, targets, fleetOk, resolved⟩

omit [UnicodeData] in
/-- As many names as items means that the items are these names. -/
theorem eq_map_of_length {agents : List String} :
    ∀ {items : List Value},
      (items.filterMap (agentName agents)).length = items.length →
        items = (items.filterMap (agentName agents)).map .str := by
  intro items
  induction items with
  | nil => simp
  | cons item items ih =>
      intro full
      have short := List.length_filterMap_le (agentName agents) items
      cases named : agentName agents item with
      | none =>
          rw [List.filterMap_cons_none named, List.length_cons] at full
          omega
      | some name =>
          rw [List.filterMap_cons_some named] at full ⊢
          have rest := ih (Nat.succ.inj full)
          have same : item = .str name := by
            unfold agentName at named
            split at named
            · split at named
              · rw [Option.some.inj named]
              · cases named
            · cases named
          rw [List.map_cons, ← rest, same]

/-- What a rollback takes from the record it found. -/
structure TakenFrom (record : Dict) (policy : Policy) : Prop where
  phase : ∃ name, record.get "phase" = some name ∧
    RuntimePhase.ofText name.text = some policy.recordPhase
  previous : record.get "previous_selector_by_node" = some (.dict policy.rollbackSelectors)
  targets : record.get "targets" = some (.list (policy.targets.map .str))
  usable : ∀ target ∈ policy.targets, selectorUsable policy.rollbackSelectors target = true

theorem rollbackPolicy_ok {record : Dict} {agents : List String} {policy : Policy}
    (resolved : rollbackPolicy record agents = .ok policy) : TakenFrom record policy := by
  unfold rollbackPolicy at resolved
  split at resolved
  next phase previous named recorded =>
      obtain ⟨-, -, resolved⟩ := bind_eq_ok.mp resolved
      split at resolved
      next items listed =>
          simp only [bind_eq_ok, require_eq_ok, pure_eq_ok, exists_const, Bool.and_eq_true,
            beq_iff_eq] at resolved
          obtain ⟨⟨-, full⟩, usable, rfl⟩ := resolved
          refine ⟨?_, recorded, ?_, fun target member => List.all_eq_true.mp usable target member⟩
          · cases present : record.get "phase" with
            | none =>
                rw [present] at named
                cases named
            | some name =>
                rw [present] at named
                exact ⟨name, rfl, named⟩
          · rw [listed]
            exact congrArg (fun list => some (Value.list list)) (eq_map_of_length full)
      · cases resolved
  · cases resolved

omit [UnicodeData] in
theorem filterMap_agentName {agents names : List String} (known : ∀ name ∈ names, name ∈ agents) :
    (names.map Value.str).filterMap (agentName agents) = names := by
  rw [List.filterMap_map]
  calc names.filterMap (agentName agents ∘ Value.str)
      = names.filterMap some := by
        apply List.filterMap_congr
        intro name member
        simp [agentName, known name member]
    _ = names := List.filterMap_some

omit [UnicodeData] in
theorem mem_agents_of_agentName {agents : List String} {item : Value} {name : String}
    (named : agentName agents item = some name) : name ∈ agents := by
  unfold agentName at named
  split at named
  · split at named
    next known =>
        rw [← Option.some.inj named]
        exact List.contains_iff_mem.mp known
    · cases named
  · cases named

/-- A policy that is taken from a record has targets, and they are agents. -/
theorem targets_of_rollbackPolicy {record : Dict} {agents : List String} {policy : Policy}
    (resolved : rollbackPolicy record agents = .ok policy) :
    policy.targets ≠ [] ∧ ∀ target ∈ policy.targets, target ∈ agents := by
  unfold rollbackPolicy at resolved
  split at resolved
  next =>
      obtain ⟨-, -, resolved⟩ := bind_eq_ok.mp resolved
      split at resolved
      next items listed =>
          simp only [bind_eq_ok, require_eq_ok, pure_eq_ok, exists_const, Bool.and_eq_true,
            beq_iff_eq, Bool.not_eq_true', List.isEmpty_eq_false_iff] at resolved
          obtain ⟨⟨filled, full⟩, -, rfl⟩ := resolved
          refine ⟨fun empty => filled ?_, fun target member => ?_⟩
          · exact List.length_eq_zero_iff.mp (full.symm.trans (congrArg List.length empty))
          · obtain ⟨item, -, named⟩ := List.mem_filterMap.mp member
            exact mem_agents_of_agentName named
      · cases resolved
  · cases resolved

/-- **A policy is taken from a record** exactly when the record describes it for
some of the agents. -/
theorem rollbackPolicy_eq_ok {record : Dict} {agents : List String} {policy : Policy} :
    rollbackPolicy record agents = .ok policy ↔
      TakenFrom record policy ∧ policy.targets ≠ [] ∧
        ∀ target ∈ policy.targets, target ∈ agents := by
  refine ⟨fun resolved => ⟨rollbackPolicy_ok resolved, targets_of_rollbackPolicy resolved⟩, ?_⟩
  rintro ⟨⟨⟨name, named, phase⟩, previous, listed, usable⟩, nonempty, known⟩
  obtain ⟨target, member⟩ := List.exists_mem_of_ne_nil _ nonempty
  have filled : policy.rollbackSelectors.isEmpty = false := by
    rw [List.isEmpty_eq_false_iff]
    intro empty
    have found := usable target member
    rw [empty] at found
    cases found
  have count : (policy.targets.map Value.str).isEmpty = false := by
    rw [List.isEmpty_eq_false_iff]
    exact fun empty => nonempty (List.map_eq_nil_iff.mp empty)
  have all : policy.targets.all (selectorUsable policy.rollbackSelectors) = true :=
    List.all_eq_true.mpr usable
  unfold rollbackPolicy
  simp only [named, Option.getD_some, phase, previous, listed, filled, filterMap_agentName known,
    count, all, List.length_map, BEq.rfl, Bool.not_false, Bool.and_self, require, if_true]
  rfl

/-! ## The recommendation -/

/-- By the report of the playbook the selector of some target changed. -/
def SelectorChanged (plan : Plan) (reported : Dict) : Prop :=
  ∃ previous applied, reported.get "previous_selector_by_node" = some (.dict previous) ∧
    reported.get "applied_selector_by_node" = some (.dict applied) ∧
    ∃ target ∈ plan.policy.targets,
      (getOrNone previous target).equal (getOrNone applied target) = false

omit [UnicodeData] in
theorem selectorsChanged_iff {plan : Plan} {reported : Dict} :
    selectorsChanged plan.policy.targets reported = true ↔ SelectorChanged plan reported := by
  unfold selectorsChanged SelectorChanged
  split
  next previous applied before after =>
      rw [List.any_eq_true]
      constructor
      · rintro ⟨target, member, differs⟩
        exact ⟨previous, applied, before, after, target, member,
          (Bool.not_eq_true' _).mp differs⟩
      · rintro ⟨previous', applied', before', after', target, member, differs⟩
        obtain rfl := Value.dict.inj (Option.some.inj (before.symm.trans before'))
        obtain rfl := Value.dict.inj (Option.some.inj (after.symm.trans after'))
        exact ⟨target, member, (Bool.not_eq_true' _).mpr differs⟩
  next other =>
      refine iff_of_false Bool.false_ne_true ?_
      rintro ⟨previous, applied, before, after, -⟩
      exact other previous applied before after

/-- What the record of a forward run says about it. -/
structure RecordVerdict (env : Env) (phase : RuntimePhase) (plan : Plan) (reported record : Dict) :
    Prop where
  recommended : record.get "rollback_recommended" = some (.bool true) ↔
    SelectorChanged plan reported ∧ BootPassed env reported ∧
      acceptPhase env.acceptance (.forward phase) = .ok false
  passed : record.get "acceptance_status" = some (.str "pass") →
    acceptPhase env.acceptance (.forward phase) = .ok true ∧
      (BootPassed env reported ∨ phase = .fullFleet ∧ ¬ SelectorChanged plan reported)

theorem Ending.recordVerdict {env : Env} {phase : RuntimePhase} {plan : Plan}
    {reported record : Dict} (ending : Ending env (.forward phase) plan reported record) :
    RecordVerdict env phase plan reported record := by
  cases ending with
  | selectorFailed unbooted written =>
      subst written
      have reads := phaseRecordValue_readsAs (selectorGlobals env (.forward phase) plan)
        (recordArgs env plan reported [] "fail")
      obtain ⟨recommended, acceptance⟩ :
          (verdict (selectorGlobals env (.forward phase) plan)
            (recordArgs env plan reported [] "fail")).rollbackRecommended = false ∧ _ :=
        verdict_selectorFailed rfl rfl rfl
      constructor
      · rw [reads.recommended, recommended]
        refine iff_of_false (by simp) fun told => unbooted told.2.1
      · rw [reads.acceptance, acceptance]
        intro pass
        exact absurd pass (by simp)
  | @bootFailed runId status unbooted named known failed written =>
      subst written
      have reads := phaseRecordValue_readsAs
        ((selectorGlobals env (.forward phase) plan).withBoot status)
        (recordArgs env plan reported runId "fail")
      obtain ⟨recommended, acceptance⟩ :
          (verdict ((selectorGlobals env (.forward phase) plan).withBoot status)
            (recordArgs env plan reported runId "fail")).rollbackRecommended = false ∧ _ :=
        verdict_bootFailed rfl named known failed
      constructor
      · rw [reads.recommended, recommended]
        refine iff_of_false (by simp) fun told => unbooted told.2.1
      · rw [reads.acceptance, acceptance]
        intro pass
        have texts := congrArg String.toList (Value.str.inj (Option.some.inj pass))
        rw [String.toList_ofList] at texts
        exact absurd (congrArg (List.take 1) texts) (by simp)
  | @decided runId accepted booted named accepts written =>
      subst written
      have reads := phaseRecordValue_readsAs
        (((selectorGlobals env (.forward phase) plan).withBoot "pass".toList).withAcceptance
          accepted)
        (recordArgs env plan reported runId (requestedAcceptance (.forward phase) accepted))
      cases accepted with
      | true =>
          obtain ⟨recommended, acceptance⟩ :
              (verdict (((selectorGlobals env (.forward phase) plan).withBoot
                "pass".toList).withAcceptance true)
                (recordArgs env plan reported runId "pass")).rollbackRecommended = false ∧ _ :=
            verdict_accepted rfl named rfl rfl rfl
          refine ⟨?_, fun _ => ⟨accepts, .inl booted⟩⟩
          rw [reads.recommended, requestedAcceptance, recommended]
          refine iff_of_false (by simp) fun told => ?_
          rw [accepts] at told
          exact absurd told.2.2 (by simp)
      | false =>
          obtain ⟨recommended, acceptance, -⟩ :
              (verdict (((selectorGlobals env (.forward phase) plan).withBoot
                "pass".toList).withAcceptance false)
                (recordArgs env plan reported runId "fail")).rollbackRecommended =
                  selectorsChanged plan.policy.targets reported ∧ _ :=
            verdict_rejected rfl named rfl rfl
          constructor
          · rw [reads.recommended, requestedAcceptance, recommended, ← selectorsChanged_iff]
            constructor
            · intro same
              exact ⟨Value.bool.inj (Option.some.inj same), booted, accepts⟩
            · rintro ⟨changed, -⟩
              rw [changed]
          · rw [reads.acceptance, requestedAcceptance, acceptance]
            intro pass
            exact absurd pass (by simp)

/-- **A rollback is recommended exactly when a changed selector was booted and
rejected, and a rollback resolves only from such a recommendation.** -/
theorem rollback_recommended_iff (env : Env) (store : Store) :
    (∀ phase result record, main env store (.forward phase) = some result →
      result.phaseRecord = some record →
        ∃ plan reported, preflight env.preflight store (.forward phase) = .ok plan ∧
          readResult env.selector.resultFile = .ok reported ∧
          RecordVerdict env phase plan reported record) ∧
    ∀ plan, preflight env.preflight store .rollbackLastPhase = .ok plan →
      latestAccepted env.preflight = .ok plan.accepted ∧
        ∃ found, (store found).get "rollback_recommended" = some (.bool true) ∧
          (store found).get "accepted_generation_run_id" =
            some (.str (String.ofList (generationOf plan.accepted))) ∧
          TakenFrom (store found) plan.policy := by
  constructor
  · intro phase result record printed recorded
    obtain ⟨plan, reported, planned, read, ending⟩ := ending_of_record printed recorded
    exact ⟨plan, reported, planned, read, ending.recordVerdict⟩
  · intro plan planned
    obtain ⟨latest, egpuTarget, fleet, -, -, resolved⟩ := preflight_ok planned
    obtain ⟨-, found, first, policy⟩ := rollbackTargetPolicy_ok.mp resolved
    have recommends := recommends_of_failedPhase first
    obtain ⟨generation, asks⟩ := recommendsRollback_generationRecord.mp recommends
    rw [generationRecord_of_recommends recommends] at policy
    exact ⟨latest, found, (recommendsRollback_iff.mp asks).2, generation, rollbackPolicy_ok policy⟩

section Fixtures

omit [UnicodeData]

/-- The record of a canary that was booted from a new release and rejected. -/
def fixtureRecord : Dict :=
  [("phase", .str "generic_canary"), ("targets", .list [.str "agent-a"]),
    ("previous_selector_by_node", .dict [("agent-a", fixtureSelectorOf "20260701-rpi5")]),
    ("accepted_generation_run_id", .str "20260801T000000Z-a"),
    ("acceptance_status", .str "fail"), ("rollback_recommended", .bool true)]

/-- A store with this record only. -/
def fixtureStore : Store
  | .genericCanary => fixtureRecord
  | _ => []

/-- A canary that boots and is rejected. -/
def fixtureRejected : Env :=
  fixtureEnv (fixtureApplied "20260701-rpi5" "20260801-rpi5") (fixtureBoot "pass")
    (fixtureAcceptance 2)

theorem rollback_recommended_iff_fixture :
    ∃ (_ : UnicodeData) (result : Result) (record : Dict) (plan back : Plan) (reported : Dict)
      (found : RuntimePhase),
      main fixtureRejected fixtureStore (.forward .genericCanary) = some result ∧
      result.phaseRecord = some record ∧
      RecordVerdict fixtureRejected .genericCanary plan reported record ∧
      (fixtureStore found).get "rollback_recommended" = some (.bool true) ∧
      TakenFrom (fixtureStore found) back.policy := by
  let _ : UnicodeData := asciiData
  obtain ⟨record, printed⟩ := Option.isSome_iff_exists.mp (show
    ((main fixtureRejected fixtureStore (.forward .genericCanary)).bind
      Result.phaseRecord).isSome = true by decide +kernel)
  obtain ⟨result, printed, recorded⟩ := Option.bind_eq_some_iff.mp printed
  obtain ⟨back, planned⟩ := exists_of_isSome (show
    (preflight fixtureRejected.preflight fixtureStore .rollbackLastPhase).toOption.isSome = true by
      decide +kernel)
  have both := rollback_recommended_iff fixtureRejected fixtureStore
  obtain ⟨plan, reported, -, -, verdict⟩ := both.1 _ result record printed recorded
  obtain ⟨-, found, recommended, -, taken⟩ := both.2 back planned
  exact ⟨asciiData, result, record, plan, back, reported, found, printed, recorded, verdict,
    recommended, taken⟩

end Fixtures

end Runs

end HomeclusterInfra.Rollout
