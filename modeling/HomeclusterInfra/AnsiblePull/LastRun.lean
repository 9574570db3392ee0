import HomeclusterInfra.AnsiblePull.Acceptance

/-!
# What is reported is the last run

A reader that reports success of a role reports the last run of the role that began to write its
file, and this run succeeded. What is reported is what that run has found.
-/

set_option autoImplicit false

namespace HomeclusterInfra.AnsiblePull

open Text Shell Checked Assignments PxeReceipt Interruption

/-- A run five seconds before the sample. -/
def Run.before (run : Run) : Run :=
  { run with
    statusTime := 6
    postPullEpoch := "7".toList
    postPullTime := 7
    executionEpoch := "8".toList
    executionTime := 8 }

/-- A run of an earlier boot, and one that is killed when it has written one of its receipts. -/
def earlierEvents (run : Run) : List Event :=
  [.run run [], .boot, .run run.before (List.replicate 35 .fine ++ [.dies])]

/-- The last run of the boot succeeds. -/
def eventsOf (run : Run) : List Event :=
  earlierEvents run ++ [.run run []]

theorem ordered_eventsOf {run : Run} (later : 8 < run.statusTime) : Ordered (eventsOf run) := by
  show [run.before, run].Pairwise fun earlier later =>
    ∀ kind : Kind, kind.time earlier < later.statusTime
  refine List.pairwise_pair.mpr fun kind => lt_of_le_of_lt ?_ later
  cases kind with
  | postPull => exact show (7 : Rat) ≤ 8 by norm_num
  | execution => exact le_refl (8 : Rat)

theorem ordered_sampleEvents : Ordered (eventsOf sampleRun) :=
  ordered_eventsOf (show (8 : Rat) < 11 by norm_num)

/-! ## Receipts -/

/-- A role that a snapshot reports was accepted. -/
theorem reported_of_snapshot {α : Type} {readings : Readings}
    {readRole : Boot → List Char → Except String α} {reports : List (List Char × Except String α)}
    {role : List Char} {report : α} (taken : snapshot readings readRole = .ok reports)
    (among : (role, .ok report) ∈ reports) :
    ∃ boot, IsBootOf readings boot ∧ role ∈ roles ∧ readRole boot role = .ok report := by
  obtain ⟨boot, isBoot, rfl⟩ := snapshot_eq_ok.mp taken
  obtain ⟨found, known, same⟩ := List.mem_map.mp among
  obtain ⟨rfl, accepted⟩ := Prod.mk.inj same
  exact ⟨boot, isBoot, known, accepted⟩

/-- A pinned success that is read of a role is that of its last run. -/
theorem lastRun_of_readExecution {events : List Event} (ordered : Ordered events)
    {readings : Readings} {boot : Boot} (isBoot : IsBootOf readings boot) {role : List Char}
    (known : role ∈ roles) {report : ExecutionReport}
    (accepted : readExecution (afterAll booted events).files boot role = .ok report) :
    ∃ run completed, lastOf role (afterAll booted events) =
        some (run, ⟨0, "complete", completed.branch, some completed⟩) ∧
      run.role = role ∧ run.pinned = true ∧ isStaging run.stage = true ∧
      readings.firstBoot = some run.bootId ∧ Verified run completed ∧
      captured run.headBefore = completed.pin.revision ∧
      run.headAfter = completed.pin.revision ∧ report.buildId = completed.pin.buildId ∧
      report.pinRevision = completed.pin.revision ∧
      report.declarationSha256 = completed.pin.digest := by
  obtain ⟨receipt, readReceipt, rest⟩ := bind_eq_ok.mp accepted
  obtain ⟨status, readStatus, rest⟩ := bind_eq_ok.mp rest
  obtain ⟨agree, rest⟩ := require_bind_eq_ok.mp rest
  obtain ⟨text, recorded, made⟩ := bind_eq_ok.mp rest
  rw [pure_eq_ok] at made
  rw [Bool.and_eq_true] at agree
  obtain ⟨plain, other⟩ := roles_plain role known
  obtain ⟨run, outcome, last, settled, writes, reads⟩ :=
    @lastRun_of_read _ role .execution (evidence_afterAll events ordered) plain other _ _ receipt
      status readReceipt (ok_of_mapError readStatus) (order_of_recordedAt recorded)
  obtain ⟨name, staging, -, bootId, rc⟩ := identity_of_rolesAgree agree.1
  obtain ⟨completed, rfl, verified⟩ := completed_of_readsAs settled reads rc
  rw [Kind.entries, Option.bind_some, Option.ite_none_right_eq_some] at writes
  obtain ⟨holds, entries⟩ := writes
  rw [← Option.some.inj entries] at name staging bootId made
  obtain ⟨pinned, head⟩ := pinned_of_executesPin holds
  rw [← made]
  exact ⟨run, completed, last, name, pinned, staging,
    isBoot.first.trans (congrArg some bootId.symm), verified, verified.head pinned, head,
    rfl, rfl, rfl⟩

/-- **A pinned success that is reported is that of the last run of the role.** -/
theorem execution_reported (events : List Event) (ordered : Ordered events)
    (readings : Readings) (reports : List (List Char × Except String ExecutionReport))
    (taken : snapshot readings (readExecution (afterAll booted events).files) = .ok reports)
    (role : List Char) (report : ExecutionReport) (among : (role, .ok report) ∈ reports) :
    ∃ run completed, lastOf role (afterAll booted events) =
        some (run, ⟨0, "complete", completed.branch, some completed⟩) ∧
      run.role = role ∧ run.pinned = true ∧ isStaging run.stage = true ∧
      readings.firstBoot = some run.bootId ∧ Verified run completed ∧
      captured run.headBefore = completed.pin.revision ∧
      run.headAfter = completed.pin.revision ∧ report.buildId = completed.pin.buildId ∧
      report.pinRevision = completed.pin.revision ∧
      report.declarationSha256 = completed.pin.digest := by
  obtain ⟨boot, isBoot, known, accepted⟩ := reported_of_snapshot taken among
  exact lastRun_of_readExecution ordered isBoot known accepted

/-- What the killed run has left. -/
theorem postPull_earlierEvents : ((afterAll booted (earlierEvents sampleRun)).files
    (postPullFile "base".toList)).isSome = true := by
  decide +kernel

theorem execution_reported_sample :
    ((afterAll booted (earlierEvents sampleRun)).files (postPullFile "base".toList)).isSome = true ∧
      ∃ run completed, lastOf "base".toList (afterAll booted (eventsOf sampleRun)) =
          some (run, ⟨0, "complete", completed.branch, some completed⟩) ∧
        completed.pin.revision = List.replicate 40 'a' := by
  refine ⟨postPull_earlierEvents, ?_⟩
  obtain ⟨text, accepted⟩ := successful_sampleRun.readExecution
    (afterAll booted (earlierEvents sampleRun))
    (show sampleBoot.bootId = sampleRun.bootId from rfl)
    (@prompt_sampleRun 13 12 (by decide) (by decide) (by decide) (by decide) (by decide +kernel))
  have among := List.mem_map_of_mem (f := fun role =>
    (role, readExecution (afterAll booted (eventsOf sampleRun)).files sampleBoot role))
      successful_sampleRun.known
  obtain ⟨run, completed, last, -, -, -, -, -, -, -, -, revision, -⟩ :=
    execution_reported (eventsOf sampleRun) ordered_sampleEvents sampleReadings _
      (snapshot_eq_ok.mpr ⟨sampleBoot, isBootOf_sampleReadings, rfl⟩) "base".toList _
      (accepted ▸ among)
  exact ⟨run, completed, last, revision.symm⟩

/-- **A checkout that is reported is that of the last run of the role.** -/
theorem checkout_reported (events : List Event) (ordered : Ordered events)
    (readings : Readings) (reports : List (List Char × Except String CheckoutReport))
    (taken : snapshot readings (readCheckout (afterAll booted events).files) = .ok reports)
    (role : List Char) (report : CheckoutReport) (among : (role, .ok report) ∈ reports) :
    ∃ run completed, lastOf role (afterAll booted events) =
        some (run, ⟨0, "complete", completed.branch, some completed⟩) ∧
      run.role = role ∧ isStaging run.stage = true ∧ completed.branch = "stg".toList ∧
      readings.firstBoot = some run.bootId ∧ Verified run completed ∧
      report.checkoutHeadAfterSuccess = run.headAfter := by
  obtain ⟨boot, isBoot, known, accepted⟩ := reported_of_snapshot taken among
  obtain ⟨receipt, readReceipt, rest⟩ := bind_eq_ok.mp accepted
  obtain ⟨status, readStatus, rest⟩ := bind_eq_ok.mp rest
  obtain ⟨agree, rest⟩ := require_bind_eq_ok.mp rest
  obtain ⟨text, recorded, made⟩ := bind_eq_ok.mp rest
  rw [pure_eq_ok] at made
  obtain ⟨plain, other⟩ := roles_plain role known
  obtain ⟨run, outcome, last, settled, writes, reads⟩ :=
    @lastRun_of_read _ role .postPull (evidence_afterAll events ordered) plain other _ _ receipt
      status readReceipt (ok_of_mapError readStatus) (order_of_recordedAt recorded)
  obtain ⟨name, staging, branch, bootId, rc⟩ := identity_of_rolesAgree agree
  obtain ⟨completed, rfl, verified⟩ := completed_of_readsAs settled reads rc
  rw [Kind.entries, Option.ite_none_right_eq_some] at writes
  rw [← Option.some.inj writes.2] at name staging branch bootId made
  rw [← made]
  exact ⟨run, completed, last, name, staging, branch,
    isBoot.first.trans (congrArg some bootId.symm), verified, rfl⟩

theorem checkout_reported_sample :
    ((afterAll booted (earlierEvents sampleRun)).files (postPullFile "base".toList)).isSome = true ∧
      ∃ run completed, lastOf "base".toList (afterAll booted (eventsOf sampleRun)) =
          some (run, ⟨0, "complete", completed.branch, some completed⟩) ∧
        run.headAfter = List.replicate 40 'a' := by
  refine ⟨postPull_earlierEvents, ?_⟩
  obtain ⟨text, accepted⟩ := successful_sampleRun.readCheckout
    (afterAll booted (earlierEvents sampleRun))
    (show sampleBoot.bootId = sampleRun.bootId from rfl)
    (@prompt_sampleRun 12 11 (by decide) (by decide) (by decide) (by decide) (by decide +kernel))
  have among := List.mem_map_of_mem (f := fun role =>
    (role, readCheckout (afterAll booted (eventsOf sampleRun)).files sampleBoot role))
      successful_sampleRun.known
  obtain ⟨run, completed, last, -, -, -, -, -, head⟩ :=
    checkout_reported (eventsOf sampleRun) ordered_sampleEvents sampleReadings _
      (snapshot_eq_ok.mpr ⟨sampleBoot, isBootOf_sampleReadings, rfl⟩) "base".toList _
      (accepted ▸ among)
  exact ⟨run, completed, last, head.symm⟩

/-! ## The last run of all -/

/-- **The state of the last run is that of the last one that began to write it.** -/
theorem completed_lastRun (events : List Event) (boot : Boot)
    (completes : pullState boot ((afterAll booted events).files lastFile) = .completed) :
    ∃ run completed, (afterAll booted events).opened.getLast? =
        some (run, ⟨0, "complete", completed.branch, some completed⟩) ∧
      Verified run completed ∧ isStaging run.stage = true := by
  have evidence := sharedEvidence_afterAll events
  cases there : (afterAll booted events).files lastFile with
  | none =>
      rw [there] at completes
      cases completes
  | some file =>
      rw [there, pullState] at completes
      split at completes
      next => cases completes
      next =>
        split at completes
        next => cases completes
        next parsed accepted =>
          split at completes
          next => cases completes
          next fits =>
            split at completes
            next succeeds =>
              obtain ⟨⟨run, outcome⟩, last, isStatus⟩ := evidence.last file there
              have settled := evidence.settled _ (List.mem_of_getLast? last)
              rw [statusFile_of_read isStatus accepted] at accepted
              have reads := readsAs_of_read accepted
              obtain ⟨completed, rfl, verified⟩ := completed_of_readsAs settled reads succeeds.1
              refine ⟨run, completed, last, verified, ?_⟩
              simp only [Bool.or_eq_true, not_or, Bool.not_eq_true', Bool.not_eq_false] at fits
              rw [stage_eq_of_reads verified reads]
              exact fits.1.1.1
            next => cases completes

theorem completed_lastRun_sample :
    ∃ run completed, (afterAll booted (eventsOf sampleRun)).opened.getLast? =
        some (run, ⟨0, "complete", completed.branch, some completed⟩) ∧
      Verified run completed ∧ isStaging run.stage = true :=
  completed_lastRun (eventsOf sampleRun) sampleBoot (successful_sampleRun.pullState
    (afterAll booted (earlierEvents sampleRun))
    (@prompt_sampleRun 13 12 (by decide) (by decide) (by decide) (by decide) (by decide +kernel)))

end HomeclusterInfra.AnsiblePull
