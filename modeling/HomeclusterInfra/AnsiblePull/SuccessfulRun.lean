import HomeclusterInfra.AnsiblePull.Reports

/-!
# A successful run

A pinned run of a staging node that nothing interrupts, and that finds everything as it should
be, comes to its end and leaves its state and both receipts.
-/

set_option autoImplicit false

namespace HomeclusterInfra.AnsiblePull

open Text Shell Interruption Checked Assignments PxeReceipt Binary64

variable {run : Run} {outcome : Outcome} {station : Station} {branch role : List Char}
  {kind : Kind} {boot : Boot}

/-! ## The run -/

/-- A pinned run of a staging node that finds everything as it should be. -/
structure Successful (run : Run) (pin : Pin) : Prop where
  known : run.role ∈ roles
  selected : run.roles = [] ∨ (',' :: run.role ++ [',']) <:+: (',' :: run.roles ++ [','])
  staging : isStaging run.stage = true
  branch : run.branch = [] ∨ run.branch = "stg".toList
  allowed : branchIsAllowed run.allowedBranches "stg".toList = true
  pinned : run.pinned = true
  printed : ∃ output, run.pinOutput = some output ∧
    readPin run.sourceMode (captured output) = some pin ∧
      captured run.pinOutputAfter = captured output
  clean : run.fetchedClean = true ∧ run.galaxyIsCurrent = true ∧ run.installedClean = true ∧
    run.cleanAfter = true
  checkout : run.checkoutAfter = true
  heads : captured run.headBefore = pin.revision ∧ run.headAfter = pin.revision
  bootId : isBootId run.bootId = true
  postPull : isEpoch run.postPullEpoch = true ∧ run.postPullEpoch.length ≤ 16
  execution : isEpoch run.executionEpoch = true ∧ run.executionEpoch.length ≤ 16
  elapsed : ∃ seconds : Nat, run.elapsed = seconds ∧ (natText seconds).length ≤ 128

theorem runs_command (run : Run) (branch : List Char) (step : String) (station : Station) :
    Runs (command run branch step) station (.returned ()) station :=
  runs_change _ _

theorem runs_tolerated (run : Run) (branch : List Char) (station : Station) :
    Runs (tolerated run branch) station (.returned ()) station :=
  runs_catching (runs_command run branch "" station)

theorem runs_fetchPin (clean : run.fetchedClean = true) :
    ∃ step, Runs (fetchPin run branch) station (.returned step) station := by
  have cleans : Runs (cleanupOldGalaxyRoles run branch) station (.returned ()) station := by
    rw [cleanupOldGalaxyRoles]
    split
    next => exact runs_command _ _ _ _
    next => exact runs_pure ()
  have fetches : Runs (do
      command run branch "git_fetch_pin"
      cleanupOldGalaxyRoles run branch
      command run branch "git_reset_pin"
      demand run.fetchedClean ⟨2, "git_reset_pin", branch⟩
      command run branch "git_reset_pin"
      pure "git_reset_pin" : Script String) station (.returned "git_reset_pin") station :=
    runs_bind (runs_command _ _ _ _) (runs_bind cleans (runs_bind (runs_command _ _ _ _)
      (runs_bind (runs_demand clean) (runs_bind (runs_command _ _ _ _) (runs_pure _)))))
  rw [fetchPin]
  split
  next => exact ⟨_, runs_pure _⟩
  next =>
    refine ⟨"git_reset_pin", runs_bind (runs_command _ _ _ _) ?_⟩
    split
    next => exact fetches
    next => exact runs_bind (runs_command _ _ _ _) fetches

theorem runs_install (current : run.galaxyIsCurrent = true) (clean : run.installedClean = true)
    (pinned : Bool) : Runs (install run branch pinned) station (.returned ()) station := by
  rw [install]
  split
  next =>
    refine runs_bind (runs_command _ _ _ _) (runs_bind (runs_command _ _ _ _) ?_)
    split
    next =>
      exact runs_bind (runs_demand current) (runs_bind (runs_demand clean) (runs_command _ _ _ _))
    next => exact runs_pure ()
  next => exact runs_pure ()

theorem resolveBranch_stg {stage given allowed : List Char} (staging : isStaging stage = true)
    (branch : given = [] ∨ given = "stg".toList)
    (isAllowed : branchIsAllowed allowed "stg".toList = true) :
    resolveBranch stage given allowed = .ok "stg".toList := by
  have stageBranch : branchFromStage stage = some "stg".toList := if_pos staging
  have chosen : (if given = [] then "stg".toList else given) = "stg".toList := by
    rcases branch with rfl | rfl <;> rfl
  rw [resolveBranch, stageBranch]
  simp only [chosen, isAllowed, ne_eq, not_true_eq_false, decide_false, Bool.not_true,
    Bool.or_self, Bool.false_eq_true, if_false]

theorem Successful.runs_body {pin : Pin} (successful : Successful run pin) :
    ∃ completed, Runs (body run) station (.returned completed) station ∧
      completed.branch = "stg".toList ∧ completed.pin = pin ∧
        completed.sourcePin = captured run.pinOutputAfter := by
  obtain ⟨output, printed, taken, again⟩ := successful.printed
  obtain ⟨fetched, current, installed, -⟩ := successful.clean
  obtain ⟨step, fetches⟩ := @runs_fetchPin run station "stg".toList fetched
  have named : decide (safeInventoryName run.role ≠ []) = true := by
    have all : ∀ role ∈ roles, decide (safeInventoryName role ≠ []) = true := by decide
    exact all run.role successful.known
  have verified : (!run.pinned || captured run.headBefore == pin.revision) = true := by
    rw [Bool.or_eq_true, beq_iff_eq]
    exact Or.inr successful.heads.1
  refine ⟨⟨"stg".toList, captured output, pin⟩, ?_, rfl, rfl, again.symm⟩
  rw [body, resolveBranch_stg successful.staging successful.branch successful.allowed]
  refine runs_bind (runs_command _ _ _ _) ?_
  rw [printed]
  dsimp only
  rw [taken]
  refine runs_bind (runs_demand named) (runs_bind (runs_command _ _ _ _)
    (runs_bind (runs_command _ _ _ _) (runs_bind (runs_tolerated _ _ _)
      (runs_bind (runs_command _ _ _ _) ?_))))
  have fetch : Runs (fetch run "stg".toList run.pinned) station (.returned step) station := by
    rw [AnsiblePull.fetch, if_pos successful.pinned]
    exact fetches
  have verifies : Runs (verifySourcePin run "stg".toList run.pinned pin) station (.returned ())
      station := by
    refine runs_bind (runs_demand verified) ?_
    rw [if_pos successful.pinned]
    exact runs_bind (runs_command _ _ _ _) (runs_command _ _ _ _)
  exact runs_bind fetch (runs_bind (runs_command _ _ _ _)
    (runs_bind (runs_install current installed _) (runs_bind verifies
      (runs_bind (runs_command _ _ _ _) (runs_pure _)))))

/-! ## The trap -/

theorem runs_inTrap (outcome : Outcome) (act : Station → Station) (station : Station) :
    Runs (inTrap outcome act) station (.returned true) (act station) :=
  runs_catching (runs_bind (runs_change _ _) (runs_pure true))

theorem runs_writeLines (outcome : Outcome) (entries : List Entry) (station : Station) :
    Runs (writeLines outcome entries true) station (.returned (entries, true)) station := by
  induction entries with
  | nil => exact runs_pure _
  | cons entry entries ih => exact runs_bind (runs_inTrap _ _ _) (runs_bind ih (runs_pure _))

theorem runs_writeReceipt (outcome : Outcome) (name : List Char) (entries : List Entry)
    (time : Rat) (station : Station) :
    Runs (writeReceipt outcome name entries time) station (.returned ())
      (station.put name ⟨print entries, time⟩) :=
  runs_bind (runs_inTrap _ _ _) (runs_bind (runs_writeLines _ _ _)
    (runs_bind (runs_inTrap _ _ _) (runs_pure ())))

theorem runs_logState (run : Run) (outcome : Outcome) (station : Station) :
    ∃ after, Runs (logState run outcome) station (.returned ()) after :=
  ⟨_, runs_bind (runs_change _ _) (runs_bind (runs_change _ _) (runs_bind (runs_change _ _)
    (runs_bind (runs_change _ _) (runs_change _ _))))⟩

/-- A receipt in the place of what was there. -/
def Station.putReceipt (station : Station) (run : Run) (kind : Kind) (entries : List Entry) :
    Station :=
  (station.remove (kind.file run.role)).put (kind.file run.role)
    ⟨print entries, kind.time run⟩

theorem runs_recordPostPullIdentity (observes : observesCheckout run outcome = true) :
    Runs (recordPostPullIdentity run outcome) station (.returned ())
      (station.putReceipt run .postPull (postPullEntries run outcome)) := by
  refine runs_bind (runs_inTrap _ _ _) ?_
  rw [observes, Bool.and_self, if_pos rfl]
  exact runs_writeReceipt _ _ _ _ _

theorem runs_recordPinnedExecutionIdentity {completed : Completed}
    (found : outcome.completed = some completed)
    (executes : executesPin run outcome completed = true) :
    Runs (recordPinnedExecutionIdentity run outcome) station (.returned ())
      (station.putReceipt run .execution (executionEntries run outcome completed.pin)) := by
  refine runs_bind (runs_inTrap _ _ _) ?_
  rw [found]
  dsimp only
  rw [executes, Bool.and_self, if_pos rfl]
  exact runs_writeReceipt _ _ _ _ _

/-- How the run ends. -/
def successfulEnd (completed : Completed) : Outcome :=
  ⟨0, "complete", completed.branch, some completed⟩

/-- The form of a pin that was read in a pinned run. -/
theorem form_of_readPin {mode output : List Char} {pin : Pin}
    (pinned : mode = "pinned".toList) (taken : readPin mode output = some pin) :
    pin.mode = "pinned".toList ∧ isHex 40 pin.revision = true ∧ isBuildId pin.buildId = true ∧
      isHex 64 pin.digest = true := by
  rw [readPin] at taken
  split at taken
  next => cases taken
  next =>
    dsimp only at taken
    split at taken
    next => cases taken
    next fits =>
      rw [Bool.or_eq_true, not_or, decide_eq_true_eq, decide_eq_true_eq, not_not] at fits
      split at taken
      next legacy => exact absurd (fits.2.symm.trans legacy) (by rw [pinned]; decide)
      next =>
        split at taken
        next isPinned =>
          split at taken
          next forms =>
            cases taken
            rw [Bool.and_eq_true, Bool.and_eq_true] at forms
            exact ⟨isPinned, forms.1.1, forms.2, forms.1.2⟩
          next => cases taken
        next => cases taken

section Whole

variable {pin : Pin} {completed : Completed}

theorem Successful.plain (successful : Successful run pin) :
    run.role ≠ [] ∧ run.role.all isFileChar = true := by
  have all : ∀ role ∈ roles, role ≠ [] ∧ role.all isFileChar = true := by decide
  exact all run.role successful.known

theorem Successful.form (successful : Successful run pin) :
    pin.mode = "pinned".toList ∧ isHex 40 pin.revision = true ∧ isBuildId pin.buildId = true ∧
      isHex 64 pin.digest = true := by
  obtain ⟨output, -, taken, -⟩ := successful.printed
  exact form_of_readPin (of_decide_eq_true successful.pinned) taken

theorem Successful.observes (successful : Successful run pin)
    (branch : completed.branch = "stg".toList) :
    observesCheckout run (successfulEnd completed) = true := by
  obtain ⟨named, plain⟩ := successful.plain
  have head : isHex 40 run.headAfter = true := successful.heads.2 ▸ successful.form.2.1
  simp only [observesCheckout, successfulEnd, branch, successful.staging, successful.checkout,
    named, plain, successful.bootId, head, successful.postPull.1, ne_eq, not_false_eq_true,
    decide_true, Bool.and_self]

theorem Successful.executes (successful : Successful run pin)
    (branch : completed.branch = "stg".toList) (same : completed.pin = pin)
    (source : completed.sourcePin = captured run.pinOutputAfter) :
    executesPin run (successfulEnd completed) completed = true := by
  obtain ⟨named, plain⟩ := successful.plain
  obtain ⟨mode, revision, build, digest⟩ := successful.form
  obtain ⟨-, -, -, clean⟩ := successful.clean
  simp only [executesPin, successfulEnd, branch, successful.staging, successful.pinned, same, mode,
    named, plain, revision, build, digest, source, successful.heads.2, clean, successful.bootId,
    successful.execution.1, ne_eq, not_false_eq_true, decide_true, Bool.and_self]

/-- The files that the run leaves. -/
def leftBy (run : Run) (completed : Completed) (station : Station) : Station :=
  ((loggedBy run (successfulEnd completed) station
    (statusFile run (successfulEnd completed))).putReceipt run .postPull
      (postPullEntries run (successfulEnd completed))).putReceipt run .execution
        (executionEntries run (successfulEnd completed) completed.pin)

theorem Successful.runs_wrapper (successful : Successful run pin) (station : Station) :
    ∃ completed, Runs (wrapper run) station (.returned ()) (leftBy run completed station) ∧
      completed.branch = "stg".toList ∧ completed.pin = pin := by
  obtain ⟨completed, bodyRuns, branch, same, source⟩ :=
    @Successful.runs_body run station pin successful
  refine ⟨completed, ?_, branch, same⟩
  have settles : Runs (settle run) station (.returned (successfulEnd completed)) station :=
    runs_catching (runs_bind bodyRuns (runs_pure _))
  obtain ⟨logged, logs⟩ := runs_logState run (successfulEnd completed) station
  have there := (logs.always (always_logState run (successfulEnd completed) station)).2 rfl
  rw [there] at logs
  rw [wrapper, if_neg successful.plain.1, if_neg]
  · exact runs_bind settles (runs_bind logs
      (runs_bind (runs_recordPostPullIdentity (successful.observes branch))
        (runs_recordPinnedExecutionIdentity rfl (successful.executes branch same source))))
  · rintro ⟨some_role, notAmong⟩
    exact notAmong (successful.selected.resolve_left some_role)

end Whole

end HomeclusterInfra.AnsiblePull
